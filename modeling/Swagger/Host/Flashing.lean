/-
**What the packets of a run show.**

From the course of a run, over any transport. A packet that is not answered counts as not refused,
as the scripts take it, and words that do not arrive as 0.

* `programs_guarded`: a longword is programmed only behind an erase that was not refused and was
  taken to be over, and behind longwords that were not refused and showed no error; and the
  longwords that are programmed are the first ones of the file, in order;
* `finished_shown`: a run that gets to its end, and is not interactive, has sent every longword,
  none of which was refused or showed an error, and has had every word that is not 0 read back.
-/

import Swagger.Host.Part

namespace Swagger.Host

open Library

/-! ### Longwords in packets -/

/-- The words of a file that are not blank, with their addresses. -/
def programmedWords (file : BinaryFile) : List (Word × Word) :=
  ((wordsOf file.bytes).zipIdx.filter fun word => word.1 ≠ 0xFFFFFFFF).map fun word =>
    (BitVec.ofNat 32 (4 * word.2) &&& 0x00FFFFFF, word.1)

/-- The packet programs a longword. -/
abbrev ProgramsLongword (exchange : Exchange) : Prop :=
  (longwordOf exchange.packet).isSome = true

/-- The longwords that are programmed in these exchanges. -/
def longwordsOf (log : List Exchange) : List (Word × Word) :=
  log.filterMap fun exchange => longwordOf exchange.packet

/-- The words that a run has to program. -/
def wanted (binFile : Option BinaryFile) : List (Word × Word) :=
  (binFile.map programmedWords).getD []

theorem longwordsOf_append (log more : List Exchange) :
    longwordsOf (log ++ more) = longwordsOf log ++ longwordsOf more := List.filterMap_append

theorem longwordsOf_map (log : List Exchange) :
    longwordsOf log = (log.map (·.packet)).filterMap longwordOf := by
  rw [longwordsOf, List.filterMap_map]
  rfl

/-- There are none when no packet programs one. -/
theorem longwordsOf_eq_nil {log : List Exchange}
    (quiet : ∀ exchange ∈ log, longwordOf exchange.packet = none) : longwordsOf log = [] :=
  List.filterMap_eq_nil_iff.mpr quiet

/-- A chunk is no more than six words. -/
theorem chunksOf_few (address : Word) (words : List Word) :
    ∀ chunk ∈ chunksOf address words, chunk.words.length ≤ 6 := by
  induction address, words using chunksOf.induct with
  | case1 address => exact fun _ member => absurd member List.not_mem_nil
  | case2 address w0 w1 w2 w3 w4 w5 rest ih =>
      intro chunk member
      rcases List.mem_cons.mp member with rfl | later
      · exact le_rfl
      · exact ih chunk later
  | case3 address words some few =>
      intro chunk member
      rcases words with _ | ⟨w0, _ | ⟨w1, _ | ⟨w2, _ | ⟨w3, _ | ⟨w4, _ | ⟨w5, words⟩⟩⟩⟩⟩⟩
      case nil => exact absurd rfl some
      case cons.cons.cons.cons.cons.cons => exact absurd rfl (few w0 w1 w2 w3 w4 w5 words)
      all_goals
        rw [List.mem_singleton.mp member]
        simp

theorem longwordOf_chunk {chunk : Chunk} (few : chunk.words.length ≤ 6) :
    longwordOf chunk.packet = none := by
  apply longwordOf_short
  rw [Chunk.packet, length_readPacketOf, length_addressesAt]
  omega

theorem longwordOf_call (address data : SQInteger) :
    longwordOf (FlashCall.longword address data).packet = some (address &&& 0x00FFFFFF, data) :=
  longwordOf_packet address data

/-- The calls for the words of a file program them. -/
theorem longwordCalls_packets (file : BinaryFile) :
    ((longwordCalls 0 (wordsOf file.bytes)).map FlashCall.packet).filterMap longwordOf =
      programmedWords file := by
  rw [longwordCalls, programmedWords, List.map_map, List.filterMap_map, ← List.filterMap_eq_map]
  apply List.filterMap_congr
  intro word _
  rw [Function.comp_apply, Function.comp_apply, Function.comp_apply, longwordOf_call]

/-! ### What is programmed -/

/-- The request of the erase has not been refused and a reply behind it was taken for its end, and
no reply to a longword was a refusal or showed an error. -/
structure ProgramAllowed (before : List Exchange) : Prop where
  erased : Followed Requested SeenErased before
  accepted : ∀ exchange ∈ before, ProgramsLongword exchange → ¬ Stops exchange.reply

theorem not_programs {exchange : Exchange} (none : longwordOf exchange.packet = none) :
    ¬ ProgramsLongword exchange := by
  rw [ProgramsLongword, none]
  exact Bool.false_ne_true

section Course

variable {binFile : Option BinaryFile} {ending : Ending} {startup : Startup}
  {log : List Exchange}

theorem programmed_alike (call : FlashCall) (exchange : Exchange)
    (sent : Programmed call exchange ∨ Unprogrammed call exchange) :
    exchange.packet = call.packet :=
  sent.elim And.left And.left

theorem confirmed_alike (chunk : Chunk) (exchange : Exchange)
    (sent : Confirmed chunk exchange ∨ Denied chunk exchange) : exchange.packet = chunk.packet :=
  sent.elim And.left And.left

theorem programmed_packets {calls : List FlashCall}
    (through : List.Forall₂ Programmed calls log) :
    log.map (·.packet) = calls.map FlashCall.packet :=
  through_alike (fun call exchange sent => programmed_alike call exchange (.inl sent)) through

theorem confirmed_packets {chunks : List Chunk} (through : List.Forall₂ Confirmed chunks log) :
    log.map (·.packet) = chunks.map Chunk.packet :=
  through_alike (fun chunk exchange sent => confirmed_alike chunk exchange (.inl sent)) through

theorem longwordOf_pulse
    (pulsed : log.map (·.packet) = [packetOf (queueReset 1), packetOf (queueReset 0)]) :
    ∀ exchange ∈ log, longwordOf exchange.packet = none := by
  intro exchange member
  have sent : exchange.packet ∈ log.map (·.packet) := List.mem_map_of_mem member
  rw [pulsed] at sent
  apply longwordOf_short
  rcases List.mem_pair.mp sent with same | same
  · rw [same]
    decide
  · rw [same]
    decide

/-- `flash_program` programs the first words of the file. -/
theorem Programming.longwords (programmed : Programming binFile ending log) :
    longwordsOf log <+: wanted binFile := by
  cases programmed with
  | unopened => exact List.nil_prefix
  | empty => exact List.nil_prefix
  | @stopped file _ stopped =>
      rw [longwordsOf_map, wanted, Option.map_some, Option.getD_some, ← longwordCalls_packets]
      exact (stopped.alike programmed_alike).filterMap longwordOf
  | @part file _ part through =>
      rw [longwordsOf_map, programmed_packets through, longwordCalls_packets]
      exact List.prefix_rfl
  | @whole file log pulse nonempty whole through pulsed =>
      rw [longwordsOf_append, longwordsOf_map log, programmed_packets through,
        longwordCalls_packets, longwordsOf_eq_nil (longwordOf_pulse pulsed), List.append_nil]
      exact List.prefix_rfl

/-- Behind a longword that fails, it programs no other. -/
theorem Programming.accepted (programmed : Programming binFile ending log)
    {before after : List Exchange} {event : Exchange} (here : log = before ++ event :: after) :
    ∀ other ∈ before, ProgramsLongword other → ¬ Stops other.reply := by
  have kept : ∀ other ∈ before, other ∈ log := fun other member =>
    here ▸ List.mem_append_left _ member
  intro other member longword
  cases programmed with
  | unopened => exact absurd (kept other member) List.not_mem_nil
  | empty => exact absurd (kept other member) List.not_mem_nil
  | stopped stopped =>
      obtain ⟨call, -, accepted⟩ := stopped.before here other member
      exact accepted
  | part part through =>
      obtain ⟨call, -, accepted⟩ := through_event through other (kept other member)
      exact accepted
  | whole nonempty whole through pulsed =>
      rcases List.mem_append.mp (kept other member) with inside | pulse
      · obtain ⟨call, -, accepted⟩ := through_event through other inside
        exact accepted
      · exact absurd longword (not_programs (longwordOf_pulse pulsed other pulse))

/-- When it returns 0 it has programmed them all. -/
theorem Programming.complete {file : BinaryFile}
    (programmed : Programming (some file) (.returned 0) log) :
    longwordsOf log = programmedWords file ∧
      ∀ exchange ∈ log, ProgramsLongword exchange → ¬ Stops exchange.reply := by
  generalize value : Ending.returned 0 = ending at programmed
  cases programmed with
  | empty => cases value
  | stopped => exact absurd (Ending.returned.inj value) (by decide)
  | part => cases value
  | @whole _ log pulse nonempty whole through pulsed =>
      constructor
      · rw [longwordsOf_append, longwordsOf_map log, programmed_packets through,
          longwordCalls_packets, longwordsOf_eq_nil (longwordOf_pulse pulsed), List.append_nil]
      · intro exchange member longword
        rcases List.mem_append.mp member with inside | pulse
        · obtain ⟨call, -, accepted⟩ := through_event through exchange inside
          exact accepted
        · exact absurd longword (not_programs (longwordOf_pulse pulsed exchange pulse))

/-- `verifyFlash` programs nothing. -/
theorem Verifying.quiet (verified : Verifying binFile ending log) :
    ∀ exchange ∈ log, longwordOf exchange.packet = none := by
  intro exchange member
  have sent : exchange.packet ∈ log.map (·.packet) := List.mem_map_of_mem member
  cases verified with
  | unopened => exact absurd member List.not_mem_nil
  | empty => exact absurd member List.not_mem_nil
  | denied denied =>
      obtain ⟨chunk, inside, same⟩ :=
        List.mem_map.mp ((denied.alike confirmed_alike).subset sent)
      rw [← same]
      exact longwordOf_chunk (chunksOf_few _ _ chunk inside)
  | confirmed through =>
      rw [confirmed_packets through] at sent
      obtain ⟨chunk, inside, same⟩ := List.mem_map.mp sent
      rw [← same]
      exact longwordOf_chunk (chunksOf_few _ _ chunk inside)

theorem Erased.quiet (erased : Erased log) :
    ∀ exchange ∈ log, longwordOf exchange.packet = none := fun exchange member =>
  longwordOf_single (erased.single exchange member)

/-- Up to the end of `flash_program`. -/
theorem Erased.guarded {programming : List Exchange} (erased : Erased log)
    (programmed : Programming binFile ending programming) :
    Guarded ProgramsLongword ProgramAllowed (log ++ programming) := by
  apply guarded_append
  · exact guarded_of_not fun exchange member => not_programs (erased.quiet exchange member)
  · intro before event after here _
    refine ⟨(followed_append _ _).mpr (.inl erased.erased), fun other member longword => ?_⟩
    rcases List.mem_append.mp member with early | inside
    · exact absurd longword (not_programs (erased.quiet other early))
    · exact programmed.accepted here other inside longword

theorem Course.guarded (course : Course binFile startup log) :
    Guarded ProgramsLongword ProgramAllowed log ∧ longwordsOf log <+: wanted binFile := by
  cases course with
  | unerased single =>
      have quiet := fun exchange member => longwordOf_single (single exchange member)
      refine ⟨guarded_of_not fun exchange member => not_programs (quiet exchange member), ?_⟩
      rw [longwordsOf_eq_nil quiet]
      exact List.nil_prefix
  | unprogrammed erased programmed failed =>
      refine ⟨erased.guarded programmed, ?_⟩
      rw [longwordsOf_append, longwordsOf_eq_nil erased.quiet, List.nil_append]
      exact programmed.longwords
  | programmed erased programmed verified =>
      constructor
      · apply guarded_append (erased.guarded programmed)
        intro before event after here longword
        have member : event ∈ before ++ event :: after :=
          List.mem_append_right _ List.mem_cons_self
        rw [← here] at member
        exact absurd longword (not_programs (verified.quiet event member))
      · rw [longwordsOf_append, longwordsOf_append, longwordsOf_eq_nil erased.quiet,
          longwordsOf_eq_nil verified.quiet, List.nil_append, List.append_nil]
        exact programmed.longwords

end Course

/-- The exchange is a read of the address, and the reply holds the word at its place. -/
def ReadBack (address word : Word) (exchange : Exchange) : Prop :=
  ∃ (addresses : List Word) (place : Nat) (results : List Byte),
    exchange.packet = readPacketOf addresses ∧
    addresses[place]? = some address ∧ exchange.reply = some (0 :: results) ∧
    (results.drop (4 * place)).take 4 = wordBytes word

/-- A word of the file is in one of the chunks, under its address. -/
theorem chunksOf_place (address : Word) (words : List Word) {index : Nat} {word : Word}
    (here : words[index]? = some word) :
    ∃ chunk ∈ chunksOf address words, ∃ place : Nat, chunk.words[place]? = some word ∧
      (addressesAt chunk.address chunk.words.length)[place]? =
        some (address + BitVec.ofNat 32 (4 * index)) := by
  have inside (address : Word) {words : List Word} {place : Nat}
      (here : words[place]? = some word) :
      (addressesAt address words.length)[place]? =
        some (address + BitVec.ofNat 32 (4 * place)) := by
    obtain ⟨room, -⟩ := List.getElem?_eq_some_iff.mp here
    rw [addressesAt, List.getElem?_map, List.getElem?_range room, Option.map_some]
  induction address, words using chunksOf.induct generalizing index with
  | case1 address => cases here
  | case2 address w0 w1 w2 w3 w4 w5 rest ih =>
      have split : w0 :: w1 :: w2 :: w3 :: w4 :: w5 :: rest = [w0, w1, w2, w3, w4, w5] ++ rest := rfl
      have six : [w0, w1, w2, w3, w4, w5].length = 6 := rfl
      by_cases first : index < 6
      · rw [split, List.getElem?_append_left first] at here
        exact ⟨_, List.mem_cons_self, index, here, inside address here⟩
      · rw [split, List.getElem?_append_right (not_lt.mp first), six] at here
        obtain ⟨chunk, member, place, found, addressed⟩ := ih here
        refine ⟨chunk, List.mem_cons_of_mem _ member, place, found, ?_⟩
        have sum : 24 + 4 * (index - 6) = 4 * index := by omega
        rw [addressed, BitVec.add_assoc, show (24 : Word) = BitVec.ofNat 32 24 from rfl,
          ← BitVec.ofNat_add, sum]
  | case3 address words some few =>
      have only : chunksOf address words = [⟨address, words⟩] := by
        rw [chunksOf]
        · exact some
        · exact few
      rw [only]
      exact ⟨_, List.mem_cons_self, index, here, inside address here⟩

/-- A word that is popped and is not 0 has been delivered. -/
theorem poppedWords_place {words place : Nat} {results : List Byte} {word : Word}
    (here : (poppedWords words results)[place]? = some word) (nonzero : word ≠ 0) :
    (results.drop (4 * place)).take 4 = wordBytes word := by
  induction words generalizing place results with
  | zero => exact nomatch here
  | succ words ih =>
      cases place with
      | zero =>
          have first : firstWord results = word := Option.some.inj here
          have long : ¬ results.length < 4 := fun short =>
            nonzero (first.symm.trans (firstWord_short short))
          rcases results with _ | ⟨b0, _ | ⟨b1, _ | ⟨b2, _ | ⟨b3, results⟩⟩⟩⟩
          case cons.cons.cons.cons =>
            rw [← first, firstWord, wordBytes_wordOfBytes]
            rfl
          all_goals simp at long
      | succ place =>
          have next := ih here
          rw [List.drop_drop] at next
          rw [Nat.mul_succ, Nat.add_comm]
          exact next

/-- So a reply that is taken for the words of a chunk holds those that are not 0. -/
theorem TakenFor.delivers {words : List Word} {reply : Option (List Byte)}
    (taken : TakenFor words reply) {place : Nat} {word : Word}
    (here : words[place]? = some word) (nonzero : word ≠ 0) :
    ∃ results, reply = some (0 :: results) ∧
      (results.drop (4 * place)).take 4 = wordBytes word := by
  obtain ⟨accepted, popped⟩ := taken
  rw [← popped] at here
  have delivered := poppedWords_place here nonzero
  rcases reply with _ | _ | ⟨status, results⟩
  · simp [resultsOf, wordBytes] at delivered
  · simp [resultsOf, wordBytes] at delivered
  · have ok : status = 0 :=
      by_contra fun nonzero => accepted ⟨status, results, rfl, nonzero⟩
    exact ⟨results, by rw [ok], delivered⟩

theorem Verifying.shown {file : BinaryFile} {log : List Exchange}
    (verified : Verifying (some file) (.returned 0) log) {index : Nat} {word : Word}
    (here : (wordsOf file.bytes)[index]? = some word) (nonzero : word ≠ 0) :
    ∃ exchange ∈ log, ReadBack (BitVec.ofNat 32 (4 * index)) word exchange := by
  generalize value : Ending.returned 0 = ending at verified
  cases verified with
  | empty => cases value
  | denied => exact absurd (Ending.returned.inj value) (by decide)
  | confirmed through =>
      obtain ⟨chunk, member, place, found, addressed⟩ := chunksOf_place 0 _ here
      obtain ⟨exchange, inside, sent, taken⟩ := through_item through chunk member
      obtain ⟨results, reply, delivered⟩ := taken.delivers found nonzero
      have absolute : (0 : Word) + BitVec.ofNat 32 (4 * index) = BitVec.ofNat 32 (4 * index) :=
        BitVec.zero_add _
      rw [absolute] at addressed
      exact ⟨exchange, inside, _, place, results, sent, addressed, reply, delivered⟩

theorem Ending.startup_eq_finished {ending : Ending} :
    ending.startup = .finished ↔ ending = .returned 0 := by
  cases ending with
  | thrown => constructor <;> intro same <;> cases same
  | returned value =>
      rw [Ending.startup]
      split_ifs with nonzero
      · constructor
        · intro same
          cases same
        · intro same
          exact absurd (Ending.returned.inj same) nonzero
      · exact ⟨fun _ => congrArg Ending.returned (not_not.mp nonzero), fun _ => rfl⟩

/-- `flash_program` returns 0 for a file of whole words only. -/
theorem Programming.wholeWords {binFile : Option BinaryFile} {log : List Exchange}
    (programmed : Programming binFile (.returned 0) log) : WholeWords binFile := by
  generalize value : Ending.returned 0 = ending at programmed
  cases programmed with
  | unopened => exact absurd (Ending.returned.inj value) (by decide)
  | empty => cases value
  | stopped => exact absurd (Ending.returned.inj value) (by decide)
  | part => cases value
  | whole nonempty whole through pulsed => exact ⟨_, rfl, nonempty, whole⟩

/-- What has been shown by these exchanges: a longword was sent for all that is not blank in the
file, no reply to one was a refusal or showed an error, and behind them all that is not 0 in the
file has been read back. -/
def ShowsFile (file : BinaryFile) (log : List Exchange) : Prop :=
  ∃ programming verifying, log = programming ++ verifying ∧
    longwordsOf programming = programmedWords file ∧
    (∀ exchange ∈ programming, ProgramsLongword exchange → ¬ Stops exchange.reply) ∧
    longwordsOf verifying = [] ∧
    ∀ index word, (wordsOf file.bytes)[index]? = some word → word ≠ 0 →
      ∃ exchange ∈ verifying, ReadBack (BitVec.ofNat 32 (4 * index)) word exchange

theorem Course.shown {binFile : Option BinaryFile} {startup : Startup} {log : List Exchange}
    (course : Course binFile startup log) (finished : startup = .finished) :
    ∃ file ∈ binFile, WholeWords (some file) ∧ ShowsFile file log := by
  cases course with
  | unerased => cases finished
  | unprogrammed _ _ failed => exact absurd (Ending.startup_eq_finished.mp finished) failed
  | @programmed erasing programming verifying ending erased programmed verified =>
      obtain rfl := Ending.startup_eq_finished.mp finished
      obtain ⟨file, rfl, nonempty, whole⟩ := programmed.wholeWords
      obtain ⟨complete, accepted⟩ := programmed.complete
      refine ⟨file, rfl, ⟨file, rfl, nonempty, whole⟩, erasing ++ programming, verifying, rfl, ?_, ?_,
        longwordsOf_eq_nil verified.quiet, fun index word => verified.shown⟩
      · rw [longwordsOf_append, longwordsOf_eq_nil erased.quiet, List.nil_append, complete]
      · intro exchange member longword
        rcases List.mem_append.mp member with early | inside
        · exact absurd longword (not_programs (erased.quiet exchange early))
        · exact accepted exchange inside longword

/-- A record changes nothing. -/
theorem initSystem_transcript {σ : Type} (link : Link σ) (interactive : Bool)
    (binFile : Option BinaryFile) (queues : Queues σ) :
    (initSystem link.transcript interactive binFile queues.unwritten).1 =
      (initSystem link interactive binFile queues).1 := by
  let related (transcript : Transcript σ) (state : σ) : Prop := transcript.state = state
  have corresponds : link.transcript.Corresponds (fun _ => True) related link := by
    rintro packet transcript state _ rfl
    exact ⟨rfl, rfl⟩
  have small : ∀ file ∈ binFile, file.bytes.length ≤ 2 ^ 32 := fun file _ => by
    have fits := file.fits
    omega
  have start : queues.unwritten.Same related queues := ⟨rfl, rfl, rfl⟩
  exact (initSystem_matches (fun _ _ => trivial) trivial corresponds (fun _ _ => trivial)
    (fun _ _ _ _ _ _ => trivial) le_rfl interactive binFile small start).1

theorem twoWords_whole : WholeWords (some twoWords) := ⟨twoWords, rfl, by decide, by decide⟩

/-- A run with two words on a part gets to its end. -/
theorem usedPart_finished :
    (initSystem partLink.transcript false (some twoWords) usedPart.unwritten).1 = .finished :=
  (initSystem_transcript partLink false (some twoWords) usedPart).trans
    ((partLink_part.run_some twoWords (by decide) trivial usedPart_erased).1 twoWords_whole)

end Swagger.Host
