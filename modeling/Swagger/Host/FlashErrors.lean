/-
**Flash errors that are reported as success.**

The last word of a longword's reply is the flash status. `kinetis_flash_longword` tests its four
error bits one after the other, and returns -1 behind three of them. Behind `MGSTAT0` it writes an
error to the log and goes on, so a status with this bit alone ends in 0 (`MgstatOnly`).

* `errorsReported_iff`: one longword. Success is right exactly when the reply is complete and its
  flash status does not show `MGSTAT0` alone.
* `programErrorsReported_iff`: a whole file. The loop of `flash_program` goes on behind such a
  longword; it is not reported unless something else stops the program.
-/

import Swagger.Host.Answers
import Swagger.Host.FlashProgram

namespace Swagger.Host

def fstatMgstat0 : SQInteger := 0x01

/-- The four error bits of the flash status. -/
def fstatErrors : List SQInteger := [fstatMgstat0, fstatRdcolerr, fstatAccerr, fstatFpviol]

/-- One of the error bits is set. -/
def ShowsError (fstat : SQInteger) : Prop := ∃ bit ∈ fstatErrors, fstat &&& bit ≠ 0

/-- `MGSTAT0` is set, and no other error bit. -/
def MgstatOnly (fstat : SQInteger) : Prop :=
  fstat &&& fstatMgstat0 ≠ 0 ∧ ∀ bit ∈ [fstatRdcolerr, fstatAccerr, fstatFpviol], fstat &&& bit = 0

/-- A reply with the status OK and this flash status. -/
def Completed (answer : Option (List Byte)) (fstat : SQInteger) : Prop :=
  ∃ rest, answer = some (0 :: (wordBytes fstat ++ rest))

/-- A reply that ends `kinetis_flash_longword` with -1. -/
def Stops (answer : Option (List Byte)) : Prop :=
  Refused answer ∨ flashFailed (firstWord (resultsOf answer)) = true

/-! ### One reply -/

theorem flashFailed_eq_false_iff (fstat : SQInteger) :
    flashFailed fstat = false ↔
      ∀ bit ∈ [fstatRdcolerr, fstatAccerr, fstatFpviol], fstat &&& bit = 0 := by
  unfold flashFailed
  simp only [List.mem_cons, List.not_mem_nil, or_false, forall_eq_or_imp, forall_eq]
  split_ifs with collision access violation
  · exact ⟨False.elim, fun clear => absurd clear.1 collision⟩
  · exact ⟨False.elim, fun clear => absurd clear.2.1 access⟩
  · exact ⟨False.elim, fun clear => absurd clear.2.2 violation⟩
  · exact ⟨fun _ => ⟨not_not.mp collision, not_not.mp access, not_not.mp violation⟩, fun _ => rfl⟩

/-- A status that passes the tests and shows an error shows `MGSTAT0` alone. -/
theorem showsError_iff {fstat : SQInteger} (passed : flashFailed fstat = false) :
    ShowsError fstat ↔ MgstatOnly fstat := by
  have clear := (flashFailed_eq_false_iff fstat).mp passed
  constructor
  · rintro ⟨bit, member, set⟩
    rcases List.mem_cons.mp member with rfl | other
    · exact ⟨set, clear⟩
    · exact absurd (clear bit other) set
  · exact fun only => ⟨fstatMgstat0, List.mem_cons_self, only.1⟩

/-- The flash status of a reply is the word that is popped from it. -/
theorem completed_iff {answer : Option (List Byte)} {fstat : SQInteger} :
    Completed answer fstat ↔ Answered 1 answer ∧ firstWord (resultsOf answer) = fstat := by
  constructor
  · rintro ⟨rest, rfl⟩
    refine ⟨⟨_, rfl, ?_⟩, wordOfBytes_byteOfWord fstat⟩
    rw [List.length_append, length_wordBytes]
    omega
  · rintro ⟨⟨results, rfl, enough⟩, rfl⟩
    rcases results with _ | ⟨b0, _ | ⟨b1, _ | ⟨b2, _ | ⟨b3, rest⟩⟩⟩⟩
    case cons.cons.cons.cons =>
      refine ⟨rest, ?_⟩
      simp only [resultsOf, Option.getD_some, List.tail_cons, firstWord, wordBytes_wordOfBytes,
        List.cons_append, List.nil_append]
    all_goals simp at enough

theorem Completed.not_refused {answer : Option (List Byte)} {fstat : SQInteger}
    (completed : Completed answer fstat) : ¬ Refused answer := by
  obtain ⟨rest, rfl⟩ := completed
  rintro ⟨status, results, same, nonzero⟩
  cases same
  exact nonzero rfl

theorem Completed.stops_iff {answer : Option (List Byte)} {fstat : SQInteger}
    (completed : Completed answer fstat) : Stops answer ↔ flashFailed fstat = true := by
  rw [Stops, (completed_iff.mp completed).2, or_iff_right completed.not_refused]

/-! ### One longword -/

section Longword

variable {σ : Type} (link : Link σ) (address data : SQInteger) (queues : Queues σ)

/-- The reply to a longword. -/
def longwordReply : Option (List Byte) :=
  (link.exchange (packetOf (queueFlashLongword address data)) queues.state).1

theorem queueFlashLongword_packet :
    queueFlashLongword address data (clearCmdQueue queues) =
      { queues with cmdQueue := packetOf (queueFlashLongword address data) } := by
  simp only [packetOf, queueFlashLongword, queueWriteMemory, queuePollMemory, queueReadMemory,
    queueUInt32_eq, queueUInt8, clearCmdQueue]

/-- What `kinetis_flash_longword` returns on a reply. -/
theorem kinetisFlashLongword_fst :
    (kinetisFlashLongword link address data queues).1 =
      if statusOf (longwordReply link address data queues) ≠ cmdStatusOk then -1
      else if flashFailed (firstWord (resultsOf (longwordReply link address data queues))) then -1
      else 0 := by
  have executed := executeStatus_eq link
    { queues with cmdQueue := packetOf (queueFlashLongword address data) }
  have zero : (executeCmdQueue link
      { queues with cmdQueue := packetOf (queueFlashLongword address data) }).1 = 0 := rfl
  rw [executeStatus] at executed
  rw [kinetisFlashLongword, queueFlashLongword_packet]
  simp only
  rw [if_neg (not_not.mpr zero), executed, longwordReply]
  generalize link.exchange (packetOf (queueFlashLongword address data)) queues.state = exchanged
  simp only [popUInt32_fst]
  split_ifs
  · rfl
  · rfl
  · rfl

/-- Programming a longword sends its packet, whatever comes back. -/
theorem kinetisFlashLongword_state :
    (kinetisFlashLongword link address data queues).2.state =
      (link.exchange (packetOf (queueFlashLongword address data)) queues.state).2 := by
  have executed := executeStatus_eq link
    { queues with cmdQueue := packetOf (queueFlashLongword address data) }
  have zero : (executeCmdQueue link
      { queues with cmdQueue := packetOf (queueFlashLongword address data) }).1 = 0 := rfl
  rw [executeStatus] at executed
  rw [kinetisFlashLongword, queueFlashLongword_packet]
  simp only
  rw [if_neg (not_not.mpr zero), executed]
  simp only
  split_ifs
  · rfl
  · exact popUInt32_state _
  · exact popUInt32_state _

/-- `kinetis_flash_longword` returns 0 unless the reply stops it. -/
theorem kinetisFlashLongword_eq_zero_iff :
    (kinetisFlashLongword link address data queues).1 = 0 ↔
      ¬ Stops (longwordReply link address data queues) := by
  have failure : ¬ (-1 : SQInteger) = 0 := by decide
  rw [kinetisFlashLongword_fst, Stops, not_or, ← statusOf_eq_ok]
  generalize longwordReply link address data queues = answer
  split_ifs with refused failed
  · exact ⟨fun same => absurd same failure, fun goes => absurd goes.1 refused⟩
  · exact ⟨fun same => absurd same failure, fun goes => absurd failed goes.2⟩
  · exact ⟨fun _ => ⟨not_not.mp refused, failed⟩, fun _ => rfl⟩

/-- Behind a reply that is delivered, 0 means the status OK and a flash status without errors. -/
def ErrorsReported : Prop :=
  longwordReply link address data queues ≠ none →
    (kinetisFlashLongword link address data queues).1 = 0 →
      ∃ fstat, Completed (longwordReply link address data queues) fstat ∧ ¬ ShowsError fstat

/-- That is so exactly when the reply is complete, and does not show `MGSTAT0` alone. -/
theorem errorsReported_iff :
    ErrorsReported link address data queues ↔
      (longwordReply link address data queues ≠ none →
        Complete 1 (longwordReply link address data queues) ∧
          ∀ fstat, Completed (longwordReply link address data queues) fstat →
            ¬ MgstatOnly fstat) := by
  rw [ErrorsReported, kinetisFlashLongword_eq_zero_iff]
  generalize longwordReply link address data queues = answer
  refine imp_congr_right fun _ => ⟨fun reported => ⟨?_, fun fstat completed only => ?_⟩, ?_⟩
  · by_cases refused : Refused answer
    · exact refused.complete
    · rw [complete_iff_answered refused]
      by_contra unanswered
      -- the word 0 is popped, and passes the tests
      have passes : ¬ Stops answer := by
        rw [Stops, or_iff_right refused, firstWord_of_not_answered refused unanswered]
        decide
      obtain ⟨fstat, completed, -⟩ := reported passes
      exact unanswered (completed_iff.mp completed).1
  · have passed := (flashFailed_eq_false_iff fstat).mpr only.2
    have passes : ¬ Stops answer := by
      rw [completed.stops_iff, passed]
      exact Bool.false_ne_true
    obtain ⟨fstat', completed', clear⟩ := reported passes
    rw [← (completed_iff.mp completed').2, (completed_iff.mp completed).2] at clear
    exact clear ((showsError_iff passed).mpr only)
  · rintro ⟨complete, never⟩ goes
    have accepted : ¬ Refused answer := fun refused => goes (.inl refused)
    have completed := completed_iff.mpr ⟨(complete_iff_answered accepted).mp complete, rfl⟩
    have passed : flashFailed (firstWord (resultsOf answer)) = false := by
      rw [completed.stops_iff] at goes
      exact eq_false_of_ne_true goes
    exact ⟨_, completed, fun shows => never _ completed ((showsError_iff passed).mp shows)⟩

end Longword

/-! ### A whole file -/

section Program

variable {σ : Type} (link : Link σ)

/-- The replies to packets that are sent one after the other. -/
def Link.answers : List (List Byte) → σ → List (Option (List Byte))
  | [], _ => []
  | packet :: packets, state =>
      (link.exchange packet state).1 :: answers packets (link.exchange packet state).2

/-- The packets for the words of a file, which begin at a word position: one for each word that is
not blank. -/
def longwordPackets (start : Nat) (words : List Word) : List (List Byte) :=
  ((words.zipIdx start).filter fun word => word.1 ≠ 0xFFFFFFFF).map fun word =>
    packetOf (queueFlashLongword (BitVec.ofNat 32 (4 * word.2)) word.1)

theorem longwordPackets_blank (start : Nat) (words : List Word) :
    longwordPackets start (0xFFFFFFFF :: words) = longwordPackets (start + 1) words := rfl

theorem longwordPackets_cons (start : Nat) {word : Word} (written : word ≠ 0xFFFFFFFF)
    (words : List Word) :
    longwordPackets start (word :: words) =
      packetOf (queueFlashLongword (BitVec.ofNat 32 (4 * start)) word) ::
        longwordPackets (start + 1) words := by
  have kept : decide ((word, start).1 ≠ 0xFFFFFFFF) = true := decide_eq_true written
  unfold longwordPackets
  rw [List.zipIdx_cons, List.filter_cons, if_pos kept, List.map_cons]

/-- The loop over words and less than a word more falls through when no reply to their packets stops
it and nothing more is left, and never returns 0. -/
theorem flashLoop_through (words : List Word) {tail : List Byte} (short : tail.length < 4)
    (start : Nat) {size : Nat} (sized : size = 4 * (start + words.length) + tail.length)
    (small : size < 2 ^ 31) (queues : Queues σ) :
    let ending := ((targetKV10Z link).flashLoop
      { size := BitVec.ofNat 32 size, rest := words.flatMap wordBytes ++ tail }
      (BitVec.ofNat 32 (4 * start)) queues).1
    (ending = none ↔ tail = [] ∧
        ∀ answer ∈ link.answers (longwordPackets start words) queues.state, ¬ Stops answer) ∧
      ending ≠ some (.returned 0) := by
  induction words generalizing start queues with
  | nil =>
      rw [List.length_nil, Nat.add_zero] at sized
      rw [List.flatMap_nil, List.nil_append, flashLoop_part _ short sized small]
      have none_sent : ∀ answer ∈ link.answers (longwordPackets start []) queues.state,
          ¬ Stops answer := fun _ member => absurd member List.not_mem_nil
      by_cases whole : tail = []
      · rw [if_pos whole]
        exact ⟨iff_of_true rfl ⟨whole, none_sent⟩, (Option.some_ne_none _).symm⟩
      · rw [if_neg whole]
        have thrown : Ending.thrown ≠ .returned 0 := by decide
        exact ⟨iff_of_false (Option.some_ne_none _) fun both => whole both.1,
          fun same => thrown (Option.some.inj same)⟩
  | cons word words ih =>
      rw [List.length_cons] at sized
      have sized' : size = 4 * (start + 1 + words.length) + tail.length := by omega
      rw [List.flatMap_cons, List.append_assoc, flashLoop_next _ (by omega) small]
      by_cases blank : word = 0xFFFFFFFF
      · rw [if_neg (not_not.mpr blank), blank, longwordPackets_blank]
        exact ih (start + 1) sized' queues
      · rw [if_pos blank, longwordPackets_cons start blank]
        have zero := kinetisFlashLongword_eq_zero_iff link (BitVec.ofNat 32 (4 * start)) word queues
        have state := kinetisFlashLongword_state link (BitVec.ofNat 32 (4 * start)) word queues
        have programmed : (targetKV10Z link).flashProgramLongword (BitVec.ofNat 32 (4 * start))
            word queues = kinetisFlashLongword link (BitVec.ofNat 32 (4 * start)) word queues := rfl
        rw [programmed, Link.answers, List.forall_mem_cons, ← state, ← longwordReply]
        generalize kinetisFlashLongword link (BitVec.ofNat 32 (4 * start)) word queues = result
          at zero ⊢
        simp only
        by_cases goes : Stops (longwordReply link (BitVec.ofNat 32 (4 * start)) word queues)
        · rw [if_pos fun same => zero.mp same goes]
          have failed : Ending.returned (-1) ≠ .returned 0 := by decide
          exact ⟨iff_of_false (Option.some_ne_none _) fun both => both.2.1 goes,
            fun same => failed (Option.some.inj same)⟩
        · rw [if_neg (not_not.mpr (zero.mpr goes)), and_iff_right goes]
          exact ih (start + 1) sized' result.2

/-- There is a file, it is not empty, and it is a whole number of words. -/
def WholeWords (binFile : Option BinaryFile) : Prop :=
  ∃ file ∈ binFile, file.bytes ≠ [] ∧ 4 ∣ file.bytes.length

variable (binFile : Option BinaryFile) (queues : Queues σ)

/-- The replies to the packets for the words of the file. -/
def longwordReplies : List (Option (List Byte)) :=
  match binFile with
  | none => []
  | some file => link.answers (longwordPackets 0 (wordsOf file.bytes)) queues.state

/-- A file that is empty is not read. -/
theorem readblob_empty {file : BinaryFile} (empty : file.bytes = []) :
    file.readblob file.len = none := by
  unfold BinaryFile.readblob
  simp only [empty, List.take_nil, if_true]

/-- `flash_program` returns 0 behind whole words, none of which has been stopped. -/
theorem flashProgram_eq_zero_iff :
    ((targetKV10Z link).flashProgram binFile queues).1 = .returned 0 ↔
      WholeWords binFile ∧ ∀ answer ∈ longwordReplies link binFile queues, ¬ Stops answer := by
  unfold FlashTarget.flashProgram WholeWords
  cases binFile with
  | none =>
      refine ⟨nofun, ?_⟩
      rintro ⟨⟨_, ⟨⟩, -⟩, -⟩
  | some file =>
      by_cases empty : file.bytes = []
      · simp only [readblob_empty empty]
        refine ⟨nofun, ?_⟩
        rintro ⟨⟨_, ⟨⟩, nonempty, -⟩, -⟩
        exact absurd empty nonempty
      · obtain ⟨split, short⟩ := wordsOf_split file.bytes
        have sized : file.bytes.length =
            4 * (0 + (wordsOf file.bytes).length) + (partOf file.bytes).length := by
          rw [Nat.zero_add, ← length_flatMap_wordBytes, ← List.length_append, ← split]
        have loop := flashLoop_through link (wordsOf file.bytes) short 0 sized file.fits queues
        rw [← split] at loop
        have whole : (∃ file' ∈ some file, file'.bytes ≠ [] ∧ 4 ∣ file'.bytes.length) ↔
            partOf file.bytes = [] := by
          rw [partOf_eq_nil_iff]
          exact ⟨fun ⟨_, same, _, whole⟩ => Option.some.inj same ▸ whole,
            fun whole => ⟨file, rfl, empty, whole⟩⟩
        rw [whole, longwordReplies]
        simp only [readblob_len empty]
        rcases ended : (targetKV10Z link).flashLoop { size := file.len, rest := file.bytes } 0 queues
          with ⟨ending, queues'⟩
        obtain ⟨through, nonzero⟩ := loop
        have same : ((targetKV10Z link).flashLoop
            { size := BitVec.ofNat 32 file.bytes.length, rest := file.bytes }
            (BitVec.ofNat 32 (4 * 0)) queues).1 = ending := congrArg Prod.fst ended
        rw [same] at through nonzero
        cases ending with
        | none => exact iff_of_true rfl (through.mp rfl)
        | some ending =>
            refine iff_of_false (fun same => nonzero (congrArg some same)) fun both => ?_
            exact Option.some_ne_none _ (through.mpr both)

/-- A program that returns 0 has programmed no longword that ended with an error. -/
def ProgramErrorsReported : Prop :=
  ((targetKV10Z link).flashProgram binFile queues).1 = .returned 0 →
    ∀ answer ∈ longwordReplies link binFile queues, ∀ fstat, Completed answer fstat →
      ¬ ShowsError fstat

/-- That is so exactly when no flash status shows `MGSTAT0` alone, unless the file or a reply keeps
the program from returning 0. -/
theorem programErrorsReported_iff :
    ProgramErrorsReported link binFile queues ↔
      (WholeWords binFile → (∀ answer ∈ longwordReplies link binFile queues, ¬ Stops answer) →
        ∀ answer ∈ longwordReplies link binFile queues, ∀ fstat, Completed answer fstat →
          ¬ MgstatOnly fstat) := by
  rw [ProgramErrorsReported, flashProgram_eq_zero_iff, and_imp]
  refine imp_congr_right fun _ => imp_congr_right fun goes => ?_
  refine forall₂_congr fun answer member => forall₂_congr fun fstat completed => ?_
  have passed : flashFailed fstat = false := by
    have running := goes answer member
    rw [completed.stops_iff] at running
    exact eq_false_of_ne_true running
  rw [showsError_iff passed]

end Program

/-- The exact condition under which flash errors are reported, by a longword and by a program. -/
theorem flash_errors_iff {σ : Type} (link : Link σ) (address data : SQInteger)
    (binFile : Option BinaryFile) (queues : Queues σ) :
    (ErrorsReported link address data queues ↔
      (longwordReply link address data queues ≠ none →
        Complete 1 (longwordReply link address data queues) ∧
          ∀ fstat, Completed (longwordReply link address data queues) fstat →
            ¬ MgstatOnly fstat)) ∧
      (ProgramErrorsReported link binFile queues ↔
        (WholeWords binFile → (∀ answer ∈ longwordReplies link binFile queues, ¬ Stops answer) →
          ∀ answer ∈ longwordReplies link binFile queues, ∀ fstat, Completed answer fstat →
            ¬ MgstatOnly fstat)) :=
  ⟨errorsReported_iff link address data queues, programErrorsReported_iff link binFile queues⟩

/-! ### A longword that failed -/

/-- A programmer whose target ends every longword with `MGSTAT0`. -/
def failingLink : Link Unit where
  writePacket _ _ := (true, ())
  readPacket _ _ := (true, [0, 0x81, 0, 0, 0], ())
  failed_empty _ failed := nomatch failed

/-- A file of one word. -/
def oneWord : BinaryFile where
  bytes := [0x01, 0x02, 0x03, 0x04]
  fits := Nat.le_of_ble_eq_true rfl

theorem failingLink_reply (address data : SQInteger) (queues : Queues Unit) :
    longwordReply failingLink address data queues = some [0, 0x81, 0, 0, 0] := rfl

theorem failingLink_completed : Completed (some [0, 0x81, 0, 0, 0]) 0x81 := ⟨[], rfl⟩

theorem failingLink_goesOn : ¬ Stops (some [0, 0x81, 0, 0, 0]) := by
  rw [failingLink_completed.stops_iff]
  decide

theorem failingLink_shows : MgstatOnly 0x81 :=
  ⟨by decide, (flashFailed_eq_false_iff 0x81).mp (by decide)⟩

/-- One word is programmed. -/
theorem failingLink_replies (queues : Queues Unit) :
    longwordReplies failingLink (some oneWord) queues = [some [0, 0x81, 0, 0, 0]] := rfl

/-- The longword and the program both return 0. -/
theorem flash_errors_fail :
    (¬ ∀ (link : Link Unit) (address data : SQInteger) (queues : Queues Unit),
      ErrorsReported link address data queues) ∧
    ¬ ∀ (link : Link Unit) (binFile : Option BinaryFile) (queues : Queues Unit),
      ProgramErrorsReported link binFile queues := by
  let queues : Queues Unit := { cmdQueue := [], resultQueue := [], state := () }
  constructor
  · intro claimed
    have delivered := (errorsReported_iff failingLink 0 0x04030201 queues).mp
      (claimed failingLink 0 0x04030201 queues)
    rw [failingLink_reply] at delivered
    exact (delivered (Option.some_ne_none _)).2 _ failingLink_completed failingLink_shows
  · intro claimed
    have reported := (programErrorsReported_iff failingLink (some oneWord) queues).mp
      (claimed failingLink (some oneWord) queues) ⟨oneWord, rfl, by decide, by decide⟩
    rw [failingLink_replies] at reported
    simp only [List.mem_singleton, forall_eq] at reported
    exact reported failingLink_goesOn _ failingLink_completed failingLink_shows

end Swagger.Host
