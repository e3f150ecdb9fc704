/-
**The run of the scripts, `targets/init.nut` and `targets/targets.nut`.**

`initSystem` connects, and unless the session is interactive it has the first target erased, the
file programmed, and the flash verified. Each of the three ends the run when it returns something
other than 0, and an error that one of them throws is caught and printed.

`initSystem_course`: over any transport the packets of a run and the replies to them follow a
`Course`. The parts of the file are programmed one after the other once the erase has been requested
and its end has been read, and only then verified; and the course of the run is where it ends.
-/

import Swagger.Library.InTurn
import Swagger.Host.Scripts

namespace Swagger.Host

open Library

/-! ### Targets -/

/-- What `initSystem` uses of a target. -/
structure Target (σ : Type) where
  name : String
  idcode : SQInteger
  flashErase : Queues σ → SQInteger × Queues σ
  flashProgram : Option BinaryFile → Queues σ → Ending × Queues σ

/-- How `initSystem` ends: it returns -1, it gets to its end, or it has caught an error. -/
inductive Startup
  | failed
  | finished
  | caught
  deriving DecidableEq, Repr

section Functions

variable {σ : Type} (link : Link σ)

/-- The object `kv10ztarget`. -/
def kv10zTarget : Target σ where
  name := "KV10Z"
  idcode := 0x11111111
  flashErase := kinetisFlasherase link
  flashProgram := (targetKV10Z link).flashProgram

/-- `registerTarget`. -/
def registerTarget (target : Target σ) (targets : List (Target σ)) : List (Target σ) :=
  targets ++ [target]

/-- The table `targets` behind the scripts that `initSystem` loads. -/
def targets : List (Target σ) := registerTarget (kv10zTarget link) []

/-- What follows a function that has returned: 0 goes on. -/
def require (result : Ending × Queues σ) (next : Queues σ → Startup × Queues σ) :
    Startup × Queues σ :=
  match result.1 with
  | .thrown => (.caught, result.2)
  | .returned value => if value ≠ 0 then (.failed, result.2) else next result.2

/-- `initSystem` behind the loading of the scripts. What `connect` returns is not looked at. -/
def initSystem (interactive : Bool) (binFile : Option BinaryFile) (queues : Queues σ) :
    Startup × Queues σ :=
  let connected := connect link queues
  if interactive = false then
    match (targets link)[0]? with
    | none => (.caught, connected.2)
    | some target =>
        let erased := target.flashErase connected.2
        require (.returned erased.1, erased.2) fun queues =>
          require (target.flashProgram binFile queues) fun queues =>
            require (verifyFlash link binFile queues) fun queues => (.finished, queues)
  else (.finished, connected.2)

/-- The first target is the KV10Z. -/
theorem initSystem_eq (binFile : Option BinaryFile) (queues : Queues σ) :
    initSystem link false binFile queues =
      let erased := kinetisFlasherase link (connect link queues).2
      require (.returned erased.1, erased.2) fun queues =>
        require ((targetKV10Z link).flashProgram binFile queues) fun queues =>
          require (verifyFlash link binFile queues) fun queues => (.finished, queues) := rfl

end Functions

/-! ### A run does not see more of a transport than its replies -/

section Corresponding

variable {σ τ : Type} {kind : List Byte → Prop} {related : σ → τ → Prop} {link : Link σ}
  {link' : Link τ} {queues : Queues σ} {queues' : Queues τ}

theorem require_matches {result : Ending × Queues σ} {result' : Ending × Queues τ}
    (results : Matches related result result') {next : Queues σ → Startup × Queues σ}
    {next' : Queues τ → Startup × Queues τ}
    (rest : ∀ {queues : Queues σ} {queues' : Queues τ}, queues.Same related queues' →
      Matches related (next queues) (next' queues')) :
    Matches related (require result next) (require result' next') := by
  obtain ⟨ending, queues⟩ := result
  obtain ⟨ending', queues'⟩ := result'
  obtain ⟨rfl, same⟩ : ending = ending' ∧ queues.Same related queues' := results
  cases ending with
  | thrown => exact ⟨rfl, same⟩
  | returned value =>
      unfold require
      simp only
      split_ifs
      · exact ⟨rfl, same⟩
      · exact rest same

variable (singles : AdmitsSingles kind) (erases : kind erasePacket)
  (corresponds : link.Corresponds kind related link')

include singles erases corresponds

/-- Up to the end of the erase. -/
theorem erased_matches (same : queues.Same related queues') :
    Matches related (kinetisFlasherase link (connect link queues).2)
      (kinetisFlasherase link' (connect link' queues').2) :=
  kinetisFlasherase_matches singles corresponds erases
    (connectLoop_matches (singles .connect trivial) corresponds 10 same).2

/-- Behind a connect that does the same on both. -/
theorem initSystem_behind (longwords : AdmitsLongwords kind) {limit : Nat}
    (reads : AdmitsReads kind limit) (addressable : limit ≤ 2 ^ 32) (interactive : Bool)
    (binFile : Option BinaryFile) (inside : ∀ file ∈ binFile, file.bytes.length ≤ limit)
    (connected : Matches related (connect link queues) (connect link' queues')) :
    Matches related (initSystem link interactive binFile queues)
      (initSystem link' interactive binFile queues') := by
  cases interactive with
  | true => exact ⟨rfl, connected.2⟩
  | false =>
      have erased := kinetisFlasherase_matches singles corresponds erases connected.2
      rw [initSystem_eq, initSystem_eq]
      apply require_matches ⟨congrArg Ending.returned erased.1, erased.2⟩
      intro queues₁ queues₁' same₁
      apply require_matches (flashProgram_matches longwords corresponds singles binFile same₁)
      intro queues₂ queues₂' same₂
      apply require_matches
        (verifyFlash_matches reads addressable corresponds binFile inside same₂)
      intro queues₃ queues₃' same₃
      exact ⟨rfl, same₃⟩

theorem initSystem_matches (longwords : AdmitsLongwords kind) {limit : Nat}
    (reads : AdmitsReads kind limit) (addressable : limit ≤ 2 ^ 32) (interactive : Bool)
    (binFile : Option BinaryFile) (inside : ∀ file ∈ binFile, file.bytes.length ≤ limit)
    (same : queues.Same related queues') :
    Matches related (initSystem link interactive binFile queues)
      (initSystem link' interactive binFile queues') :=
  initSystem_behind singles erases corresponds longwords reads addressable interactive binFile
    inside (connectLoop_matches (singles .connect trivial) corresponds 10 same)

end Corresponding

/-! ### The course of a run -/

/-- The packet that a call sends. -/
def FlashCall.packet : FlashCall → List Byte
  | .longword address data => packetOf (queueFlashLongword address data)
  | .setReset value => packetOf (queueReset value)

/-- A longword that the loop goes on behind, and one that ends it. -/
def Programmed (call : FlashCall) (exchange : Exchange) : Prop :=
  exchange.packet = call.packet ∧ ¬ Stops exchange.reply

def Unprogrammed (call : FlashCall) (exchange : Exchange) : Prop :=
  exchange.packet = call.packet ∧ Stops exchange.reply

/-- Words of a file that are verified in one go, and where. -/
structure Chunk where
  address : Word
  words : List Word
  deriving DecidableEq, Repr

def Chunk.packet (chunk : Chunk) : List Byte :=
  readPacketOf (addressesAt chunk.address chunk.words.length)

/-- The words from an address on, in chunks of six. -/
def chunksOf (address : Word) : List Word → List Chunk
  | [] => []
  | w0 :: w1 :: w2 :: w3 :: w4 :: w5 :: rest =>
      ⟨address, [w0, w1, w2, w3, w4, w5]⟩ :: chunksOf (address + 24) rest
  | words => [⟨address, words⟩]

/-- The words that are popped from the result bytes. -/
def poppedWords : Nat → List Byte → List Word
  | 0, _ => []
  | words + 1, results => firstWord results :: poppedWords words (results.drop 4)

/-- The reply is taken for these words. -/
def TakenFor (words : List Word) (reply : Option (List Byte)) : Prop :=
  ¬ Refused reply ∧ poppedWords words.length (resultsOf reply) = words

/-- A chunk that the loop goes on behind, and one that ends it. -/
def Confirmed (chunk : Chunk) (exchange : Exchange) : Prop :=
  exchange.packet = chunk.packet ∧ TakenFor chunk.words exchange.reply

def Denied (chunk : Chunk) (exchange : Exchange) : Prop :=
  exchange.packet = chunk.packet ∧ ¬ TakenFor chunk.words exchange.reply

/-- A packet of one of the commands that are sent one by one. -/
def Single (packet : List Byte) : Prop :=
  packet = erasePacket ∨ ∃ command, Prompt command ∧ packet = command.bytes

/-- The request of the erase has not been refused. -/
def Requested (exchange : Exchange) : Prop :=
  exchange.packet = erasePacket ∧ ¬ Refused exchange.reply

/-- The reply to a read of `MDM_AP_CTRL` is taken for the end of the erase. -/
def SeenErased (exchange : Exchange) : Prop :=
  exchange.packet = ctrlPacket ∧ ¬ Refused exchange.reply ∧
    firstWord (resultsOf exchange.reply) &&& mdmCtrlFlashErase = 0

/-- The exchanges up to the end of the erase. -/
structure Erased (log : List Exchange) : Prop where
  single : ∀ exchange ∈ log, Single exchange.packet
  erased : Followed Requested SeenErased log

/-- The exchanges of `flash_program`, by its end. -/
inductive Programming : Option BinaryFile → Ending → List Exchange → Prop
  | unopened : Programming none (.returned (-1)) []
  | empty {file : BinaryFile} (empty : file.bytes = []) : Programming (some file) .thrown []
  | stopped {file : BinaryFile} {log : List Exchange}
      (stopped : StopsAt Programmed Unprogrammed (longwordCalls 0 (wordsOf file.bytes)) log) :
      Programming (some file) (.returned (-1)) log
  | part {file : BinaryFile} {log : List Exchange} (part : ¬ 4 ∣ file.bytes.length)
      (through : List.Forall₂ Programmed (longwordCalls 0 (wordsOf file.bytes)) log) :
      Programming (some file) .thrown log
  | whole {file : BinaryFile} {log pulse : List Exchange} (nonempty : file.bytes ≠ [])
      (whole : 4 ∣ file.bytes.length)
      (through : List.Forall₂ Programmed (longwordCalls 0 (wordsOf file.bytes)) log)
      (pulsed : pulse.map (·.packet) = [packetOf (queueReset 1), packetOf (queueReset 0)]) :
      Programming (some file) (.returned 0) (log ++ pulse)

/-- The exchanges of `verifyFlash`, by its end. -/
inductive Verifying : Option BinaryFile → Ending → List Exchange → Prop
  | unopened : Verifying none (.returned (-1)) []
  | empty {file : BinaryFile} (empty : file.bytes = []) : Verifying (some file) .thrown []
  | denied {file : BinaryFile} {log : List Exchange}
      (denied : StopsAt Confirmed Denied (chunksOf 0 (wordsOf file.bytes)) log) :
      Verifying (some file) (.returned (-1)) log
  | confirmed {file : BinaryFile} {log : List Exchange}
      (through : List.Forall₂ Confirmed (chunksOf 0 (wordsOf file.bytes)) log) :
      Verifying (some file) (.returned 0) log

/-- How the run ends behind a function that is the last one it calls. -/
def Ending.startup : Ending → Startup
  | .thrown => .caught
  | .returned value => if value ≠ 0 then .failed else .finished

/-- The exchanges of a run, by its end. -/
inductive Course (binFile : Option BinaryFile) : Startup → List Exchange → Prop
  | unerased {log : List Exchange} (single : ∀ exchange ∈ log, Single exchange.packet) :
      Course binFile .failed log
  | unprogrammed {erasing programming : List Exchange} {ending : Ending} (erased : Erased erasing)
      (programmed : Programming binFile ending programming) (failed : ending ≠ .returned 0) :
      Course binFile ending.startup (erasing ++ programming)
  | programmed {erasing programming verifying : List Exchange} {ending : Ending}
      (erased : Erased erasing) (programmed : Programming binFile (.returned 0) programming)
      (verified : Verifying binFile ending verifying) :
      Course binFile ending.startup (erasing ++ programming ++ verifying)

/-! ### The erase -/

section Transcripts

variable {σ : Type} (link : Link σ)

/-- A poll that succeeds has taken a reply for a hit. -/
theorem pollWith_seen (address : SQInteger) (hit : SQInteger → Bool) (rounds : Nat)
    (queues : Queues (Transcript σ))
    (done : (pollWith link.transcript address hit rounds queues).1 = cmdStatusOk) :
    ∃ before reply after,
      (pollWith link.transcript address hit rounds queues).2.state.log =
        queues.state.log ++ before ++ ⟨readAPPacket address, reply⟩ :: after ∧
      ¬ Refused reply ∧ hit (firstWord (resultsOf reply)) = true := by
  induction rounds generalizing queues with
  | zero => exact absurd done (show ¬ cmdStatusTimeout = cmdStatusOk by decide)
  | succ rounds ih =>
      rw [pollWith_succ, Link.transcript_exchange] at done ⊢
      simp only at done ⊢
      generalize link.exchange (readAPPacket address) queues.state.state = exchanged at done ⊢
      obtain ⟨reply, next⟩ := exchanged
      by_cases refused : Refused reply
      · rw [if_pos (not_ok refused)] at done
        exact absurd done (not_ok refused)
      · have accepted := not_not.mpr ((statusOf_eq_ok reply).mpr refused)
        rw [if_neg accepted] at done ⊢
        by_cases passed : hit (firstWord (resultsOf reply)) = true
        · rw [if_pos passed, popUInt32_state]
          exact ⟨[], reply, [], by rw [List.append_nil], refused, passed⟩
        · rw [if_neg passed] at done ⊢
          obtain ⟨before, last, after, log, seen⟩ := ih _ done
          refine ⟨⟨readAPPacket address, reply⟩ :: before, last, after, ?_, seen⟩
          rw [log, popUInt32_state]
          simp only [List.append_assoc, List.cons_append, List.nil_append]

/-- What has happened has happened when the record goes on. -/
theorem Idles.followed {first later : Exchange → Prop} {before after : List Exchange}
    (idles : Idles before after) (seen : Followed first later before) :
    Followed first later after := by
  obtain ⟨more, rfl, -⟩ := idles
  exact (followed_append _ _).mpr (.inl seen)

/-- The wait for the end of the erase succeeds behind a reply that is taken for it. -/
theorem pollAPNot_seen (queues : Queues (Transcript σ))
    (done : (pollAPNot link.transcript mdmApCtrl mdmCtrlFlashErase queues).1 = 0) :
    ∃ before last after,
      (pollAPNot link.transcript mdmApCtrl mdmCtrlFlashErase queues).2.state.log =
        queues.state.log ++ before ++ last :: after ∧ SeenErased last := by
  obtain ⟨before, reply, after, log, accepted, passed⟩ := pollWith_seen link mdmApCtrl
    (fun v => v &&& mdmCtrlFlashErase ≠ mdmCtrlFlashErase) maxRetries queues done
  have cleared := congrFun erased_test (firstWord (resultsOf reply))
  rw [passed] at cleared
  exact ⟨before, _, after, log, rfl, accepted, of_decide_eq_true cleared.symm⟩

/-- The erasing part returns 0 behind a request and a reply that is taken for its end. -/
theorem erasingFlash_seen (queues : Queues (Transcript σ))
    (done : (erasingFlash link.transcript queues).1 = 0) :
    Followed Requested SeenErased (erasingFlash link.transcript queues).2.state.log := by
  have failed : ¬ (-1 : SQInteger) = 0 := by decide
  obtain ⟨reply, status, requested⟩ : ∃ reply,
      (writeAP link.transcript mdmApCtrl (mdmCtrlSysResetReq ||| mdmCtrlFlashErase) queues).1 =
        statusOf reply ∧
      (writeAP link.transcript mdmApCtrl
        (mdmCtrlSysResetReq ||| mdmCtrlFlashErase) queues).2.state.log =
        queues.state.log ++ [Exchange.mk erasePacket reply] :=
    executeStatus_transcript link (queueWriteAP mdmApCtrl
      (mdmCtrlSysResetReq ||| mdmCtrlFlashErase) (clearCmdQueue queues))
  rw [erasingFlash] at done ⊢
  simp only at done ⊢
  generalize writeAP link.transcript mdmApCtrl (mdmCtrlSysResetReq ||| mdmCtrlFlashErase) queues =
    triggered at status requested done ⊢
  have polled := pollAPNot_seen link triggered.2
  generalize pollAPNot link.transcript mdmApCtrl mdmCtrlFlashErase triggered.2 = erased
    at polled done ⊢
  split_ifs at done ⊢ with refused ended
  · exact absurd done failed
  · obtain ⟨before, last, after, log, seen⟩ := polled ended
    rw [not_not, status, statusOf_eq_ok] at refused
    have reset := setReset_idles link (show Idle (packetOf (queueReset 1)) by decide) erased.2
    have released := reset.trans (setReset_idles link idle_release _)
    have connected := released.trans (connectLoop_idles link 10 _)
    have halted := connected.trans (kinetisMdmHalt_idles link _)
    apply halted.followed
    rw [log, requested, List.append_assoc, List.append_assoc]
    exact ⟨_, _, before ++ last :: after, rfl, ⟨rfl, refused⟩, last,
      List.mem_append_right _ List.mem_cons_self, seen⟩
  · exact absurd done failed

/-- So does the whole function. -/
theorem kinetisFlasherase_seen (queues : Queues (Transcript σ))
    (done : (kinetisFlasherase link.transcript queues).1 = 0) :
    Followed Requested SeenErased (kinetisFlasherase link.transcript queues).2.state.log := by
  have failed : ¬ (-1 : SQInteger) = 0 := by decide
  rw [kinetisFlasherase] at done ⊢
  simp only at done ⊢
  split_ifs at done ⊢
  · exact absurd done failed
  · exact absurd done failed
  · exact absurd done failed
  · exact absurd done failed
  · exact absurd done failed
  · exact erasingFlash_seen link _ done

/-- Up to the end of the erase only single commands are sent. -/
theorem erased_single (queues : Queues σ) :
    ∀ exchange ∈ (kinetisFlasherase link.transcript
      (connect link.transcript queues.unwritten).2).2.state.log, Single exchange.packet := by
  have singles : AdmitsSingles Single := fun command prompt => .inr ⟨command, prompt, rfl⟩
  have scripted : Scripted Single
      (fun _ link queues => kinetisFlasherase link (connect link queues).2) :=
    fun corresponds _ _ same => erased_matches singles (.inl rfl) corresponds same
  obtain ⟨more, log, single⟩ := scripted.sends link queues.unwritten
  intro exchange member
  rw [log] at member
  exact single exchange member

/-! ### The words of the file -/

/-- The loop over words and less than a word more. -/
theorem flashLoop_course (words : List Word) {tail : List Byte} (short : tail.length < 4)
    (start : Nat) {size : Nat} (sized : size = 4 * (start + words.length) + tail.length)
    (small : size < 2 ^ 31) (queues : Queues (Transcript σ)) :
    ∃ ending queues' events,
      (targetKV10Z link.transcript).flashLoop
          { size := BitVec.ofNat 32 size, rest := words.flatMap wordBytes ++ tail }
          (BitVec.ofNat 32 (4 * start)) queues = (ending, queues') ∧
      queues'.state.log = queues.state.log ++ events ∧
      ((List.Forall₂ Programmed (longwordCalls start words) events ∧
          ending = if tail = [] then none else some .thrown) ∨
        (StopsAt Programmed Unprogrammed (longwordCalls start words) events ∧
          ending = some (.returned (-1)))) := by
  induction words generalizing start queues with
  | nil =>
      rw [List.length_nil, Nat.add_zero] at sized
      rw [List.flatMap_nil, List.nil_append, flashLoop_part _ short sized small]
      exact ⟨_, queues, [], rfl, (List.append_nil _).symm, .inl ⟨.nil, rfl⟩⟩
  | cons word words ih =>
      rw [List.length_cons] at sized
      have sized' : size = 4 * (start + 1 + words.length) + tail.length := by omega
      rw [List.flatMap_cons, List.append_assoc, flashLoop_next _ (by omega) small,
        longwordCalls_cons]
      by_cases blank : word = 0xFFFFFFFF
      · rw [if_neg (not_not.mpr blank), if_neg (not_not.mpr blank)]
        exact ih (start + 1) sized' queues
      · rw [if_pos blank, if_pos blank]
        have state := kinetisFlashLongword_state link.transcript (BitVec.ofNat 32 (4 * start)) word
          queues
        have zero := kinetisFlashLongword_eq_zero_iff link.transcript
          (BitVec.ofNat 32 (4 * start)) word queues
        have programmed : (targetKV10Z link.transcript).flashProgramLongword
            (BitVec.ofNat 32 (4 * start)) word queues =
          kinetisFlashLongword link.transcript (BitVec.ofNat 32 (4 * start)) word queues := rfl
        rw [longwordReply] at zero
        rw [programmed]
        generalize kinetisFlashLongword link.transcript (BitVec.ofNat 32 (4 * start)) word queues =
          result at state zero ⊢
        rw [Link.transcript_exchange] at state zero
        simp only at state zero ⊢
        by_cases failed : result.1 ≠ 0
        · have stops := not_not.mp (zero.not.mp failed)
          rw [if_pos failed]
          exact ⟨_, result.2, _, rfl, by rw [state], .inr ⟨stopsAt_first _ ⟨rfl, stops⟩, rfl⟩⟩
        · have goes := zero.mp (not_not.mp failed)
          rw [if_neg failed]
          obtain ⟨ending, queues', events, run, log, ends⟩ := ih (start + 1) sized' result.2
          rw [state, List.append_assoc, List.singleton_append] at log
          refine ⟨ending, queues', _, run, log, ?_⟩
          rcases ends with ⟨through, ends⟩ | ⟨stopped, ends⟩
          · exact .inl ⟨.cons ⟨rfl, goes⟩ through, ends⟩
          · exact .inr ⟨stopped.cons ⟨rfl, goes⟩, ends⟩

/-- A pulse of the reset is two packets. -/
theorem setReset_pulse (queues : Queues (Transcript σ)) :
    ∃ pulse : List Exchange,
      (setReset link.transcript 0 (setReset link.transcript 1 queues)).state.log =
        queues.state.log ++ pulse ∧
      pulse.map (·.packet) = [packetOf (queueReset 1), packetOf (queueReset 0)] := by
  obtain ⟨reply, log⟩ := setReset_transcript link 1 queues
  obtain ⟨reply', log'⟩ := setReset_transcript link 0 (setReset link.transcript 1 queues)
  exact ⟨[_, _], by rw [log', log, List.append_assoc]; rfl, rfl⟩

theorem flashProgram_course (binFile : Option BinaryFile) (queues : Queues (Transcript σ)) :
    ∃ events,
      ((targetKV10Z link.transcript).flashProgram binFile queues).2.state.log =
        queues.state.log ++ events ∧
      Programming binFile ((targetKV10Z link.transcript).flashProgram binFile queues).1 events := by
  cases binFile with
  | none => exact ⟨[], (List.append_nil _).symm, .unopened⟩
  | some file =>
      unfold FlashTarget.flashProgram
      by_cases empty : file.bytes = []
      · simp only [readblob_empty empty]
        exact ⟨[], (List.append_nil _).symm, .empty empty⟩
      · obtain ⟨split, short⟩ := wordsOf_split file.bytes
        have sized : file.bytes.length =
            4 * (0 + (wordsOf file.bytes).length) + (partOf file.bytes).length := by
          rw [Nat.zero_add, ← length_flatMap_wordBytes, ← List.length_append, ← split]
        obtain ⟨ending, queues', events, run, log, ends⟩ :=
          flashLoop_course link (wordsOf file.bytes) short 0 sized file.fits queues
        rw [← split] at run
        simp only [readblob_len empty]
        rw [show (targetKV10Z link.transcript).flashLoop { size := file.len, rest := file.bytes } 0
          queues = _ from run]
        rcases ends with ⟨through, rfl⟩ | ⟨stopped, rfl⟩
        · by_cases whole : partOf file.bytes = []
          · obtain ⟨pulse, log', pulsed⟩ := setReset_pulse link queues'
            rw [if_pos whole]
            refine ⟨events ++ pulse, ?_, .whole empty ((partOf_eq_nil_iff _).mp whole) through
              pulsed⟩
            rw [← List.append_assoc, ← log]
            exact log'
          · rw [if_neg whole]
            exact ⟨events, log, .part (fun divides => whole ((partOf_eq_nil_iff _).mpr divides))
              through⟩
        · exact ⟨events, log, .stopped stopped⟩

/-! ### Reading them back -/

theorem length_poppedWords (words : Nat) (results : List Byte) :
    (poppedWords words results).length = words := by
  induction words generalizing results with
  | zero => rfl
  | succ words ih => rw [poppedWords, List.length_cons, ih]

/-- Behind fewer than four bytes, the words are 0. -/
theorem poppedWords_short (words : Nat) {results : List Byte} (short : results.length < 4) :
    poppedWords words results = List.replicate words 0 := by
  induction words generalizing results with
  | zero => rfl
  | succ words ih =>
      have nothing : (results.drop 4).length < 4 := by
        rw [List.length_drop]
        omega
      rw [poppedWords, firstWord_short short, ih nothing, List.replicate_succ]

theorem popWords_fst (words : Nat) (queues : Queues σ) :
    (popWords words queues).1 = poppedWords words queues.resultQueue := by
  induction words generalizing queues with
  | zero => rfl
  | succ words ih =>
      rw [popWords, poppedWords]
      simp only [ih, popUInt32_fst]
      refine congrArg (firstWord queues.resultQueue :: ·) ?_
      by_cases short : queues.resultQueue.length < 4
      · have nothing : (queues.resultQueue.drop 4).length < 4 := by
          rw [List.length_drop]
          omega
        rw [popUInt32_short queues short, poppedWords_short words short,
          poppedWords_short words nothing]
      · obtain ⟨cmdQueue, _ | ⟨b0, _ | ⟨b1, _ | ⟨b2, _ | ⟨b3, rest⟩⟩⟩⟩, state⟩ := queues
        case cons.cons.cons.cons => rfl
        all_goals simp at short

/-- The chunks begin with the one that is read first. -/
theorem chunksOf_append {first rest : List Word} (few : first.length ≤ 6)
    (all : rest.length ≠ 0 → first.length = 6) (some : 0 < first.length) (address : Word) :
    chunksOf address (first ++ rest) =
      ⟨address, first⟩ :: chunksOf (address + BitVec.ofNat 32 (4 * first.length)) rest := by
  by_cases none : rest = []
  · subst none
    rw [List.append_nil]
    rcases first with _ | ⟨w0, _ | ⟨w1, _ | ⟨w2, _ | ⟨w3, _ | ⟨w4, _ | ⟨w5, _ | ⟨w6, first⟩⟩⟩⟩⟩⟩⟩
    case nil => cases some
    case cons.cons.cons.cons.cons.cons.cons =>
      simp only [List.length_cons] at few
      omega
    all_goals rfl
  · have full := all fun zero => none (List.length_eq_zero_iff.mp zero)
    obtain ⟨w0, w1, w2, w3, w4, w5, rfl⟩ : ∃ w0 w1 w2 w3 w4 w5, first = [w0, w1, w2, w3, w4, w5] := by
      rcases first with _ | ⟨w0, _ | ⟨w1, _ | ⟨w2, _ | ⟨w3, _ | ⟨w4, _ | ⟨w5, _ | ⟨w6, first⟩⟩⟩⟩⟩⟩⟩
      case cons.cons.cons.cons.cons.cons.nil => exact ⟨w0, w1, w2, w3, w4, w5, rfl⟩
      all_goals simp at full
    rfl

/-- `readMemoryWords` sends the packet of the chunk, and returns the words it pops. -/
theorem readMemoryWords_transcript (address : SQInteger) {words : Nat} (few : words ≤ 6)
    (queues : Queues (Transcript σ)) :
    ∃ reply,
      (readMemoryWords link.transcript address (BitVec.ofNat 32 words) queues).1 =
        (if statusOf reply = cmdStatusOk then .array (poppedWords words (resultsOf reply))
          else .integer (statusOf reply)) ∧
      (readMemoryWords link.transcript address (BitVec.ofNat 32 words) queues).2.state.log =
        queues.state.log ++ [⟨readPacketOf (addressesAt address words), reply⟩] := by
  have count : (BitVec.ofNat 32 words : SQInteger).toInt = words :=
    toInt_ofNat_small (by omega)
  have queued : queueReadMemoryWords words address (clearCmdQueue queues) =
      { queues with cmdQueue := readPacketOf (addressesAt address words) } :=
    queueReadMemoryWords_packet _ _ _
  have status := executeStatus_eq link.transcript
    { queues with cmdQueue := readPacketOf (addressesAt address words) }
  rw [Link.transcript_exchange] at status
  unfold readMemoryWords
  simp only at status ⊢
  rw [count, if_neg (by omega), Int.toNat_natCast, queued]
  generalize link.exchange (readPacketOf (addressesAt address words)) queues.state.state = exchanged
    at status
  generalize executeStatus link.transcript
    { queues with cmdQueue := readPacketOf (addressesAt address words) } = result at status ⊢
  subst status
  by_cases accepted : statusOf exchanged.1 = cmdStatusOk
  · rw [if_pos accepted]
    exact ⟨exchanged.1, by rw [if_pos accepted, popWords_fst], by rw [popWords_state]⟩
  · rw [if_neg accepted]
    exact ⟨exchanged.1, by rw [if_neg accepted], rfl⟩

/-- The loop over the chunks: each is read and taken for the words of the file, up to one that is
not. -/
theorem verifyLoop_course (size : SQInteger) (tail : List Byte) (words : List Word)
    (small : words.length < 2 ^ 31) (address : SQInteger) (queues : Queues (Transcript σ)) :
    ∃ ending queues' events,
      verifyLoop link.transcript { size, rest := words.flatMap wordBytes ++ tail }
        (BitVec.ofNat 32 words.length) address queues = (ending, queues') ∧
      queues'.state.log = queues.state.log ++ events ∧
      ((List.Forall₂ Confirmed (chunksOf address words) events ∧ ending = .returned 0) ∨
        (StopsAt Confirmed Denied (chunksOf address words) events ∧ ending = .returned (-1))) := by
  induction words using (measure List.length).wf.induction generalizing address queues with
  | _ words ih =>
  by_cases none : words = []
  · subst none
    rw [verifyLoop, if_neg (by decide)]
    exact ⟨_, queues, [], rfl, (List.append_nil _).symm, .inl ⟨.nil, rfl⟩⟩
  · obtain ⟨first, rest, rfl, few, all, some⟩ := chunk_of_words none
    rw [List.length_append] at small
    have shorter : rest.length < (first ++ rest).length := by
      rw [List.length_append]
      omega
    have more : (0 : SQInteger).slt (BitVec.ofNat 32 (first.length + rest.length)) = true := by
      rw [show (0 : SQInteger) = BitVec.ofNat 32 0 from rfl, slt_ofNat (by norm_num) small,
        decide_eq_true_iff]
      omega
    have count := wordCount_ofNat few all small
    have rounds : (BitVec.ofNat 32 first.length : SQInteger).toInt.toNat = first.length := by
      rw [toInt_ofNat_small (by omega), Int.toNat_natCast]
    have left : BitVec.ofNat 32 (first.length + rest.length) - BitVec.ofNat 32 first.length =
        BitVec.ofNat 32 rest.length := by
      rw [BitVec.ofNat_add, BitVec.add_comm, BitVec.add_sub_cancel]
    have next : address + BitVec.ofNat 32 first.length * 4 =
        address + BitVec.ofNat 32 (4 * first.length) := by
      rw [BitVec.ofNat_mul, BitVec.mul_comm]
      rfl
    obtain ⟨reply, value, log⟩ := readMemoryWords_transcript link address few queues
    rw [List.length_append, List.flatMap_append, List.append_assoc, verifyLoop, if_pos more,
      chunksOf_append few all some]
    simp only [count, value, rounds, left, next]
    generalize (readMemoryWords link.transcript address (BitVec.ofNat 32 first.length) queues).2 =
      read at log ⊢
    by_cases refused : Refused reply
    · rw [if_neg (not_ok refused)]
      exact ⟨_, read, _, rfl, log, .inr ⟨stopsAt_first _ ⟨rfl, fun taken => taken.1 refused⟩, rfl⟩⟩
    · rw [if_pos ((statusOf_eq_ok reply).mpr refused)]
      simp only
      rw [compareLoop_words size first _ (rest.flatMap wordBytes ++ tail) 0
        (by rw [length_poppedWords, Nat.zero_add]), List.drop_zero]
      by_cases same : first = poppedWords first.length (resultsOf reply)
      · rw [if_pos same]
        simp only
        obtain ⟨ending, queues', events, run, log', ends⟩ :=
          ih rest shorter (by omega) (address + BitVec.ofNat 32 (4 * first.length)) read
        have confirmed : Confirmed ⟨address, first⟩
            ⟨readPacketOf (addressesAt address first.length), reply⟩ := ⟨rfl, refused, same.symm⟩
        rw [log, List.append_assoc, List.singleton_append] at log'
        refine ⟨ending, queues', _, run, log', ?_⟩
        rcases ends with ⟨through, ends⟩ | ⟨stopped, ends⟩
        · exact .inl ⟨.cons confirmed through, ends⟩
        · exact .inr ⟨stopped.cons confirmed, ends⟩
      · rw [if_neg same]
        exact ⟨_, read, _, rfl, log,
          .inr ⟨stopsAt_first _ ⟨rfl, fun taken => same taken.2.symm⟩, rfl⟩⟩

theorem verifyFlash_course (binFile : Option BinaryFile) (queues : Queues (Transcript σ)) :
    ∃ events,
      (verifyFlash link.transcript binFile queues).2.state.log = queues.state.log ++ events ∧
      Verifying binFile (verifyFlash link.transcript binFile queues).1 events := by
  cases binFile with
  | none => exact ⟨[], (List.append_nil _).symm, .unopened⟩
  | some file =>
      unfold verifyFlash
      by_cases empty : file.bytes = []
      · simp only [readblob_empty empty]
        exact ⟨[], (List.append_nil _).symm, .empty empty⟩
      · have small := file.fits
        have length := length_wordsOf file.bytes
        obtain ⟨split, -⟩ := wordsOf_split file.bytes
        obtain ⟨ending, queues', events, run, log, ends⟩ := verifyLoop_course link file.len
          (partOf file.bytes) (wordsOf file.bytes) (by omega) 0 queues
        rw [← split] at run
        simp only [readblob_len empty, sdiv_len, run]
        rcases ends with ⟨through, rfl⟩ | ⟨stopped, rfl⟩
        · exact ⟨events, log, .confirmed through⟩
        · exact ⟨events, log, .denied stopped⟩

/-! ### The run -/

theorem require_zero (queues : Queues σ) (next : Queues σ → Startup × Queues σ) :
    require (.returned 0, queues) next = next queues := rfl

/-- A function that does not return 0 ends the run. -/
theorem require_failed {result : Ending × Queues σ} (failed : result.1 ≠ .returned 0)
    (next : Queues σ → Startup × Queues σ) :
    require result next = (result.1.startup, result.2) := by
  obtain ⟨ending, queues⟩ := result
  cases ending with
  | thrown => rfl
  | returned value =>
      have nonzero : value ≠ 0 := fun zero => failed (congrArg Ending.returned zero)
      simp only [require, Ending.startup, if_pos nonzero]

/-- As does the last one. -/
theorem require_last (result : Ending × Queues σ) :
    require result (fun queues => (.finished, queues)) = (result.1.startup, result.2) := by
  by_cases zero : result.1 = .returned 0
  · obtain ⟨ending, queues⟩ := result
    subst zero
    rfl
  · exact require_failed zero _

/-- An interactive run gets to its end, and does nothing but connect. -/
theorem interactive_connects (binFile : Option BinaryFile) (queues : Queues σ) :
    let run := initSystem link.transcript true binFile queues.unwritten
    run.1 = .finished ∧ ∀ exchange ∈ run.2.state.log, exchange.packet = Command.connect.bytes := by
  let kind (packet : List Byte) : Prop := packet = Command.connect.bytes
  have connects : Scripted kind (fun _ link queues => connect link queues) := by
    intro σ τ link link' related corresponds queues queues' same
    exact connectLoop_matches (show kind _ from rfl) corresponds 10 same
  obtain ⟨more, log, all⟩ := connects.sends link queues.unwritten
  refine ⟨rfl, fun exchange member => all exchange ?_⟩
  have same : exchange ∈ queues.unwritten.state.log ++ more := log ▸ member
  exact same

/-- Over any transport, a run that is not interactive follows its course. -/
theorem initSystem_course (binFile : Option BinaryFile) (queues : Queues σ) :
    let run := initSystem link.transcript false binFile queues.unwritten
    Course binFile run.1 run.2.state.log := by
  intro run
  have run_eq : run = initSystem link.transcript false binFile queues.unwritten := rfl
  clear_value run
  rw [initSystem_eq] at run_eq
  have single := erased_single link queues
  have seen := kinetisFlasherase_seen link (connect link.transcript queues.unwritten).2
  simp only at run_eq
  generalize kinetisFlasherase link.transcript (connect link.transcript queues.unwritten).2 =
    erased at single seen run_eq
  obtain ⟨value, queues₁⟩ := erased
  by_cases failed : value = 0
  · subst failed
    have done : Erased queues₁.state.log := ⟨single, seen rfl⟩
    obtain ⟨programming, log, programmed⟩ := flashProgram_course link binFile queues₁
    rw [require_zero] at run_eq
    generalize (targetKV10Z link.transcript).flashProgram binFile queues₁ = program
      at log programmed run_eq
    obtain ⟨ending, queues₂⟩ := program
    by_cases whole : ending = .returned 0
    · subst whole
      obtain ⟨verifying, log', verified⟩ := verifyFlash_course link binFile queues₂
      rw [require_zero, require_last] at run_eq
      simp only at log
      rw [run_eq, log', log]
      exact .programmed done programmed verified
    · rw [require_failed whole] at run_eq
      rw [run_eq, log]
      exact .unprogrammed done programmed whole
  · rw [require_failed fun zero => failed (Ending.returned.inj zero)] at run_eq
    rw [run_eq, Ending.startup, if_pos failed]
    exact .unerased single

end Transcripts

end Swagger.Host
