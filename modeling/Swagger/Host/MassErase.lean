/-
**The mass erase, `kinetis_flasherase`.**

The request is irreversible, so it has to be guarded by what the target has answered: the flash has
a clock and is ready, the part is not secured, the flash has the right size and is enabled
(`EraseAllowed`). And success has to be seen after it (`FlashErased`). Both are said of the packets
of a call and the replies to them (`Link.transcript`).

Two guards pass on the word 0, which is also what a script function returns without a word: the one
of the security bit, as `readAP` gives 0 for a refused read, and the end of `pollAP_not`. What is
needed of the replies is `mass_erase_iff`: the last read of `MDM_AP_STAT` before the request has
delivered a word, and every read of `MDM_AP_CTRL` is refused or delivers one. The other guards fail
on the word 0.
-/

import Swagger.Library.History
import Swagger.Host.Answers

namespace Swagger.Host

open Library

/-! ### Packets and replies -/

/-- A packet and the reply to it. -/
structure Exchange where
  packet : List Byte
  reply : Option (List Byte)
  deriving DecidableEq, Repr

/-- A transport, the packet it was given last, and what has been exchanged. -/
structure Transcript (σ : Type) where
  state : σ
  sent : List Byte
  log : List Exchange

/-- The transport with a record of the packets and the replies. -/
def Link.transcript {σ : Type} (link : Link σ) : Link (Transcript σ) where
  writePacket packet transcript :=
    let written := link.writePacket packet transcript.state
    (written.1, { transcript with state := written.2, sent := packet })
  readPacket data transcript :=
    let read := link.readPacket data transcript.state
    let exchange : Exchange := ⟨transcript.sent, if read.1 then some read.2.1 else none⟩
    (read.1, read.2.1, { transcript with state := read.2.2, log := transcript.log ++ [exchange] })
  failed_empty transcript failed := link.failed_empty transcript.state failed

/-- The queues with an empty record. -/
def Queues.unwritten {σ : Type} (queues : Queues σ) : Queues (Transcript σ) :=
  { cmdQueue := queues.cmdQueue, resultQueue := queues.resultQueue,
    state := { state := queues.state, sent := [], log := [] } }

/-- Every packet is answered, with some status and some data. -/
def Link.Answering {σ : Type} (link : Link σ) : Prop :=
  ∀ packet state, ∃ status data, (link.exchange packet state).1 = some (status :: data)

/-- A reply with the status OK and a word that passes a test. -/
def okWord (test : SQInteger → Bool) : Option (List Byte) → Bool
  | some (status :: b0 :: b1 :: b2 :: b3 :: _) => status == 0 && test (wordOfBytes b0 b1 b2 b3)
  | _ => false

/-! ### What guards the erase -/

/-- The packet is an AP write that sets `MDM_CTRL_FLASHERASE`. -/
def erases : List Byte → Bool
  | [opcode, a0, a1, a2, a3, v0, v1, v2, v3] =>
      opcode == Opcode.writeAP.code && wordOfBytes a0 a1 a2 a3 == mdmApCtrl &&
        wordOfBytes v0 v1 v2 v3 &&& mdmCtrlFlashErase != 0
  | _ => false

abbrev RequestsErase (exchange : Exchange) : Prop := erases exchange.packet = true

/-- A read that is answered OK with a word that passes a test. -/
abbrev Reads (packet : List Byte) (test : SQInteger → Bool) (exchange : Exchange) : Prop :=
  exchange.packet = packet ∧ okWord test exchange.reply = true

abbrev statPacket : List Byte := readAPPacket mdmApStat

abbrev ctrlPacket : List Byte := readAPPacket mdmApCtrl

/-- The write to `SIM_SCGC6` is answered OK. -/
def FlashClocked (exchange : Exchange) : Prop :=
  exchange.packet = packetOf (queueWriteMemory simScgc6 scgc6Ftf) ∧ Answered 0 exchange.reply

/-- `FLASHREADY` is read as set. -/
abbrev FlashReady : Exchange → Prop := Reads statPacket fun v => v &&& mdmStatFlashReady ≠ 0

/-- `SYSSECURITY` is read as clear. -/
abbrev Unsecured : Exchange → Prop := Reads statPacket fun v => v &&& mdmStatSysSecurity = 0

/-- `SIM_FCFG1` says 32 KB in sectors of 1024 bytes, and that the flash is not disabled. -/
abbrev FlashUsable : Exchange → Prop :=
  Reads (packetOf (queueReadMemory simFcfg1)) fun v =>
    psize v = 32 ∧ secsize v = 1024 ∧ v &&& 1 = 0

/-- `FLASHERASE` is read as clear. -/
abbrev FlashErased : Exchange → Prop := Reads ctrlPacket fun v => v &&& mdmCtrlFlashErase = 0

/-- What has to be exchanged before the erase is requested. -/
structure EraseAllowed (before : List Exchange) : Prop where
  clocked : ∃ exchange ∈ before, FlashClocked exchange
  unsecured : Followed FlashReady Unsecured before
  usable : ∃ exchange ∈ before, FlashUsable exchange

/-! ### What the replies have to be -/

/-- The last read of `MDM_AP_STAT` has delivered a word, unless the reads before have shown already
that the flash is ready and then that the part is not secured. -/
def SecurityAnswered (before : List Exchange) : Prop :=
  LastOf (·.packet = statPacket)
    (fun earlier last => Answered 1 last.reply ∨ Followed FlashReady Unsecured earlier) before

/-- The reads of `MDM_AP_CTRL` are refused or deliver a word. -/
def EraseEndAnswered (log : List Exchange) : Prop :=
  ∀ exchange ∈ log, exchange.packet = ctrlPacket → Complete 1 exchange.reply

/-! ### Words and replies -/

/-- What a function that reads a word returns for a reply. -/
def readValue (reply : Option (List Byte)) : SQInteger :=
  if statusOf reply = cmdStatusOk then firstWord (resultsOf reply) else 0

/-- Without a word from the target, the functions return 0. -/
theorem readValue_unanswered {reply : Option (List Byte)} (unanswered : ¬ Answered 1 reply) :
    readValue reply = 0 := by
  unfold readValue
  split_ifs with accepted
  · exact firstWord_of_not_answered ((statusOf_eq_ok reply).mp accepted) unanswered
  · rfl

theorem okWord_iff {test : SQInteger → Bool} {reply : Option (List Byte)} :
    okWord test reply = true ↔ Answered 1 reply ∧ test (readValue reply) = true := by
  constructor
  · intro passed
    unfold okWord at passed
    split at passed
    · rename_i status b0 b1 b2 b3 rest
      rw [Bool.and_eq_true, beq_iff_eq] at passed
      obtain ⟨rfl, passed⟩ := passed
      exact ⟨⟨b0 :: b1 :: b2 :: b3 :: rest, rfl, Nat.le_add_left 4 _⟩, passed⟩
    · exact absurd passed Bool.false_ne_true
  · rintro ⟨⟨results, rfl, enough⟩, passed⟩
    rcases results with _ | ⟨b0, _ | ⟨b1, _ | ⟨b2, _ | ⟨b3, results⟩⟩⟩⟩
    case cons.cons.cons.cons => exact passed
    all_goals simp at enough

/-- A test that the word 0 fails has seen a word from the target. -/
theorem okWord_of_readValue {test : SQInteger → Bool} (zeroFails : test 0 = false)
    {reply : Option (List Byte)} (passed : test (readValue reply) = true) :
    okWord test reply = true := by
  by_cases answered : Answered 1 reply
  · exact okWord_iff.mpr ⟨answered, passed⟩
  · rw [readValue_unanswered answered, zeroFails] at passed
    exact absurd passed Bool.false_ne_true

/-- A mask of one bit has all bits or none. -/
theorem and_flag_iff {flag : SQInteger} {bit : Nat} (one : flag = BitVec.twoPow 32 bit)
    (some : flag ≠ 0) (v : SQInteger) : v &&& flag = flag ↔ v &&& flag ≠ 0 := by
  rw [one, BitVec.and_twoPow]
  split_ifs
  · exact ⟨fun _ none => some (one.trans none), fun _ => rfl⟩
  · exact ⟨fun same => absurd (one.trans same.symm) some, fun none => absurd rfl none⟩

/-! ### One packet -/

section Transcripts

variable {σ : Type} (link : Link σ)

@[simp] theorem Link.transcript_exchange (packet : List Byte) (transcript : Transcript σ) :
    link.transcript.exchange packet transcript =
      let exchanged := link.exchange packet transcript.state
      (exchanged.1, { state := exchanged.2, sent := packet,
                      log := transcript.log ++ [⟨packet, exchanged.1⟩] }) := rfl

/-- A function that sends a packet for its status adds the packet and the reply. -/
theorem executeStatus_transcript (queues : Queues (Transcript σ)) :
    ∃ reply, (executeStatus link.transcript queues).1 = statusOf reply ∧
      (executeStatus link.transcript queues).2.state.log =
        queues.state.log ++ [⟨queues.cmdQueue, reply⟩] := by
  rw [executeStatus_eq]
  exact ⟨_, rfl, rfl⟩

/-- And if packets are answered, the status is OK only if the target says so. -/
theorem executeStatus_answering (answering : link.Answering) (queues : Queues (Transcript σ)) :
    ∃ reply, ((executeStatus link.transcript queues).1 = cmdStatusOk → Answered 0 reply) ∧
      (executeStatus link.transcript queues).2.state.log =
        queues.state.log ++ [⟨queues.cmdQueue, reply⟩] := by
  rw [executeStatus_eq, Link.transcript_exchange]
  simp only
  obtain ⟨status, data, reply⟩ := answering queues.cmdQueue queues.state.state
  refine ⟨_, fun accepted => ?_, rfl⟩
  rw [← complete_iff_answered ((statusOf_eq_ok _).mp accepted), reply]
  exact ⟨status, data, rfl, fun _ => Nat.zero_le _⟩

/-- A function that reads a word adds the packet and the reply. -/
theorem executeRead_transcript (queues : Queues (Transcript σ)) :
    ∃ reply, (executeRead link.transcript queues).1 = readValue reply ∧
      (executeRead link.transcript queues).2.state.log =
        queues.state.log ++ [⟨queues.cmdQueue, reply⟩] := by
  rw [executeRead, executeStatus_eq, Link.transcript_exchange]
  simp only
  generalize link.exchange queues.cmdQueue queues.state.state = exchanged
  refine ⟨exchanged.1, ?_, ?_⟩
  · unfold readValue
    split_ifs
    · exact popUInt32_fst _
    · rfl
  · split_ifs
    · rw [popUInt32_state]
    · rfl

theorem readAP_transcript (address : SQInteger) (queues : Queues (Transcript σ)) :
    ∃ reply, (readAP link.transcript address queues).1 = readValue reply ∧
      (readAP link.transcript address queues).2.state.log =
        queues.state.log ++ [⟨readAPPacket address, reply⟩] :=
  executeRead_transcript link (queueReadAP address (clearCmdQueue queues))

theorem readMemory_transcript (address : SQInteger) (queues : Queues (Transcript σ)) :
    ∃ reply, (readMemory link.transcript address queues).1 = readValue reply ∧
      (readMemory link.transcript address queues).2.state.log =
        queues.state.log ++ [⟨packetOf (queueReadMemory address), reply⟩] :=
  executeRead_transcript link (queueReadMemory address (clearCmdQueue queues))

theorem writeAP_transcript (address value : SQInteger) (queues : Queues (Transcript σ)) :
    ∃ reply, (writeAP link.transcript address value queues).2.state.log =
      queues.state.log ++ [⟨packetOf (queueWriteAP address value), reply⟩] := by
  obtain ⟨reply, _, log⟩ :=
    executeStatus_transcript link (queueWriteAP address value (clearCmdQueue queues))
  exact ⟨reply, log⟩

theorem writeMemory_answering (answering : link.Answering) (address value : SQInteger)
    (queues : Queues (Transcript σ)) :
    ∃ reply,
      ((writeMemory link.transcript address value queues).1 = cmdStatusOk → Answered 0 reply) ∧
      (writeMemory link.transcript address value queues).2.state.log =
        queues.state.log ++ [⟨packetOf (queueWriteMemory address value), reply⟩] :=
  executeStatus_answering link answering (queueWriteMemory address value (clearCmdQueue queues))

theorem setReset_transcript (value : SQInteger) (queues : Queues (Transcript σ)) :
    ∃ reply, (setReset link.transcript value queues).state.log =
      queues.state.log ++ [⟨packetOf (queueReset value), reply⟩] := by
  rw [setReset, executeCmdQueue_snd]
  exact ⟨_, rfl⟩

/-- A poll adds reads of one register. It succeeds on a word that passes its test exactly if that
test fails on the word 0 or no read comes without its word. -/
theorem pollWith_transcript (address : SQInteger) (hit : SQInteger → Bool) (rounds : Nat)
    (queues : Queues (Transcript σ)) :
    ∃ replies : List (Option (List Byte)),
      (pollWith link.transcript address hit rounds queues).2.state.log =
        queues.state.log ++ replies.map (Exchange.mk (readAPPacket address)) ∧
      (((pollWith link.transcript address hit rounds queues).1 = cmdStatusOk →
          ∃ reply ∈ replies, okWord hit reply = true) ↔
        (hit 0 = true → ∀ reply ∈ replies, Complete 1 reply)) := by
  induction rounds generalizing queues with
  | zero =>
      refine ⟨[], (List.append_nil _).symm, fun _ _ _ member => absurd member List.not_mem_nil,
        fun _ same => absurd same (show ¬ cmdStatusTimeout = cmdStatusOk by decide)⟩
  | succ rounds ih =>
      rw [pollWith_succ, Link.transcript_exchange]
      simp only
      generalize link.exchange (readAPPacket address) queues.state.state = exchanged
      obtain ⟨reply, next⟩ := exchanged
      by_cases refused : Refused reply
      · rw [if_pos (not_ok refused)]
        refine ⟨[reply], rfl, fun _ _ _ member => ?_, fun _ same => absurd same (not_ok refused)⟩
        rw [List.mem_singleton.mp member]
        exact refused.complete
      · have value : readValue reply = firstWord (resultsOf reply) :=
          if_pos ((statusOf_eq_ok reply).mpr refused)
        rw [if_neg (not_not.mpr ((statusOf_eq_ok reply).mpr refused)), ← value]
        cases passed : hit (readValue reply) with
        | true =>
            rw [if_pos rfl, popUInt32_state]
            refine ⟨[reply], rfl, ?_⟩
            simp only [forall_const, List.mem_singleton, forall_eq, exists_eq_left, okWord_iff,
              passed, and_true, complete_iff_answered refused]
            refine ⟨fun answered _ => answered, fun holds => by_contra fun unanswered => ?_⟩
            rw [readValue_unanswered unanswered] at passed
            exact unanswered (holds passed)
        | false =>
            rw [if_neg Bool.false_ne_true]
            obtain ⟨replies, log, decided⟩ := ih (popUInt32 _).2
            refine ⟨reply :: replies, ?_, ?_⟩
            · rw [log, popUInt32_state, List.append_assoc]
              rfl
            · have missed : okWord hit reply = false := Bool.eq_false_iff.mpr fun passes =>
                Bool.false_ne_true (passed.symm.trans (okWord_iff.mp passes).2)
              simp only [List.mem_cons, exists_eq_or_imp, missed, Bool.false_eq_true, false_or,
                forall_eq_or_imp]
              refine decided.trans (forall_congr' fun zeroHits => (and_iff_right ?_).symm)
              refine (complete_iff_answered refused).mpr (by_contra fun unanswered => ?_)
              rw [readValue_unanswered unanswered, zeroHits] at passed
              exact absurd passed.symm Bool.false_ne_true

/-! ### The packets around the erase -/

/-- The packet neither requests the erase nor looks for its end. -/
def Idle (packet : List Byte) : Prop := erases packet = false ∧ packet ≠ ctrlPacket

instance : DecidablePred Idle := fun packet =>
  inferInstanceAs (Decidable (erases packet = false ∧ packet ≠ ctrlPacket))

theorem idle_stat : Idle statPacket := by decide

theorem idle_release : Idle (packetOf (queueReset 0)) := by decide

theorem idle_clock : Idle (packetOf (queueWriteMemory simScgc6 scgc6Ftf)) := by decide

/-- From one record to another only such packets have been sent. -/
def Idles (before after : List Exchange) : Prop :=
  ∃ more, after = before ++ more ∧ ∀ exchange ∈ more, Idle exchange.packet

theorem Idles.refl (log : List Exchange) : Idles log log :=
  ⟨[], (List.append_nil log).symm, fun _ member => absurd member List.not_mem_nil⟩

theorem Idles.trans {before between after : List Exchange} (first : Idles before between)
    (second : Idles between after) : Idles before after := by
  obtain ⟨more, rfl, idle⟩ := first
  obtain ⟨others, rfl, idle'⟩ := second
  refine ⟨more ++ others, List.append_assoc _ _ _, fun exchange member => ?_⟩
  exact (List.mem_append.mp member).elim (idle exchange) (idle' exchange)

theorem Idles.send {before after : List Exchange} {packet : List Byte}
    {reply : Option (List Byte)} (idle : Idle packet) (sent : after = before ++ [⟨packet, reply⟩]) :
    Idles before after := by
  refine ⟨_, sent, fun exchange member => ?_⟩
  rw [List.mem_singleton.mp member]
  exact idle

/-- A record that has been empty holds such packets only. -/
theorem Idles.all {log : List Exchange} (idles : Idles [] log) :
    ∀ exchange ∈ log, Idle exchange.packet := by
  obtain ⟨more, rfl, idle⟩ := idles
  exact idle

theorem executeStatus_idles {queues : Queues (Transcript σ)} (idle : Idle queues.cmdQueue) :
    Idles queues.state.log (executeStatus link.transcript queues).2.state.log := by
  obtain ⟨reply, _, log⟩ := executeStatus_transcript link queues
  exact .send idle log

theorem executeRead_idles {queues : Queues (Transcript σ)} (idle : Idle queues.cmdQueue) :
    Idles queues.state.log (executeRead link.transcript queues).2.state.log := by
  obtain ⟨reply, _, log⟩ := executeRead_transcript link queues
  exact .send idle log

theorem setReset_idles {value : SQInteger} (idle : Idle (packetOf (queueReset value)))
    (queues : Queues (Transcript σ)) :
    Idles queues.state.log (setReset link.transcript value queues).state.log := by
  obtain ⟨reply, log⟩ := setReset_transcript link value queues
  exact .send idle log

theorem readAP_idles {address : SQInteger} (idle : Idle (readAPPacket address))
    (queues : Queues (Transcript σ)) :
    Idles queues.state.log (readAP link.transcript address queues).2.state.log :=
  executeRead_idles link idle

theorem writeAP_idles {address value : SQInteger}
    (idle : Idle (packetOf (queueWriteAP address value))) (queues : Queues (Transcript σ)) :
    Idles queues.state.log (writeAP link.transcript address value queues).2.state.log :=
  executeStatus_idles link idle

theorem readMemory_idles {address : SQInteger} (idle : Idle (packetOf (queueReadMemory address)))
    (queues : Queues (Transcript σ)) :
    Idles queues.state.log (readMemory link.transcript address queues).2.state.log :=
  executeRead_idles link idle

theorem writeMemory_idles {address value : SQInteger}
    (idle : Idle (packetOf (queueWriteMemory address value))) (queues : Queues (Transcript σ)) :
    Idles queues.state.log (writeMemory link.transcript address value queues).2.state.log :=
  executeStatus_idles link idle

theorem readCoreRegister_idles {regID : SQInteger}
    (idle : Idle (packetOf (queueWriteMemory scsDcrsr regID))) (queues : Queues (Transcript σ)) :
    Idles queues.state.log (readCoreRegister link.transcript regID queues).2.state.log :=
  (writeMemory_idles link idle queues).trans (readMemory_idles link (by decide) _)

theorem readStat_idles (queues : Queues (Transcript σ)) :
    Idles queues.state.log (readStat link.transcript queues).2.state.log :=
  executeRead_idles link (show Idle (packetOf queueReadStat) by decide)

/-- Every round of the power-up reads the status. -/
theorem debugPowerLoop_idles (timeouts : Nat) (queues : Queues (Transcript σ)) :
    Idles queues.state.log (debugPowerLoop link.transcript timeouts queues).2.state.log := by
  induction timeouts generalizing queues with
  | zero =>
      rw [debugPowerLoop]
      split_ifs
      · exact readStat_idles link queues
      · exact readStat_idles link queues
  | succ timeouts ih =>
      rw [debugPowerLoop]
      split_ifs
      · exact (readStat_idles link queues).trans (ih _)
      · exact readStat_idles link queues

theorem kinetisEnableDebugPower_idles (queues : Queues (Transcript σ)) :
    Idles queues.state.log (kinetisEnableDebugPower link.transcript queues).2.state.log :=
  have requested : Idles queues.state.log
      (writeStat link.transcript 0x50000000 queues).2.state.log :=
    executeStatus_idles link (show Idle (packetOf (queueWriteStat 0x50000000)) by decide)
  requested.trans (debugPowerLoop_idles link 100 _)

/-- Halting the core writes `MDM_AP_CTRL`, but without the erase bit. -/
theorem kinetisMdmHalt_idles (queues : Queues (Transcript σ)) :
    Idles queues.state.log (kinetisMdmHalt link.transcript queues).2.state.log := by
  have powered := kinetisEnableDebugPower_idles link queues
  have debugged := powered.trans (@writeMemory_idles σ link scsDhcsr
    (dhcsrDbgKey ||| cDebugEn ||| cHalt ||| cMaskInts) (by decide) _)
  have released := debugged.trans (@writeAP_idles σ link mdmApCtrl mdmCtrlDebugReq (by decide) _)
  have result := released.trans (readAP_idles link idle_stat _)
  have pc := result.trans (@readCoreRegister_idles σ link 15 (by decide) _)
  have msp := pc.trans (@readCoreRegister_idles σ link dcrsrRegMsp (by decide) _)
  rw [kinetisMdmHalt]
  simp only
  split_ifs
  · exact powered
  · exact debugged
  · exact released
  · exact msp
  · exact result

theorem connectLoop_idles (rounds : Nat) (queues : Queues (Transcript σ)) :
    Idles queues.state.log (connectLoop link.transcript rounds queues).2.state.log := by
  induction rounds generalizing queues with
  | zero => exact .refl _
  | succ rounds ih =>
      rw [connectLoop_succ, Link.transcript_exchange]
      simp only
      generalize link.exchange (packetOf queueConnect) queues.state.state = exchanged
      have sent : Idles queues.state.log
          (queues.state.log ++ [⟨packetOf queueConnect, exchanged.1⟩]) := .send (by decide) rfl
      split_ifs
      · rw [popUInt32_state]
        exact sent
      · apply sent.trans
        convert ih _ using 1
        rw [popUInt32_state]

/-! ### The erase and its end -/

/-- The packet that requests the erase. -/
abbrev erasePacket : List Byte :=
  packetOf (queueWriteAP mdmApCtrl (mdmCtrlSysResetReq ||| mdmCtrlFlashErase))

/-- The record of a call that got to the request: other packets, the request, the reads of
`MDM_AP_CTRL`, and other packets again. -/
def eraseLog (before : List Exchange) (reply : Option (List Byte))
    (polls : List (Option (List Byte))) (more : List Exchange) : List Exchange :=
  before ++ ⟨erasePacket, reply⟩ :: (polls.map (Exchange.mk ctrlPacket) ++ more)

section Log

variable {before more : List Exchange} {reply : Option (List Byte)}
  {polls : List (Option (List Byte))} (idle : ∀ exchange ∈ before, Idle exchange.packet)
  (idle' : ∀ exchange ∈ more, Idle exchange.packet)

include idle idle'

/-- There is one request in it, so that what is said of a request is said of this one. -/
theorem guarded_eraseLog (allowed : List Exchange → Prop) :
    Guarded RequestsErase allowed (eraseLog before reply polls more) ↔ allowed before := by
  have requests : erases erasePacket = true := by decide
  refine guarded_once requests (fun other member => ?_) fun other member => ?_
  · exact Bool.eq_false_iff.mp (idle other member).1
  · rcases List.mem_append.mp member with poll | rest
    · obtain ⟨answer, _, rfl⟩ := List.mem_map.mp poll
      exact Bool.eq_false_iff.mp (show erases ctrlPacket = false by decide)
    · exact Bool.eq_false_iff.mp (idle' other rest).1

/-- The reads of `MDM_AP_CTRL` in it are the polls. -/
theorem poll_of_ctrl {exchange : Exchange}
    (member : exchange ∈ eraseLog before reply polls more) (ctrl : exchange.packet = ctrlPacket) :
    ∃ answer ∈ polls, exchange = ⟨ctrlPacket, answer⟩ := by
  rcases List.mem_append.mp member with early | late
  · exact absurd ctrl (idle exchange early).2
  rcases List.mem_cons.mp late with rfl | late
  · exact absurd ctrl (show erasePacket ≠ ctrlPacket by decide)
  rcases List.mem_append.mp late with poll | rest
  · obtain ⟨answer, isPoll, rfl⟩ := List.mem_map.mp poll
    exact ⟨answer, isPoll, rfl⟩
  · exact absurd ctrl (idle' exchange rest).2

theorem eraseEndAnswered_eraseLog :
    EraseEndAnswered (eraseLog before reply polls more) ↔
      ∀ answer ∈ polls, Complete 1 answer := by
  constructor
  · intro answered answer member
    exact answered ⟨ctrlPacket, answer⟩ (List.mem_append_right _ (List.mem_cons_of_mem _
      (List.mem_append_left _ (List.mem_map_of_mem member)))) rfl
  · intro complete exchange member ctrl
    obtain ⟨answer, isPoll, rfl⟩ := poll_of_ctrl idle idle' member ctrl
    exact complete answer isPoll

theorem followed_eraseLog :
    Followed RequestsErase FlashErased (eraseLog before reply polls more) ↔
      ∃ answer ∈ polls, okWord (fun v => v &&& mdmCtrlFlashErase = 0) answer = true := by
  constructor
  · rintro ⟨earlier, request, later, same, requests, other, member, ctrl, cleared⟩
    have inside : other ∈ eraseLog before reply polls more := by
      rw [same]
      exact List.mem_append_right _ (List.mem_cons_of_mem _ member)
    obtain ⟨answer, isPoll, rfl⟩ := poll_of_ctrl idle idle' inside ctrl
    exact ⟨answer, isPoll, cleared⟩
  · rintro ⟨answer, member, cleared⟩
    refine ⟨before, _, _, rfl, show erases erasePacket = true by decide, ⟨ctrlPacket, answer⟩, ?_,
      rfl, cleared⟩
    exact List.mem_append_left _ (List.mem_map_of_mem member)

end Log

/-- The two ways to test for the end of the erase. -/
theorem erased_test : (fun v : SQInteger => decide (v &&& mdmCtrlFlashErase ≠ mdmCtrlFlashErase)) =
    fun v => decide (v &&& mdmCtrlFlashErase = 0) := by
  funext v
  have same := and_flag_iff (show mdmCtrlFlashErase = BitVec.twoPow 32 0 by decide) (by decide) v
  exact decide_eq_decide.mpr (same.not.trans not_not)

/-- The wait for the end of the erase. -/
theorem pollAPNot_transcript (queues : Queues (Transcript σ)) :
    ∃ polls : List (Option (List Byte)),
      (pollAPNot link.transcript mdmApCtrl mdmCtrlFlashErase queues).2.state.log =
        queues.state.log ++ polls.map (Exchange.mk ctrlPacket) ∧
      (((pollAPNot link.transcript mdmApCtrl mdmCtrlFlashErase queues).1 = 0 →
          ∃ answer ∈ polls, okWord (fun v => v &&& mdmCtrlFlashErase = 0) answer = true) ↔
        ∀ answer ∈ polls, Complete 1 answer) := by
  obtain ⟨polls, log, decided⟩ := pollWith_transcript link mdmApCtrl
    (fun v => v &&& mdmCtrlFlashErase ≠ mdmCtrlFlashErase) maxRetries queues
  refine ⟨polls, log, ?_⟩
  rw [← erased_test, pollAPNot]
  exact decided.trans ⟨fun complete => complete rfl, fun complete _ => complete⟩

/-- The erasing part sends the request, and then it reports success for a read of `MDM_AP_CTRL` that
shows the end of the erase exactly if none of these reads comes without its word. -/
theorem erasingFlash_transcript (queues : Queues (Transcript σ)) :
    ∃ reply polls more,
      (erasingFlash link.transcript queues).2.state.log =
        eraseLog queues.state.log reply polls more ∧
      (∀ exchange ∈ more, Idle exchange.packet) ∧
      (((erasingFlash link.transcript queues).1 = 0 →
          ∃ answer ∈ polls, okWord (fun v => v &&& mdmCtrlFlashErase = 0) answer = true) ↔
        ∀ answer ∈ polls, Complete 1 answer) := by
  have failed : ¬ (-1 : SQInteger) = 0 := by decide
  obtain ⟨reply, requested⟩ := writeAP_transcript link mdmApCtrl
    (mdmCtrlSysResetReq ||| mdmCtrlFlashErase) queues
  rw [erasingFlash]
  simp only
  generalize writeAP link.transcript mdmApCtrl (mdmCtrlSysResetReq ||| mdmCtrlFlashErase) queues =
    triggered at requested ⊢
  obtain ⟨polls, polled, decided⟩ := pollAPNot_transcript link triggered.2
  rw [requested, List.append_assoc] at polled
  generalize pollAPNot link.transcript mdmApCtrl mdmCtrlFlashErase triggered.2 = erased
    at polled decided ⊢
  split_ifs with refused ended
  · exact ⟨reply, [], [], requested, fun _ member => absurd member List.not_mem_nil,
      fun _ _ member => absurd member List.not_mem_nil, fun _ same => absurd same failed⟩
  · have reset := setReset_idles link (show Idle (packetOf (queueReset 1)) by decide) erased.2
    have released := reset.trans
      (setReset_idles link idle_release _)
    have connected := released.trans (connectLoop_idles link 10 _)
    obtain ⟨more, log, idle⟩ := connected.trans (kinetisMdmHalt_idles link _)
    rw [polled, List.append_assoc] at log
    exact ⟨reply, polls, more, log, idle,
      Iff.trans ⟨fun seen _ => seen rfl, fun seen _ => seen ended⟩ decided⟩
  · refine ⟨reply, polls, [], polled.trans ?_, fun _ member => absurd member List.not_mem_nil, ?_⟩
    · rw [eraseLog, List.append_nil]
      rfl
    · exact Iff.trans ⟨fun _ same => absurd same ended, fun _ same => absurd same failed⟩ decided

/-! ### The guards -/

abbrev fcfg1Packet : List Byte := packetOf (queueReadMemory simFcfg1)

theorem idle_fcfg1 : Idle fcfg1Packet := by decide

/-- What a call has seen when it gets to the erase: the exchanges up to the end of the poll for
`FLASHREADY`, and the replies to the last two reads. -/
structure Checked (earlier : List Exchange) (security fcfg1 : Option (List Byte)) : Prop where
  idle : ∀ exchange ∈ earlier, Idle exchange.packet
  clocked : ∃ exchange ∈ earlier, FlashClocked exchange
  ready : ∃ exchange ∈ earlier, FlashReady exchange
  unsecured : readValue security &&& mdmStatSysSecurity = 0
  usable : FlashUsable ⟨fcfg1Packet, fcfg1⟩

/-- The exchanges before the request. -/
abbrev checkedLog (earlier : List Exchange) (security fcfg1 : Option (List Byte)) :
    List Exchange :=
  earlier ++ [⟨statPacket, security⟩, ⟨fcfg1Packet, fcfg1⟩]

section Guards

variable {earlier : List Exchange} {security fcfg1 : Option (List Byte)}

theorem Checked.idle_checkedLog (checked : Checked earlier security fcfg1) :
    ∀ exchange ∈ checkedLog earlier security fcfg1, Idle exchange.packet := by
  intro exchange member
  rcases List.mem_append.mp member with early | last
  · exact checked.idle exchange early
  · rcases List.mem_pair.mp last with rfl | rfl
    · exact idle_stat
    · exact idle_fcfg1

/-- The last read of `MDM_AP_STAT` is the one of the security bit. -/
theorem securityAnswered_checkedLog :
    SecurityAnswered (checkedLog earlier security fcfg1) ↔
      Answered 1 security ∨ Followed FlashReady Unsecured earlier := by
  refine lastOf_append_cons rfl fun other member => ?_
  rw [List.mem_singleton.mp member]
  exact show fcfg1Packet ≠ statPacket by decide

/-- A word with the bit clear is what the guard lets through, and the word 0 as well. -/
theorem Checked.unsecured_iff (checked : Checked earlier security fcfg1) :
    Unsecured ⟨statPacket, security⟩ ↔ Answered 1 security := by
  unfold Unsecured Reads
  rw [okWord_iff]
  exact ⟨fun read => read.2.1, fun answered => ⟨rfl, answered, decide_eq_true checked.unsecured⟩⟩

/-- Once a call gets to the request, the erase is allowed if the security bit has been read. -/
theorem Checked.eraseAllowed_iff (checked : Checked earlier security fcfg1) :
    EraseAllowed (checkedLog earlier security fcfg1) ↔
      SecurityAnswered (checkedLog earlier security fcfg1) := by
  have other : ¬ Unsecured ⟨fcfg1Packet, fcfg1⟩ := fun read =>
    absurd read.1 (show fcfg1Packet ≠ statPacket by decide)
  have followed : Followed FlashReady Unsecured (checkedLog earlier security fcfg1) ↔
      Answered 1 security ∨ Followed FlashReady Unsecured earlier := by
    unfold checkedLog
    rw [List.append_cons, followed_concat, or_iff_left fun both => other both.2, followed_concat,
      checked.unsecured_iff, and_iff_right checked.ready, or_comm]
  rw [securityAnswered_checkedLog, ← followed]
  constructor
  · exact EraseAllowed.unsecured
  · intro unsecured
    obtain ⟨clock, isEarlier, clocked⟩ := checked.clocked
    exact ⟨⟨clock, List.mem_append_left _ isEarlier, clocked⟩, unsecured,
      ⟨fcfg1Packet, fcfg1⟩, List.mem_append_right _ (List.mem_cons_of_mem _ List.mem_cons_self),
      checked.usable⟩

end Guards

/-- The wait for the flash ends on a word with the bit set. -/
theorem pollAP_transcript (queues : Queues (Transcript σ)) :
    ∃ polls : List (Option (List Byte)),
      (pollAP link.transcript mdmApStat mdmStatFlashReady queues).2.state.log =
        queues.state.log ++ polls.map (Exchange.mk statPacket) ∧
      ((pollAP link.transcript mdmApStat mdmStatFlashReady queues).1 = cmdStatusOk →
        ∃ answer ∈ polls, okWord (fun v => v &&& mdmStatFlashReady ≠ 0) answer = true) := by
  have test : (fun v : SQInteger => decide (v &&& mdmStatFlashReady = mdmStatFlashReady)) =
      fun v => decide (v &&& mdmStatFlashReady ≠ 0) := by
    funext v
    exact decide_eq_decide.mpr
      (and_flag_iff (show mdmStatFlashReady = BitVec.twoPow 32 1 by decide) (by decide) v)
  obtain ⟨polls, log, decided⟩ := pollWith_transcript link mdmApStat
    (fun v => v &&& mdmStatFlashReady ≠ 0) maxRetries queues
  rw [pollAP, test]
  exact ⟨polls, log, decided.mpr fun zeroHits => absurd zeroHits (by decide)⟩

/-- Up to the end of the poll, the record shows the flash clock and the flash ready. -/
theorem flashReady_checked (answering : link.Answering) {queues : Queues (Transcript σ)}
    (idles : Idles [] queues.state.log) :
    let clocked := writeMemory link.transcript simScgc6 scgc6Ftf queues
    let ready := pollAP link.transcript mdmApStat mdmStatFlashReady clocked.2
    Idles [] clocked.2.state.log ∧ Idles [] ready.2.state.log ∧
      (clocked.1 = cmdStatusOk → ready.1 = cmdStatusOk →
        (∃ exchange ∈ ready.2.state.log, FlashClocked exchange) ∧
          ∃ exchange ∈ ready.2.state.log, FlashReady exchange) := by
  intro clocked ready
  obtain ⟨clock, accepted, clockLog⟩ :=
    writeMemory_answering link answering simScgc6 scgc6Ftf queues
  obtain ⟨polls, pollLog, seen⟩ := pollAP_transcript link clocked.2
  have idleClock : Idles [] clocked.2.state.log := idles.trans (.send idle_clock clockLog)
  refine ⟨idleClock, idleClock.trans ⟨_, pollLog, fun exchange member => ?_⟩, fun ok isReady => ?_⟩
  · obtain ⟨answer, _, rfl⟩ := List.mem_map.mp member
    exact idle_stat
  · obtain ⟨answer, isPoll, word⟩ := seen isReady
    rw [show ready.2.state.log = _ from pollLog, show clocked.2.state.log = _ from clockLog]
    refine ⟨⟨_, List.mem_append_left _ (List.mem_append_right _ List.mem_cons_self), rfl,
      accepted ok⟩, ⟨statPacket, answer⟩, ?_, rfl, word⟩
    exact List.mem_append_right _ (List.mem_map_of_mem isPoll)

/-- The checks of the size and of the enable bit fail on the word 0. -/
theorem flashUsable_of_checks {fcfg1 : Option (List Byte)}
    (size : ¬ (psize (readValue fcfg1) ≠ 32 ∨ secsize (readValue fcfg1) ≠ 1024))
    (enabled : ¬ readValue fcfg1 &&& 1 = 1) : FlashUsable ⟨fcfg1Packet, fcfg1⟩ := by
  obtain ⟨kilobytes, sector⟩ := not_or.mp size
  have clear : readValue fcfg1 &&& 1 = 0 := by_contra fun set =>
    enabled ((and_flag_iff (show (1 : SQInteger) = BitVec.twoPow 32 0 by decide) (by decide)
      (readValue fcfg1)).mpr set)
  refine ⟨rfl, okWord_of_readValue (by decide) (decide_eq_true ⟨?_, ?_, clear⟩)⟩
  · exact not_not.mp kilobytes
  · exact not_not.mp sector

/-- A call either fails before the request, or gets there with everything seen that it checks. -/
theorem kinetisFlasherase_cases (answering : link.Answering) (queues : Queues σ) :
    let run := kinetisFlasherase link.transcript queues.unwritten
    (run.1 ≠ 0 ∧ ∀ exchange ∈ run.2.state.log, Idle exchange.packet) ∨
      ∃ earlier security fcfg1 reply polls more, Checked earlier security fcfg1 ∧
        run.2.state.log = eraseLog (checkedLog earlier security fcfg1) reply polls more ∧
        (∀ exchange ∈ more, Idle exchange.packet) ∧
        ((run.1 = 0 →
            ∃ answer ∈ polls, okWord (fun v => v &&& mdmCtrlFlashErase = 0) answer = true) ↔
          ∀ answer ∈ polls, Complete 1 answer) := by
  intro run
  have run_eq : run = kinetisFlasherase link.transcript queues.unwritten := rfl
  clear_value run
  rw [kinetisFlasherase] at run_eq
  simp only at run_eq
  have started : Idles [] (kinetisMdmHalt link.transcript
      (setReset link.transcript 0 queues.unwritten)).2.state.log :=
    (setReset_idles link idle_release queues.unwritten).trans
      (kinetisMdmHalt_idles link _)
  generalize kinetisMdmHalt link.transcript _ = halted at started run_eq
  obtain ⟨beforePoll, beforeSecurity, seen⟩ := flashReady_checked link answering started
  generalize writeMemory link.transcript simScgc6 scgc6Ftf halted.2 = clocked
    at beforePoll beforeSecurity seen run_eq
  generalize pollAP link.transcript mdmApStat mdmStatFlashReady clocked.2 = ready
    at beforeSecurity seen run_eq
  obtain ⟨security, securityValue, securityLog⟩ := readAP_transcript link mdmApStat ready.2
  have beforeSize := beforeSecurity.trans (.send idle_stat securityLog)
  generalize readAP link.transcript mdmApStat ready.2 = securityRun
    at securityValue securityLog beforeSize run_eq
  obtain ⟨fcfg1, fcfg1Value, fcfg1Log⟩ := readMemory_transcript link simFcfg1 securityRun.2
  have beforeErase := beforeSize.trans (.send idle_fcfg1 fcfg1Log)
  generalize readMemory link.transcript simFcfg1 securityRun.2 = fcfg1Run
    at fcfg1Value fcfg1Log beforeErase run_eq
  have failed : ¬ (-1 : SQInteger) = 0 := by decide
  split_ifs at run_eq with unclocked unready secured wrongSize disabled
  · exact .inl (run_eq ▸ ⟨failed, beforePoll.all⟩)
  · exact .inl (run_eq ▸ ⟨failed, beforeSecurity.all⟩)
  · exact .inl (run_eq ▸ ⟨failed, beforeSize.all⟩)
  · exact .inl (run_eq ▸ ⟨failed, beforeErase.all⟩)
  · exact .inl (run_eq ▸ ⟨failed, beforeErase.all⟩)
  · obtain ⟨reply, answers, more, log, idle, decided⟩ := erasingFlash_transcript link fcfg1Run.2
    obtain ⟨isClocked, isReady⟩ := seen (not_not.mp unclocked) (not_not.mp unready)
    rw [fcfg1Log, securityLog, List.append_assoc] at log
    rw [securityValue, not_not] at secured
    rw [fcfg1Value] at wrongSize disabled
    rw [← run_eq] at log decided
    exact .inr ⟨ready.2.state.log, security, fcfg1, reply, answers, more,
      ⟨beforeSecurity.all, isClocked, isReady, secured,
        flashUsable_of_checks wrongSize disabled⟩, log, idle, decided⟩

end Transcripts

/-! ### Calls with the replies given -/

/-- A programmer that delivers these replies, and time-outs when there are none left. -/
def scripted : Link (List (Byte × List Byte)) where
  writePacket _ script := (true, script)
  readPacket _ script :=
    match script with
    | [] => (true, [1], [])
    | (status, data) :: rest => (true, status :: data, rest)
  failed_empty script failed := by
    cases script with
    | nil => exact nomatch failed
    | cons reply rest => exact nomatch failed

theorem scripted_answering : scripted.Answering := by
  intro packet script
  cases script with
  | nil => exact ⟨1, [], rfl⟩
  | cons reply rest => exact ⟨reply.1, reply.2, rfl⟩

/-- A part that is not halted but ready, of the right size and enabled, and at the end refuses to be
halted. The replies to the read of the security bit and to that of the erase bit are left open. -/
def eraseScript (security erased : Byte × List Byte) : List (Byte × List Byte) :=
  [(0, []), (0, []), (0, [0, 0, 0, 0xF0]), (0, []), (0, []), (0, [0, 0, 0, 0]), (0, []),
    (0, [2, 0, 0, 0]), security, (0, [0, 0, 0, 3]), (0, []), erased, (0, []), (0, []),
    (0, [0x77, 0x14, 0xC1, 0x0B]), (0, []), (0, [0, 0, 0, 0xF0]), (2, [])]

/-- A call with these replies. -/
def eraseCall (security erased : Byte × List Byte) :
    SQInteger × Queues (Transcript (List (Byte × List Byte))) :=
  let queues : Queues (List (Byte × List Byte)) :=
    { cmdQueue := [], resultQueue := [], state := eraseScript security erased }
  kinetisFlasherase scripted.transcript queues.unwritten

/-- The exchanges up to the end of the poll for `FLASHREADY`. -/
def readyLog : List Exchange :=
  [⟨packetOf (queueReset 0), some [0]⟩, ⟨packetOf (queueWriteStat 0x50000000), some [0]⟩,
    ⟨packetOf queueReadStat, some [0, 0, 0, 0, 0xF0]⟩,
    ⟨packetOf (queueWriteMemory scsDhcsr (dhcsrDbgKey ||| cDebugEn ||| cHalt ||| cMaskInts)),
      some [0]⟩,
    ⟨packetOf (queueWriteAP mdmApCtrl mdmCtrlDebugReq), some [0]⟩,
    ⟨statPacket, some [0, 0, 0, 0, 0]⟩,
    ⟨packetOf (queueWriteMemory simScgc6 scgc6Ftf), some [0]⟩,
    ⟨statPacket, some [0, 2, 0, 0, 0]⟩]

/-- The exchanges after the erase. -/
def resetLog : List Exchange :=
  [⟨packetOf (queueReset 1), some [0]⟩, ⟨packetOf (queueReset 0), some [0]⟩,
    ⟨packetOf queueConnect, some [0, 0x77, 0x14, 0xC1, 0x0B]⟩,
    ⟨packetOf (queueWriteStat 0x50000000), some [0]⟩,
    ⟨packetOf queueReadStat, some [0, 0, 0, 0, 0xF0]⟩,
    ⟨packetOf (queueWriteMemory scsDhcsr (dhcsrDbgKey ||| cDebugEn ||| cHalt ||| cMaskInts)),
      some [2]⟩]

theorem idle_readyLog : ∀ exchange ∈ readyLog, Idle exchange.packet := by decide

theorem idle_resetLog : ∀ exchange ∈ resetLog, Idle exchange.packet := by decide

/-- 32 KB in sectors of 1024 bytes, enabled. -/
def fcfg1Reply : Option (List Byte) := some [0, 0, 0, 0, 3]

/-- The checks pass with every reply that is read as a word without the security bit. -/
theorem checked_script (security : Option (List Byte))
    (unsecured : readValue security &&& mdmStatSysSecurity = 0) :
    Checked readyLog security fcfg1Reply where
  idle := idle_readyLog
  clocked := ⟨⟨packetOf (queueWriteMemory simScgc6 scgc6Ftf), some [0]⟩, by decide, rfl,
    [], rfl, Nat.zero_le _⟩
  ready := by decide
  unsecured := unsecured
  usable := by decide

/-! ### The result -/

/-- **The erase is guarded, and success has been seen, exactly if the guards get their words.** -/
theorem mass_erase_iff {σ : Type} (link : Link σ) (answering : link.Answering) (queues : Queues σ) :
    let run := kinetisFlasherase link.transcript queues.unwritten
    let log := run.2.state.log
    (Guarded RequestsErase EraseAllowed log ∧
        (run.1 = 0 → Followed RequestsErase FlashErased log)) ↔
      (Guarded RequestsErase SecurityAnswered log ∧ EraseEndAnswered log) := by
  intro run log
  rcases kinetisFlasherase_cases link answering queues with ⟨failed, idle⟩ |
    ⟨earlier, security, fcfg1, reply, polls, more, checked, same, idle, decided⟩
  · have quiet : ∀ exchange ∈ log, ¬ RequestsErase exchange := fun exchange member =>
      Bool.eq_false_iff.mp (idle exchange member).1
    refine ⟨fun _ => ⟨guarded_of_not quiet, fun exchange member ctrl => ?_⟩,
      fun _ => ⟨guarded_of_not quiet, fun done => absurd done failed⟩⟩
    exact absurd ctrl (idle exchange member).2
  · have before := checked.idle_checkedLog
    rw [show log = _ from same, guarded_eraseLog before idle, guarded_eraseLog before idle,
      eraseEndAnswered_eraseLog before idle, followed_eraseLog before idle,
      checked.eraseAllowed_iff]
    exact and_congr_right fun _ => decided

/-- A call in which the target has said everything that guards the erase, and that it has ended. -/
theorem mass_erase_answered :
    let run := eraseCall (0, [2, 0, 0, 0]) (0, [0, 0, 0, 0])
    run.1 = 0 ∧ Guarded RequestsErase EraseAllowed run.2.state.log ∧
      Followed RequestsErase FlashErased run.2.state.log := by
  intro run
  have log : run.2.state.log =
      eraseLog (checkedLog readyLog (some [0, 2, 0, 0, 0]) fcfg1Reply) (some [0])
        [some [0, 0, 0, 0, 0]] resetLog := by decide +kernel
  have done : run.1 = 0 := by decide +kernel
  have before := (checked_script (some [0, 2, 0, 0, 0]) (by decide)).idle_checkedLog
  have enough : Guarded RequestsErase SecurityAnswered run.2.state.log ∧
      EraseEndAnswered run.2.state.log := by
    rw [log, guarded_eraseLog before idle_resetLog, securityAnswered_checkedLog,
      eraseEndAnswered_eraseLog before idle_resetLog]
    refine ⟨.inl ⟨[2, 0, 0, 0], rfl, by decide⟩, fun answer member => ?_⟩
    rw [List.mem_singleton.mp member]
    exact ⟨0, [0, 0, 0, 0], rfl, fun _ => by decide⟩
  have holds := (mass_erase_iff scripted scripted_answering _).mpr enough
  exact ⟨done, holds.1, holds.2 done⟩

/-- A target that refuses the read of the security bit and has no word for the erase bit is erased,
and success is reported. -/
theorem mass_erase_unguarded :
    let run := eraseCall (2, []) (0, [])
    scripted.Answering ∧ run.1 = 0 ∧ ¬ Guarded RequestsErase EraseAllowed run.2.state.log ∧
      ¬ Followed RequestsErase FlashErased run.2.state.log := by
  intro run
  have log : run.2.state.log =
      eraseLog (checkedLog readyLog (some [2]) fcfg1Reply) (some [0]) [some [0]] resetLog := by
    decide +kernel
  have before := (checked_script (some [2]) (by decide)).idle_checkedLog
  rw [log, guarded_eraseLog before idle_resetLog, followed_eraseLog before idle_resetLog]
  refine ⟨scripted_answering, by decide +kernel, fun allowed => ?_, by decide⟩
  exact absurd allowed.unsecured (by decide +kernel)

end Swagger.Host
