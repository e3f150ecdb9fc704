/-
**Which status codes a reply can carry.**

The driver returns OK, TIMEOUT or SWD FAULT, whatever the target answers
(`arduinoSWDInterface_returns`); the program adds RX OVERFLOW and UNKNOWN CMD. So in every run each
reply carries one of these five (`Device.run_statuses`), and PROTO ERR, which the protocol has as
well, is never sent (`never_protoErr`).
-/

import Swagger.Firmware.Safety
import Swagger.Firmware.Results

namespace Swagger.Firmware

open Library

/-! ### The driver -/

/-- The status codes of the driver. -/
def driverStatuses : List Byte := [Status.ok.code, Status.timeout.code, Status.swdFault.code]

/-- Every operation returns one of the status codes. -/
structure Driver.Returns {σ : Type} (driver : Driver σ) (statuses : List Byte) : Prop where
  tryConnect : ∀ state, (driver.tryConnect state).1 ∈ statuses
  readDP : ∀ address state, (driver.readDP address state).1 ∈ statuses
  writeDP : ∀ address data state, (driver.writeDP address data state).1 ∈ statuses
  readAP : ∀ address state, (driver.readAP address state).1 ∈ statuses
  writeAP : ∀ address data state, (driver.writeAP address data state).1 ∈ statuses
  readMemory : ∀ address state, (driver.readMemory address state).1 ∈ statuses
  writeMemory : ∀ address data state, (driver.writeMemory address data state).1 ∈ statuses

section MidLevel

open MidLevel

variable {σ : Type} (port : SwdPort σ)

theorem ok_mem : Status.ok.code ∈ driverStatuses := by decide

theorem timeout_mem : Status.timeout.code ∈ driverStatuses := by decide

theorem statusOfAck_mem (ack : Byte) : statusOfAck ack ∈ driverStatuses := by
  unfold statusOfAck
  split_ifs
  · exact ok_mem
  · decide

theorem retryWrite_mem (apNotDp : Bool) (address data : Word) (retries : Nat)
    (state : MidLevel σ) :
    (retryWrite port apNotDp address data retries state).1 ∈ driverStatuses := by
  induction retries generalizing state with
  | zero => exact timeout_mem
  | succ retries ih =>
      unfold retryWrite
      simp only
      split_ifs
      · exact ih _
      · exact statusOfAck_mem _

theorem retryRead_mem (apNotDp : Bool) (address : Word) (retries : Nat) (state : MidLevel σ) :
    (retryRead port apNotDp address retries state).1 ∈ driverStatuses := by
  induction retries generalizing state with
  | zero => exact timeout_mem
  | succ retries ih =>
      unfold retryRead
      simp only
      split_ifs
      · exact ih _
      · exact statusOfAck_mem _

theorem selectAP_mem (address : Word) (state : MidLevel σ) :
    (selectAP port address state).1 ∈ driverStatuses := by
  unfold selectAP
  simp only
  split_ifs
  · exact ok_mem
  · exact retryWrite_mem port _ _ _ _ _
  · exact retryWrite_mem port _ _ _ _ _

theorem writeAP_mem (address data : Word) (state : MidLevel σ) :
    (writeAP port address data state).1 ∈ driverStatuses := by
  unfold writeAP
  simp only
  split_ifs
  · exact selectAP_mem port _ _
  · exact retryWrite_mem port _ _ _ _ _

theorem readAP_mem (address : Word) (state : MidLevel σ) :
    (readAP port address state).1 ∈ driverStatuses := by
  unfold readAP
  simp only
  split_ifs
  · exact selectAP_mem port _ _
  · exact retryRead_mem port _ _ _ _
  · exact retryRead_mem port _ _ _ _

theorem waitLoop_mem (retries : Nat) (state : MidLevel σ) :
    (MidLevel.waitLoop port retries state).1 ∈ driverStatuses := by
  induction retries generalizing state with
  | zero =>
      rw [waitLoop_zero]
      simp only
      split_ifs
      · exact readAP_mem port _ _
      · exact ok_mem
      · exact timeout_mem
  | succ retries ih =>
      rw [waitLoop_succ]
      simp only
      split_ifs
      · exact readAP_mem port _ _
      · exact ok_mem
      · exact ih _

theorem setUpAccess_mem (address : Word) (state : MidLevel σ) :
    (setUpAccess port address state).1 ∈ driverStatuses := by
  unfold setUpAccess
  simp only
  split_ifs
  · exact writeAP_mem port _ _ _
  · exact waitLoop_mem port _ _
  · exact writeAP_mem port _ _ _

/-- The statuses of the class, on every target. -/
theorem arduinoSWDInterface_returns : (arduinoSWDInterface port).Returns driverStatuses where
  tryConnect _ := statusOfAck_mem _
  readDP _ _ := retryRead_mem port _ _ _ _
  writeDP _ _ _ := retryWrite_mem port _ _ _ _ _
  readAP _ _ := readAP_mem port _ _
  writeAP _ _ _ := writeAP_mem port _ _ _
  readMemory _ _ := by
    change (readMemory port _ _).1 ∈ driverStatuses
    unfold readMemory
    simp only
    split_ifs
    · exact setUpAccess_mem port _ _
    · exact readAP_mem port _ _
  writeMemory _ _ _ := by
    change (writeMemory port _ _ _).1 ∈ driverStatuses
    unfold writeMemory
    simp only
    split_ifs
    · exact setUpAccess_mem port _ _
    · exact writeAP_mem port _ _ _

end MidLevel

/-! ### The replies -/

variable {σ : Type} {board : Board σ}

/-- The status codes of the replies. -/
def replyStatuses : List Byte :=
  driverStatuses ++ [Status.rxOverflow.code, Status.unknownCmd.code]

/-- A failed command reports a status of the driver. -/
theorem Driver.Returns.failed {driver : Driver σ} {statuses : List Byte}
    (returns : driver.Returns statuses) {command : Command} {target : σ} {status : Byte}
    (failed : (runCommand driver command target).1 = .failed status) : status ∈ statuses := by
  have read {response : Byte × Word × σ} (listed : response.1 ∈ statuses)
      (failed : (Outcome.ofRead response).1 = .failed status) : status ∈ statuses := by
    unfold Outcome.ofRead at failed
    simp only at failed
    split_ifs at failed
    obtain rfl := Outcome.failed.inj failed
    exact listed
  have write {response : Byte × σ} (listed : response.1 ∈ statuses)
      (failed : (Outcome.ofWrite response).1 = .failed status) : status ∈ statuses := by
    unfold Outcome.ofWrite at failed
    simp only at failed
    split_ifs at failed
    obtain rfl := Outcome.failed.inj failed
    exact listed
  have wait (address mask : Word) (retries : Nat) (target : σ)
      (failed : (Outcome.ofWait
        (Programmer.waitLoop driver address mask retries target)).1 = .failed status) :
      status ∈ statuses := by
    induction retries generalizing target with
    | zero => cases failed
    | succ retries ih =>
        unfold Programmer.waitLoop at failed
        simp only at failed
        split_ifs at failed
        · cases failed
        · exact ih _ failed
        · obtain rfl := Outcome.failed.inj failed
          exact returns.readMemory _ _
  cases command with
  | connect => exact read (returns.tryConnect _) failed
  | reset => cases failed
  | readAP => exact read (returns.readAP _ _) failed
  | writeAP => exact write (returns.writeAP _ _ _) failed
  | readDP => exact read (returns.readDP _ _) failed
  | writeDP => exact write (returns.writeDP _ _ _) failed
  | readMem => exact read (returns.readMemory _ _) failed
  | writeMem => exact write (returns.writeMemory _ _ _) failed
  | waitMemTrue => exact wait _ _ _ _ failed
  | getProgId => cases failed

/-- Replies have been added, each with one of the statuses. -/
def AddsReplies (before after : List (List Byte)) : Prop :=
  ∃ replies : List (Byte × List Byte),
    after = before ++ replies.map (fun reply => frameOf (reply.1 :: reply.2)) ∧
      ∀ reply ∈ replies, reply.1 ∈ replyStatuses

theorem AddsReplies.none (sent : List (List Byte)) : AddsReplies sent sent :=
  ⟨[], (List.append_nil _).symm, fun _ member => absurd member List.not_mem_nil⟩

theorem AddsReplies.single {status : Byte} (listed : status ∈ replyStatuses)
    (sent : List (List Byte)) (results : List Byte) :
    AddsReplies sent (sent ++ [frameOf (status :: results)]) := by
  refine ⟨[(status, results)], rfl, fun reply member => ?_⟩
  obtain rfl := List.mem_singleton.mp member
  exact listed

theorem AddsReplies.trans {first second third : List (List Byte)}
    (one : AddsReplies first second) (two : AddsReplies second third) :
    AddsReplies first third := by
  obtain ⟨replies, rfl, listed⟩ := one
  obtain ⟨replies', rfl, listed'⟩ := two
  refine ⟨replies ++ replies', by rw [List.map_append, List.append_assoc], fun reply member => ?_⟩
  exact (List.mem_append.mp member).elim (listed reply) (listed' reply)

theorem Device.round_statuses (returns : board.driver.Returns driverStatuses) (packet : Packet)
    (device : Device σ) : AddsReplies device.sent (device.round board packet).sent := by
  unfold Device.round
  split
  · unfold Device.command
    split
    · exact .single (by decide) _ _
    · rename_i opcode _
      have driver {status : Byte} (failed : (runCommand board.driver
          (commandAt packet.memory packet.index opcode) device.target).1 = .failed status) :
          status ∈ driverStatuses := returns.failed failed
      generalize runCommand board.driver _ device.target = result at driver ⊢
      obtain ⟨outcome, target⟩ := result
      cases outcome with
      | done results => exact .none _
      | failed status => exact .single (List.mem_append_left _ (driver rfl)) _ _
      | timedOut => exact .single (by decide) _ _
  · exact .single (by decide) _ _

theorem Device.receive_statuses (byteRead : Byte) (device : Device σ) :
    AddsReplies device.sent (device.receive board byteRead).sent := by
  unfold Device.receive
  split_ifs
  · exact .single (by decide) _ _
  · exact .none _
  · exact .none _

/-- In every run, each reply carries one of the statuses. -/
theorem Device.run_statuses (returns : board.driver.Returns driverStatuses)
    {device device' : Device σ} {labels : List Byte}
    (run : (Device.lts board).Trace device labels device') :
    AddsReplies device.sent device'.sent := by
  have keeps (one : Device σ) (label : Option Byte) (two : Device σ)
      (before : AddsReplies device.sent one.sent)
      (step : (Device.lts board).step one label two) : AddsReplies device.sent two.sent := by
    rcases Device.step_cases step with ⟨byteRead, -, -, rfl⟩ | ⟨packet, -, -, rfl⟩
    · exact before.trans (Device.receive_statuses byteRead one)
    · exact before.trans (Device.round_statuses returns packet one)
  exact Lts.Trace.invariant keeps run (.none _)

/-- PROTO ERR is never sent: a reply that was added does not carry it. -/
theorem AddsReplies.not_protoErr {before added : List (List Byte)}
    (adds : AddsReplies before (before ++ added)) (results : List Byte) :
    frameOf (Status.protoErr.code :: results) ∉ added := by
  obtain ⟨replies, same, listed⟩ := adds
  intro member
  rw [List.append_cancel_left same] at member
  obtain ⟨reply, isReply, frame⟩ := List.mem_map.mp member
  have status := (List.cons.inj (frameOf_injective frame)).1
  have ofList := listed reply isReply
  rw [status] at ofList
  exact absurd ofList (by decide)

/-- From power-on, over any bytes and any target, no reply is a PROTO ERR. -/
theorem never_protoErr {port : SwdPort σ} {board : Board (MidLevel σ)}
    (driver : board.driver = arduinoSWDInterface port) {target : MidLevel σ} {labels : List Byte}
    {prog : Programmer (MidLevel σ)}
    (run : (Programmer.lts board).Trace (Programmer.boot target) labels prog)
    (results : List Byte) : frameOf (Status.protoErr.code :: results) ∉ prog.sent := by
  obtain ⟨device, run', related⟩ := reachable_refines run
  have returns : board.driver.Returns driverStatuses := by
    rw [driver]
    exact arduinoSWDInterface_returns port
  have adds := Device.run_statuses returns run'
  rw [related.data.sent, ← List.nil_append device.sent]
  exact AddsReplies.not_protoErr adds results

end Swagger.Firmware
