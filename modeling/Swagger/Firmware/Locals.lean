/-
**What the local arrays hold at first.**

`decodebuffer` is not initialised, and a command that is cut short takes its arguments from behind
the decoded bytes. A packet of complete commands does not see that (`commandAt_congr`): two devices
that agree on all but the memory behind the packet (`Alike`) still do after a round
(`round_alike`) and after a byte (`receive_alike`). So on two boards with the same driver, whatever
their local arrays hold, a stream whose packets are complete (`CompletePackets`) has the same
effect (`run_alike`).
-/

import Swagger.Firmware.Bounds

namespace Swagger.Firmware

open Library

variable {σ : Type} {board board' : Board σ} {device device' : Device σ}

/-! ### The packets of a stream -/

/-- What is decoded as a packet in a stream, behind the bytes that have been received: whatever
stands in front of a zero, since the last one or since an overflow. -/
def packetsOf : List Byte → List Byte → List (List Byte)
  | _, [] => []
  | received, byteRead :: rest =>
      if byteRead ≠ 0 then
        if received.length ≥ 64 then packetsOf [] rest else packetsOf (received ++ [byteRead]) rest
      else received :: packetsOf [] rest

/-- The packets of a stream decode to complete commands. -/
def CompletePackets (received stream : List Byte) : Prop :=
  ∀ packet ∈ packetsOf received stream, CompleteCommands (cobs.unstuff packet).dropLast

/-- Bytes in front of a zero are received as long as there is room. -/
theorem packetsOf_append (frame rest : List Byte) (received : List Byte)
    (free : (0 : Byte) ∉ frame) (room : received.length + frame.length ≤ 64) :
    packetsOf received (frame ++ rest) = packetsOf (received ++ frame) rest := by
  induction frame generalizing received with
  | nil => rw [List.nil_append, List.append_nil]
  | cons byteRead frame ih =>
      rw [List.mem_cons, not_or] at free
      rw [List.length_cons] at room
      rw [List.cons_append, packetsOf, if_pos (Ne.symm free.1), if_neg (by omega),
        ih (received ++ [byteRead]) free.2, List.append_assoc, List.singleton_append]
      rw [List.length_append, List.length_singleton]
      omega

/-- The packets of a stream of frames that fit the buffer are these frames. -/
theorem packetsOf_frames (frames : List (List Byte))
    (fit : ∀ frame ∈ frames, (0 : Byte) ∉ frame ∧ frame.length ≤ 64) :
    packetsOf [] (frames.flatMap fun frame => frame ++ [0]) = frames := by
  induction frames with
  | nil => rfl
  | cons frame frames ih =>
      obtain ⟨⟨free, small⟩, rest⟩ := List.forall_mem_cons.mp fit
      rw [List.flatMap_cons, List.append_assoc, packetsOf_append frame _ [] free
        (by rwa [List.length_nil, Nat.zero_add]), List.singleton_append, packetsOf,
        if_neg (not_not.mpr rfl), List.nil_append, ih rest]

/-! ### Two devices -/

/-- Two packets with the same commands left, which are complete. -/
def Phase.Alike : Phase → Phase → Prop
  | .waiting, .waiting => True
  | .interpreting packet, .interpreting packet' =>
      packet'.remaining = packet.remaining ∧ CompleteCommands packet.remaining
  | _, _ => False

/-- Two devices that differ in the memory behind the packet, and in the record, at most. -/
structure Alike (device device' : Device σ) : Prop where
  received : device'.received = device.received
  queued : device'.queued = device.queued
  target : device'.target = device.target
  sent : device'.sent = device.sent
  phase : device.phase.Alike device'.phase

theorem Alike.waits (alike : Alike device device') (waiting : device.phase = .waiting) :
    device'.phase = .waiting := by
  have phase := alike.phase
  rw [waiting] at phase
  cases here : device'.phase with
  | waiting => rfl
  | interpreting packet =>
      rw [here] at phase
      exact phase.elim

theorem Alike.interprets (alike : Alike device device') {packet : Packet}
    (interpreting : device.phase = .interpreting packet) :
    ∃ packet' : Packet, device'.phase = .interpreting packet' ∧
      packet'.remaining = packet.remaining ∧ CompleteCommands packet.remaining := by
  have phase := alike.phase
  rw [interpreting] at phase
  cases here : device'.phase with
  | waiting =>
      rw [here] at phase
      exact phase.elim
  | interpreting packet' =>
      rw [here] at phase
      exact ⟨packet', rfl, phase⟩

/-- Complete commands are read from the bytes that are left alone. -/
theorem commandAt_congr {packet packet' : Packet} (same : packet'.remaining = packet.remaining)
    (opcode : Opcode) (room : opcode.arity < packet.remaining.length) :
    commandAt packet'.memory packet'.index opcode =
      commandAt packet.memory packet.index opcode := by
  have cell (offset : Nat) (inside : offset ≤ opcode.arity) :
      packet'.memory (packet'.index + offset) = packet.memory (packet.index + offset) := by
    obtain ⟨byte, here⟩ : ∃ byte, packet.remaining[offset]? = some byte :=
      ⟨_, List.getElem?_eq_getElem (lt_of_le_of_lt inside room)⟩
    rw [Packet.getElem?_remaining here]
    exact Packet.getElem?_remaining (same ▸ here)
  have word (offset : Nat) (inside : offset + 3 ≤ opcode.arity) :
      wordAt packet'.memory (packet'.index + offset) =
        wordAt packet.memory (packet.index + offset) := by
    unfold wordAt
    rw [cell offset (by omega), Nat.add_assoc, Nat.add_assoc, Nat.add_assoc,
      cell (offset + 1) (by omega), cell (offset + 2) (by omega), cell (offset + 3) (by omega)]
    rfl
  cases opcode with
  | connect => rfl
  | reset => exact congrArg Command.reset (cell 1 le_rfl)
  | readAP => exact congrArg Command.readAP (word 1 le_rfl)
  | writeAP => exact congrArg₂ Command.writeAP (word 1 (by decide)) (word 5 (by decide))
  | readDP => exact congrArg Command.readDP (cell 1 le_rfl)
  | writeDP => exact congrArg₂ Command.writeDP (cell 1 (by decide)) (word 2 (by decide))
  | readMem => exact congrArg Command.readMem (word 1 le_rfl)
  | writeMem => exact congrArg₂ Command.writeMem (word 1 (by decide)) (word 5 (by decide))
  | waitMemTrue => exact congrArg₂ Command.waitMemTrue (word 1 (by decide)) (word 5 (by decide))
  | getProgId => rfl

/-! ### One step -/

theorem Alike.reply (alike : Alike device device') (status : Byte) :
    Alike (device.reply status) (device'.reply status) := by
  obtain ⟨received, queued, target, sent, phase⟩ := alike
  refine ⟨received, rfl, target, ?_, phase⟩
  unfold Device.reply
  rw [queued, sent]

theorem Alike.finish (alike : Alike device device') (status : Byte) :
    Alike (device.finish status) (device'.finish status) := by
  obtain ⟨received, queued, target, sent, -⟩ := alike.reply status
  exact ⟨received, queued, target, sent, trivial⟩

theorem Alike.queue (alike : Alike device device') (results : List Result) :
    Alike (device.queue results) (device'.queue results) := by
  obtain ⟨received, queued, target, sent, phase⟩ := alike
  refine ⟨received, ?_, target, sent, phase⟩
  unfold Device.queue
  rw [queued]

/-- The two devices go on in the packet. -/
theorem Alike.go_on (alike : Alike device device') {packet packet' : Packet}
    (same : packet'.remaining = packet.remaining) (complete : CompleteCommands packet.remaining) :
    Alike { device with phase := .interpreting packet }
      { device' with phase := .interpreting packet' } :=
  ⟨alike.received, alike.queued, alike.target, alike.sent, same, complete⟩

/-- What has been fetched is noted in the record alone. -/
theorem Alike.fetch (alike : Alike device device') (packet packet' : Packet) (count : Nat) :
    Alike (device.fetch packet count) (device'.fetch packet' count) :=
  ⟨alike.received, alike.queued, alike.target, alike.sent, alike.phase⟩

/-- A round of two devices that interpret the same commands. -/
theorem round_alike (driver : board'.driver = board.driver) (alike : Alike device device')
    {packet packet' : Packet} (same : packet'.remaining = packet.remaining)
    (complete : CompleteCommands packet.remaining) :
    Alike (device.round board packet) (device'.round board' packet') := by
  rcases left : packet.remaining with _ | ⟨byte, rest⟩
  · rw [round_end left, round_end (same.trans left)]
    exact alike.finish _
  · have left' := same.trans left
    cases known : Opcode.ofCode? byte with
    | none =>
        rw [round_unknown left known, round_unknown left' known]
        exact ((alike.fetch packet packet' 1).queue _).finish _
    | some opcode =>
        rw [left, completeCommands_known known] at complete
        have room : opcode.arity < packet.remaining.length := by
          rw [left, List.length_cons]
          omega
        rw [round_known left known, round_known left' known, driver, commandAt_congr same _ room,
          alike.target]
        generalize runCommand board.driver _ device.target = result
        obtain ⟨outcome, target⟩ := result
        have fetched := alike.fetch packet packet' (opcode.arity + 1)
        have accessed : Alike { device.fetch packet (opcode.arity + 1) with target }
            { device'.fetch packet' (opcode.arity + 1) with target } :=
          ⟨fetched.received, fetched.queued, rfl, fetched.sent, fetched.phase⟩
        cases outcome with
        | done results =>
            refine (accessed.queue results).go_on ?_ ?_
            · rw [Packet.remaining_advance, Packet.remaining_advance, same]
            · rw [Packet.remaining_advance, left, List.drop_succ_cons]
              exact complete.2
        | failed status => exact accessed.finish status
        | timedOut =>
            refine (accessed.reply _).go_on same ?_
            rw [left, completeCommands_known known]
            exact complete

/-- A round does not touch what has been received. -/
theorem round_received (packet : Packet) (device : Device σ) :
    (device.round board packet).received = device.received := by
  unfold Device.round
  split
  · unfold Device.command
    split
    · rfl
    · generalize runCommand board.driver _ device.target = result
      obtain ⟨outcome, target⟩ := result
      cases outcome <;> rfl
  · rfl

/-- A byte for both devices. -/
theorem receive_alike (alike : Alike device device') (byteRead : Byte) (rest : List Byte)
    (complete : CompletePackets device.received (byteRead :: rest)) :
    Alike (device.receive board byteRead) (device'.receive board' byteRead) ∧
      CompletePackets (device.receive board byteRead).received rest := by
  unfold Device.receive
  unfold CompletePackets at complete
  rw [packetsOf] at complete
  rw [alike.received]
  split_ifs at complete ⊢
  · have discarded : Alike { device with received := [], queued := [] }
        { device' with received := [], queued := [] } :=
      ⟨rfl, rfl, alike.target, alike.sent, alike.phase⟩
    exact ⟨discarded.finish _, complete⟩
  · exact ⟨⟨rfl, alike.queued, alike.target, alike.sent, alike.phase⟩, complete⟩
  · obtain ⟨first, others⟩ := List.forall_mem_cons.mp complete
    refine ⟨⟨rfl, alike.queued, alike.target, alike.sent, ?_, ?_⟩, others⟩
    · rw [remaining_overlay, remaining_overlay]
    · rw [remaining_overlay]
      exact first

/-! ### Runs -/

/-- A run over complete packets is the same on two boards with the same driver. -/
theorem run_alike (driver : board'.driver = board.driver) {last : Device σ} {stream : List Byte}
    (run : (Device.lts board).Trace device stream last)
    (complete : CompletePackets device.received stream) (alike : Alike device device') :
    ∃ last', (Device.lts board').Trace device' stream last' ∧ Alike last last' := by
  induction run generalizing device' with
  | refl => exact ⟨device', .refl device', alike⟩
  | silent step _ ih =>
      rcases Device.step_cases step with ⟨_, impossible, -, -⟩ | ⟨packet, -, phase, rfl⟩
      · cases impossible
      · obtain ⟨packet', phase', same, commands⟩ := alike.interprets phase
        obtain ⟨last', run', ended⟩ := ih (by rwa [round_received])
          (round_alike driver alike same commands)
        exact ⟨last', device'.interprets phase' run', ended⟩
  | visible step _ ih =>
      rcases Device.step_cases step with ⟨byteRead, same, waiting, rfl⟩ | ⟨_, impossible, -, -⟩
      · cases same
        obtain ⟨next, others⟩ := receive_alike alike _ _ complete
        obtain ⟨last', run', ended⟩ := ih others next
        exact ⟨last', Device.reads _ (alike.waits waiting) run', ended⟩
      · cases impossible

end Swagger.Firmware
