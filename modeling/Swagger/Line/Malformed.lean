/-
**What the two ends do with a malformed frame.**

A malformed frame is a string of non-zero bytes that the encoder does not produce. The protocol has
a status for it, PROTO ERR, and the host's `readPacket` an error message, but neither decoder
refuses anything. The host fails only where nothing is left to remove a byte from
(`host_malformed`); the firmware never answers with PROTO ERR (`not_answersProtoErr`). So no
malformed frame is detected at both ends (`malformed_undetected`).
-/

import Swagger.Host.Canonical
import Swagger.Host.Transport
import Swagger.Firmware.ApSelect
import Swagger.Firmware.Statuses

namespace Swagger.Line

open Library Firmware Host

variable {σ : Type}

/-- An open port on which a frame and its delimiter arrive. -/
def receiving (hw : HardwareInterface) (frame : List Byte) (later : List RxEvent) :
    HardwareInterface :=
  { hw with isOpen := true, incoming := (frame ++ [0]).map .byte ++ later }

/-- The firmware answers the frame with PROTO ERR and performs no target operation. -/
def AnswersProtoErr (board : Board σ) (prog : Programmer σ) (frame : List Byte) : Prop :=
  prog.Finishes board (frame ++ [0]) fun target sent => target = prog.target ∧
    ∃ results, sent = prog.sent ++ [frameOf (Status.protoErr.code :: results)]

/-- Both ends detect the frame: the host fails to read it, and the firmware, when it fits the
receive buffer, answers with PROTO ERR. -/
structure Detected (hw : HardwareInterface) (data : List Byte) (later : List RxEvent)
    (board : Board σ) (prog : Programmer σ) (frame : List Byte) : Prop where
  host : ((receiving hw frame later).readPacket data).1 = false
  firmware : frame.length ≤ 64 → AnswersProtoErr board prog frame

/-- The host reads a frame and takes the payload from it that its decoding gives. -/
theorem readPacket_receiving (hw : HardwareInterface) (data : List Byte) (later : List RxEvent)
    {frame payload : List Byte} {last : Byte} (free : (0 : Byte) ∉ frame)
    (decoded : decode frame = payload ++ [last]) :
    ∃ hw', (receiving hw frame later).readPacket data = (true, payload, hw') := by
  have incoming : (receiving hw frame later).incoming = frame.map .byte ++ .byte 0 :: later := by
    rw [receiving, List.map_append, List.append_assoc]
    rfl
  exact ⟨_, readPacket_frame data _ rfl incoming free decoded⟩

/-- The frames that decode to nothing are not read. -/
theorem readPacket_nothing (hw : HardwareInterface) (data : List Byte) (later : List RxEvent)
    {frame : List Byte} (nothing : frame = [] ∨ frame = [0xFF]) :
    ((receiving hw frame later).readPacket data).1 = false := by
  have free : (0 : Byte) ∉ frame := by
    rcases nothing with rfl | rfl <;> decide
  have decoded : decode frame = [] := by rwa [decode_eq, unstuff_eq_nil_iff]
  have received := HardwareInterface.receive_frame frame [] later free
  rw [List.nil_append] at received
  unfold HardwareInterface.readPacket
  rw [receiving, if_neg (by simp)]
  simp only [received, List.dropLast_concat, decoded, List.length_nil, gt_iff_lt, lt_irrefl,
    if_false]

/-- What the host makes of a malformed frame: it fails where the decoding is empty, and otherwise
delivers a payload that is not the one of any such frame. -/
theorem host_malformed (hw : HardwareInterface) (data : List Byte) (later : List RxEvent)
    {frame : List Byte} (free : (0 : Byte) ∉ frame)
    (malformed : ¬ ∃ payload, encode payload = frame ++ [0]) :
    ((frame = [] ∨ frame = [0xFF]) ∧ ((receiving hw frame later).readPacket data).1 = false) ∨
      ∃ payload hw', (receiving hw frame later).readPacket data = (true, payload, hw') ∧
        encode payload ≠ frame ++ [0] := by
  by_cases nothing : frame = [] ∨ frame = [0xFF]
  · exact .inl ⟨nothing, readPacket_nothing hw data later nothing⟩
  · obtain ⟨payload, last, decoded⟩ := (decode_concat_iff frame).mpr (not_or.mp nothing)
    obtain ⟨hw', read⟩ := readPacket_receiving hw data later free decoded
    exact .inr ⟨payload, hw', read, fun same => malformed ⟨payload, same⟩⟩

/-- The firmware never answers with PROTO ERR. -/
theorem not_answersProtoErr {port : SwdPort σ} {board : Board (MidLevel σ)}
    (driver : board.driver = arduinoSWDInterface port) {prog : Programmer (MidLevel σ)}
    (idle : prog.Idle) (frame : List Byte) : ¬ AnswersProtoErr board prog frame := by
  intro answers
  rw [AnswersProtoErr, idle.refines.finishes_iff] at answers
  obtain ⟨device', run, -, -, results, sent⟩ := answers
  have returns : board.driver.Returns driverStatuses := by
    rw [driver]
    exact arduinoSWDInterface_returns port
  have adds := Device.run_statuses returns run
  rw [sent] at adds
  exact AddsReplies.not_protoErr adds results (List.mem_singleton.mpr rfl)

/-- No malformed frame is detected at both ends. The host refuses the empty frame and the lone full
code alone, and delivers a payload for every other one; the firmware refuses none. -/
theorem malformed_undetected (frame : List Byte) (free : (0 : Byte) ∉ frame)
    (malformed : ¬ ∃ payload, encode payload = frame ++ [0]) (hw : HardwareInterface)
    (data : List Byte) (later : List RxEvent) (port : SwdPort σ) (board : Board (MidLevel σ))
    (driver : board.driver = arduinoSWDInterface port) (prog : Programmer (MidLevel σ))
    (idle : prog.Idle) :
    ¬ Detected hw data later board prog frame ∧
      (((frame = [] ∨ frame = [0xFF]) ∧ ((receiving hw frame later).readPacket data).1 = false) ∨
        ∃ payload hw', (receiving hw frame later).readPacket data = (true, payload, hw') ∧
          encode payload ≠ frame ++ [0]) ∧
      ¬ AnswersProtoErr board prog frame := by
  have host := host_malformed hw data later free malformed
  have firmware := not_answersProtoErr driver idle frame
  refine ⟨fun detected => ?_, host, firmware⟩
  have small : frame.length ≤ 64 := by
    rcases host with ⟨rfl | rfl, -⟩ | ⟨payload, hw', read, -⟩
    · exact Nat.zero_le _
    · exact Nat.le_of_ble_eq_true rfl
    · have rejects := detected.host
      rw [read] at rejects
      cases rejects
  exact firmware (detected.firmware small)

/-- A programmer with the driver of the firmware at a target that reads as 0. -/
def quietBoard : Board (MidLevel Unit) := classBoard steadyPort

/-- A port on which nothing has arrived yet. -/
def quietInterface : HardwareInterface where
  isOpen := true
  incoming := []
  writes := []
  sent := []
  lastError := ""

/-- A block that is one byte shorter than its code announces. -/
theorem malformed_undetected_short :
    ¬ Detected quietInterface [] [] quietBoard (Programmer.boot (MidLevel.boot ())) [3, 0x11] :=
  (malformed_undetected [3, 0x11] (by decide)
    (show ¬ Encoded [3, 0x11] by decide) quietInterface [] [] steadyPort quietBoard rfl
    (Programmer.boot (MidLevel.boot ())) (Programmer.boot_idle _)).1

/-- The host takes the byte 0x11 out of the frame that is cut short. -/
theorem malformed_detected_fails :
    ¬ ∀ frame : List Byte, (0 : Byte) ∉ frame → (¬ ∃ payload, encode payload = frame ++ [0]) →
      Detected quietInterface [] [] quietBoard (Programmer.boot (MidLevel.boot ())) frame := by
  intro claimed
  have detected := claimed [3, 0x11] (by decide) (show ¬ Encoded [3, 0x11] by decide)
  obtain ⟨hw', read⟩ := readPacket_receiving quietInterface [] []
    (show (0 : Byte) ∉ [3, 0x11] by decide) (show decode [3, 0x11] = [0x11] ++ [0] by decide)
  have rejects := detected.host
  rw [read] at rejects
  cases rejects

end Swagger.Line
