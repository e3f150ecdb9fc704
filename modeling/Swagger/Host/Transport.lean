/-
**What `executeCmdQueue` reports of the transport.**

A call is served when its packet was written and a frame arrived and was decoded
(`Delivered`). `Reports` is what a caller relies on: the code 0 means that the call was served and
that the result queue is the payload of the frame, and a call that was not served gives another
code and an empty result queue.

The function pushes the codes 1 and 2 on the script's stack without returning, and the 0 behind
them is what the script sees (`executeCmdQueue_code`). So it reports correctly exactly when nothing
goes wrong at the port (`reports_iff`): the port is open, takes the whole packet and sends it in
time, and a zero arrives before a time-out, behind bytes that do not decode to nothing (`Works`).
-/

import Swagger.Host.CommandQueue

namespace Swagger.Host

open HardwareInterface

/-- The packet was written, and a frame that ends with a zero arrived and was decoded; without the
byte that `readPacket` removes, it is the payload. -/
def Delivered (queues : Queues HardwareInterface) (payload : List Byte) : Prop :=
  (queues.state.writePacket queues.cmdQueue).1 = true ∧
    ∃ frame rest, queues.state.incoming = frame.map .byte ++ .byte 0 :: rest ∧
      (0 : Byte) ∉ frame ∧ ∃ last, decode frame = payload ++ [last]

/-- The code and the result queue of `executeCmdQueue` tell whether the call was served. -/
def Reports (queues : Queues HardwareInterface) : Prop :=
  let result := executeCmdQueue HardwareInterface.link queues
  (result.1 = 0 → ∃ payload, Delivered queues payload ∧ result.2.resultQueue = payload) ∧
  ((¬ ∃ payload, Delivered queues payload) → result.1 ≠ 0 ∧ result.2.resultQueue = [])

/-- Nothing goes wrong at the port. -/
structure Works (queues : Queues HardwareInterface) : Prop where
  isOpen : queues.state.isOpen = true
  accepted : (queues.state.nextWrite (encode queues.cmdQueue).length).accepted =
    (encode queues.cmdQueue).length
  flushed : (queues.state.nextWrite (encode queues.cmdQueue).length).flushed = true
  arrives : ∃ frame rest, queues.state.incoming = frame.map .byte ++ .byte 0 :: rest ∧
    (0 : Byte) ∉ frame ∧ frame ≠ [] ∧ frame ≠ [0xFF]

/-! ### The code -/

/-- The value pushed last is the one returned. -/
theorem executeCmdQueue_code {σ : Type} (link : Link σ) (queues : Queues σ) :
    (executeCmdQueue link queues).1 = 0 := rfl

/-! ### Writing and reading -/

theorem writePacket_success (data : List Byte) (hw : HardwareInterface) :
    (hw.writePacket data).1 = true ↔ hw.isOpen = true ∧
      (hw.nextWrite (encode data).length).accepted = (encode data).length ∧
      (hw.nextWrite (encode data).length).flushed = true := by
  unfold writePacket
  by_cases closed : hw.isOpen = false
  · rw [if_pos closed, closed]
    simp
  · rw [if_neg closed]
    simp only
    rw [Bool.not_eq_false] at closed
    split_ifs with fragmented stuck
    · exact ⟨False.elim, fun works => absurd works.2.1 fragmented⟩
    · exact ⟨False.elim, fun works => absurd (stuck.symm.trans works.2.2) Bool.false_ne_true⟩
    · rw [not_not] at fragmented
      rw [Bool.not_eq_false] at stuck
      exact ⟨fun _ => ⟨closed, fragmented, stuck⟩, fun _ => rfl⟩

/-- A frame decodes to something unless it is empty or a lone full code. -/
theorem decode_concat_iff (frame : List Byte) :
    (∃ payload last, decode frame = payload ++ [last]) ↔ frame ≠ [] ∧ frame ≠ [0xFF] := by
  rw [decode_eq, ← not_or, ← unstuff_eq_nil_iff]
  constructor
  · rintro ⟨payload, last, decoded⟩
    rw [decoded]
    exact List.append_ne_nil_of_right_ne_nil _ (List.cons_ne_nil _ _)
  · intro nonempty
    exact ⟨_, _, (List.dropLast_append_getLast nonempty).symm⟩

/-- Reading a frame that decodes to something. -/
theorem readPacket_frame {frame payload : List Byte} {last : Byte} {rest : List RxEvent}
    (data : List Byte) (hw : HardwareInterface) (isOpen : hw.isOpen = true)
    (incoming : hw.incoming = frame.map .byte ++ .byte 0 :: rest) (free : (0 : Byte) ∉ frame)
    (decoded : decode frame = payload ++ [last]) :
    hw.readPacket data = (true, payload, { hw with incoming := rest }) := by
  have received := receive_frame frame [] rest free
  rw [List.map_append, List.map_singleton, List.append_assoc, List.singleton_append, ← incoming,
    List.nil_append] at received
  unfold readPacket
  rw [if_neg (by rw [isOpen]; exact Bool.false_ne_true.symm), received]
  simp only
  rw [List.dropLast_concat, decoded, if_pos (by simp), List.dropLast_concat]

/-- What a served call leaves in the result queue. -/
theorem resultQueue_delivered {queues : Queues HardwareInterface} {payload : List Byte}
    (isOpen : queues.state.isOpen = true) (delivered : Delivered queues payload) :
    (executeCmdQueue HardwareInterface.link queues).2.resultQueue = payload := by
  obtain ⟨-, frame, rest, incoming, free, last, decoded⟩ := delivered
  have same := writePacket_incoming queues.cmdQueue queues.state
  have read := readPacket_frame [] (queues.state.writePacket queues.cmdQueue).2
    (same.2.trans isOpen) (same.1.trans incoming) free decoded
  change ((queues.state.writePacket queues.cmdQueue).2.readPacket []).2.1 = payload
  rw [read]

/-! ### The condition -/

/-- A call is served exactly when nothing goes wrong at the port. -/
theorem delivered_iff (queues : Queues HardwareInterface) :
    (∃ payload, Delivered queues payload) ↔ Works queues := by
  constructor
  · rintro ⟨payload, written, frame, rest, incoming, free, last, decoded⟩
    obtain ⟨isOpen, accepted, flushed⟩ := (writePacket_success _ _).mp written
    have nonempty := (decode_concat_iff frame).mp ⟨payload, last, decoded⟩
    exact ⟨isOpen, accepted, flushed, frame, rest, incoming, free, nonempty⟩
  · rintro ⟨isOpen, accepted, flushed, frame, rest, incoming, free, nonempty⟩
    obtain ⟨payload, last, decoded⟩ := (decode_concat_iff frame).mpr nonempty
    exact ⟨payload, (writePacket_success _ _).mpr ⟨isOpen, accepted, flushed⟩, frame, rest,
      incoming, free, last, decoded⟩

/-- Transport errors are reported exactly when there are none. -/
theorem reports_iff (queues : Queues HardwareInterface) : Reports queues ↔ Works queues := by
  rw [← delivered_iff]
  constructor
  · rintro ⟨success, -⟩
    obtain ⟨payload, delivered, -⟩ := success (executeCmdQueue_code _ _)
    exact ⟨payload, delivered⟩
  · rintro ⟨payload, delivered⟩
    have isOpen := ((writePacket_success _ _).mp delivered.1).1
    exact ⟨fun _ => ⟨payload, delivered, resultQueue_delivered isOpen delivered⟩,
      fun failed => absurd ⟨payload, delivered⟩ failed⟩

/-- An open port on which nothing arrives: the call times out and returns 0. -/
theorem reports_fails : ¬ ∀ queues : Queues HardwareInterface, Reports queues := by
  intro claimed
  have reports := claimed
    { cmdQueue := [0]
      resultQueue := []
      state := { isOpen := true, incoming := [], writes := [], sent := [], lastError := "" } }
  obtain ⟨payload, ⟨-, frame, rest, incoming, -⟩, -⟩ := reports.1 rfl
  have length := congrArg List.length incoming
  simp at length

end Swagger.Host
