/-
**Frames that do not fit the receive buffer.**

The 65th byte of a frame is dropped, and answered with RX OVERFLOW at once (`Device.overflows`).
What follows it up to the delimiter is received into the emptied buffer, so it is interpreted as a
frame of its own, and answered as one. Hence a frame that is too long gets at least two replies,
however long it is (`answers_twice`), and is never rejected as a whole.
-/

import Swagger.Firmware.Execution

namespace Swagger.Firmware

open Library

variable {σ : Type} {board : Board σ} {prog : Programmer σ}

/-- The device that has discarded what it had received. -/
def Device.overflowed (device : Device σ) : Device σ :=
  Device.finish Status.rxOverflow.code { device with received := [], queued := [] }

/-- The first 65 bytes of a frame that is too long are discarded. -/
theorem Device.overflows (board : Board σ) (device : Device σ) {frame : List Byte}
    (waiting : device.phase = .waiting) (fresh : device.received = [])
    (free : (0 : Byte) ∉ frame) (long : 64 < frame.length) :
    (Device.lts board).Trace device (frame.take 65) device.overflowed := by
  have first := device.receives board (frame.take 64) waiting
    (fun member => free (List.mem_of_mem_take member))
    (by rw [fresh, List.length_nil, List.length_take]; omega)
  have full : (device.received ++ frame.take 64).length ≥ 64 := by
    rw [List.length_append, List.length_take]
    omega
  have nonzero : frame[64] ≠ 0 := fun zero => free (zero ▸ List.getElem_mem long)
  have overflow := first.trans (Device.reads frame[64] waiting (.refl _))
  rw [Device.receive, if_pos nonzero, if_pos full] at overflow
  rw [List.take_add_one, List.getElem?_eq_getElem long]
  exact overflow

/-- A frame that is too long is answered at its 65th byte, and once more at its end. -/
theorem answers_twice (device : Device σ) {device' : Device σ} {frame : List Byte}
    (waiting : device.phase = .waiting) (fresh : device.received = [])
    (free : (0 : Byte) ∉ frame) (long : 64 < frame.length)
    (run : (Device.lts board).Trace device (frame ++ [0]) device')
    (ended : device'.phase = .waiting) : device.sent.length + 1 < device'.sent.length := by
  rw [← List.take_append_drop 65 frame, List.append_assoc] at run
  have overflow := device.overflows board waiting fresh free long
  have behind := Device.deterministic.rest overflow run (Device.quiet ended)
  have later := Device.answers behind ended
  rw [Device.overflowed, Device.finish, Device.reply, List.length_append,
    List.length_singleton] at later
  exact later

/-- The frame is answered with one reply, RX OVERFLOW, and nothing of it reaches the target. -/
def RejectsOversized (board : Board σ) (prog : Programmer σ) (frame : List Byte) : Prop :=
  prog.Finishes board (frame ++ [0]) fun target sent =>
    target = prog.target ∧ sent = prog.sent ++ [frameOf [Status.rxOverflow.code]]

/-- The reason: a second reply. -/
theorem second_reply (idle : prog.Idle) {frame : List Byte} (free : (0 : Byte) ∉ frame)
    (long : 64 < frame.length) {outcome : σ → List (List Byte) → Prop}
    (finishes : prog.Finishes board (frame ++ [0]) outcome) :
    ∃ target sent, outcome target sent ∧ prog.sent.length + 1 < sent.length := by
  rw [idle.refines.finishes_iff] at finishes
  obtain ⟨device', run, waiting, holds⟩ := finishes
  exact ⟨device'.target, device'.sent, holds,
    answers_twice prog.idleDevice rfl rfl free long run waiting⟩

/-- No frame that is too long is rejected as a whole. -/
theorem not_rejectsOversized (board : Board σ) (prog : Programmer σ) (idle : prog.Idle)
    (frame : List Byte) (free : (0 : Byte) ∉ frame) (long : 64 < frame.length) :
    ¬ RejectsOversized board prog frame := by
  intro rejects
  obtain ⟨target, sent, ⟨-, one⟩, two⟩ := second_reply idle free long rejects
  rw [one, List.length_append, List.length_singleton] at two
  exact lt_irrefl _ two

/-- A frame that is one byte too long. -/
theorem not_rejectsOversized_65 :
    ¬ RejectsOversized (steadyBoard 0) (Programmer.boot ()) (List.replicate 65 1) :=
  not_rejectsOversized (steadyBoard 0) (Programmer.boot ()) (Programmer.boot_idle ()) _
    (by decide) (by decide)

/-- A frame whose part behind the 65th byte is a packet of its own. -/
theorem rejectsOversized_fails :
    ¬ ∀ (board : Board Unit) (prog : Programmer Unit) (frame : List Byte), prog.Idle →
      (0 : Byte) ∉ frame → 64 < frame.length → RejectsOversized board prog frame := by
  intro claimed
  have rejects := claimed (steadyBoard 0) (Programmer.boot ())
    (List.replicate 65 1 ++ cobs.stuff [] (packetBytes [.connect] none))
    (Programmer.boot_idle ()) (by decide) (by decide)
  obtain ⟨target, sent, ⟨-, one⟩, two⟩ :=
    second_reply (Programmer.boot_idle ()) (by decide) (by decide) rejects
  rw [one, List.length_append, List.length_singleton] at two
  exact lt_irrefl _ two

end Swagger.Firmware
