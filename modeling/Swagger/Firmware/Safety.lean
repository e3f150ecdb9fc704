/-
**Buffer and index safety over whole runs.**

From `setup()` on, whatever bytes arrive and whatever the target answers, every state of the program
stands for a state of the device (`reachable_refines`). So the indices count lists that fit the
arrays, and the next step, which exists for the device, exists for the program as well: no write
is out of bounds. The lengths handed to `Serial.write` are those `StuffData` wrote, because they are
for the device (`Honest`).
-/

import Swagger.Firmware.PacketSemantics

namespace Swagger.Firmware

open Library

variable {σ : Type} {board : Board σ}

/-- Every reachable state of the program stands for a reachable state of the device. -/
theorem reachable_refines {target : σ} {labels : List Byte} {prog : Programmer σ}
    (run : (Programmer.lts board).Trace (Programmer.boot target) labels prog) :
    ∃ device, (Device.lts board).Trace (Programmer.boot target).idleDevice labels device ∧
      Refines board prog device :=
  step_refines.trace run (Programmer.boot_idle target).refines

/-- What was handed to `Serial.write` is what was written. -/
def Honest (events : List Event) : Prop :=
  ∀ written handed, Event.stuffed written handed ∈ events → written = handed

theorem Honest.append {events others : List Event} (honest : Honest events)
    (others_honest : Honest others) : Honest (events ++ others) := by
  intro written handed member
  rcases List.mem_append.mp member with before | behind
  · exact honest written handed before
  · exact others_honest written handed behind

theorem honest_fetches (packet : Packet) (count : Nat) : Honest (packet.fetches count) := by
  intro written handed member
  obtain ⟨offset, -, same⟩ := List.mem_map.mp member
  cases same

theorem Device.reply_honest (status : Byte) {device : Device σ} (honest : Honest device.events) :
    Honest (device.reply status).events := by
  refine honest.append fun written handed member => ?_
  cases List.mem_singleton.mp member
  rfl

theorem Device.round_honest (packet : Packet) {device : Device σ} (honest : Honest device.events) :
    Honest (device.round board packet).events := by
  unfold Device.round
  split
  · unfold Device.command
    split
    · exact Device.reply_honest _ (honest.append (honest_fetches packet 1))
    · rename_i opcode _
      have fetched := honest.append (honest_fetches packet (opcode.arity + 1))
      generalize runCommand board.driver _ device.target = result
      obtain ⟨outcome, target⟩ := result
      cases outcome with
      | done results => exact fetched
      | failed status => exact Device.reply_honest status fetched
      | timedOut => exact Device.reply_honest _ fetched
  · exact Device.reply_honest _ honest

theorem Device.receive_honest (byteRead : Byte) {device : Device σ}
    (honest : Honest device.events) : Honest (device.receive board byteRead).events := by
  unfold Device.receive
  split_ifs
  · exact Device.reply_honest _ honest
  · exact honest
  · refine honest.append fun written handed member => ?_
    cases List.mem_singleton.mp member

theorem Device.run_honest {device device' : Device σ} {labels : List Byte}
    (run : (Device.lts board).Trace device labels device') (honest : Honest device.events) :
    Honest device'.events := by
  have keeps (one : Device σ) (label : Option Byte) (two : Device σ) (before : Honest one.events)
      (step : (Device.lts board).step one label two) : Honest two.events := by
    rcases Device.step_cases step with ⟨byteRead, -, -, rfl⟩ | ⟨packet, -, -, rfl⟩
    · exact Device.receive_honest byteRead before
    · exact Device.round_honest packet before
  exact Lts.Trace.invariant keeps run honest

/-- In every reachable state the indices are in range, the transmit index is 1 while the program
waits for a byte, what was handed to `Serial.write` is what `StuffData` wrote, and whatever comes
next, all writes are in bounds. -/
theorem buffers_safe (board : Board σ) (target : σ) (labels : List Byte) (prog : Programmer σ)
    (run : (Programmer.lts board).Trace (Programmer.boot target) labels prog) :
    prog.rxidx ≤ 64 ∧ 1 ≤ prog.txidx ∧ prog.txidx ≤ 64 ∧ (prog.Waiting → prog.txidx = 1) ∧
      (∀ written handed, Event.stuffed written handed ∈ prog.events → written = handed) ∧
      (prog.control = .receiving → ∀ byteRead, (prog.receive board byteRead).isSome) ∧
      (∀ cursor, prog.control = .interpreting cursor → (prog.interpret board cursor).isSome) := by
  obtain ⟨device, run', related⟩ := reachable_refines run
  have txidx := related.data.txidx_eq
  refine ⟨related.data.rxidx, by omega, related.data.txidx, ?_, ?_, ?_, ?_⟩
  · intro waiting
    rw [txidx, related.idle (related.phase.trans waiting), List.length_nil]
  · rw [related.data.events]
    exact Device.run_honest run' fun written handed member => nomatch member
  · intro here byteRead
    obtain ⟨prog', received, -⟩ :=
      receive_refines related (related.phase.trans (by rw [here]; rfl)) here byteRead
    rw [received, Option.isSome_some]
  · intro cursor here
    obtain ⟨prog', interpreted, -⟩ := interpret_refines related here
    rw [interpreted, Option.isSome_some]

/-- A packet that connects is received, executed and answered, and leaves the indices as they
were. -/
theorem buffers_safe_connect :
    ∃ prog, (Programmer.lts (steadyBoard 0x2BA01477)).Trace (Programmer.boot ())
      (cobs.stuff [] (packetBytes [.connect] none) ++ [0]) prog ∧
      prog.rxidx ≤ 64 ∧ prog.txidx = 1 := by
  have semantics : PacketSemantics (steadyBoard 0x2BA01477) (Programmer.boot ())
      (cobs.stuff [] (packetBytes [.connect] none)) [.connect] none :=
    packetSemantics_of_inTime _ (Programmer.boot_idle ()) (zero_notMem_stuff _)
      (fun _ none => nomatch none) (unstuff_stuff _) (by decide) (by decide) id
  obtain ⟨prog, run, waiting⟩ := semantics.1
  obtain ⟨rxidx, -, -, txidx, -⟩ := buffers_safe (steadyBoard 0x2BA01477) () _ prog run
  exact ⟨prog, run, rxidx, txidx waiting⟩

end Swagger.Firmware
