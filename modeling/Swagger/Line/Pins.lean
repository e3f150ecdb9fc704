/-
**The stack down to the pins.**

The programmer moves its pins bit by bit, and the target behind them is in any mode, with nothing
going on. A run of the scripts over the packets, the line, the interpreter, the driver and the pins
is the run that makes each transaction at the target at once (`stack_over_pins`).

The rigs are not alike from the start: what a target answers before it is connected is not known. A
run connects first, and from there on they correspond (`pins_correspond`).
-/

import Swagger.Firmware.Attached
import Swagger.Line.Rig

namespace Swagger.Line

open Library Firmware Host

section Pins

variable {τ : Type} {target : SwdTarget τ} {noise : Nat → Bool} {resets : Bool → τ → τ}
  {board : Board (MidLevel (SwjBench τ))} {patience : Nat} {settled : MidLevel τ → Prop}

/-- A rig that is ready and attached to its target, and the target on its own. -/
structure OnPins (settled : MidLevel τ → Prop) (rig : Rig (MidLevel (SwjBench τ)))
    (direct : Direct (MidLevel τ)) : Prop where
  ready : rig.Ready
  targets : SameCache Attached rig.programmer.target direct.target
  reply : direct.reply = none
  settled : settled direct.target

/-- The driver of the board moves the pins, and the waits for the flash controller end. -/
structure Pinned (target : SwdTarget τ) (noise : Nat → Bool) (resets : Bool → τ → τ)
    (board : Board (MidLevel (SwjBench τ))) (patience : Nat) (settled : MidLevel τ → Prop) :
    Prop where
  driver : board.driver = arduinoSWDInterface (SwjBench.port target noise resets)
  settles : Settles (arduinoSWDInterface (target.port resets target.identified)) settled
  enough : 4621 ≤ patience

variable (pinned : Pinned target noise resets board patience settled)
  {rig : Rig (MidLevel (SwjBench τ))} {direct : MidLevel τ}

include pinned

theorem Pinned.alike : DriversAlike (SameCache Attached) board.driver
    (arduinoSWDInterface (target.port resets target.identified)) := by
  rw [pinned.driver]
  exact driver_alike (ports_attached resets)

/-- A packet that is executed alike on both. -/
theorem exchange_pins (ready : rig.Ready) (here : settled direct) {commands : List Command}
    (asked : Asked commands)
    (alike : ExecutesAlike (SameCache Attached) board.driver
      (arduinoSWDInterface (target.port resets target.identified)) none commands
      rig.programmer.target direct) :
    let link := Rig.link board patience
    let plain := Direct.link (arduinoSWDInterface (target.port resets target.identified))
    (link.exchange (packetBytes commands none) rig).1 =
        (plain.exchange (packetBytes commands none) { target := direct, reply := none }).1 ∧
      OnPins settled (link.exchange (packetBytes commands none) rig).2
        (plain.exchange (packetBytes commands none) { target := direct, reply := none }).2 := by
  intro link plain
  have framed := asked.frame_le
  have fits := asked.replyLength_le
  have inTime : ¬ TimesOut board.driver commands rig.programmer.target :=
    alike.late.not.mpr (asked.inTime pinned.settles here)
  obtain ⟨reply, ready', after⟩ := ready.exchange (by omega) (by omega) inTime pinned.enough
  have same := alike.reply
  unfold plain
  rw [Direct.exchange]
  refine ⟨reply.trans (congrArg some same), ready', ?_, rfl, ?_⟩
  · rw [after]
    exact alike.targets
  · exact pinned.settles.keeps commands direct asked here

theorem pins_correspond :
    (Rig.link board patience).Corresponds Asks (OnPins settled)
      (Direct.link (arduinoSWDInterface (target.port resets target.identified))) := by
  rintro packet rig ⟨direct, reply⟩ ⟨commands, asked, rfl⟩ ⟨ready, targets, rfl, here⟩
  exact exchange_pins pinned ready here asked (pinned.alike.execute none commands targets)

/-- The first packet finds the target. -/
theorem connect_pins (ready : rig.Ready)
    (rests : pending rig.programmer.target.target.swj.port.phase = 0)
    (same : direct.target = rig.programmer.target.target.swj.port.state) (here : settled direct) :
    let link := Rig.link board patience
    let plain := Direct.link (arduinoSWDInterface (target.port resets target.identified))
    (link.exchange Command.connect.bytes rig).1 =
        (plain.exchange Command.connect.bytes { target := direct, reply := none }).1 ∧
      OnPins settled (link.exchange Command.connect.bytes rig).2
        (plain.exchange Command.connect.bytes { target := direct, reply := none }).2 := by
  intro link plain
  have asked : Asked [.connect] := .single (show Prompt .connect from trivial)
  rw [← packetBytes_single]
  apply exchange_pins pinned ready here asked
  have connects : ReadsAlike (SameCache Attached) Status.ok.code
      (board.driver.tryConnect rig.programmer.target)
      ((arduinoSWDInterface (target.port resets target.identified)).tryConnect direct) := by
    rw [pinned.driver]
    dsimp only [arduinoSWDInterface]
    refine tryConnect_alike ?_
    dsimp only [SwjBench.port, SWDInterfaceBase.port, SwdTarget.port]
    rw [same]
    exact connect_attaches rests
  exact DriversAlike.execute_first (DriversAlike.ofRead connects)
    (pinned.alike.execute none [])

/-- What is behind the pins, for a run that reaches it directly. -/
def behindPins (rig : Rig (MidLevel (SwjBench τ))) : Direct (MidLevel τ) where
  target :=
    { target := rig.programmer.target.target.swj.port.state
      apCache := rig.programmer.target.apCache }
  reply := none

/-- **The stack is transparent down to the pins.** On a rig that is ready, with enough loop steps
for a reply, with a target in whatever mode on which no transfer is going on and the waits for the
flash controller end, and with any levels on a line that nobody or everybody drives: a run of the
scripts ends as the run does that makes each transaction at the target at once. It leaves the target
as that one does, at rest and selected. -/
theorem stack_over_pins (ready : rig.Ready)
    (rests : pending rig.programmer.target.target.swj.port.phase = 0)
    (here : settled (behindPins rig).target) (interactive : Bool) (binFile : Option BinaryFile) :
    let run := initSystem (Rig.link board patience) interactive binFile (fresh rig)
    let plain := initSystem
      (Direct.link (arduinoSWDInterface (target.port resets target.identified))) interactive
      binFile (fresh (behindPins rig))
    run.1 = plain.1 ∧
      Attached run.2.state.programmer.target.target plain.2.state.target.target ∧
      run.2.state.Ready := by
  intro run plain
  have inside : ∀ file ∈ binFile, file.bytes.length ≤ 2 ^ 32 := by
    intro file _
    have small := file.fits
    omega
  have corresponds := pins_correspond pinned
  obtain ⟨reply, states⟩ := connect_pins pinned ready rests rfl here
  have connected := @connectLoop_first _ _ (OnPins settled) (Rig.link board patience)
    (Direct.link (arduinoSWDInterface (target.port resets target.identified))) (fresh rig)
    (fresh (behindPins rig)) 9 (connectLoop_matches (asks_singles .connect trivial) corresponds 9)
    reply states
  obtain ⟨ended, same⟩ := initSystem_behind asks_singles asks_erase corresponds asks_longwords
    (asks_reads (2 ^ 32)) le_rfl interactive binFile inside connected
  exact ⟨ended, same.state.targets.target, same.state.ready⟩

end Pins

/-! ### A part with JTAG selected -/

/-- The pins of the part, which is switched on with JTAG selected. -/
def jtagBench : SwjBench (BusTarget Kv10z) where
  hostOutput := false
  level := false
  clock := false
  cycles := 0
  swj :=
    { seen := []
      mode := .jtag
      port := { phase := .idle, state := usedKv10z.target, log := [] } }

/-- A programmer that is started at this target, with an undriven line that is high. -/
def jtagBoard : Board (MidLevel (SwjBench (BusTarget Kv10z))) :=
  { steadyBoard 0 with
    driver := arduinoSWDInterface
      (SwjBench.port (kv10z 2 3).target (fun _ => true) fun _ target => target) }

def jtagRig : Rig (MidLevel (SwjBench (BusTarget Kv10z))) := Rig.boot (MidLevel.boot jtagBench)

/-- Two words are programmed over the pins. -/
theorem stack_over_pins_words :
    (initSystem (Rig.link jtagBoard 4621) false (some twoWords) (fresh jtagRig)).1 =
      .finished := by
  have settles : Settles kv10zDriver (Behind (Kv10z.Sound 2)) := kv10z_chip.settles
  have pinned : Pinned (kv10z 2 3).target (fun _ => true) (fun _ target => target) jtagBoard 4621
      (Behind (Kv10z.Sound 2)) :=
    ⟨rfl, settles, le_rfl⟩
  have rests : pending jtagRig.programmer.target.target.swj.port.phase = 0 := rfl
  have run := stack_over_pins pinned (Rig.boot_ready (MidLevel.boot jtagBench)) rests
    usedKv10z_behind false (some twoWords)
  exact run.1.trans usedKv10z_finishes

end Swagger.Line
