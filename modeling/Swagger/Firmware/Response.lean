/-
**The programmer answers within a bounded number of steps.**

`work` lets the program take as many steps as it is allowed to, over the bytes that are available at
the serial port: a call of `loop()`, a byte that is read, or a round in a packet. It stops when the
program would wait for a byte.

Every step brings the program nearer to that, or sends a reply: a byte is gone, or the packet is
shorter (`Control.left`), and only a wait that times out goes on with the same packet, behind a
reply. So as long as the program comes to wait at all, the number of its steps is bounded by the
bytes it reads and the replies it sends (`answers_in_time`).
-/

import Swagger.Firmware.Safety

namespace Swagger.Firmware

open Library

variable {σ : Type} {board : Board σ} {prog : Programmer σ} {device : Device σ}

/-! ### Steps -/

namespace Programmer

variable (board : Board σ)

/-- The next step over the bytes that are available, if the program does not wait for one. -/
def next (available : List Byte) (prog : Programmer σ) : Option (Programmer σ × List Byte) :=
  match prog.control, available with
  | .interpreting cursor, available => (prog.interpret board cursor).map (·, available)
  | .outside, byteRead :: rest => some ({ prog with control := .receiving }, byteRead :: rest)
  | .receiving, byteRead :: rest => (prog.receive board byteRead).map (·, rest)
  | .outside, [] | .receiving, [] => none

/-- So many steps at most. -/
def work : Nat → List Byte → Programmer σ → Programmer σ × List Byte
  | 0, available, prog => (prog, available)
  | steps + 1, available, prog =>
      match prog.next board available with
      | some (prog', rest) => work steps rest prog'
      | none => (prog, available)

end Programmer

/-! ### What is left -/

/-- The steps that are left where the program is, if none of them sends a reply. -/
def Control.left : Control → Nat
  | .receiving => 0
  | .outside => 1
  | .interpreting cursor => cursor.decoded - cursor.ptr + 2

theorem Control.left_waiting {control : Control} (waiting : control.phase = .waiting) :
    control.left ≤ 1 := by
  cases control with
  | outside => exact le_rfl
  | receiving => exact Nat.zero_le 1
  | interpreting cursor => cases waiting

theorem Control.left_interpreting {control : Control} {packet : Packet}
    (phase : control.phase = .interpreting packet) :
    control.left = packet.decoded - packet.index + 2 := by
  cases control with
  | outside => cases phase
  | receiving => cases phase
  | interpreting cursor =>
      cases phase
      rfl

/-- A round sends a reply and is over, or sends one and stays, or goes on in the packet. -/
theorem round_left (board : Board σ) (packet : Packet) (device : Device σ) :
    ((device.round board packet).sent.length = device.sent.length + 1 ∧
        ((device.round board packet).phase = .waiting ∨
          (device.round board packet).phase = .interpreting packet)) ∨
      ((device.round board packet).sent = device.sent ∧ packet.index < packet.decoded ∧
        ∃ count, 0 < count ∧
          (device.round board packet).phase = .interpreting (packet.advance count)) := by
  unfold Device.round
  split
  · rename_i inside
    unfold Device.command
    split
    · exact .inl ⟨List.length_append, .inl rfl⟩
    · rename_i opcode _
      generalize runCommand board.driver _ device.target = result
      obtain ⟨outcome, target⟩ := result
      cases outcome with
      | done results => exact .inr ⟨rfl, by omega, opcode.arity + 1, Nat.succ_pos _, rfl⟩
      | failed status => exact .inl ⟨List.length_append, .inl rfl⟩
      | timedOut => exact .inl ⟨List.length_append, .inr rfl⟩
  · exact .inl ⟨List.length_append, .inl rfl⟩

/-- A byte is stored, or answered with an overflow, or opens a packet. -/
theorem receive_left (board : Board σ) (byteRead : Byte) (device : Device σ)
    (waiting : device.phase = .waiting) (small : device.received.length ≤ 64) :
    ((device.receive board byteRead).phase = .waiting) ∨
      ∃ packet, (device.receive board byteRead).phase = .interpreting packet ∧
        packet.decoded ≤ 64 := by
  unfold Device.receive
  split_ifs
  · exact .inl rfl
  · exact .inl waiting
  · exact .inr ⟨_, rfl, (cobs.length_unstuff_le _).trans small⟩

/-! ### Runs -/

/-- The steps that are enough for these bytes and replies, from a place in the program. -/
def enough (prog : Programmer σ) (bytes replies : Nat) : Nat :=
  70 * (bytes + replies) + prog.control.left

/-- What the next step of the program makes of a run of the device to a place where it waits: there
is none at its end, and else it is a step nearer to the end. -/
def Nearer (board : Board σ) (last : Device σ) (available : List Byte) (prog : Programmer σ)
    (device : Device σ) : Prop :=
  (available = [] ∧ prog.next board [] = none ∧ device = last) ∨
    ∃ prog' rest device', prog.next board available = some (prog', rest) ∧
      Refines board prog' device' ∧ (Device.lts board).Trace device' rest last ∧
      enough prog' rest.length (last.sent.length - device'.sent.length) <
        enough prog available.length (last.sent.length - device.sent.length) ∧
      ∀ prog'', (Programmer.lts board).Trace prog' rest prog'' →
        (Programmer.lts board).Trace prog available prog''

/-- Without a byte that is available, a program that waits is at the end. -/
theorem nearer_end {last : Device σ} (waiting : last.phase = .waiting)
    (run : (Device.lts board).Trace device [] last) (phase : device.phase = .waiting)
    (stops : prog.next board [] = none) : Nearer board last [] prog device :=
  .inl ⟨rfl, stops, Device.deterministic.unique (.refl device) run (Device.quiet phase)
    (Device.quiet waiting)⟩

section Steps

variable {last : Device σ} {available : List Byte} (waiting : last.phase = .waiting)
  (related : Refines board prog device) (run : (Device.lts board).Trace device available last)

include waiting related run

/-- In a packet the next step is a round. -/
theorem Refines.nearer_interpreting {cursor : Cursor} (here : prog.control = .interpreting cursor) :
    Nearer board last available prog device := by
  have phase : device.phase = .interpreting cursor.packet :=
    related.phase.trans (by rw [here]; rfl)
  have round : (Device.lts board).step device none (device.round board cursor.packet) := by
    simp only [Device.lts, phase]
  have rest := Device.deterministic.rest (.single round) run (Device.quiet waiting)
  have behind := (Device.sent_prefix rest).length_le
  have left := Control.left_interpreting (related.phase.symm.trans phase)
  obtain ⟨prog', interpreted, related'⟩ := interpret_refines related here
  refine .inr ⟨prog', available, _, ?_, related', rest, ?_, fun prog'' run' => .silent ?_ run'⟩
  · simp only [Programmer.next, here, interpreted, Option.map_some]
  · unfold enough
    rw [left]
    rcases round_left board cursor.packet device with ⟨replied, waits | stays⟩ |
      ⟨same, inside, count, some, goes⟩
    · have few := Control.left_waiting (related'.phase.symm.trans waits)
      omega
    · rw [Control.left_interpreting (related'.phase.symm.trans stays)]
      omega
    · rw [Control.left_interpreting (related'.phase.symm.trans goes), Packet.advance, same]
      simp only
      omega
  · simp only [Programmer.lts, here]
    exact interpreted

/-- Outside of `loop()` the next step is its call. -/
theorem Refines.nearer_outside (here : prog.control = .outside) :
    Nearer board last available prog device := by
  have phase : device.phase = .waiting := related.phase.trans (by rw [here]; rfl)
  cases available with
  | nil =>
      refine nearer_end waiting run phase ?_
      simp only [Programmer.next, here]
  | cons byteRead rest =>
      have called : Refines board { prog with control := .receiving } device :=
        related.turn phase rfl
      refine .inr ⟨_, byteRead :: rest, device, ?_, called, run, ?_,
        fun prog'' run' => .silent ?_ run'⟩
      · simp only [Programmer.next, here]
      · simp only [enough, here, Control.left]
        omega
      · simp only [Programmer.lts, here]

/-- In `loop()` the next step reads a byte. -/
theorem Refines.nearer_receiving (here : prog.control = .receiving) :
    Nearer board last available prog device := by
  have phase : device.phase = .waiting := related.phase.trans (by rw [here]; rfl)
  cases available with
  | nil =>
      refine nearer_end waiting run phase ?_
      simp only [Programmer.next, here]
  | cons byteRead rest =>
      have reads : (Device.lts board).step device (some byteRead)
          (device.receive board byteRead) := by
        simp only [Device.lts, phase]
      have after := Device.deterministic.rest (.single reads) run (Device.quiet waiting)
      have kept := (Device.sent_prefix (Lts.Trace.single reads)).length_le
      have small : device.received.length ≤ 64 := related.data.rxidx_eq ▸ related.data.rxidx
      obtain ⟨prog', received, related'⟩ := receive_refines related phase here byteRead
      refine .inr ⟨prog', rest, _, ?_, related', after, ?_, fun prog'' run' => .visible ?_ run'⟩
      · simp only [Programmer.next, here, received, Option.map_some]
      · unfold enough
        rw [List.length_cons]
        rcases receive_left board byteRead device phase small with waits | ⟨packet, opens, short⟩
        · have few := Control.left_waiting (related'.phase.symm.trans waits)
          omega
        · rw [Control.left_interpreting (related'.phase.symm.trans opens)]
          omega
      · simp only [Programmer.lts, here]
        exact received

theorem Refines.nearer : Nearer board last available prog device := by
  cases here : prog.control with
  | outside => exact related.nearer_outside waiting run here
  | receiving => exact related.nearer_receiving waiting run here
  | interpreting cursor => exact related.nearer_interpreting waiting run here

end Steps

/-- If the device comes to wait behind the available bytes, so does the program, and it takes no
more steps than are enough. -/
theorem Refines.works {last : Device σ} (waiting : last.phase = .waiting) (steps : Nat)
    {available : List Byte} {prog : Programmer σ} {device : Device σ}
    (related : Refines board prog device)
    (run : (Device.lts board).Trace device available last)
    (fuel : enough prog available.length (last.sent.length - device.sent.length) ≤ steps) :
    ∃ prog', prog.work board steps available = (prog', []) ∧ Refines board prog' last ∧
      (Programmer.lts board).Trace prog available prog' := by
  induction steps generalizing available prog device with
  | zero =>
      rcases related.nearer waiting run with ⟨rfl, stops, rfl⟩ | ⟨_, _, _, -, -, -, less, -⟩
      · exact ⟨prog, rfl, related, .refl prog⟩
      · omega
  | succ steps ih =>
      rw [Programmer.work]
      rcases related.nearer waiting run with ⟨rfl, stops, rfl⟩ |
        ⟨prog', rest, device', next, related', run', less, before⟩
      · rw [stops]
        exact ⟨prog, rfl, related, .refl prog⟩
      · obtain ⟨prog'', worked, related'', run''⟩ := ih related' run' (by omega)
        rw [next]
        exact ⟨prog'', worked, related'', before prog'' run''⟩

/-- A control of the program leaves at most 66 steps without a reply. -/
theorem Refines.left_le (related : Refines board prog device) : prog.control.left ≤ 66 := by
  cases here : prog.control with
  | outside => exact Nat.le_of_ble_eq_true rfl
  | receiving => exact Nat.zero_le 66
  | interpreting cursor =>
      have small := (related.busy cursor here).2.decoded
      rw [Control.left]
      omega

/-- A packet that fits is executed within the steps that are enough for its bytes and one reply, and
the program waits for the next one. -/
theorem Programmer.Idle.works (board : Board σ) (idle : prog.Idle) {frame : List Byte}
    {commands : List Command} {unknown : Option Byte} (free : (0 : Byte) ∉ frame)
    (isUnknown : ∀ byte ∈ unknown, Opcode.ofCode? byte = none)
    (decodes : cobs.unstuff frame = packetBytes commands unknown ++ [0])
    (fits : replyLength commands unknown ≤ 63) (small : frame.length ≤ 64)
    (inTime : ¬ TimesOut board.driver commands prog.target) {steps : Nat}
    (fuel : 70 * (frame.length + 2) + 1 ≤ steps) :
    let execution := execute board.driver unknown commands prog.target
    ∃ prog', prog.work board steps (frame ++ [0]) = (prog', []) ∧ prog'.Idle ∧
      prog'.target = execution.target ∧ prog'.sent = prog.sent ++ [frameOf execution.reply] := by
  intro execution
  obtain ⟨device', run, phase, received, target, sent⟩ :=
    prog.idleDevice.run_frame board rfl rfl free small isUnknown decodes inTime
  have few := Control.left_waiting idle.waiting
  have one : device'.sent.length - prog.idleDevice.sent.length = 1 := by
    rw [sent, List.length_append, List.length_singleton]
    omega
  obtain ⟨prog', worked, related, run'⟩ := idle.refines.works phase steps run (by
    rw [enough, one, List.length_append, List.length_singleton]
    omega)
  have rxidx := related.data.rxidx_eq
  have txidx := related.data.txidx_eq
  rw [received, List.length_nil] at rxidx
  rw [related.idle phase, List.length_nil, Nat.zero_add] at txidx
  have semantics :=
    packetSemantics_of_inTime board idle free isUnknown decodes fits small inTime
  have waiting : prog'.Waiting := related.phase.symm.trans phase
  obtain ⟨target', sent'⟩ := semantics.2 prog' run' waiting
  exact ⟨prog', worked, ⟨waiting, rxidx, txidx⟩, target', sent'⟩

/-- From every reachable state: if the program comes to wait for a byte behind the bytes that are
available, it does so within 70 steps for each of them and for each reply that it sends, and 66 more
for a packet it is in. -/
theorem answers_in_time (board : Board σ) (target : σ) (bytes available : List Byte)
    (prog last : Programmer σ)
    (reached : (Programmer.lts board).Trace (Programmer.boot target) bytes prog)
    (run : (Programmer.lts board).Trace prog available last) (waiting : last.Waiting) (steps : Nat)
    (fuel : 70 * (available.length + (last.sent.length - prog.sent.length)) + 66 ≤ steps) :
    ∃ prog', prog.work board steps available = (prog', []) ∧ prog'.Waiting ∧
      prog'.target = last.target ∧ prog'.sent = last.sent ∧ prog'.events = last.events := by
  obtain ⟨device, -, related⟩ := reachable_refines reached
  obtain ⟨device', run', related'⟩ := step_refines.trace run related
  have phase : device'.phase = .waiting := related'.phase.trans waiting
  have few := related.left_le
  rw [related'.data.sent, related.data.sent] at fuel
  obtain ⟨prog', worked, same, -⟩ :=
    related.works phase steps run' (by unfold enough; omega)
  exact ⟨prog', worked, same.phase.symm.trans phase,
    same.data.target.trans related'.data.target.symm, same.data.sent.trans related'.data.sent.symm,
    same.data.events.trans related'.data.events.symm⟩

/-- A program that has been started answers a packet that connects within 346 steps. -/
theorem answers_in_time_connect :
    ∃ prog, (Programmer.boot ()).work (steadyBoard 0x2BA01477) 346
      (cobs.stuff [] (packetBytes [.connect] none) ++ [0]) = (prog, []) ∧ prog.Waiting := by
  obtain ⟨last, run, idle, sent⟩ := (Programmer.boot_idle ()).run_packet (steadyBoard 0x2BA01477)
    (zero_notMem_stuff (packetBytes [.connect] none))
    (show ∀ byte ∈ (none : Option Byte), Opcode.ofCode? byte = none from nofun)
    (unstuff_stuff _) (by decide) (by decide) id
  have replies : last.sent.length = 1 := by
    rw [sent]
    rfl
  obtain ⟨prog, worked, waiting, -⟩ := answers_in_time (steadyBoard 0x2BA01477) () [] _
    (Programmer.boot ()) last (.refl _) run idle.waiting 346 (by rw [replies]; decide)
  exact ⟨prog, worked, waiting⟩

end Swagger.Firmware
