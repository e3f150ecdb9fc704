/-
**Where the interpreter reads.**

The loop compares only the index of an opcode with the end of the packet; the arguments are read
wherever they lie. So all reads lie in front of the last decoded byte exactly if the interpreter, as
the target answers, does not come to a command whose arguments are cut short (`CutShort`), and the
frame decodes to at least one byte: the empty frame and a lone `0xFF` make `bytes--` wrap.

As long as no such command lies ahead, every round reads inside and leaves none ahead
(`Device.round_inside`). With one ahead, the rounds come to it and read behind the packet
(`Device.overruns`). A payload of complete commands (`CompleteCommands`) has none, whatever the
target answers.
-/

import Swagger.Firmware.Execution

namespace Swagger.Firmware

open Library

variable {σ : Type} {board : Board σ} {packet : Packet} {device : Device σ}

/-- A payload that consists of complete commands, up to its end or up to an opcode without a
case. -/
def CompleteCommands : List Byte → Prop
  | [] => True
  | byte :: rest =>
      match Opcode.ofCode? byte with
      | none => True
      | some opcode => opcode.arity ≤ rest.length ∧ CompleteCommands (rest.drop opcode.arity)
  termination_by bytes => bytes.length

theorem completeCommands_known {byte : Byte} {opcode : Opcode}
    (known : Opcode.ofCode? byte = some opcode) (rest : List Byte) :
    CompleteCommands (byte :: rest) ↔
      opcode.arity ≤ rest.length ∧ CompleteCommands (rest.drop opcode.arity) := by
  rw [CompleteCommands, known]

theorem completeCommands_unknown {byte : Byte} (unknown : Opcode.ofCode? byte = none)
    (rest : List Byte) : CompleteCommands (byte :: rest) := by
  rw [CompleteCommands, unknown]
  exact trivial

/-- A packet of commands is complete, also with an opcode without a case behind them. -/
theorem completeCommands_packetBytes (commands : List Command) {unknown : Option Byte}
    (isUnknown : ∀ byte ∈ unknown, Opcode.ofCode? byte = none) :
    CompleteCommands (packetBytes commands unknown) := by
  induction commands with
  | nil =>
      cases unknown with
      | none =>
          show CompleteCommands []
          rw [CompleteCommands]
          exact trivial
      | some byte => exact completeCommands_unknown (isUnknown byte rfl) []
  | cons command commands ih =>
      rw [packetBytes_cons, Command.bytes, List.cons_append,
        completeCommands_known (Opcode.ofCode?_code command.opcode), ← Command.length_arguments,
        List.drop_left, List.length_append]
      exact ⟨Nat.le_add_right _ _, ih⟩

/-- The count of decoded bytes can be decremented, and reads lie in front of the last one. -/
def Event.Inside : Event → Prop
  | .decoded bytes => bytes ≠ 0
  | .fetched index bytes => index < bytes - 1
  | .stuffed _ _ => True

/-- Events have been added to those so far, all inside. -/
def AddsInside (before after : List Event) : Prop :=
  ∃ added, after = before ++ added ∧ ∀ event ∈ added, event.Inside

/-- Whatever the interpreter reads for a frame lies inside its packet. -/
def ReadsInside (board : Board σ) (prog : Programmer σ) (frame : List Byte) : Prop :=
  ∀ prog', (Programmer.lts board).Trace prog (frame ++ [0]) prog' →
    AddsInside prog.events prog'.events

theorem AddsInside.refl (events : List Event) : AddsInside events events :=
  ⟨[], (List.append_nil events).symm, fun _ none => nomatch none⟩

theorem AddsInside.append {before after : List Event} (inside : AddsInside before after)
    {events : List Event} (all : ∀ event ∈ events, event.Inside) :
    AddsInside before (after ++ events) := by
  obtain ⟨added, rfl, added_inside⟩ := inside
  refine ⟨added ++ events, List.append_assoc _ _ _, fun event member => ?_⟩
  rcases List.mem_append.mp member with first | second
  · exact added_inside event first
  · exact all event second

/-! ### A command that is cut short -/

/-- The interpreter comes to a command whose arguments are cut short. The commands in front of it
are done, or are waits that time out and are executed again; behind one that fails there is no
other. -/
inductive CutShort (driver : Driver σ) : List Byte → σ → Prop
  | here {byte : Byte} {rest : List Byte} {opcode : Opcode} {target : σ}
      (known : Opcode.ofCode? byte = some opcode) (short : rest.length < opcode.arity) :
      CutShort driver (byte :: rest) target
  | next {command : Command} {rest : List Byte} {results : List Result} {target : σ}
      (done : (runCommand driver command target).1 = .done results)
      (later : CutShort driver rest (runCommand driver command target).2) :
      CutShort driver (command.bytes ++ rest) target
  | again {command : Command} {rest : List Byte} {target : σ}
      (timedOut : (runCommand driver command target).1 = .timedOut)
      (later : CutShort driver (command.bytes ++ rest) (runCommand driver command target).2) :
      CutShort driver (command.bytes ++ rest) target

/-- An opcode with its arguments behind it is a command. -/
theorem exists_command {byte : Byte} {rest : List Byte} {opcode : Opcode}
    (known : Opcode.ofCode? byte = some opcode) (room : opcode.arity ≤ rest.length) :
    ∃ (command : Command) (behind : List Byte), byte :: rest = command.bytes ++ behind := by
  obtain ⟨command, same, arguments⟩ := opcode.exists_command
    (show (rest.take opcode.arity).length = opcode.arity by rw [List.length_take]; omega)
  refine ⟨command, rest.drop opcode.arity, ?_⟩
  rw [Command.bytes, arguments, same, ← Opcode.code_of_ofCode? known, List.cons_append,
    List.take_append_drop]

/-- Complete commands are not cut short, whatever the target answers. -/
theorem CompleteCommands.not_cutShort (driver : Driver σ) {bytes : List Byte} {target : σ}
    (complete : CompleteCommands bytes) : ¬ CutShort driver bytes target := by
  intro cut
  induction cut with
  | here known short =>
      rw [completeCommands_known known] at complete
      exact absurd complete.1 (Nat.not_le.mpr short)
  | @next command rest results target done later ih =>
      rw [Command.bytes, List.cons_append, completeCommands_known (Opcode.ofCode?_code _),
        ← Command.length_arguments, List.drop_left] at complete
      exact ih complete.2
  | again timedOut later ih => exact ih complete

/-- The first command of a packet is read in one way. -/
theorem first_command {command command' : Command} {rest rest' : List Byte}
    (same : command.bytes ++ rest = command'.bytes ++ rest') : command = command' := by
  have opcodes : command.opcode.code = command'.opcode.code := (List.cons.inj same).1
  have opcode : command.opcode = command'.opcode := by
    have found := congrArg Opcode.ofCode? opcodes
    rw [Opcode.ofCode?_code, Opcode.ofCode?_code] at found
    exact Option.some.inj found
  let packet : Packet :=
    { memory := overlay (command.bytes ++ rest ++ [0]) fun _ => 0
      decoded := (command.bytes ++ rest ++ [0]).length
      index := 0 }
  have left : packet.remaining = command.bytes ++ rest := by
    rw [remaining_overlay, List.dropLast_concat]
  have one := commandAt_of_remaining left
  rw [opcode] at one
  exact one.symm.trans (commandAt_of_remaining (left.trans same))

/-- Nothing behind a command that fails is executed. -/
theorem not_cutShort_of_failed {driver : Driver σ} {command : Command} {status : Byte}
    {rest : List Byte} {target : σ}
    (failed : (runCommand driver command target).1 = .failed status) :
    ¬ CutShort driver (command.bytes ++ rest) target := by
  intro cut
  generalize bytes : command.bytes ++ rest = packet at cut
  cases cut with
  | here known short =>
      obtain ⟨byte, arguments⟩ := List.cons.inj bytes
      rw [← byte, Opcode.ofCode?_code] at known
      have length := congrArg List.length (show command.arguments ++ rest = _ from arguments)
      rw [List.length_append, Command.length_arguments, Option.some.inj known] at length
      omega
  | next done later =>
      rw [first_command bytes, done] at failed
      cases failed
  | again timedOut later =>
      rw [first_command bytes, timedOut] at failed
      cases failed

/-! ### With no such command ahead -/

/-- The bytes that are left can be read. -/
theorem fetches_inside {count : Nat} (room : count ≤ packet.remaining.length) :
    ∀ event ∈ packet.fetches count, event.Inside := by
  intro event member
  obtain ⟨offset, small, rfl⟩ := List.mem_map.mp member
  rw [List.mem_range] at small
  rw [packet.length_remaining] at room
  show packet.index + offset < packet.decoded - 1
  omega

theorem stuffed_inside (written handed : Nat) :
    ∀ event ∈ [Event.stuffed written handed], event.Inside := by
  intro event member
  rw [List.mem_singleton.mp member]
  exact trivial

/-- The device has read inside the packet so far, and comes to no command that is cut short. -/
structure Device.Inside (driver : Driver σ) (before : List Event) (device : Device σ) : Prop where
  events : AddsInside before device.events
  ahead : ∀ packet, device.phase = .interpreting packet →
    ¬ CutShort driver packet.remaining device.target

theorem Device.finish_inside {driver : Driver σ} {before : List Event} {device : Device σ}
    (events : AddsInside before device.events) (status : Byte) :
    (device.finish status).Inside driver before :=
  ⟨events.append (stuffed_inside _ _), fun _ phase => nomatch phase⟩

/-- One round reads inside the packet, and leaves no command ahead that is cut short. -/
theorem Device.round_inside {before : List Event} {device : Device σ}
    (inside : device.Inside board.driver before) (phase : device.phase = .interpreting packet) :
    (device.round board packet).Inside board.driver before := by
  have ahead := inside.ahead packet phase
  rcases left : packet.remaining with _ | ⟨byte, rest⟩
  · rw [round_end left]
    exact Device.finish_inside inside.events _
  · cases known : Opcode.ofCode? byte with
    | none =>
        rw [round_unknown left known]
        refine Device.finish_inside (inside.events.append (fetches_inside ?_)) _
        rw [left, List.length_cons]
        omega
    | some opcode =>
        have room : opcode.arity ≤ rest.length :=
          not_lt.mp fun short => ahead (left ▸ .here known short)
        obtain ⟨command, behind, split⟩ := exists_command known room
        rw [split] at left
        rw [left] at ahead
        have events : AddsInside before (device.fetch packet command.bytes.length).events := by
          refine inside.events.append (fetches_inside ?_)
          rw [left, List.length_append]
          exact Nat.le_add_right _ _
        rw [round_command board device left]
        rcases ended : runCommand board.driver command device.target with ⟨outcome, target⟩
        cases outcome with
        | done results =>
            refine ⟨events, fun packet' same cut => ahead ?_⟩
            cases same
            rw [remaining_behind left] at cut
            exact .next (by rw [ended]) (by rw [ended]; exact cut)
        | failed status =>
            have access : AddsInside before
                { device.fetch packet command.bytes.length with target }.events := events
            exact Device.finish_inside access status
        | timedOut =>
            refine ⟨events.append (stuffed_inside _ _), fun packet' same cut => ahead ?_⟩
            cases same
            rw [left] at cut
            exact .again (by rw [ended]) (by rw [ended]; exact cut)

/-- The device reads a frame up to its delimiter, and then its rounds follow. -/
theorem Device.behind_frame {device device' : Device σ} {frame : List Byte}
    (waiting : device.phase = .waiting) (fresh : device.received = []) (free : (0 : Byte) ∉ frame)
    (small : frame.length ≤ 64) (run : (Device.lts board).Trace device (frame ++ [0]) device') :
    (Device.lts board).Trace (device.openFrame board frame) [] device' := by
  have received := device.receives board frame waiting free
    (by rw [fresh, List.length_nil]; omega)
  rcases Device.deterministic.compare received run with delimiter | ⟨impossible, -⟩
  · cases delimiter with
    | silent step _ =>
        simp only [Device.lts, waiting] at step
    | visible step rest =>
        simp only [Device.lts, waiting] at step
        rw [step, Device.receive, if_neg (not_not.mpr rfl)] at rest
        simp only [fresh, List.nil_append] at rest
        exact rest
  · cases impossible

theorem Device.opens_inside (board : Board σ) (device : Device σ) {frame : List Byte}
    (decodes : cobs.unstuff frame ≠ [])
    (ahead : ¬ CutShort board.driver (cobs.unstuff frame).dropLast device.target) :
    (device.openFrame board frame).Inside board.driver device.events where
  events := by
    refine (AddsInside.refl device.events).append fun event member => ?_
    rw [List.mem_singleton.mp member]
    exact List.length_pos_iff.mpr decodes |>.ne'
  ahead packet phase := by
    cases phase
    rw [Device.remaining_opened]
    exact ahead

/-- Without a command that is cut short, everything is read inside. -/
theorem readsInside_of_not_cutShort (board : Board σ) {prog : Programmer σ} (idle : prog.Idle)
    {frame : List Byte} (free : (0 : Byte) ∉ frame) (small : frame.length ≤ 64)
    (decodes : cobs.unstuff frame ≠ [])
    (ahead : ¬ CutShort board.driver (cobs.unstuff frame).dropLast prog.target) :
    ReadsInside board prog frame := by
  intro prog' run
  obtain ⟨device', run', related⟩ := step_refines.trace run idle.refines
  have keeps (one two : Device σ) (before : one.Inside board.driver prog.events)
      (step : (Device.lts board).step one none two) : two.Inside board.driver prog.events := by
    rcases Device.step_cases step with ⟨_, impossible, -, -⟩ | ⟨packet, -, phase, rfl⟩
    · cases impossible
    · exact Device.round_inside before phase
  have behind := Device.behind_frame rfl rfl free small run'
  have inside := behind.invariant_silent keeps
    (prog.idleDevice.opens_inside board decodes ahead)
  rw [related.data.events]
  exact inside.events

/-- Complete commands are read inside on every board, whatever the target answers. -/
theorem readsInside_of_complete (board : Board σ) {prog : Programmer σ} (idle : prog.Idle)
    {frame : List Byte} (free : (0 : Byte) ∉ frame) (small : frame.length ≤ 64)
    (decodes : cobs.unstuff frame ≠ [])
    (complete : CompleteCommands (cobs.unstuff frame).dropLast) : ReadsInside board prog frame :=
  readsInside_of_not_cutShort board idle free small decodes (complete.not_cutShort board.driver)

/-! ### With such a command ahead -/

/-- What follows from a command adds to the record. -/
theorem Device.conclude_events (packet : Packet) (count : Nat) (result : Outcome × σ)
    (device : Device σ) :
    ∃ more, (device.conclude packet count result).events = device.events ++ more := by
  obtain ⟨outcome, target⟩ := result
  cases outcome with
  | done results => exact ⟨[], (List.append_nil _).symm⟩
  | failed status => exact ⟨_, rfl⟩
  | timedOut => exact ⟨_, rfl⟩

/-- So does a round at a command. -/
theorem Device.round_events (board : Board σ) (device : Device σ) {command : Command}
    {rest : List Byte} (left : packet.remaining = command.bytes ++ rest) :
    ∃ more, (device.round board packet).events = device.events ++ more := by
  rw [round_command board device left]
  obtain ⟨more, events⟩ := Device.conclude_events packet command.bytes.length
    (runCommand board.driver command device.target) (device.fetch packet command.bytes.length)
  exact ⟨_, events.trans (List.append_assoc _ _ _)⟩

/-- A run has added an event that is not inside. -/
def Device.Overruns (board : Board σ) (device : Device σ) : Prop :=
  ∃ device' added, (Device.lts board).Trace device [] device' ∧
    device'.events = device.events ++ added ∧ ∃ event ∈ added, ¬ event.Inside

/-- What a round leads to, it leads to as well. -/
theorem Device.Overruns.round (phase : device.phase = .interpreting packet) {command : Command}
    {rest : List Byte} (left : packet.remaining = command.bytes ++ rest)
    (overruns : (device.round board packet).Overruns board) : device.Overruns board := by
  obtain ⟨device', added, run, events, event, member, outside⟩ := overruns
  obtain ⟨more, before⟩ := device.round_events board left
  refine ⟨device', more ++ added, device.interprets phase run, ?_, event,
    List.mem_append_right _ member, outside⟩
  rw [events, before, List.append_assoc]

/-- The interpreter comes to the command that is cut short, and reads behind the packet. -/
theorem Device.overruns {bytes : List Byte} {target : σ} (cut : CutShort board.driver bytes target)
    {packet : Packet} {device : Device σ} (phase : device.phase = .interpreting packet)
    (left : packet.remaining = bytes) (same : device.target = target) :
    device.Overruns board := by
  induction cut generalizing packet device with
  | @here byte rest opcode target known short =>
      have size := packet.length_remaining
      rw [left, List.length_cons] at size
      have round := @round_known σ board device packet byte rest opcode left known
      obtain ⟨more, events⟩ := Device.conclude_events packet (opcode.arity + 1)
        (runCommand board.driver (commandAt packet.memory packet.index opcode) device.target)
        (device.fetch packet (opcode.arity + 1))
      rw [← round] at events
      -- the read of the first argument byte that is missing
      refine ⟨_, packet.fetches (opcode.arity + 1) ++ more, device.interprets phase (.refl _),
        events.trans (List.append_assoc _ _ _),
        .fetched (packet.index + (rest.length + 1)) packet.decoded, ?_, ?_⟩
      · refine List.mem_append_left _ (List.mem_map.mpr ⟨rest.length + 1, ?_, rfl⟩)
        rw [List.mem_range]
        omega
      · unfold Event.Inside
        omega
  | @next command rest results target done later ih =>
      subst same
      have here := round_command board device left
      rw [Device.conclude, done] at here
      refine Device.Overruns.round phase left ?_
      exact ih (congrArg Device.phase here) (remaining_behind left) (congrArg Device.target here)
  | @again command rest target timedOut later ih =>
      subst same
      have here := round_command board device left
      rw [Device.conclude, timedOut] at here
      refine Device.Overruns.round phase left ?_
      exact ih (congrArg Device.phase here) left (congrArg Device.target here)

/-- If everything is read inside, the frame decodes to at least one byte, and no command ahead is
cut short. -/
theorem not_cutShort_of_readsInside (board : Board σ) {prog : Programmer σ} (idle : prog.Idle)
    {frame : List Byte} (free : (0 : Byte) ∉ frame) (small : frame.length ≤ 64)
    (reads : ReadsInside board prog frame) :
    cobs.unstuff frame ≠ [] ∧
      ¬ CutShort board.driver (cobs.unstuff frame).dropLast prog.target := by
  -- a run of the device is one of the program, so what it adds is inside
  have all {device : Device σ} {added : List Event}
      (run : (Device.lts board).Trace (prog.idleDevice.openFrame board frame) [] device)
      (events : device.events = (prog.idleDevice.openFrame board frame).events ++ added) :
      ∀ event ∈ Event.decoded (cobs.unstuff frame).length :: added, event.Inside := by
    have whole := (prog.idleDevice.opens board rfl rfl free small).trans run
    rw [List.append_nil] at whole
    obtain ⟨prog', run', related⟩ := step_matched.trace whole idle.refines
    obtain ⟨added', same, inside⟩ := reads prog' run'
    have opened : (prog.idleDevice.openFrame board frame).events =
        prog.events ++ [.decoded (cobs.unstuff frame).length] := rfl
    rw [related.data.events, events, opened, List.append_assoc] at same
    rw [← List.append_cancel_left same] at inside
    exact inside
  constructor
  · intro none
    have decoded := all (.refl _) (List.append_nil _).symm _ List.mem_cons_self
    rw [Event.Inside, none] at decoded
    exact decoded rfl
  · intro cut
    have overruns : (prog.idleDevice.openFrame board frame).Overruns board :=
      Device.overruns cut rfl (Device.remaining_opened _) rfl
    obtain ⟨device', added, run, events, event, member, outside⟩ := overruns
    exact outside (all run events event (List.mem_cons_of_mem _ member))

/-! ### The condition -/

/-- The interpreter stays inside the packet exactly when the frame decodes to at least one byte and
the interpreter, as the target answers, does not come to a command that is cut short. -/
theorem readsInside_iff (board : Board σ) (prog : Programmer σ) (idle : prog.Idle)
    (frame : List Byte) (free : (0 : Byte) ∉ frame) (small : frame.length ≤ 64) :
    ReadsInside board prog frame ↔
      frame ≠ [] ∧ frame ≠ [0xFF] ∧
        ¬ CutShort board.driver (cobs.unstuff frame).dropLast prog.target := by
  have nonempty : cobs.unstuff frame ≠ [] ↔ frame ≠ [] ∧ frame ≠ [0xFF] := by
    rw [ne_eq, unstuff_eq_nil_iff, not_or]
  rw [← and_assoc, ← nonempty]
  constructor
  · exact not_cutShort_of_readsInside board idle free small
  · rintro ⟨decodes, ahead⟩
    exact readsInside_of_not_cutShort board idle free small decodes ahead

/-- A target that refuses to be connected. -/
def mutedBoard : Board Unit :=
  { steadyBoard 0 with
    driver := { steadyDriver 0 with tryConnect := fun _ => (Status.swdFault.code, 0, ()) } }

/-- `CONNECT` fails, so the lone `WRITE MEMORY` opcode behind it is not executed. -/
theorem readsInside_refused :
    ReadsInside mutedBoard (Programmer.boot ()) (cobs.stuff [] (Command.connect.bytes ++ [7])) := by
  refine (readsInside_iff mutedBoard (Programmer.boot ()) (Programmer.boot_idle ())
    (cobs.stuff [] (Command.connect.bytes ++ [7])) (zero_notMem_stuff _) (by decide)).mpr
    ⟨by decide, by decide, ?_⟩
  rw [unstuff_stuff, List.dropLast_concat]
  exact not_cutShort_of_failed rfl

/-- The frame of a lone `WRITE MEMORY` opcode: its address and data are read behind the packet. -/
theorem readsInside_fails :
    ¬ ∀ (board : Board Unit) (prog : Programmer Unit) (frame : List Byte), prog.Idle →
      (0 : Byte) ∉ frame → frame.length ≤ 64 → ReadsInside board prog frame := by
  intro claimed
  have reads := claimed (steadyBoard (BitVec.allOnes 32)) (Programmer.boot ()) [2, 7]
    (Programmer.boot_idle ()) (by decide) (by decide)
  have ahead := (not_cutShort_of_readsInside _ (Programmer.boot_idle ()) (by decide) (by decide)
    reads).2
  have frame : [2, 7] = cobs.stuff [] [7] := by decide
  rw [frame, unstuff_stuff, List.dropLast_concat] at ahead
  have known : Opcode.ofCode? 7 = some .writeMem := by decide
  exact ahead (.here known (by decide))

end Swagger.Firmware
