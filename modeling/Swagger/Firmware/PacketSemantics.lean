/-
**Packet semantics of the programmer.**

A packet of complete commands whose results fit the reply is executed as `execute` says and
answered once, with the status and the results (`PacketSemantics`), exactly when

* its frame fits the receive buffer: of a longer one the first 65 bytes are answered with
  RX OVERFLOW, and the rest once more;
* no wait that is reached times out: such a wait is answered, and then the same command is
  executed again, so that a second reply follows or none of it ends.
-/

import Swagger.Firmware.Overflow

namespace Swagger.Firmware

open Library

variable {σ : Type} {board : Board σ} {prog : Programmer σ}

/-- The packet is executed as it should be, and answered with one reply. -/
def PacketSemantics (board : Board σ) (prog : Programmer σ) (frame : List Byte)
    (commands : List Command) (unknown : Option Byte) : Prop :=
  let execution := execute board.driver unknown commands prog.target
  prog.Finishes board (frame ++ [0]) fun target sent =>
    target = execution.target ∧ sent = prog.sent ++ [frameOf execution.reply]

/-! ### Results that fit -/

/-- The number of result bytes of a command. -/
def resultLength : Command → Nat
  | .connect | .readDP _ | .readAP _ | .readMem _ => 4
  | .getProgId => 3
  | .reset _ | .writeAP _ _ | .writeDP _ _ | .writeMem _ _ | .waitMemTrue _ _ => 0

/-- The length of a reply with the status, all results and the marker of an unknown opcode. -/
def replyLength (commands : List Command) (unknown : Option Byte) : Nat :=
  1 + (commands.map resultLength).sum + 4 * unknown.toList.length

/-- The results of a command that succeeds. -/
theorem results_cases {driver : Driver σ} {command : Command} {target target' : σ}
    {results : List Result} (ended : runCommand driver command target = (.done results, target')) :
    (resultLength command = 0 ∧ results = []) ∨
      (resultLength command = 4 ∧ command ≠ .getProgId ∧ ∃ value, results = [.word value]) ∨
      (command = .getProgId ∧ results = interfaceInfo) := by
  have read (response : Byte × Word × σ)
      (ended : Outcome.ofRead response = (.done results, target')) :
      ∃ value, results = [.word value] := by
    obtain ⟨done, -⟩ := Prod.mk.inj ended
    split_ifs at done
    cases done
    exact ⟨_, rfl⟩
  have write (response : Byte × σ) (ended : Outcome.ofWrite response = (.done results, target')) :
      results = [] := by
    obtain ⟨done, -⟩ := Prod.mk.inj ended
    split_ifs at done
    cases done
    rfl
  have wait (result : Programmer.Waited × σ)
      (ended : Outcome.ofWait result = (.done results, target')) : results = [] := by
    obtain ⟨done, -⟩ := Prod.mk.inj ended
    split at done <;> cases done
    rfl
  cases command with
  | connect => exact .inr (.inl ⟨rfl, Command.noConfusion, read _ ended⟩)
  | reset state =>
      cases ended
      exact .inl ⟨rfl, rfl⟩
  | readAP address => exact .inr (.inl ⟨rfl, Command.noConfusion, read _ ended⟩)
  | writeAP address data => exact .inl ⟨rfl, write _ ended⟩
  | readDP address => exact .inr (.inl ⟨rfl, Command.noConfusion, read _ ended⟩)
  | writeDP address data => exact .inl ⟨rfl, write _ ended⟩
  | readMem address => exact .inr (.inl ⟨rfl, Command.noConfusion, read _ ended⟩)
  | writeMem address data => exact .inl ⟨rfl, write _ ended⟩
  | waitMemTrue address mask => exact .inl ⟨rfl, wait _ ended⟩
  | getProgId =>
      cases ended
      exact .inr (.inr ⟨rfl, rfl⟩)

/-- A command that succeeds has all its results. -/
theorem length_results {driver : Driver σ} {command : Command} {target target' : σ}
    {results : List Result} (ended : runCommand driver command target = (.done results, target')) :
    (results.flatMap Result.bytes).length = resultLength command := by
  rcases results_cases ended with ⟨zero, rfl⟩ | ⟨four, -, value, rfl⟩ | ⟨rfl, rfl⟩
  · exact zero.symm
  · exact four.symm
  · rfl

/-- The reply of an execution is at most as long as that of a packet without a failure. -/
theorem length_reply_le (driver : Driver σ) (unknown : Option Byte) (commands : List Command)
    (target : σ) :
    (execute driver unknown commands target).reply.length ≤ replyLength commands unknown := by
  induction commands generalizing target with
  | nil =>
      cases unknown with
      | none => exact le_rfl
      | some byte => exact le_rfl
  | cons command commands ih =>
      unfold execute
      rcases ended : runCommand driver command target with ⟨outcome, target'⟩
      cases outcome with
      | done results =>
          have rest := ih target'
          rw [Execution.reply, List.length_cons] at rest ⊢
          simp only [List.flatMap_append, List.length_append, length_results ended, replyLength,
            List.map_cons, List.sum_cons]
          unfold replyLength at rest
          omega
      | failed status =>
          rw [Execution.reply, replyLength, List.flatMap_nil, List.length_singleton]
          omega
      | timedOut =>
          rw [Execution.reply, replyLength, List.flatMap_nil, List.length_singleton]
          omega

/-- Results that fit are queued one behind the other. -/
theorem queue_of_fits (results : List Result) (queued : List Byte)
    (fits : 1 + queued.length + (results.flatMap Result.bytes).length ≤ 63) :
    results.foldl Result.queue queued = queued ++ results.flatMap Result.bytes := by
  induction results generalizing queued with
  | nil => rw [List.foldl_nil, List.flatMap_nil, List.append_nil]
  | cons result results ih =>
      rw [List.flatMap_cons, List.length_append] at fits
      have queues : Result.queue queued result = queued ++ result.bytes := by
        cases result with
        | word value =>
            rw [Result.bytes, length_wordBytes] at fits
            rw [Result.queue, if_neg (by omega), Result.bytes]
        | byte value =>
            rw [Result.bytes, List.length_singleton] at fits
            rw [Result.queue, if_neg (by omega), Result.bytes]
      rw [List.foldl_cons, queues, ih (queued ++ result.bytes) (by rw [List.length_append]; omega),
        List.flatMap_cons, List.append_assoc]

/-! ### The condition -/

/-- A packet that fits and whose waits end is executed and answered as it should be. -/
theorem packetSemantics_of_inTime (board : Board σ) (idle : prog.Idle) {frame : List Byte}
    {commands : List Command} {unknown : Option Byte} (free : (0 : Byte) ∉ frame)
    (isUnknown : ∀ byte ∈ unknown, Opcode.ofCode? byte = none)
    (decodes : cobs.unstuff frame = packetBytes commands unknown ++ [0])
    (fits : replyLength commands unknown ≤ 63) (small : frame.length ≤ 64)
    (inTime : ¬ TimesOut board.driver commands prog.target) :
    PacketSemantics board prog frame commands unknown := by
  obtain ⟨device', run, waiting, -, target, sent⟩ :=
    prog.idleDevice.run_frame board rfl rfl free small isUnknown decodes inTime
  rw [PacketSemantics, idle.refines.finishes_run_iff run waiting]
  have short := length_reply_le board.driver unknown commands prog.idleDevice.target
  rw [Execution.reply, List.length_cons] at short
  refine ⟨target, ?_⟩
  rw [sent]
  exact congrArg (fun queued => prog.sent ++ [frameOf (_ :: queued)])
    (queue_of_fits _ [] (by rw [List.length_nil]; omega))

/-- After such a packet the program is where it was: it waits for the first byte of the next one. -/
theorem Programmer.Idle.run_packet (board : Board σ) (idle : prog.Idle) {frame : List Byte}
    {commands : List Command} {unknown : Option Byte} (free : (0 : Byte) ∉ frame)
    (isUnknown : ∀ byte ∈ unknown, Opcode.ofCode? byte = none)
    (decodes : cobs.unstuff frame = packetBytes commands unknown ++ [0])
    (fits : replyLength commands unknown ≤ 63) (small : frame.length ≤ 64)
    (inTime : ¬ TimesOut board.driver commands prog.target) :
    ∃ prog', (Programmer.lts board).Trace prog (frame ++ [0]) prog' ∧ prog'.Idle ∧
      prog'.sent = prog.sent ++
        [frameOf (execute board.driver unknown commands prog.target).reply] := by
  obtain ⟨device', run, phase, received, -, -⟩ :=
    prog.idleDevice.run_frame board rfl rfl free small isUnknown decodes inTime
  obtain ⟨prog', run', related⟩ := step_matched.trace run idle.refines
  have waiting : prog'.Waiting := related.phase.symm.trans phase
  have rxidx := related.data.rxidx_eq
  have txidx := related.data.txidx_eq
  rw [received, List.length_nil] at rxidx
  rw [related.idle phase, List.length_nil, Nat.zero_add] at txidx
  have semantics :=
    packetSemantics_of_inTime board idle free isUnknown decodes fits small inTime
  exact ⟨prog', run', ⟨waiting, rxidx, txidx⟩, (semantics.2 prog' run' waiting).2⟩

/-- A wait that times out is answered, and the packet is answered once more. -/
theorem not_packetSemantics_of_timesOut (idle : prog.Idle) {frame : List Byte}
    {commands : List Command} {unknown : Option Byte} (free : (0 : Byte) ∉ frame)
    (decodes : cobs.unstuff frame = packetBytes commands unknown ++ [0])
    (small : frame.length ≤ 64) (late : TimesOut board.driver commands prog.target) :
    ¬ PacketSemantics board prog frame commands unknown := by
  rw [PacketSemantics, idle.refines.finishes_iff]
  rintro ⟨device', run, waiting, -, sent⟩
  have opened := prog.idleDevice.opens board rfl rfl free small
  obtain ⟨middle, packet, round, phase, replied⟩ :=
    run_timesOut commands unknown _ (prog.idleDevice.openFrame board frame) rfl
      (Device.remaining_of_decodes decodes) late
  have joined := opened.trans round
  rw [List.append_nil] at joined
  rw [← List.append_nil (frame ++ [0])] at run
  have behind := Device.deterministic.rest joined run (Device.quiet waiting)
  have later := Device.replies behind (by rw [phase]; exact (Phase.noConfusion ·)) waiting
  rw [sent, replied, List.length_append, List.length_singleton] at later
  exact lt_irrefl _ later

/-- The exact condition under which a packet is executed and answered as it should be: its frame
fits the receive buffer, and no wait that is reached times out. -/
theorem packetSemantics_iff (board : Board σ) (prog : Programmer σ) (idle : prog.Idle)
    (frame : List Byte) (commands : List Command) (unknown : Option Byte)
    (free : (0 : Byte) ∉ frame) (isUnknown : ∀ byte ∈ unknown, Opcode.ofCode? byte = none)
    (decodes : cobs.unstuff frame = packetBytes commands unknown ++ [0])
    (fits : replyLength commands unknown ≤ 63) :
    PacketSemantics board prog frame commands unknown ↔
      frame.length ≤ 64 ∧ ¬ TimesOut board.driver commands prog.target := by
  constructor
  · intro semantics
    by_cases small : frame.length ≤ 64
    · refine ⟨small, fun late => ?_⟩
      exact not_packetSemantics_of_timesOut idle free decodes small late semantics
    · unfold PacketSemantics at semantics
      obtain ⟨target, sent, ⟨-, one⟩, two⟩ := second_reply idle free (by omega) semantics
      rw [one, List.length_append, List.length_singleton] at two
      exact absurd two (lt_irrefl _)
  · rintro ⟨small, inTime⟩
    exact packetSemantics_of_inTime board idle free isUnknown decodes fits small inTime

/-! ### Two packets -/

/-- Connecting answers with the IDCODE. -/
theorem packetSemantics_connect :
    PacketSemantics (steadyBoard 0x2BA01477) (Programmer.boot ())
      (cobs.stuff [] (packetBytes [.connect] none)) [.connect] none :=
  (packetSemantics_iff (steadyBoard 0x2BA01477) (Programmer.boot ()) (Programmer.boot_idle ())
    (cobs.stuff [] (packetBytes [.connect] none)) [.connect] none (zero_notMem_stuff _)
    (fun _ none => nomatch none) (unstuff_stuff _) (by decide)).mpr ⟨by decide, id⟩

/-- A wait for a bit that stays clear times out. -/
theorem steady_timesOut : TimesOut (steadyDriver 0) [.waitMemTrue 0x40020000 0x80] () := by
  have waited :
      runCommand (steadyDriver 0) (.waitMemTrue 0x40020000 0x80) () = (.timedOut, ()) := rfl
  rw [TimesOut, waited]
  trivial

/-- A packet that waits for a bit that stays clear is not answered once. -/
theorem packetSemantics_fails :
    ¬ ∀ (board : Board Unit) (prog : Programmer Unit) (frame : List Byte)
      (commands : List Command) (unknown : Option Byte), prog.Idle → (0 : Byte) ∉ frame →
      (∀ byte ∈ unknown, Opcode.ofCode? byte = none) →
      cobs.unstuff frame = packetBytes commands unknown ++ [0] →
      replyLength commands unknown ≤ 63 →
      PacketSemantics board prog frame commands unknown := by
  intro claimed
  have semantics := claimed (steadyBoard 0) (Programmer.boot ())
    (cobs.stuff [] (packetBytes [.waitMemTrue 0x40020000 0x80] none))
    [.waitMemTrue 0x40020000 0x80] none (Programmer.boot_idle ()) (zero_notMem_stuff _)
    (fun _ none => nomatch none) (unstuff_stuff _) (by decide)
  exact not_packetSemantics_of_timesOut (Programmer.boot_idle ()) (zero_notMem_stuff _)
    (unstuff_stuff _) (by decide) steady_timesOut semantics

end Swagger.Firmware
