/-
**When the command loop ends.**

Every round of `while (ptr < endptr)` returns or moves `ptr` on, except the one in which a
`WAIT MEMORY TRUE` times out: the next round finds the same command again. So the loop ends unless
it comes to such a command at a word that reads OK for ever and never shows the mask (`Stalls`).

* `Device.ends_of_not_stalls`: without such a command, the rounds end. The outer induction is on
  the bytes that are left, the inner one on the reads until the wait is over.
* `Device.not_ends_of_stalls`: with one, no run ends.
* `loop_ends_iff`: the program, from any reachable state in the loop, with the transactions
  counted.
-/

import Swagger.Firmware.Transactions

namespace Swagger.Firmware

open Library

/-! ### The commands of a packet -/

/-- The command at the index of a packet, if the loop goes on and the opcode has a case. -/
def Packet.command? (packet : Packet) : Option Command :=
  if packet.index + 1 < packet.decoded then
    (Opcode.ofCode? (packet.memory packet.index)).map (commandAt packet.memory packet.index)
  else none

theorem opcode_commandAt (memory : Nat → Byte) (index : Nat) (opcode : Opcode) :
    (commandAt memory index opcode).opcode = opcode := by
  cases opcode <;> rfl

variable {σ : Type} {board : Board σ} {packet : Packet} {device : Device σ}

/-- A round at a command. -/
theorem round_found {command : Command} (found : packet.command? = some command) :
    device.round board packet =
      (device.fetch packet (command.opcode.arity + 1)).conclude packet (command.opcode.arity + 1)
        (runCommand board.driver command device.target) := by
  unfold Packet.command? at found
  split_ifs at found with inside
  obtain ⟨opcode, known, rfl⟩ := Option.map_eq_some_iff.mp found
  unfold Device.round Device.command
  rw [if_pos inside, known, opcode_commandAt]

/-- A round at no command ends the loop. -/
theorem round_none (absent : packet.command? = none) :
    (device.round board packet).phase = .waiting := by
  unfold Packet.command? at absent
  unfold Device.round
  split_ifs at absent ⊢ with inside
  · rw [Option.map_eq_none_iff] at absent
    unfold Device.command
    rw [absent]
    rfl
  · rfl

/-- There are bytes left where there is a command. -/
theorem Packet.inside_of_found {command : Command} (found : packet.command? = some command) :
    packet.index + 1 < packet.decoded := by
  by_contra outside
  rw [Packet.command?, if_neg outside] at found
  cases found

/-! ### Waiting for a word -/

/-- The next so many reads succeed without a match. -/
def Misses (driver : Driver σ) (address mask : Word) : Nat → σ → Prop
  | 0, _ => True
  | reads + 1, target =>
      let (stat, data32, target) := driver.readMemory address target
      stat = Status.ok.code ∧ data32 &&& mask ≠ mask ∧ Misses driver address mask reads target

/-- Every read succeeds, and none matches. -/
def NeverMatches (driver : Driver σ) (address mask : Word) (target : σ) : Prop :=
  ∀ reads, Misses driver address mask reads target

theorem Misses.mono {driver : Driver σ} {address mask : Word} {reads more : Nat} {target : σ}
    (fewer : reads ≤ more) (misses : Misses driver address mask more target) :
    Misses driver address mask reads target := by
  induction reads generalizing more target with
  | zero => trivial
  | succ reads ih =>
      obtain ⟨rest, rfl⟩ := Nat.exists_eq_add_of_le fewer
      rw [Nat.succ_add] at misses
      obtain ⟨ok, missed, others⟩ := misses
      exact ⟨ok, missed, ih (Nat.le_add_right _ _) others⟩

/-- The loop of a wait times out when all its reads miss. -/
theorem waitLoop_timedOut_iff (driver : Driver σ) (address mask : Word) (retries : Nat)
    (target : σ) :
    (Programmer.waitLoop driver address mask retries target).1 = .timedOut ↔
      Misses driver address mask retries target := by
  induction retries generalizing target with
  | zero => exact ⟨fun _ => trivial, fun _ => rfl⟩
  | succ retries ih =>
      unfold Programmer.waitLoop Misses
      generalize driver.readMemory address target = result
      obtain ⟨stat, data32, after⟩ := result
      simp only
      split_ifs with ok matched
      · constructor
        · intro same
          cases same
        · intro misses
          exact absurd matched misses.2.1
      · rw [ih]
        exact ⟨fun misses => ⟨ok, matched, misses⟩, fun misses => misses.2.2⟩
      · constructor
        · intro same
          cases same
        · intro misses
          exact absurd misses.1 ok

/-- Behind a wait that timed out, what misses goes on missing. -/
theorem misses_add (driver : Driver σ) (address mask : Word) (retries reads : Nat) (target : σ)
    (timedOut : Misses driver address mask retries target) :
    Misses driver address mask (retries + reads) target ↔
      Misses driver address mask reads
        (Programmer.waitLoop driver address mask retries target).2 := by
  induction retries generalizing target with
  | zero => rw [Nat.zero_add, Programmer.waitLoop]
  | succ retries ih =>
      rw [Nat.succ_add]
      unfold Misses at timedOut
      unfold Programmer.waitLoop
      rw [Misses]
      generalize driver.readMemory address target = result at timedOut ⊢
      obtain ⟨stat, data32, after⟩ := result
      obtain ⟨ok, missed, rest⟩ := timedOut
      simp only at ok missed rest ⊢
      rw [if_pos ok, if_neg missed, ← ih after rest]
      exact ⟨fun misses => misses.2.2, fun misses => ⟨ok, missed, misses⟩⟩

/-- Only a wait times out. -/
theorem timedOut_wait {driver : Driver σ} {command : Command} {target : σ}
    (timedOut : (runCommand driver command target).1 = .timedOut) :
    ∃ address mask, command = .waitMemTrue address mask ∧
      Misses driver address mask maxRetries target := by
  cases command with
  | waitMemTrue address mask =>
      refine ⟨address, mask, rfl, (waitLoop_timedOut_iff _ _ _ _ _).mp ?_⟩
      rw [runCommand] at timedOut
      unfold Outcome.ofWait at timedOut
      generalize Programmer.waitLoop driver address mask maxRetries target = result at timedOut ⊢
      obtain ⟨waited, after⟩ := result
      cases waited with
      | matched => cases timedOut
      | failed stat => cases timedOut
      | timedOut => rfl
  | connect | readAP | readDP | readMem =>
      simp only [runCommand, Outcome.ofRead] at timedOut
      split_ifs at timedOut
  | writeAP | writeDP | writeMem =>
      simp only [runCommand, Outcome.ofWrite] at timedOut
      split_ifs at timedOut
  | reset | getProgId => cases timedOut

theorem runCommand_wait {driver : Driver σ} {address mask : Word} {target : σ}
    (timedOut : Misses driver address mask maxRetries target) :
    runCommand driver (.waitMemTrue address mask) target =
      (.timedOut, (Programmer.waitLoop driver address mask maxRetries target).2) := by
  have expired := (waitLoop_timedOut_iff driver address mask maxRetries target).mpr timedOut
  rw [runCommand, Outcome.ofWait, expired]

/-! ### The command that is never passed -/

/-- From the command at the index on, the packet comes to a `WAIT MEMORY TRUE` that is never
over. -/
inductive Stalls (driver : Driver σ) : Packet → σ → Prop
  | here {packet : Packet} {target : σ} {address mask : Word}
      (found : packet.command? = some (.waitMemTrue address mask))
      (never : NeverMatches driver address mask target) : Stalls driver packet target
  | next {packet : Packet} {target : σ} {command : Command} {results : List Result}
      (found : packet.command? = some command)
      (done : (runCommand driver command target).1 = .done results)
      (later : Stalls driver (packet.advance (command.opcode.arity + 1))
        (runCommand driver command target).2) : Stalls driver packet target
  | again {packet : Packet} {target : σ} {command : Command}
      (found : packet.command? = some command)
      (timedOut : (runCommand driver command target).1 = .timedOut)
      (later : Stalls driver packet (runCommand driver command target).2) :
      Stalls driver packet target

/-- The rounds come to an end. -/
def Device.Ends (board : Board σ) (device : Device σ) : Prop :=
  ∃ device', (Device.lts board).Trace device [] device' ∧ device'.phase = .waiting

/-- The only step of a device in a packet is a round. -/
theorem Device.ends_round_iff (here : device.phase = .interpreting packet) :
    device.Ends board ↔ (device.round board packet).Ends board := by
  have step : (Device.lts board).step device none (device.round board packet) := by
    simp only [Device.lts, here]
  constructor
  · rintro ⟨device', run, waiting⟩
    exact ⟨device', Device.deterministic.rest (.single step) run (Device.quiet waiting), waiting⟩
  · rintro ⟨device', run, waiting⟩
    exact ⟨device', .silent step run, waiting⟩

theorem Device.ends_waiting (waiting : device.phase = .waiting) : device.Ends board :=
  ⟨device, .refl device, waiting⟩

/-- A round at a command that is done goes on behind it. -/
theorem round_done {command : Command} {results : List Result}
    (found : packet.command? = some command)
    (done : (runCommand board.driver command device.target).1 = .done results) :
    (device.round board packet).phase =
        .interpreting (packet.advance (command.opcode.arity + 1)) ∧
      (device.round board packet).target = (runCommand board.driver command device.target).2 := by
  rw [round_found found, Device.conclude, done]
  exact ⟨rfl, rfl⟩

/-- A round at a command that failed ends the loop. -/
theorem round_failed {command : Command} {status : Byte} (found : packet.command? = some command)
    (failed : (runCommand board.driver command device.target).1 = .failed status) :
    (device.round board packet).phase = .waiting := by
  rw [round_found found, Device.conclude, failed]
  rfl

/-- A round at a wait that timed out stays there. -/
theorem round_timedOut (board : Board σ) (device : Device σ) {command : Command}
    (found : packet.command? = some command)
    (timedOut : (runCommand board.driver command device.target).1 = .timedOut) :
    (device.round board packet).phase = .interpreting packet ∧
      (device.round board packet).target = (runCommand board.driver command device.target).2 := by
  rw [round_found found, Device.conclude, timedOut]
  exact ⟨rfl, rfl⟩

/-- A command in time ends the loop, or leaves what is behind it. -/
theorem Device.ends_inTime (board : Board σ) {command : Command}
    (found : packet.command? = some command)
    (further : ∀ next : Device σ,
      next.phase = .interpreting (packet.advance (command.opcode.arity + 1)) →
      ¬ Stalls board.driver (packet.advance (command.opcode.arity + 1)) next.target →
      next.Ends board)
    (device : Device σ) (here : device.phase = .interpreting packet)
    (passes : ¬ Stalls board.driver packet device.target)
    (inTime : (runCommand board.driver command device.target).1 ≠ .timedOut) :
    device.Ends board := by
  rw [Device.ends_round_iff here]
  cases outcome : (runCommand board.driver command device.target).1 with
  | done results =>
      obtain ⟨phase, target⟩ := round_done found outcome
      refine further _ phase fun stalls => passes ?_
      rw [target] at stalls
      exact .next found outcome stalls
  | failed status => exact Device.ends_waiting (round_failed found outcome)
  | timedOut => exact absurd outcome inTime

/-- A wait with a read that ends it times out in some rounds at most. The induction is on the reads
up to that one, `maxRetries` of them each round. -/
theorem Device.ends_wait (board : Board σ) {address mask : Word}
    (found : packet.command? = some (.waitMemTrue address mask))
    (settles : ∀ next : Device σ, next.phase = .interpreting packet →
      ¬ Stalls board.driver packet next.target →
      (runCommand board.driver (.waitMemTrue address mask) next.target).1 ≠ .timedOut →
      next.Ends board)
    (reads : Nat) (device : Device σ) (here : device.phase = .interpreting packet)
    (passes : ¬ Stalls board.driver packet device.target)
    (hit : ¬ Misses board.driver address mask reads device.target) : device.Ends board := by
  induction reads using Nat.strong_induction_on generalizing device with
  | _ reads fewer =>
      by_cases misses : Misses board.driver address mask maxRetries device.target
      · have ran := runCommand_wait misses
        obtain ⟨phase, target⟩ := round_timedOut board device found (by rw [ran])
        rw [ran] at target
        have short : maxRetries < reads := Nat.lt_of_not_le fun long => hit (misses.mono long)
        obtain ⟨rest, split⟩ := Nat.exists_eq_add_of_lt short
        rw [split, Nat.add_assoc, misses_add _ _ _ _ _ _ misses, ← target] at hit
        rw [Device.ends_round_iff here]
        refine fewer (rest + 1) (by rw [split, maxRetries]; omega) _ phase
          (fun stalls => passes ?_) hit
        rw [target] at stalls
        exact .again found (by rw [ran]) (by rwa [ran])
      · refine settles device here passes fun timedOut => misses ?_
        obtain ⟨address', mask', same, misses⟩ := timedOut_wait timedOut
        cases same
        exact misses

/-- The rounds end if no wait is stalled. -/
theorem Device.ends_of_not_stalls (board : Board σ) (left : Nat) (packet : Packet)
    (device : Device σ) (bound : packet.decoded - packet.index ≤ left)
    (here : device.phase = .interpreting packet)
    (passes : ¬ Stalls board.driver packet device.target) : device.Ends board := by
  induction left generalizing packet device with
  | zero =>
      rw [Device.ends_round_iff here]
      cases found : packet.command? with
      | none => exact Device.ends_waiting (round_none found)
      | some command =>
          have inside := Packet.inside_of_found found
          omega
  | succ left further =>
      cases found : packet.command? with
      | none =>
          rw [Device.ends_round_iff here]
          exact Device.ends_waiting (round_none found)
      | some command =>
          have inside := Packet.inside_of_found found
          have less : (packet.advance (command.opcode.arity + 1)).decoded -
              (packet.advance (command.opcode.arity + 1)).index ≤ left := by
            simp only [Packet.advance]
            omega
          have settles := Device.ends_inTime board found fun next => further _ next less
          by_cases wait : ∃ address mask, command = .waitMemTrue address mask
          · obtain ⟨address, mask, rfl⟩ := wait
            have stops : ∃ reads, ¬ Misses board.driver address mask reads device.target := by
              by_contra never
              rw [not_exists_not] at never
              exact passes (.here found never)
            obtain ⟨reads, hit⟩ := stops
            exact Device.ends_wait board found settles reads device here passes hit
          · refine settles device here passes fun timedOut => wait ?_
            obtain ⟨address, mask, same, -⟩ := timedOut_wait timedOut
            exact ⟨address, mask, same⟩

/-- Reads that never match outlast any wait. -/
theorem NeverMatches.behind {driver : Driver σ} {address mask : Word} {target : σ}
    (never : NeverMatches driver address mask target) :
    NeverMatches driver address mask
      (Programmer.waitLoop driver address mask maxRetries target).2 := by
  intro reads
  rw [← misses_add driver address mask maxRetries reads target (never maxRetries)]
  exact never _

/-- At a wait that is never over, all rounds are alike. -/
theorem Device.not_ends_here {address mask : Word}
    (found : packet.command? = some (.waitMemTrue address mask))
    (here : device.phase = .interpreting packet)
    (never : NeverMatches board.driver address mask device.target) : ¬ device.Ends board := by
  have keeps (one two : Device σ)
      (stuck : one.phase = .interpreting packet ∧
        NeverMatches board.driver address mask one.target)
      (step : (Device.lts board).step one none two) :
      two.phase = .interpreting packet ∧ NeverMatches board.driver address mask two.target := by
    obtain ⟨here, never⟩ := stuck
    simp only [Device.lts, here] at step
    have ran := runCommand_wait (never maxRetries)
    obtain ⟨phase, target⟩ := round_timedOut board one found (by rw [ran])
    rw [step, target, ran]
    exact ⟨phase, never.behind⟩
  rintro ⟨device', run, waiting⟩
  have stuck := run.invariant_silent keeps ⟨here, never⟩
  rw [stuck.1] at waiting
  cases waiting

/-- With a stalled wait ahead, no run ends. -/
theorem Device.not_ends_of_stalls {target : σ} (stalls : Stalls board.driver packet target)
    {device : Device σ} (here : device.phase = .interpreting packet)
    (same : device.target = target) : ¬ device.Ends board := by
  induction stalls generalizing device with
  | here found never =>
      rw [← same] at never
      exact Device.not_ends_here found here never
  | next found done _ ih =>
      rw [← same] at done ih
      obtain ⟨phase, target⟩ := round_done found done
      rw [Device.ends_round_iff here]
      exact ih phase target
  | again found timedOut _ ih =>
      rw [← same] at timedOut ih
      obtain ⟨phase, target⟩ := round_timedOut board _ found timedOut
      rw [Device.ends_round_iff here]
      exact ih phase target

/-- The rounds end exactly when no wait is stalled. -/
theorem Device.ends_iff (here : device.phase = .interpreting packet) :
    device.Ends board ↔ ¬ Stalls board.driver packet device.target := by
  constructor
  · intro ends stalls
    exact Device.not_ends_of_stalls stalls here rfl ends
  · exact Device.ends_of_not_stalls board _ packet device le_rfl here

/-! ### The program -/

/-- The loop of the program ends: the program comes to wait for a byte, and there is a bound on the
transactions until then. -/
def LoopEnds (board : Board (MidLevel (Counted σ)))
    (prog : Programmer (MidLevel (Counted σ))) : Prop :=
  (∃ prog', (Programmer.lts board).Trace prog [] prog' ∧ prog'.Waiting) ∧
    ∃ bound, ∀ prog', (Programmer.lts board).Trace prog [] prog' →
      prog'.target.target.count ≤ bound

/-- A program that refines a device ends its loop when the device does; the transactions of the
last state bound those of every state before. -/
theorem Refines.loopEnds_iff {port : SwdPort σ} {board : Board (MidLevel (Counted σ))}
    (driver : board.driver = arduinoSWDInterface port.counted)
    {prog : Programmer (MidLevel (Counted σ))} {device : Device (MidLevel (Counted σ))}
    (related : Refines board prog device) : LoopEnds board prog ↔ device.Ends board := by
  constructor
  · rintro ⟨⟨prog', run, waiting⟩, -⟩
    obtain ⟨device', run', related'⟩ := step_refines.trace run related
    exact ⟨device', run', related'.phase.trans waiting⟩
  · rintro ⟨last, run, waiting⟩
    obtain ⟨prog', run', related'⟩ := step_matched.trace run related
    refine ⟨⟨prog', run', related'.phase.symm.trans waiting⟩, last.target.target.count,
      fun between before => ?_⟩
    obtain ⟨device', before', related''⟩ := step_refines.trace before related
    rw [related''.data.target]
    exact Device.run_count driver (Device.deterministic.rest before' run (Device.quiet waiting))

/-- Whatever bytes the program has read and whatever the target answers: the command loop ends,
after a bounded number of transactions, exactly when it does not come to a `WAIT MEMORY TRUE` whose
word reads OK for ever and never shows the mask. -/
theorem loop_ends_iff (port : SwdPort σ) (board : Board (MidLevel (Counted σ)))
    (driver : board.driver = arduinoSWDInterface port.counted) (target : MidLevel (Counted σ))
    (labels : List Byte) (prog : Programmer (MidLevel (Counted σ)))
    (run : (Programmer.lts board).Trace (Programmer.boot target) labels prog) (cursor : Cursor)
    (here : prog.control = .interpreting cursor) :
    LoopEnds board prog ↔ ¬ Stalls board.driver cursor.packet prog.target := by
  obtain ⟨device, -, related⟩ := reachable_refines run
  have phase : device.phase = .interpreting cursor.packet := by
    rw [related.phase, here, Control.phase]
  rw [related.loopEnds_iff driver, Device.ends_iff phase, related.data.target]

/-! ### A target that stays as it is -/

/-- A port that acknowledges everything and reads as one word. -/
structure SwdPort.Steady (port : SwdPort σ) (word : Word) : Prop where
  read : ∀ apNotDp bits target, (port.doReadTransaction apNotDp bits target).1 = swdOk ∧
    (port.doReadTransaction apNotDp bits target).2.1 = word
  write : ∀ apNotDp bits data target, (port.doWriteTransaction apNotDp bits data target).1 = swdOk

section Steady

open MidLevel

variable {port : SwdPort σ} {word : Word}

theorem retryWrite_steady (steady : port.Steady word) (apNotDp : Bool) (address data : Word)
    (retries : Nat) (state : MidLevel σ) :
    (retryWrite port apNotDp address data (retries + 1) state).1 = Status.ok.code := by
  have acknowledged := steady.write apNotDp (Firmware.a23 address) data state.target
  rw [retryWrite]
  simp only [acknowledged]
  rfl

theorem retryRead_steady (steady : port.Steady word) (apNotDp : Bool) (address : Word)
    (retries : Nat) (state : MidLevel σ) :
    (retryRead port apNotDp address (retries + 1) state).1 = Status.ok.code ∧
      (retryRead port apNotDp address (retries + 1) state).2.1 = word := by
  have acknowledged := steady.read apNotDp (Firmware.a23 address) state.target
  rw [retryRead]
  simp only [acknowledged.1, acknowledged.2]
  exact ⟨rfl, rfl⟩

theorem selectAP_steady (steady : port.Steady word) (address : Word) (state : MidLevel σ) :
    (selectAP port address state).1 = Status.ok.code := by
  have written : (writeDP port dpSelect (address &&& apMask) state).1 = Status.ok.code :=
    retryWrite_steady steady false dpSelect _ _ state
  unfold selectAP
  simp only
  split_ifs
  · rfl
  · exact written

theorem writeAP_steady (steady : port.Steady word) (address data : Word) (state : MidLevel σ) :
    (writeAP port address data state).1 = Status.ok.code := by
  rw [writeAP]
  simp only
  rw [if_neg (not_not.mpr (selectAP_steady steady address state))]
  exact retryWrite_steady steady true address data _ _

theorem readAP_steady (steady : port.Steady word) (address : Word) (state : MidLevel σ) :
    (readAP port address state).1 = Status.ok.code ∧ (readAP port address state).2.1 = word := by
  have posted (state : MidLevel σ) :
      (retryRead port true address driverRetries state).1 = Status.ok.code :=
    (retryRead_steady steady true address _ state).1
  rw [readAP]
  simp only
  rw [if_neg (not_not.mpr (selectAP_steady steady address state)), if_neg (not_not.mpr (posted _))]
  exact retryRead_steady steady false dpRdbuff _ _

/-- Memory reads succeed with the word, if the busy bit of CSW is clear in it. -/
theorem readMemory_steady (steady : port.Steady word) (ready : word &&& 0x80 = 0)
    (address : Word) (state : MidLevel σ) :
    (readMemory port address state).1 = Status.ok.code ∧
      (readMemory port address state).2.1 = word := by
  have waited (state : MidLevel σ) : (waitForMemory port state).1 = Status.ok.code := by
    have read := readAP_steady steady ahbApCsw state
    rw [waitForMemory, driverRetries, MidLevel.waitLoop]
    simp only
    rw [if_neg (not_not.mpr read.1), read.2, if_pos ready]
  have prepared : (setUpAccess port address state).1 = Status.ok.code := by
    rw [setUpAccess]
    simp only
    rw [if_neg (not_not.mpr (writeAP_steady steady _ _ _)), if_neg (not_not.mpr (waited _))]
    exact writeAP_steady steady _ _ _
  rw [readMemory]
  simp only
  rw [if_neg (not_not.mpr prepared)]
  exact readAP_steady steady _ _

/-- At such a target a wait for a bit that is clear is never over. -/
theorem neverMatches_steady (steady : port.Steady word) (ready : word &&& 0x80 = 0)
    {mask : Word} (clear : word &&& mask ≠ mask) (address : Word) (state : MidLevel σ) :
    NeverMatches (arduinoSWDInterface port) address mask state := by
  intro reads
  induction reads generalizing state with
  | zero => trivial
  | succ reads ih =>
      have read := readMemory_steady steady ready address state
      refine ⟨read.1, ?_, ih _⟩
      change (readMemory port address state).2.1 &&& mask ≠ mask
      rw [read.2]
      exact clear

end Steady

/-- The programmer at a target that acknowledges everything and reads as 0. -/
def stillBoard : Board (MidLevel (Counted Unit)) := classBoard steadyPort.counted

def stillBoot : Programmer (MidLevel (Counted Unit)) :=
  Programmer.boot (MidLevel.boot { target := (), count := 0 })

/-- A packet that arrives after power-on is interpreted. -/
theorem stillBoot_opens (payload : List Byte) (small : (cobs.stuff [] payload).length ≤ 64) :
    ∃ prog cursor, (Programmer.lts stillBoard).Trace stillBoot
        (cobs.stuff [] payload ++ [0]) prog ∧ prog.control = .interpreting cursor ∧
      cursor.packet =
        { memory := overlay (payload ++ [0]) fun _ => 0, decoded := payload.length + 1
          index := 0 } ∧
      prog.target = stillBoot.target := by
  have idle : stillBoot.Idle := Programmer.boot_idle _
  have related : Refines stillBoard stillBoot stillBoot.idleDevice := idle.refines
  have opened := Device.opens stillBoard stillBoot.idleDevice rfl rfl (zero_notMem_stuff payload)
    small
  obtain ⟨prog, run, related'⟩ := step_matched.trace opened related
  obtain ⟨cursor, here, packet⟩ := related'.interprets rfl
  refine ⟨prog, cursor, run, here, ?_, related'.data.target⟩
  rw [← packet, Device.opened, unstuff_stuff, List.length_append, List.length_singleton]
  rfl

theorem stillPort_steady : steadyPort.counted.Steady 0 :=
  ⟨fun _ _ _ => ⟨rfl, rfl⟩, fun _ _ _ _ => rfl⟩

/-- A packet of a CONNECT is over after one round. -/
theorem loop_ends_connect :
    ∃ prog, (Programmer.lts stillBoard).Trace stillBoot (cobs.stuff [] [0] ++ [0]) prog ∧
      LoopEnds stillBoard prog := by
  obtain ⟨prog, cursor, run, here, packet, -⟩ := stillBoot_opens [0] (by decide)
  refine ⟨prog, run, (loop_ends_iff steadyPort stillBoard rfl _ _ prog run cursor here).mpr ?_⟩
  have first : cursor.packet.command? = some .connect := by
    rw [packet]
    rfl
  have second : (cursor.packet.advance 1).command? = none := by
    rw [packet]
    rfl
  intro stalls
  cases stalls with
  | here found _ => cases first.symm.trans found
  | next found _ later =>
      cases first.symm.trans found
      cases later with
      | here found _ => cases second.symm.trans found
      | next found _ _ => cases second.symm.trans found
      | again found _ _ => cases second.symm.trans found
  | again found timedOut _ =>
      cases first.symm.trans found
      obtain ⟨_, _, impossible, -⟩ := timedOut_wait timedOut
      cases impossible

/-- A packet that waits for a bit that stays clear is never over. -/
theorem loop_ends_fails :
    ¬ ∀ (board : Board (MidLevel (Counted Unit))) (target : MidLevel (Counted Unit))
      (labels : List Byte) (prog : Programmer (MidLevel (Counted Unit))) (cursor : Cursor),
      board.driver = arduinoSWDInterface steadyPort.counted →
      (Programmer.lts board).Trace (Programmer.boot target) labels prog →
      prog.control = .interpreting cursor → LoopEnds board prog := by
  intro claimed
  obtain ⟨prog, cursor, run, here, packet, -⟩ :=
    stillBoot_opens [8, 0, 0, 2, 0x40, 0x80, 0, 0, 0] (by decide)
  have ends := claimed stillBoard _ _ prog cursor rfl run here
  obtain ⟨device, -, related⟩ := reachable_refines run
  have phase : device.phase = .interpreting cursor.packet := by
    rw [related.phase, here, Control.phase]
  have found : cursor.packet.command? = some (.waitMemTrue 0x40020000 0x80) := by
    rw [packet]
    rfl
  exact Device.not_ends_here found phase
    (neverMatches_steady stillPort_steady (by decide) (by decide) _ _)
    ((related.loopEnds_iff rfl).mp ends)

end Swagger.Firmware
