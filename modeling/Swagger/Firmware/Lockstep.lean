/-
**Pins in lockstep.**

Two implementations of the pins are in lockstep if what is done on one of them is done on the other,
for a number of clock cycles (`Lockstep`). The functions of the class, which are written over any
pins, then return the same on both, and use up as many cycles as they have rising edges.

`SwjBench` has the switch of `SwjTarget.lean` in front of the port. While the line is calm it is in
lockstep with the bench that has the port alone (`lockstep`): a transaction begins with a zero, and
from this zero to the next one there are 45 cycles at most. So no sequence of transactions is taken
for a reset or for a selection, whatever their bits are (`callAll_mirrors`).
-/

import Swagger.Firmware.BitLevel
import Swagger.Firmware.SwjTarget

namespace Swagger.Firmware

/-! ### Two implementations -/

/-- The pins move together, for as many rising edges as are left. -/
structure Lockstep {σ σ' : Type} (base : SWDInterfaceBase σ) (base' : SWDInterfaceBase σ')
    (related : Nat → σ → σ' → Prop) : Prop where
  configDataPin : ∀ {left state state'} (output : Bool), related left state state' →
    related left (base.configDataPin output state) (base'.configDataPin output state')
  setDataPin : ∀ {left state state'} (v : Bool), related left state state' →
    related left (base.setDataPin v state) (base'.setDataPin v state')
  getDataPin : ∀ {left state state'}, related left state state' →
    base.getDataPin state = base'.getDataPin state'
  falls : ∀ {left state state'}, related left state state' →
    related left (base.setClockPin false state) (base'.setClockPin false state')
  rises : ∀ {left state state'}, related (left + 1) state state' →
    related left (base.setClockPin true state) (base'.setClockPin true state')
  doDelay : ∀ {left state state'}, related left state state' →
    related left (base.doDelay state) (base'.doDelay state')

namespace Lockstep

variable {σ σ' : Type} {base : SWDInterfaceBase σ} {base' : SWDInterfaceBase σ'}
  {related : Nat → σ → σ' → Prop} (lockstep : Lockstep base base' related)
  {left : Nat} {state : σ} {state' : σ'}

include lockstep

theorem writeBit (v : Bool) (same : related (left + 1) state state') :
    related left (base.writeBit v state) (base'.writeBit v state') :=
  lockstep.doDelay (lockstep.rises (lockstep.doDelay (lockstep.falls (lockstep.setDataPin v same))))

theorem readBit (same : related (left + 1) state state') :
    (base.readBit state).1 = (base'.readBit state').1 ∧
      related left (base.readBit state).2 (base'.readBit state').2 := by
  have low := lockstep.doDelay (lockstep.falls same)
  exact ⟨lockstep.getDataPin low, lockstep.doDelay (lockstep.rises low)⟩

theorem writeBits (rounds : Nat) (data : Word) {state : σ} {state' : σ'}
    (same : related (left + rounds) state state') :
    related left (base.writeBits rounds data state) (base'.writeBits rounds data state') := by
  induction rounds generalizing data state state' with
  | zero => exact same
  | succ rounds ih => exact ih _ (lockstep.writeBit _ same)

theorem repeatBit (rounds : Nat) (v : Bool) {state : σ} {state' : σ'}
    (same : related (left + rounds) state state') :
    related left (base.repeatBit v rounds state) (base'.repeatBit v rounds state') := by
  induction rounds generalizing state state' with
  | zero => exact same
  | succ rounds ih => exact ih (lockstep.writeBit v same)

theorem readBits (rounds : Nat) (data : Word) {state : σ} {state' : σ'}
    (same : related (left + rounds) state state') :
    (base.readBits rounds data state).1 = (base'.readBits rounds data state').1 ∧
      related left (base.readBits rounds data state).2 (base'.readBits rounds data state').2 := by
  induction rounds generalizing data state state' with
  | zero => exact ⟨rfl, same⟩
  | succ rounds ih =>
      obtain ⟨bit, next⟩ := lockstep.readBit same
      unfold SWDInterfaceBase.readBits
      simp only
      rw [bit]
      exact ih _ next

theorem readAck (same : related (left + 3) state state') :
    (base.readAck state).1 = (base'.readAck state').1 ∧
      related left (base.readAck state).2 (base'.readAck state').2 := by
  obtain ⟨bit0, one⟩ := lockstep.readBit (lockstep.configDataPin false same)
  obtain ⟨bit1, two⟩ := lockstep.readBit one
  obtain ⟨bit2, three⟩ := lockstep.readBit two
  unfold SWDInterfaceBase.readAck
  simp only
  rw [bit0, bit1, bit2]
  exact ⟨rfl, three⟩

/-- A request, behind the zero that it begins with. -/
theorem request (apNotDp readNotWrite : Bool) (address : Byte)
    (zero : related (left + 12) (base.writeBit false (base.configDataPin true state))
      (base'.writeBit false (base'.configDataPin true state'))) :
    (base.request apNotDp readNotWrite address state).1 =
        (base'.request apNotDp readNotWrite address state').1 ∧
      related left (base.request apNotDp readNotWrite address state).2
        (base'.request apNotDp readNotWrite address state').2 := by
  have one := lockstep.writeBit true zero
  have two := lockstep.writeBit apNotDp one
  have three := lockstep.writeBit readNotWrite two
  have four := lockstep.writeBit (decide (address &&& 1 > 0)) three
  have five := lockstep.writeBit (decide (address &&& 2 > 0)) four
  have six := lockstep.writeBit
    (readNotWrite ^^ apNotDp ^^ decide (address &&& 1 > 0) ^^ decide (address &&& 2 > 0)) five
  have seven := lockstep.writeBit false six
  have eight := lockstep.writeBit true seven
  obtain ⟨-, turned⟩ := lockstep.readBit (lockstep.configDataPin false eight)
  exact lockstep.readAck turned

theorem endRefused (same : related (left + 1) state state') :
    related left (base.endRefused state) (base'.endRefused state') :=
  lockstep.setDataPin true (lockstep.configDataPin true (lockstep.readBit same).2)

/-- The zeros behind a transaction, when the first of them has been written. -/
theorem lineIdle (zero : related (left + 7)
      (base.writeBit false (base.configDataPin true (base.setDataPin false state)))
      (base'.writeBit false (base'.configDataPin true (base'.setDataPin false state')))) :
    related left (base.lineIdle state) (base'.lineIdle state') :=
  lockstep.repeatBit 7 false zero

end Lockstep

/-! ### The switch on the wire -/

/-- The pins of the host, and the switch with the port behind it. -/
structure SwjBench (τ : Type) where
  hostOutput : Bool
  level : Bool
  clock : Bool
  cycles : Nat
  swj : SwjState τ

namespace SwjBench

variable {τ : Type} (target : SwdTarget τ) (noise : Nat → Bool)

/-- The level of the data line. -/
def line (bench : SwjBench τ) : Bool :=
  match bench.hostOutput, bench.swj.drives with
  | true, none => bench.level
  | false, some bit => bit
  | _, _ => noise bench.cycles

def setClockPin (v : Bool) (bench : SwjBench τ) : SwjBench τ :=
  if v = true ∧ bench.clock = false then
    { bench with
      clock := true
      cycles := bench.cycles + 1
      swj := bench.swj.step target (bench.line noise) }
  else { bench with clock := v }

def pins : SWDInterfaceBase (SwjBench τ) where
  configDataPin output bench := { bench with hostOutput := output }
  setDataPin v bench := { bench with level := v }
  getDataPin bench := bench.line noise
  setClockPin := setClockPin target noise
  doDelay := id

theorem setClockPin_low (bench : SwjBench τ) :
    setClockPin target noise false bench = { bench with clock := false } := by
  rw [setClockPin, if_neg fun rising => Bool.false_ne_true rising.1]

theorem writeBit_eq (v : Bool) (bench : SwjBench τ) :
    (pins target noise).writeBit v bench =
      SwjBench.setClockPin target noise true
        { bench with
          level := v
          clock := false } := by
  change setClockPin target noise true (setClockPin target noise false { bench with level := v }) =
    _
  rw [setClockPin_low]

/-- The bench with the port alone. -/
def alone (bench : SwjBench τ) : Bench τ where
  hostOutput := bench.hostOutput
  level := bench.level
  clock := bench.clock
  cycles := bench.cycles
  wire := bench.swj.port

end SwjBench

section Mirror

variable {τ : Type} (target : SwdTarget τ) (noise : Nat → Bool) {left : Nat}
  {swjBench : SwjBench τ} {bench : Bench τ}

/-- The SWD port is selected, the line is calm, and the bench is the one with the port alone. -/
structure Mirrors (left : Nat) (swjBench : SwjBench τ) (bench : Bench τ) : Prop where
  selected : swjBench.swj.mode = .swd
  calm : Calm swjBench.swj.seen
  spare : Spare left swjBench.swj.seen
  alone : swjBench.alone = bench

theorem Mirrors.mono (mirrors : Mirrors left swjBench bench) {left' : Nat}
    (fewer : left' ≤ left) : Mirrors left' swjBench bench :=
  ⟨mirrors.selected, mirrors.calm, mirrors.spare.mono fewer, mirrors.alone⟩

theorem Mirrors.port (mirrors : Mirrors left swjBench bench) :
    swjBench.swj.port = bench.wire :=
  congrArg Bench.wire mirrors.alone

theorem SwjBench.line_alone (selected : swjBench.swj.mode = .swd) :
    swjBench.line noise = swjBench.alone.line noise := by
  have drives : swjBench.swj.drives = swjBench.alone.wire.drives := by
    rw [SwjState.drives, selected]
    rfl
  unfold SwjBench.line Bench.line
  rw [drives]
  rfl

/-- A rising edge, when it is known what the line allows behind it. -/
theorem Mirrors.rise (mirrors : Mirrors left swjBench bench) (low : swjBench.clock = false)
    {left' : Nat} (spare : Spare left' (swjBench.line noise :: swjBench.swj.seen)) :
    Mirrors left' ((SwjBench.pins target noise).setClockPin true swjBench)
      ((Bench.pins target noise).setClockPin true bench) := by
  obtain ⟨selected, calm, -, rfl⟩ := mirrors
  change Mirrors left' (swjBench.setClockPin target noise true)
    (swjBench.alone.setClockPin target noise true)
  have stepped := SwjState.step_calm target selected (calm.next spare)
  unfold SwjBench.setClockPin Bench.setClockPin
  rw [if_pos ⟨rfl, low⟩, if_pos ⟨rfl, low⟩, stepped]
  refine ⟨rfl, calm.next spare, spare, ?_⟩
  rw [SwjBench.line_alone noise selected]
  rfl

/-- A clock that is high already does not rise. -/
theorem Mirrors.stays (mirrors : Mirrors left swjBench bench) (high : swjBench.clock ≠ false) :
    Mirrors left ((SwjBench.pins target noise).setClockPin true swjBench)
      ((Bench.pins target noise).setClockPin true bench) := by
  obtain ⟨selected, calm, spare, rfl⟩ := mirrors
  change Mirrors left (swjBench.setClockPin target noise true)
    (swjBench.alone.setClockPin target noise true)
  unfold SwjBench.setClockPin Bench.setClockPin
  rw [if_neg (fun rising => high rising.2), if_neg (fun rising => high rising.2)]
  exact ⟨selected, calm, spare, rfl⟩

theorem Mirrors.fall (mirrors : Mirrors left swjBench bench) :
    Mirrors left ((SwjBench.pins target noise).setClockPin false swjBench)
      ((Bench.pins target noise).setClockPin false bench) := by
  obtain ⟨selected, calm, spare, rfl⟩ := mirrors
  change Mirrors left (swjBench.setClockPin target noise false)
    (swjBench.alone.setClockPin target noise false)
  rw [SwjBench.setClockPin_low, Firmware.setClockPin_low]
  exact ⟨selected, calm, spare, rfl⟩

/-- On a calm line the switch cannot be told from a wire. -/
theorem lockstep :
    Lockstep (SwjBench.pins target noise) (Bench.pins target noise) Mirrors where
  configDataPin output mirrors := by
    obtain ⟨selected, calm, spare, rfl⟩ := mirrors
    exact ⟨selected, calm, spare, rfl⟩
  setDataPin v mirrors := by
    obtain ⟨selected, calm, spare, rfl⟩ := mirrors
    exact ⟨selected, calm, spare, rfl⟩
  getDataPin mirrors := by
    obtain ⟨selected, -, -, rfl⟩ := mirrors
    exact SwjBench.line_alone noise selected
  falls mirrors := mirrors.fall target noise
  rises {left swjBench bench} mirrors := by
    by_cases low : swjBench.clock = false
    · exact mirrors.rise target noise low (mirrors.spare.next _)
    · exact (mirrors.mono (Nat.le_succ left)).stays target noise low
  doDelay mirrors := mirrors

/-- A zero that the target sees leaves the most. -/
theorem Mirrors.writeZero (mirrors : Mirrors left swjBench bench)
    (output : bench.hostOutput = true) (quiet : bench.wire.drives = none) :
    Mirrors 47 ((SwjBench.pins target noise).writeBit false swjBench)
      ((Bench.pins target noise).writeBit false bench) := by
  obtain ⟨selected, calm, spare, rfl⟩ := mirrors
  have lowered : Mirrors left
      { swjBench with
        level := false
        clock := false }
      { swjBench.alone with
        level := false
        clock := false } := ⟨selected, calm, spare, rfl⟩
  have line : SwjBench.line noise
      { swjBench with
        level := false
        clock := false } = false := by
    rw [SwjBench.line_alone noise (by exact selected), Bench.line]
    change (match swjBench.alone.hostOutput, swjBench.alone.wire.drives with
      | true, none => false
      | false, some bit => bit
      | _, _ => noise swjBench.cycles) = false
    rw [output, quiet]
  have rise := lowered.rise target noise rfl (line ▸ Spare.zero swjBench.swj.seen)
  rw [SwjBench.writeBit_eq, Firmware.writeBit_eq]
  exact rise

/-! ### Transactions -/

/-- The zero in front of a request. -/
theorem Mirrors.begin (mirrors : Mirrors left swjBench bench) (idle : bench.wire.phase = .idle) :
    Mirrors 47
      ((SwjBench.pins target noise).writeBit false
        ((SwjBench.pins target noise).configDataPin true swjBench))
      ((Bench.pins target noise).writeBit false
        ((Bench.pins target noise).configDataPin true bench)) := by
  have quiet : (bench.configDataPin true).wire.drives = none := by
    change bench.wire.drives = none
    rw [TargetState.drives, idle]
  exact ((lockstep target noise).configDataPin true mirrors).writeZero target noise rfl quiet

/-- The zeros behind a transaction. -/
theorem Mirrors.lineIdle (mirrors : Mirrors left swjBench bench) (idle : bench.wire.phase = .idle) :
    Mirrors 40 ((SwjBench.pins target noise).lineIdle swjBench)
      ((Bench.pins target noise).lineIdle bench) := by
  have low := (lockstep target noise).configDataPin true
    ((lockstep target noise).setDataPin false mirrors)
  have quiet : ((bench.setDataPin false).configDataPin true).wire.drives = none := by
    change bench.wire.drives = none
    rw [TargetState.drives, idle]
  exact (lockstep target noise).lineIdle (low.writeZero target noise rfl quiet)

/-- A read, on the bench with the switch and on the one without. -/
theorem Mirrors.read (mirrors : Mirrors left swjBench bench) (idle : bench.wire.phase = .idle)
    (apNotDp : Bool) (address : Byte) (data : Word) :
    let here := (SwjBench.pins target noise).doReadTransaction apNotDp address data swjBench
    let there := (Bench.pins target noise).doReadTransaction apNotDp address data bench
    here.1 = there.1 ∧ here.2.1 = there.2.1 ∧ Mirrors 34 here.2.2 there.2.2 := by
  intro here there
  have locked := lockstep target noise
  have zero : Mirrors (35 + 12) _ _ := mirrors.begin target noise idle
  obtain ⟨code, asked⟩ := locked.request apNotDp true address zero
  obtain ⟨answered, listens⟩ := request_spec target noise bench idle apNotDp true address
  unfold here there SWDInterfaceBase.doReadTransaction
  generalize (SwjBench.pins target noise).request apNotDp true address swjBench = requested
    at code asked ⊢
  generalize (Bench.pins target noise).request apNotDp true address bench = requested'
    at code asked answered listens ⊢
  obtain ⟨swdcode, swjBench'⟩ := requested
  obtain ⟨swdcode', bench'⟩ := requested'
  obtain rfl : swdcode = swdcode' := code
  rcases answer : target.respond (requestOf apNotDp true address) bench.wire.state with
    ⟨ack, word, state⟩
  rw [answer] at answered listens
  obtain rfl : swdcode = ack.code := answered
  simp only at asked listens ⊢
  by_cases ok : ack = .ok
  · subst ok
    have starts : Listens bench' { phase := .sending _ word 0, state, log := _ } := listens
    have sent := (starts.readBits target noise 32 0 rfl).2
    rw [show word <<< (32 - 0) = 0 from BitVec.shiftLeft_eq_zero le_rfl] at sent
    have ended : Listens _ { phase := .ending _, state, log := _ } :=
      (sent.readBit target noise rfl).2
    have ready : Mirrors (3 + 32) _ _ := asked
    obtain ⟨read, behind⟩ := locked.readBits 32 0 ready
    obtain ⟨parity, turned⟩ := locked.readBit behind
    have quiet : (((Bench.pins target noise).readBit
        ((Bench.pins target noise).readBits 32 0 bench').2).2.configDataPin true).wire.drives =
        none := by
      rw [ended.takeOver.wire]
      rfl
    have closed := (locked.configDataPin true turned).writeZero target noise rfl quiet
    have rest := (ended.takeOver.writeBit target noise rfl false).wire
    have idled := closed.lineIdle target noise (congrArg TargetState.phase rest)
    rw [if_pos Ack.code_ok, if_pos Ack.code_ok, read, parity]
    exact ⟨rfl, rfl, (locked.setDataPin true idled).mono (by decide)⟩
  · obtain ⟨notOk, refused⟩ := Ack.refused ok
    rw [if_neg notOk, if_neg notOk, if_pos refused, if_pos refused]
    exact ⟨rfl, rfl, locked.endRefused asked⟩

/-- A write. -/
theorem Mirrors.write (mirrors : Mirrors left swjBench bench) (idle : bench.wire.phase = .idle)
    (apNotDp : Bool) (address : Byte) (data : Word) :
    let here := (SwjBench.pins target noise).doWriteTransaction apNotDp address data swjBench
    let there := (Bench.pins target noise).doWriteTransaction apNotDp address data bench
    here.1 = there.1 ∧ Mirrors 34 here.2 there.2 := by
  intro here there
  have locked := lockstep target noise
  have zero : Mirrors (35 + 12) _ _ := mirrors.begin target noise idle
  obtain ⟨code, asked⟩ := locked.request apNotDp false address zero
  obtain ⟨answered, listens⟩ := request_spec target noise bench idle apNotDp false address
  unfold here there SWDInterfaceBase.doWriteTransaction
  generalize (SwjBench.pins target noise).request apNotDp false address swjBench = requested
    at code asked ⊢
  generalize (Bench.pins target noise).request apNotDp false address bench = requested'
    at code asked answered listens ⊢
  obtain ⟨swdcode, swjBench'⟩ := requested
  obtain ⟨swdcode', bench'⟩ := requested'
  obtain rfl : swdcode = swdcode' := code
  rcases answer : target.respond (requestOf apNotDp false address) bench.wire.state with
    ⟨ack, word, state⟩
  rw [answer] at answered listens
  obtain rfl : swdcode = ack.code := answered
  simp only at asked listens ⊢
  by_cases ok : ack = .ok
  · subst ok
    have taken := (listens.turnaround target noise fun _ => rfl).takeOver
    have starts : Drives _
        { phase := .receiving _ ((List.range 0).map data.getLsbD), state, log := _ } := taken
    have ended := (starts.writeBits target noise 32 0 rfl).writeBit target noise rfl
      (calcParity data)
    rw [receiving_last] at ended
    have turned : Mirrors (2 + 32) _ _ := locked.configDataPin true (locked.readBit asked).2
    have behind := locked.writeBit (calcParity data) (locked.writeBits 32 data turned)
    have idled := behind.lineIdle target noise (congrArg TargetState.phase ended.wire)
    rw [if_pos Ack.code_ok, if_pos Ack.code_ok]
    exact ⟨rfl, (locked.setDataPin true idled).mono (by decide)⟩
  · obtain ⟨notOk, refused⟩ := Ack.refused ok
    rw [if_neg notOk, if_neg notOk, if_pos refused, if_pos refused]
    exact ⟨rfl, locked.endRefused asked⟩

end Mirror

/-! ### Sequences of transactions -/

/-- A call on any pins: the code that it returns, and its data as it leaves them. -/
def Call.on {σ : Type} (base : SWDInterfaceBase σ) : Call → σ → (Byte × Word) × σ
  | .read apNotDp address data, state =>
      let (swdcode, data, state) := base.doReadTransaction apNotDp address data state
      ((swdcode, data), state)
  | .write apNotDp address data, state =>
      let (swdcode, state) := base.doWriteTransaction apNotDp address data state
      ((swdcode, data), state)

/-- The calls, one after the other. -/
def callAll {σ : Type} (base : SWDInterfaceBase σ) : List Call → σ → List (Byte × Word) × σ
  | [], state => ([], state)
  | call :: calls, state =>
      let (answer, state) := call.on base state
      let (answers, state) := callAll base calls state
      (answer :: answers, state)

/-- What a target makes of the calls. -/
def SwdTarget.transfers {τ : Type} (target : SwdTarget τ) : List Call → τ → List Transfer × τ
  | [], state => ([], state)
  | call :: calls, state =>
      let (transfer, state) := target.transfer call.request call.data state
      let (transfers, state) := target.transfers calls state
      (transfer :: transfers, state)

/-- What a call returns when this has been made of it. -/
def Call.answer (call : Call) (transfer : Transfer) : Byte × Word :=
  (transfer.ack.code, transfer.data.getD call.data)

section Calls

variable {τ : Type} (target : SwdTarget τ) (noise : Nat → Bool)

/-- A word that is written is the word of the call. -/
theorem transfer_write_data (apNotDp : Bool) (address : Byte) (data : Word) (state : τ) :
    (target.transfer (requestOf apNotDp false address) data state).1.data.getD data = data := by
  rcases answer : target.respond (requestOf apNotDp false address) state with ⟨ack, word, state'⟩
  by_cases ok : ack = .ok
  · subst ok
    rw [SwdTarget.transfer_write answer rfl]
    rfl
  · rw [SwdTarget.transfer_refused answer ok]
    rfl

/-- A call on the bench with the port alone. -/
theorem Call.on_alone (call : Call) (bench : Bench τ) (idle : bench.wire.phase = .idle) :
    let result := target.transfer call.request call.data bench.wire.state
    (call.on (Bench.pins target noise) bench).1 = call.answer result.1 ∧
      (call.on (Bench.pins target noise) bench).2.wire = bench.wire.closed result := by
  cases call with
  | read apNotDp address data =>
      obtain ⟨code, read, wire⟩ :=
        doReadTransaction_spec target noise bench idle apNotDp address data
      exact ⟨Prod.ext code read, wire⟩
  | write apNotDp address data =>
      obtain ⟨code, wire⟩ := doWriteTransaction_spec target noise bench idle apNotDp address data
      refine ⟨Prod.ext code ?_, wire⟩
      exact (transfer_write_data target apNotDp address data bench.wire.state).symm

theorem callAll_alone (calls : List Call) (bench : Bench τ) (idle : bench.wire.phase = .idle) :
    let transfers := target.transfers calls bench.wire.state
    (callAll (Bench.pins target noise) calls bench).1 =
        List.zipWith Call.answer calls transfers.1 ∧
      (callAll (Bench.pins target noise) calls bench).2.wire =
        { phase := .idle, state := transfers.2, log := bench.wire.log ++ transfers.1 } := by
  induction calls generalizing bench with
  | nil =>
      obtain ⟨hostOutput, level, clock, cycles, ⟨phase, state, log⟩⟩ := bench
      obtain rfl : phase = .idle := idle
      refine ⟨rfl, ?_⟩
      change TargetState.mk TargetPhase.idle state log =
        { phase := .idle, state, log := log ++ [] }
      rw [List.append_nil]
  | cons call calls ih =>
      obtain ⟨answer, wire⟩ := call.on_alone target noise bench idle
      obtain ⟨answers, rest⟩ := ih (call.on (Bench.pins target noise) bench).2 (by rw [wire]; rfl)
      rw [wire] at answers rest
      refine ⟨List.cons_eq_cons.mpr ⟨answer, answers⟩, rest.trans ?_⟩
      change TargetState.mk TargetPhase.idle _ (bench.wire.log ++ [_] ++ _) = _
      rw [List.append_assoc]
      rfl

/-- A call on the bench with the switch. -/
theorem Call.on_mirrors (call : Call) {left : Nat} {swjBench : SwjBench τ} {bench : Bench τ}
    (mirrors : Mirrors left swjBench bench) (idle : bench.wire.phase = .idle) :
    (call.on (SwjBench.pins target noise) swjBench).1 =
        (call.on (Bench.pins target noise) bench).1 ∧
      Mirrors 34 (call.on (SwjBench.pins target noise) swjBench).2
        (call.on (Bench.pins target noise) bench).2 := by
  cases call with
  | read apNotDp address data =>
      obtain ⟨code, read, mirrors'⟩ := mirrors.read target noise idle apNotDp address data
      unfold Call.on
      simp only
      rw [code, read]
      exact ⟨rfl, mirrors'⟩
  | write apNotDp address data =>
      obtain ⟨code, mirrors'⟩ := mirrors.write target noise idle apNotDp address data
      unfold Call.on
      simp only
      rw [code]
      exact ⟨rfl, mirrors'⟩

/-- No sequence of transactions is taken for a reset or for a selection. -/
theorem callAll_mirrors (calls : List Call) {swjBench : SwjBench τ} {bench : Bench τ}
    (mirrors : Mirrors 34 swjBench bench) (idle : bench.wire.phase = .idle) :
    (callAll (SwjBench.pins target noise) calls swjBench).1 =
        (callAll (Bench.pins target noise) calls bench).1 ∧
      Mirrors 34 (callAll (SwjBench.pins target noise) calls swjBench).2
        (callAll (Bench.pins target noise) calls bench).2 := by
  induction calls generalizing swjBench bench with
  | nil => exact ⟨rfl, mirrors⟩
  | cons call calls ih =>
      obtain ⟨answer, mirrors'⟩ := call.on_mirrors target noise mirrors idle
      have wire := (call.on_alone target noise bench idle).2
      obtain ⟨answers, last⟩ := ih mirrors' (by rw [wire]; rfl)
      exact ⟨List.cons_eq_cons.mpr ⟨answer, answers⟩, last⟩

end Calls

end Swagger.Firmware
