/-
**Who may drive the line.**

The protocol gives the clock cycles of a transaction to the host or to the target, with a turnaround
cycle wherever the line changes hands (`protocolCycles`); in all but its own cycles the host has to
keep its pin an input (`KeepsOff`).

It does, on every path but one (`keepsOff_write`, `keepsOff_read`). Behind the parity bit of a read
the pin is made an output in front of the turnaround cycle, where every other path makes it one
behind it. So a sequence of transactions is free of contention exactly when no read in it is
acknowledged OK (`never_contends_iff`).
-/

import Swagger.Firmware.Cycles

namespace Swagger.Firmware

/-! ### The protocol -/

inductive Owner
  | host
  | turnaround
  | target
  deriving DecidableEq, Repr

/-- The cycles of a transaction from the zero in front of the request on, up to the last one that
the protocol has a rule for. -/
def protocolCycles (readNotWrite : Bool) (ack : Byte) : List Owner :=
  List.replicate 9 Owner.host ++ [Owner.turnaround] ++ List.replicate 3 Owner.target ++
    if ack = swdOk then
      if readNotWrite then List.replicate 33 Owner.target ++ [Owner.turnaround]
      else Owner.turnaround :: List.replicate 33 Owner.host
    else [Owner.turnaround]

/-- In the cycles that are not the host's its pin is an input, up to the rising edge. -/
def KeepsOff (owners : List Owner) (cycles : List Cycle) : Prop :=
  ∀ (index : Nat) (owner : Owner), owners[index]? = some owner → owner ≠ .host →
    ∃ cycle : Cycle, cycles[index]? = some cycle ∧ cycle.driven = false

/-! ### One transaction -/

/-- Only the direction of the pin counts. -/
theorem keepsOff_iff (owners : List Owner) (cycles : List Cycle) :
    KeepsOff owners cycles ↔ ∀ index < owners.length, owners[index]? = some .host ∨
      (cycles.map Cycle.driven)[index]? = some false := by
  constructor
  · intro keeps index inside
    by_cases host : owners[index] = .host
    · exact .inl (by rw [List.getElem?_eq_getElem inside, host])
    · obtain ⟨cycle, here, free⟩ := keeps index _ (List.getElem?_eq_getElem inside) host
      exact .inr (by rw [List.getElem?_map, here, Option.map_some, free])
  · intro keeps index owner here notHost
    rcases keeps index (List.getElem?_eq_some_iff.mp here).1 with host | free
    · exact absurd (Option.some.inj (here.symm.trans host)) notHost
    · rw [List.getElem?_map, Option.map_eq_some_iff] at free
      exact free

theorem map_drivenBits (bits : List Bool) :
    (drivenBits bits).map Cycle.driven = List.replicate bits.length true := by
  rw [drivenBits, List.map_map]
  exact List.map_const'

theorem map_freeCycles (count : Nat) :
    (freeCycles count).map Cycle.driven = List.replicate count false := List.map_replicate

/-- The directions up to the acknowledgement. -/
theorem map_asking (apNotDp readNotWrite : Bool) (address : Byte) :
    (drivenBits (requestBits apNotDp readNotWrite address) ++ freeCycles 4).map Cycle.driven =
      List.replicate 9 true ++ List.replicate 4 false := by
  rw [List.map_append, map_drivenBits, map_freeCycles]
  rfl

/-- A transaction that is refused, or whose acknowledgement is none, leaves the line alone. -/
theorem keepsOff_notOk (apNotDp readNotWrite : Bool) (address ack : Byte) (notOk : ack ≠ swdOk) :
    KeepsOff (protocolCycles readNotWrite ack)
      (drivenBits (requestBits apNotDp readNotWrite address) ++ freeCycles 4 ++
        if ack = swdFail ∨ ack = swdWait then freeCycles 1
        else freeCycles 33 ++ drivenBits (List.replicate 8 false)) := by
  rw [keepsOff_iff, protocolCycles, if_neg notOk, List.map_append, map_asking]
  split_ifs
  · rw [map_freeCycles]
    decide
  · rw [List.map_append, map_drivenBits, map_freeCycles, List.length_replicate]
    decide

/-- A write keeps off the line in all cycles that are not its own. -/
theorem keepsOff_write (apNotDp : Bool) (address : Byte) (data : Word) (ack : Byte) :
    KeepsOff (protocolCycles false ack) (writeCycles apNotDp address data ack) := by
  unfold writeCycles
  by_cases ok : ack = swdOk
  · have length : (bitsOfWord data ++ [calcParity data] ++ List.replicate 8 false).length = 41 := by
      rw [List.length_append, List.length_append, length_bitsOfWord]
      rfl
    rw [keepsOff_iff, protocolCycles, if_pos ok, if_pos ok, List.map_append, map_asking,
      List.map_append, map_drivenBits, map_freeCycles, length]
    decide
  · rw [if_neg ok]
    exact keepsOff_notOk apNotDp false address ack ok

/-- A read that is acknowledged OK keeps off the line but for its last turnaround cycle. -/
theorem keepsOff_read_ok (apNotDp : Bool) (address : Byte) :
    KeepsOff (protocolCycles true swdOk).dropLast (readCycles apNotDp address swdOk) ∧
      (protocolCycles true swdOk)[46]? = some .turnaround ∧
      (readCycles apNotDp address swdOk)[46]? = some { driven := true, level := false } := by
  refine ⟨?_, by decide, ?_⟩
  · rw [keepsOff_iff, readCycles, if_pos rfl, List.map_append, map_asking, List.map_append,
      map_drivenBits, map_freeCycles, List.length_replicate]
    decide
  · have ahead : (drivenBits (requestBits apNotDp true address) ++ freeCycles 4 ++
        freeCycles 33).length = 46 := List.length_append
    rw [readCycles, if_pos rfl, ← List.append_assoc, List.getElem?_append_right ahead.le, ahead]
    rfl

/-- A read keeps off the line unless it is acknowledged OK. -/
theorem keepsOff_read (apNotDp : Bool) (address ack : Byte) :
    KeepsOff (protocolCycles true ack) (readCycles apNotDp address ack) ↔ ack ≠ swdOk := by
  constructor
  · rintro keeps rfl
    obtain ⟨-, turnaround, here⟩ := keepsOff_read_ok apNotDp address
    obtain ⟨cycle, same, free⟩ := keeps 46 .turnaround turnaround (by decide)
    rw [here] at same
    cases same
    cases free
  · intro notOk
    unfold readCycles
    rw [if_neg notOk]
    exact keepsOff_notOk apNotDp true address ack notOk

/-! ### Sequences of transactions -/

/-- A call that has returned: the acknowledgement that was sampled in it, and its clock cycles. -/
structure Clocked where
  call : Call
  ack : Byte
  cycles : List Cycle

/-- The pins behind a call. -/
def Call.move {σ : Type} (base : SWDInterfaceBase σ) : Call → σ → σ
  | .read apNotDp address data, state => (base.doReadTransaction apNotDp address data state).2.2
  | .write apNotDp address data, state => (base.doWriteTransaction apNotDp address data state).2

/-- The calls, one after the other, with these levels on the line. -/
def clockedCalls (levels : Nat → Bool) : List Call → Pins → List Clocked
  | [], _ => []
  | call :: calls, pins =>
      let pins' := call.move (recorder levels) pins
      { call
        ack := ackAt levels (pins.cycles.length + 10)
        cycles := pins'.cycles.drop pins.cycles.length } :: clockedCalls levels calls pins'

/-- One call of the sequence. -/
theorem Call.keepsOff_iff (levels : Nat → Bool) (call : Call) (pins : Pins) :
    KeepsOff (protocolCycles call.request.readNotWrite (ackAt levels (pins.cycles.length + 10)))
        ((call.move (recorder levels) pins).cycles.drop pins.cycles.length) ↔
      ¬ (call.request.readNotWrite = true ∧
        ackAt levels (pins.cycles.length + 10) = swdOk) := by
  cases call with
  | read apNotDp address data =>
      rw [Call.move, read_cycles, List.drop_left]
      exact (keepsOff_read apNotDp address _).trans (not_congr (and_iff_right rfl).symm)
  | write apNotDp address data =>
      rw [Call.move, (write_cycles levels apNotDp address data pins).2, List.drop_left]
      exact ⟨fun _ both => Bool.false_ne_true both.1,
        fun _ => keepsOff_write apNotDp address data _⟩

/-- In a sequence of transactions the host keeps off the line, in every cycle that is not its own,
exactly when no read is acknowledged OK. -/
theorem never_contends_iff (levels : Nat → Bool) (calls : List Call) (pins : Pins) :
    (∀ done ∈ clockedCalls levels calls pins,
        KeepsOff (protocolCycles done.call.request.readNotWrite done.ack) done.cycles) ↔
      ∀ done ∈ clockedCalls levels calls pins,
        ¬ (done.call.request.readNotWrite = true ∧ done.ack = swdOk) := by
  induction calls generalizing pins with
  | nil => exact ⟨fun _ _ none => (nomatch none), fun _ _ none => (nomatch none)⟩
  | cons call calls ih =>
      rw [clockedCalls]
      simp only [List.forall_mem_cons]
      rw [call.keepsOff_iff levels pins, ih]

/-! ### A read of the IDCODE -/

/-- The first of the three bits that follow the turnaround is set, and no other one. -/
def acknowledged (cycle : Nat) : Bool := cycle == 10

theorem ackAt_acknowledged : ackAt acknowledged 10 = swdOk := by
  decide

theorem never_contends_fails :
    ¬ ∀ (levels : Nat → Bool) (calls : List Call) (pins : Pins),
      ∀ done ∈ clockedCalls levels calls pins,
        KeepsOff (protocolCycles done.call.request.readNotWrite done.ack) done.cycles := by
  intro claimed
  have keeps := claimed acknowledged [.read false 0 0] Pins.init
  rw [clockedCalls, List.forall_mem_cons] at keeps
  simp only at keeps
  rw [Call.keepsOff_iff] at keeps
  exact keeps.1 ⟨rfl, ackAt_acknowledged⟩

end Swagger.Firmware
