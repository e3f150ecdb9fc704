/-
**The driver is a word memory.**

Over a target with a MEM-AP the operations `readMemory` and `writeMemory` are reads and writes of a
store of words. What carries the proof is that the cache shows SELECT (`Shows`): then an AP access
that is issued reaches its register, an access that is not acknowledged changes nothing, and what
`setUpAccess` returns OK has left the address in TAR, whatever earlier operations have left behind
them.

* `retryWrite_effect`, `retryRead_effect`: a retry loop is one transaction, or none.
* `writeAP_reaching`, `readAP_reaching`, `writeAP_other`, `readAP_other`: what an AP access does to
  the MEM-AP.
* `memory_refines`: each operation is a step of the store.
-/

import Swagger.Library.Store
import Swagger.Firmware.ApSelect
import Swagger.Firmware.MemAp

namespace Swagger.Firmware

open Library

variable {ε : Type} (around : Surroundings ε)

/-- The cache is invalid, or shows what SELECT holds. -/
def Shows (state : MidLevel (MemTarget ε)) : Prop :=
  state.apCache = invalidCache ∨ state.target.select &&& apMask = state.apCache

/-! ### Retry loops -/

theorem timeout_ne_ok : Status.timeout.code ≠ Status.ok.code := by decide

theorem fault_ne_ok : Status.swdFault.code ≠ Status.ok.code := by decide

theorem port_write {apNotDp : Bool} {bits : Byte} {ack : Ack} {word : Word} {rest : ε}
    {target : MemTarget ε}
    (answer : around.rest.respond (requestOf apNotDp false bits) target.rest = (ack, word, rest))
    (data : Word) :
    ∃ rest', around.port.doWriteTransaction apNotDp bits data target =
      (ack.code, if ack = .ok
        then around.write (requestOf apNotDp false bits) data { target with rest := rest' }
        else { target with rest := rest' }) := by
  have refused : ¬ (ack = .ok ∧ (requestOf apNotDp false bits).readNotWrite = true) :=
    fun both => Bool.false_ne_true both.2
  unfold Surroundings.port SwdTarget.port Surroundings.target
  simp only [answer, if_neg refused]
  by_cases ok : ack = .ok
  · simp only [if_pos ok]
    exact ⟨_, rfl⟩
  · simp only [if_neg ok]
    exact ⟨_, rfl⟩

theorem port_read {apNotDp : Bool} {bits : Byte} {ack : Ack} {word : Word} {rest : ε}
    {target : MemTarget ε}
    (answer : around.rest.respond (requestOf apNotDp true bits) target.rest = (ack, word, rest)) :
    around.port.doReadTransaction apNotDp bits target =
      (ack.code, if ack = .ok
        then around.read (requestOf apNotDp true bits) word { target with rest }
        else (word, { target with rest })) := by
  unfold Surroundings.port SwdTarget.port Surroundings.target
  simp only [answer]
  have reads : (requestOf apNotDp true bits).readNotWrite = true := rfl
  simp only [reads, and_true]
  by_cases ok : ack = .ok
  · simp only [if_pos ok]
  · simp only [if_neg ok]

/-- The retry loop of a write takes effect once if it is OK, and else not at all. -/
theorem retryWrite_effect (apNotDp : Bool) (address data : Word) (retries : Nat)
    (state : MidLevel (MemTarget ε)) :
    ∃ status rest,
      let before := { state.target with rest }
      let written := around.write (requestOf apNotDp false (a23 address)) data before
      MidLevel.retryWrite around.port apNotDp address data retries state =
        (status, { state with target := if status = Status.ok.code then written else before }) := by
  induction retries generalizing state with
  | zero => exact ⟨Status.timeout.code, state.target.rest, rfl⟩
  | succ retries ih =>
      rcases answer : around.rest.respond (requestOf apNotDp false (a23 address)) state.target.rest
        with ⟨ack, word, rest⟩
      obtain ⟨rest', response⟩ := port_write around answer data
      rw [MidLevel.retryWrite, response]
      cases ack with
      | ok => exact ⟨Status.ok.code, rest', rfl⟩
      | wait => exact ih { state with target := { state.target with rest := rest' } }
      | fault => exact ⟨Status.swdFault.code, rest', rfl⟩

/-- The same for a read. -/
theorem retryRead_effect (apNotDp : Bool) (address : Word) (retries : Nat)
    (state : MidLevel (MemTarget ε)) :
    ∃ status data rest word,
      let before := { state.target with rest }
      let read := around.read (requestOf apNotDp true (a23 address)) word before
      (status = Status.ok.code → data = read.1) ∧
        MidLevel.retryRead around.port apNotDp address retries state =
          (status, data,
            { state with target := if status = Status.ok.code then read.2 else before }) := by
  induction retries generalizing state with
  | zero =>
      exact ⟨Status.timeout.code, 0, state.target.rest, 0, fun same => absurd same timeout_ne_ok,
        rfl⟩
  | succ retries ih =>
      rcases answer : around.rest.respond (requestOf apNotDp true (a23 address)) state.target.rest
        with ⟨ack, word, rest⟩
      rw [MidLevel.retryRead, port_read around answer]
      cases ack with
      | ok => exact ⟨Status.ok.code, _, rest, word, fun _ => rfl, rfl⟩
      | wait => exact ih { state with target := { state.target with rest } }
      | fault =>
          exact ⟨Status.swdFault.code, word, rest, word, fun same => absurd same fault_ne_ok, rfl⟩

/-! ### Access ports -/

theorem apSel_masked (address : Word) : apSel (address &&& apMask) = apSel address := by
  unfold apSel
  rw [BitVec.and_assoc]
  rfl

variable {state after : MidLevel (MemTarget ε)} {status : Byte} {address data : Word}

/-- A DP read returns what is read if it is OK, and changes nothing. -/
theorem readDP_effect (run : MidLevel.readDP around.port address state = (status, data, after)) :
    ∃ rest word,
      let before := { state.target with rest }
      (status = Status.ok.code →
        data = (around.read (requestOf false true (a23 address)) word before).1) ∧
        after = { state with target := before } := by
  obtain ⟨status', data', rest, word, read, effect⟩ :=
    retryRead_effect around false address driverRetries state
  obtain ⟨rfl, rfl, rfl⟩ : status' = status ∧ data' = data ∧ _ = after := by
    simpa only [Prod.mk.injEq] using effect.symm.trans run
  have left (target : MemTarget ε) :
      (around.read (requestOf false true (a23 address)) word target).2 = target := by
    have debugPort : ¬ (requestOf false true (a23 address)).apNotDp = true := Bool.false_ne_true
    unfold Surroundings.read
    rw [if_neg debugPort]
    split_ifs
    · rfl
    · rfl
  refine ⟨rest, word, read, ?_⟩
  rw [left, ite_self]

/-- RDBUFF returns what it holds. -/
theorem readDP_rdbuff (run : MidLevel.readDP around.port dpRdbuff state = (status, data, after)) :
    (status = Status.ok.code → data = state.target.rdbuff) ∧
      ∃ rest, after = { state with target := { state.target with rest } } := by
  obtain ⟨rest, word, read, left⟩ := readDP_effect around run
  exact ⟨read, rest, left⟩

/-- The request has all of A[3:2]. -/
theorem a23_of_request {bits : BitVec 2} (same : (a23 address).setWidth 2 = bits) :
    a23 address = bits.setWidth 8 := by
  have low : (address >>> 2 &&& 0x03#32).toNat ≤ 3 := by
    rw [BitVec.toNat_and]
    exact Nat.and_le_right
  apply BitVec.eq_of_toNat_eq
  rw [← same, a23]
  simp only [BitVec.toNat_setWidth]
  omega

/-- A DP write off SELECT changes nothing. -/
theorem writeDP_leaves (other : a23 address ≠ 2)
    (run : MidLevel.writeDP around.port address data state = (status, after)) :
    ∃ rest, after = { state with target := { state.target with rest } } := by
  obtain ⟨status', rest, effect⟩ := retryWrite_effect around false address data driverRetries state
  obtain ⟨rfl, rfl⟩ : status' = status ∧ _ = after := by
    simpa only [Prod.mk.injEq] using effect.symm.trans run
  have left (target : MemTarget ε) :
      around.write (requestOf false false (a23 address)) data target = target := by
    have elsewhere : ¬ (requestOf false false (a23 address)).a23 = 2 := fun same =>
      other (a23_of_request same)
    unfold Surroundings.write
    rw [if_neg elsewhere]
    rfl
  refine ⟨rest, ?_⟩
  rw [left, ite_self]

/-- `selectAP` leaves the MEM-AP alone, and when it is OK, SELECT fits the address. -/
theorem selectAP_fits (shows : Shows state)
    (run : MidLevel.selectAP around.port address state = (status, after)) :
    Shows after ∧ after.target.memAp = state.target.memAp ∧
      (status = Status.ok.code → after.target.select &&& apMask = address &&& apMask) := by
  have masked : address &&& apMask &&& apMask = address &&& apMask := by
    rw [BitVec.and_assoc, BitVec.and_self]
  unfold MidLevel.selectAP MidLevel.writeDP at run
  by_cases hit : address &&& apMask = state.apCache
  · simp only [if_pos hit, Prod.mk.injEq] at run
    obtain ⟨-, rfl⟩ := run
    refine ⟨shows, rfl, fun _ => ?_⟩
    have valid : state.apCache ≠ invalidCache := by
      rw [← hit]
      exact masked_ne_invalidCache address
    rw [shows.resolve_left valid, hit]
  · obtain ⟨retval, rest, effect⟩ :=
      retryWrite_effect around false dpSelect (address &&& apMask) driverRetries state
    simp only [if_neg hit, effect] at run
    by_cases ok : retval = Status.ok.code
    · simp only [if_pos ok, Prod.mk.injEq] at run
      obtain ⟨-, rfl⟩ := run
      exact ⟨.inr masked, rfl, fun _ => masked⟩
    · simp only [if_neg ok, Prod.mk.injEq] at run
      obtain ⟨rfl, rfl⟩ := run
      exact ⟨shows, rfl, fun same => absurd same ok⟩

/-- The request of an AP access to an address. -/
def apRequest (readNotWrite : Bool) (address : Word) : Request :=
  requestOf true readNotWrite (a23 address)

/-- With SELECT as the address has it, the request goes where the address says. -/
theorem reaches_of_fits {select : Word} {request : Request}
    (fits : select &&& apMask = address &&& apMask) :
    ReachesMemAp select request ↔ ReachesMemAp address request := by
  unfold ReachesMemAp
  rw [fits]

/-- With SELECT as an address of another port has it, the request does not go to the MEM-AP. -/
theorem misses_of_fits {select : Word} (fits : select &&& apMask = address &&& apMask)
    (other : apSel address ≠ 0) (request : Request) :
    ¬ ReachesMemAp select request ∧ apSel select ≠ 0 := by
  have same : apSel select = apSel address := by
    rw [← apSel_masked, fits, apSel_masked]
  refine ⟨fun reaches => ?_, by rwa [same]⟩
  have zero : apSel select = 0 := by
    rw [← apSel_masked, reaches.1]
    rfl
  exact other (same.symm.trans zero)

/-- With SELECT as the address has it, a write that the target takes reaches one of the three
registers or, at another port, nothing of the MEM-AP. -/
theorem write_fits {target : MemTarget ε} (fits : target.select &&& apMask = address &&& apMask)
    (listed : apSel address = 0 → ReachesMemAp address (apRequest false address)) (data : Word) :
    around.write (apRequest false address) data target =
      { target with
        memAp := if ReachesMemAp address (apRequest false address)
          then target.memAp.write (apRequest false address).a23 data else target.memAp } := by
  by_cases reaches : ReachesMemAp address (apRequest false address)
  · rw [if_pos reaches]
    exact if_pos ((reaches_of_fits fits).mpr reaches)
  · obtain ⟨misses, other⟩ := misses_of_fits fits (mt listed reaches) (apRequest false address)
    rw [if_neg reaches]
    exact (if_neg misses).trans (if_neg other)

/-- What a posted read at an address finds, and what it makes of the MEM-AP. -/
def readResult (address word : Word) (memAp : MemAp) : Word × MemAp :=
  if ReachesMemAp address (apRequest true address)
  then memAp.read (apRequest true address).a23 word else (word, memAp)

theorem read_fits {target : MemTarget ε} (fits : target.select &&& apMask = address &&& apMask)
    (listed : apSel address = 0 → ReachesMemAp address (apRequest true address)) (word : Word) :
    around.read (apRequest true address) word target =
      (target.rdbuff, { target with
        rdbuff := (readResult address word target.memAp).1
        memAp := (readResult address word target.memAp).2 }) := by
  unfold Surroundings.read Surroundings.apRead readResult
  by_cases reaches : ReachesMemAp address (apRequest true address)
  · rw [if_pos ((reaches_of_fits fits).mpr reaches), if_pos reaches]
    rfl
  · obtain ⟨misses, other⟩ := misses_of_fits fits (mt listed reaches) (apRequest true address)
    rw [if_neg misses, if_neg other, if_neg reaches]
    rfl

/-- An AP write has its effect on the MEM-AP if it is OK, and else none. -/
theorem writeAP_effect (shows : Shows state)
    (listed : apSel address = 0 → ReachesMemAp address (apRequest false address))
    (run : MidLevel.writeAP around.port address data state = (status, after)) :
    Shows after ∧ after.target.memAp =
      if status = Status.ok.code ∧ ReachesMemAp address (apRequest false address)
      then state.target.memAp.write (apRequest false address).a23 data
      else state.target.memAp := by
  unfold MidLevel.writeAP at run
  rcases chosen : MidLevel.selectAP around.port address state with ⟨retval, selected⟩
  obtain ⟨shows', memAp, fits⟩ := selectAP_fits around shows chosen
  rw [chosen] at run
  by_cases ok : retval = Status.ok.code
  · obtain ⟨retval', rest, effect⟩ :=
      retryWrite_effect around true address data driverRetries selected
    simp only [if_neg (not_not.mpr ok), effect, Prod.mk.injEq] at run
    obtain ⟨rfl, rfl⟩ := run
    have written :=
      @write_fits ε around address { selected.target with rest } (fits ok) listed data
    rw [← memAp, show requestOf true false (a23 address) = apRequest false address from rfl,
      written]
    by_cases ok' : retval' = Status.ok.code
    · simp only [ok', true_and, if_true]
      exact ⟨shows', trivial⟩
    · simp only [ok', false_and, if_false]
      exact ⟨shows', trivial⟩
  · simp only [if_pos ok, Prod.mk.injEq] at run
    obtain ⟨rfl, rfl⟩ := run
    rw [if_neg fun both => ok both.1]
    exact ⟨shows', memAp⟩

/-- An AP read, if it is OK, returns what is found; if not, the read may have taken place or not. -/
theorem readAP_effect (shows : Shows state)
    (listed : apSel address = 0 → ReachesMemAp address (apRequest true address))
    (run : MidLevel.readAP around.port address state = (status, data, after)) :
    Shows after ∧ ∃ word,
      let read := readResult address word state.target.memAp
      (status = Status.ok.code → data = read.1 ∧ after.target.memAp = read.2) ∧
        (after.target.memAp = state.target.memAp ∨ after.target.memAp = read.2) := by
  unfold MidLevel.readAP at run
  rcases chosen : MidLevel.selectAP around.port address state with ⟨retval, selected⟩
  obtain ⟨shows', memAp, fits⟩ := selectAP_fits around shows chosen
  rw [chosen] at run
  by_cases ok : retval = Status.ok.code
  · obtain ⟨retval', posted, rest, word, -, effect⟩ :=
      retryRead_effect around true address driverRetries selected
    have read := @read_fits ε around address { selected.target with rest } (fits ok) listed word
    rw [show requestOf true true (a23 address) = apRequest true address from rfl, read] at effect
    simp only [if_neg (not_not.mpr ok), effect] at run
    rw [← memAp]
    by_cases ok' : retval' = Status.ok.code
    · simp only [if_neg (not_not.mpr ok'), if_pos ok'] at run
      obtain ⟨result, rest', rfl⟩ := readDP_rdbuff around run
      exact ⟨shows', word, fun same => ⟨result same, rfl⟩, .inr rfl⟩
    · simp only [if_pos ok', if_neg ok', Prod.mk.injEq] at run
      obtain ⟨rfl, rfl, rfl⟩ := run
      exact ⟨shows', word, fun same => absurd same ok', .inl rfl⟩
  · simp only [if_pos ok, Prod.mk.injEq] at run
    obtain ⟨rfl, rfl, rfl⟩ := run
    exact ⟨shows', 0, fun same => absurd same ok, .inl memAp⟩

/-- At another port nothing of the MEM-AP is reached. -/
theorem not_reaches (other : apSel address ≠ 0) (request : Request) :
    ¬ ReachesMemAp address request :=
  (misses_of_fits rfl other request).1

/-- An AP write to one of the three registers has its effect if it is OK, and else none. -/
theorem writeAP_reaching (shows : Shows state)
    (reaches : ReachesMemAp address (apRequest false address))
    (run : MidLevel.writeAP around.port address data state = (status, after)) :
    Shows after ∧ after.target.memAp =
      if status = Status.ok.code
      then state.target.memAp.write (apRequest false address).a23 data
      else state.target.memAp := by
  obtain ⟨shows', effect⟩ := writeAP_effect around shows (fun _ => reaches) run
  simp only [reaches, and_true] at effect
  exact ⟨shows', effect⟩

/-- An AP write to another port leaves the MEM-AP alone. -/
theorem writeAP_other (shows : Shows state) (other : apSel address ≠ 0)
    (run : MidLevel.writeAP around.port address data state = (status, after)) :
    Shows after ∧ after.target.memAp = state.target.memAp := by
  obtain ⟨shows', effect⟩ := writeAP_effect around shows (fun same => absurd same other) run
  rw [if_neg fun both => not_reaches other _ both.2] at effect
  exact ⟨shows', effect⟩

/-- An AP read of one of the three registers returns what is read there if it is OK. -/
theorem readAP_reaching (shows : Shows state)
    (reaches : ReachesMemAp address (apRequest true address))
    (run : MidLevel.readAP around.port address state = (status, data, after)) :
    Shows after ∧ ∃ word,
      let read := state.target.memAp.read (apRequest true address).a23 word
      (status = Status.ok.code → data = read.1 ∧ after.target.memAp = read.2) ∧
        (after.target.memAp = state.target.memAp ∨ after.target.memAp = read.2) := by
  have effect := readAP_effect around shows (fun _ => reaches) run
  simp only [readResult, if_pos reaches] at effect
  exact effect

/-- An AP read at another port leaves the MEM-AP alone. -/
theorem readAP_other (shows : Shows state) (other : apSel address ≠ 0)
    (run : MidLevel.readAP around.port address state = (status, data, after)) :
    Shows after ∧ after.target.memAp = state.target.memAp := by
  obtain ⟨shows', word, -, same⟩ :=
    readAP_effect around shows (fun same => absurd same other) run
  rw [readResult, if_neg (not_reaches other _)] at same
  exact ⟨shows', same.elim id id⟩

/-! ### Memory accesses -/

/-- Polling CSW leaves the MEM-AP as it is. -/
theorem waitLoop_memAp (retries : Nat) (shows : Shows state)
    (run : MidLevel.waitLoop around.port retries state = (status, after)) :
    Shows after ∧ after.target.memAp = state.target.memAp := by
  let Keeps (one two : MidLevel (MemTarget ε)) : Prop :=
    Shows one → Shows two ∧ two.target.memAp = one.target.memAp
  have trans {one two three : MidLevel (MemTarget ε)} (first : Keeps one two)
      (second : Keeps two three) : Keeps one three := by
    intro shown
    obtain ⟨shown', same⟩ := first shown
    obtain ⟨shown'', same'⟩ := second shown'
    exact ⟨shown'', same'.trans same⟩
  have poll (state : MidLevel (MemTarget ε)) :
      Keeps state (MidLevel.readAP around.port ahbApCsw state).2.2 := by
    intro shown
    have reaches : ReachesMemAp ahbApCsw (apRequest true ahbApCsw) := by decide
    obtain ⟨shown', word, -, same⟩ := readAP_reaching around shown reaches rfl
    exact ⟨shown', same.elim id id⟩
  have kept := @waitLoop_frame _ around.port Keeps trans poll retries state shows
  rwa [run] at kept

/-- Setting up an access changes no memory; when it is OK, TAR holds the address. -/
theorem setUpAccess_tar (shows : Shows state)
    (run : MidLevel.setUpAccess around.port address state = (status, after)) :
    Shows after ∧ after.target.memAp.memory = state.target.memAp.memory ∧
      (status = Status.ok.code → after.target.memAp.tar = address) := by
  unfold MidLevel.setUpAccess MidLevel.waitForMemory at run
  rcases configured : MidLevel.writeAP around.port ahbApCsw 0x22000012 state with ⟨retval, first⟩
  obtain ⟨shows₁, csw⟩ := writeAP_reaching around shows (by decide) configured
  have memory₁ : first.target.memAp.memory = state.target.memAp.memory := by
    rw [csw]
    split_ifs
    · rfl
    · rfl
  rcases waited : MidLevel.waitLoop around.port driverRetries first with ⟨retval', second⟩
  obtain ⟨shows₂, same⟩ := waitLoop_memAp around driverRetries shows₁ waited
  simp only [configured, waited] at run
  split_ifs at run with failed failed'
  · cases run
    exact ⟨shows₁, memory₁, fun same => absurd same failed⟩
  · cases run
    exact ⟨shows₂, same ▸ memory₁, fun same => absurd same failed'⟩
  · obtain ⟨shows₃, tar⟩ := writeAP_reaching around shows₂ (by decide) run
    rw [tar, same]
    split_ifs with ok
    · exact ⟨shows₃, memory₁, fun _ => rfl⟩
    · exact ⟨shows₃, memory₁, fun same => absurd same ok⟩

/-- `readMemory` changes no memory, and returns the word at its address if it is OK. -/
theorem readMemory_word (shows : Shows state)
    (run : MidLevel.readMemory around.port address state = (status, data, after)) :
    Shows after ∧ after.target.memAp.memory = state.target.memAp.memory ∧
      (status = Status.ok.code → data = state.target.memAp.memory (wordAddress address)) := by
  unfold MidLevel.readMemory at run
  rcases ready : MidLevel.setUpAccess around.port address state with ⟨retval, middle⟩
  obtain ⟨shows', memory, tar⟩ := setUpAccess_tar around shows ready
  rw [ready] at run
  simp only at run
  split_ifs at run with failed
  · cases run
    exact ⟨shows', memory, fun same => absurd same failed⟩
  obtain ⟨shows'', word, result, effect⟩ := readAP_reaching around shows' (by decide) run
  refine ⟨shows'', ?_, fun ok => ?_⟩
  · rw [← memory]
    rcases effect with none | once
    · rw [none]
    · rw [once]
      rfl
  · rw [(result ok).1, ← memory, ← tar (not_not.mp failed)]
    rfl

/-- `writeMemory` writes the word at its address if it is OK, and else no memory. -/
theorem writeMemory_word (shows : Shows state)
    (run : MidLevel.writeMemory around.port address data state = (status, after)) :
    Shows after ∧ after.target.memAp.memory =
      if status = Status.ok.code
      then Function.update state.target.memAp.memory (wordAddress address) data
      else state.target.memAp.memory := by
  unfold MidLevel.writeMemory at run
  rcases ready : MidLevel.setUpAccess around.port address state with ⟨retval, middle⟩
  obtain ⟨shows', memory, tar⟩ := setUpAccess_tar around shows ready
  rw [ready] at run
  simp only at run
  split_ifs at run with failed
  · cases run
    rw [if_neg failed]
    exact ⟨shows', memory⟩
  obtain ⟨shows'', effect⟩ := writeAP_reaching around shows' (by decide) run
  refine ⟨shows'', ?_⟩
  rw [effect, ← memory, ← tar (not_not.mp failed)]
  split_ifs
  · rfl
  · rfl

/-! ### Runs -/

/-- An operation with what it returns: its status and, for a read, the data word. -/
def Operation.perform {σ : Type} (driver : Driver σ) : Operation → σ → Byte × Word × σ
  | .tryConnect, state => driver.tryConnect state
  | .setReset value, state => (Status.ok.code, 0, driver.setReset value state)
  | .readDP address, state => driver.readDP address state
  | .writeDP address data, state =>
      let result := driver.writeDP address data state
      (result.1, 0, result.2)
  | .readAP address, state => driver.readAP address state
  | .writeAP address data, state =>
      let result := driver.writeAP address data state
      (result.1, 0, result.2)
  | .readMemory address, state => driver.readMemory address state
  | .writeMemory address data, state =>
      let result := driver.writeMemory address data state
      (result.1, 0, result.2)

/-- An operation that has been performed. -/
structure Performed where
  operation : Operation
  status : Byte
  data : Word
  deriving DecidableEq, Repr

/-- The runs of a driver, with what the operations return. -/
def performances {σ : Type} (driver : Driver σ) : Lts σ Performed where
  step state label state' :=
    match label with
    | some event => event.operation.perform driver state = (event.status, event.data, state')
    | none => False

/-- A memory access at the address of a word, a connect, or an access to a port that is not AP 0. -/
def Operation.Permitted : Operation → Prop
  | .readMemory address | .writeMemory address _ => wordAddress address = address
  | .readAP address | .writeAP address _ => apSel address ≠ 0
  | .tryConnect => True
  | _ => False

/-- The runs of the class over the target with the MEM-AP. -/
def memoryRuns : Lts (MidLevel (MemTarget ε)) Performed :=
  (performances (arduinoSWDInterface around.port)).guard fun _ label =>
    ∀ event ∈ label, event.operation.Permitted

/-- What an operation is to the store of words. -/
def Performed.storeEvent (event : Performed) : StoreEvent Word Word :=
  if event.status = Status.ok.code then
    match event.operation with
    | .readMemory address => .read address event.data
    | .writeMemory address data => .write address data
    | _ => .other
  else .other

/-- The cache shows SELECT, and this is the memory of the target. -/
def Stores (state : MidLevel (MemTarget ε)) (memory : Word → Word) : Prop :=
  Shows state ∧ state.target.memAp.memory = memory

/-- An operation is nothing to the store if it is not a memory access that is OK. -/
theorem stores_same {store store' : Word → Word} {event : Performed} (same : store' = store)
    (other : event.storeEvent = .other) : stores.step store (some event.storeEvent) store' := by
  rw [other]
  exact same

/-- Every operation is a step of the store. -/
theorem performed_stores {state after : MidLevel (MemTarget ε)} {event : Performed}
    (shows : Shows state) (permitted : event.operation.Permitted)
    (run : event.operation.perform (arduinoSWDInterface around.port) state =
      (event.status, event.data, after)) :
    Shows after ∧ stores.step state.target.memAp.memory (some event.storeEvent)
      after.target.memAp.memory := by
  obtain ⟨operation, status, data⟩ := event
  cases operation with
  | tryConnect =>
      cases run
      exact ⟨.inl rfl, stores_same rfl (ite_self _)⟩
  | setReset value => exact permitted.elim
  | readDP address => exact permitted.elim
  | writeDP address data => exact permitted.elim
  | readAP address =>
      obtain ⟨shows', same⟩ := readAP_other around shows permitted run
      exact ⟨shows', stores_same (congrArg MemAp.memory same) (ite_self _)⟩
  | writeAP address data' =>
      obtain ⟨shows', same⟩ := writeAP_other around shows permitted
        (show MidLevel.writeAP around.port address data' state = _ from rfl)
      cases run
      exact ⟨shows', stores_same (congrArg MemAp.memory same) (ite_self _)⟩
  | readMemory address =>
      obtain ⟨shows', same, result⟩ := readMemory_word around shows run
      refine ⟨shows', ?_⟩
      by_cases ok : status = Status.ok.code
      · have aligned : wordAddress address = address := permitted
        have event : Performed.storeEvent ⟨.readMemory address, status, data⟩ =
            .read address data := if_pos ok
        have word : data = state.target.memAp.memory (wordAddress address) := result ok
        rw [aligned] at word
        rw [event]
        exact ⟨word, same⟩
      · exact stores_same same (if_neg ok)
  | writeMemory address data' =>
      generalize written : MidLevel.writeMemory around.port address data' state = result
      have run' : (result.1, 0, result.2) = (status, data, after) := written ▸ run
      obtain ⟨shows', effect⟩ := writeMemory_word around shows written
      cases run'
      refine ⟨shows', ?_⟩
      by_cases ok : result.1 = Status.ok.code
      · have aligned : wordAddress address = address := permitted
        have event : Performed.storeEvent ⟨.writeMemory address data', result.1, 0⟩ =
            .write address data' := if_pos ok
        rw [event, effect, if_pos ok, aligned]
        rfl
      · rw [effect, if_neg ok]
        exact stores_same rfl (if_neg ok)

/-- The runs of the class are runs of a store of words. -/
theorem memory_refines :
    Lts.Simulates (memoryRuns around) (stores.relabel Performed.storeEvent) Stores := by
  rintro state memory label after ⟨shows, rfl⟩ ⟨permitted, step⟩
  cases label with
  | none => exact step.elim
  | some event =>
      obtain ⟨shows', stored⟩ := performed_stores around shows (permitted event rfl) step
      exact ⟨_, .visible stored (.refl _), shows', rfl⟩

/-- In every run, at the address of a word: a read that is OK returns the last word that a write has
put there, a write that is OK changes this word and no other, and a write that is not OK changes
none. -/
theorem word_memory {target : MemTarget ε} {events : List Performed}
    {state : MidLevel (MemTarget ε)}
    (run : (memoryRuns around).Trace (MidLevel.boot target) events state)
    {address : Word} (aligned : wordAddress address = address) :
    (∀ data after,
      MidLevel.readMemory around.port address state = (Status.ok.code, data, after) →
        data = lastWritten target.memAp.memory (events.map Performed.storeEvent) address) ∧
    ∀ data status after,
      MidLevel.writeMemory around.port address data state = (status, after) →
        after.target.memAp.memory =
          if status = Status.ok.code
          then Function.update state.target.memAp.memory address data
          else state.target.memAp.memory := by
  obtain ⟨memory, stored, shows, rfl⟩ := (memory_refines around).trace run ⟨.inl rfl, rfl⟩
  constructor
  · intro data after read
    obtain ⟨-, -, result⟩ := readMemory_word around shows read
    rw [result rfl, aligned, store_lastWritten (Lts.Trace.of_relabel stored)]
    rfl
  · intro data status after written
    obtain ⟨-, effect⟩ := writeMemory_word around shows written
    rw [effect, aligned]

/-- A target that answers WAIT to every other transaction, and 0 to what it reads outside the
MEM-AP. -/
def flaky : Surroundings Bool where
  rest :=
    { respond _ ready := (if ready then .ok else .wait, 0, !ready)
      accept _ _ ready := ready }
  elsewhere _ word target := (word, target)
  setReset _ target := target
  connect target := (swdOk, 0x2BA01477, target.rest, target.select)

/-- The target before anything is written to it, with SELECT on another port. -/
def blankTarget : MemTarget Bool where
  rest := false
  select := 0x01000000
  rdbuff := 0
  memAp := { csw := 0, tar := 0, memory := fun _ => 0 }

/-- A run of one operation. -/
theorem memoryRuns_single {state : MidLevel (MemTarget ε)} {operation : Operation} {status : Byte}
    (permitted : operation.Permitted)
    (returned : (operation.perform (arduinoSWDInterface around.port) state).1 = status) :
    (memoryRuns around).Trace state
      [⟨operation, status, (operation.perform (arduinoSWDInterface around.port) state).2.1⟩]
      (operation.perform (arduinoSWDInterface around.port) state).2.2 := by
  refine .visible ⟨fun event same => ?_, Prod.ext returned rfl⟩ (.refl _)
  cases same
  exact permitted

theorem word_memory_flaky :
    let written := Operation.perform (arduinoSWDInterface flaky.port)
      (.writeMemory 0x20000000 0xDEADBEEF) (MidLevel.boot blankTarget)
    ∀ data after, MidLevel.readMemory flaky.port 0x20000000 written.2.2 =
      (Status.ok.code, data, after) → data = 0xDEADBEEF := by
  intro written data after read
  have aligned : wordAddress 0x20000000 = 0x20000000 := by decide
  have ok : written.1 = Status.ok.code := by decide +kernel
  have permitted : Operation.Permitted (.writeMemory 0x20000000 0xDEADBEEF) := aligned
  have run := memoryRuns_single flaky permitted ok
  rw [(word_memory flaky run aligned).1 data after read]
  rfl

end Swagger.Firmware
