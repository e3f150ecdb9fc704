/-
**The memory wait of the driver, `waitMemoryTrue`.**

The function reads a word again and again until its masked bits are the expected ones. Behind a read
that was OK the limit is tested in front of the match, so the last read is made but cannot match:
`waitMemoryTrue_iff` says that the result is the documented one unless the tenth read is the first
to match. `waitForMemory` of the same class tests the match first.
-/

import Swagger.Firmware.MidLevel
import Swagger.Library.Attempts

namespace Swagger.Firmware

open Library

section Functions

variable {σ : Type} (driver : Driver σ)

/-- The loop of `waitMemoryTrue`, by the rounds that may follow this one. -/
def waitTrueLoop (address data mask : Word) : Nat → σ → Byte × σ
  | 0, state =>
      let (retval, _, state) := driver.readMemory address state
      if retval ≠ Status.ok.code then (retval, state)
      -- `retries == MAX_RETRIES`, whatever has been read
      else (Status.timeout.code, state)
  | rounds + 1, state =>
      let (retval, memData, state) := driver.readMemory address state
      if retval ≠ Status.ok.code then (retval, state)
      else if memData &&& mask ≠ data then waitTrueLoop address data mask rounds state
      else (Status.ok.code, state)

/-- `waitMemoryTrue`. -/
def waitMemoryTrue (address data mask : Word) (state : σ) : Byte × σ :=
  waitTrueLoop driver address data mask (driverRetries - 1) state

/-- What `readMemory` returns when it has been called `count` times before. -/
def Driver.readOutcome (address : Word) : Nat → σ → Byte × Word
  | 0, state => ((driver.readMemory address state).1, (driver.readMemory address state).2.1)
  | count + 1, state => readOutcome address count (driver.readMemory address state).2.2

end Functions

/-! ### What is documented -/

section Documented

variable (data mask : Word)

/-- A read that was OK, with the expected data in the masked bits. -/
def Matched (outcome : Byte × Word) : Prop :=
  outcome.1 = Status.ok.code ∧ outcome.2 &&& mask = data

/-- A read that was OK, without the expected data. -/
def Unmatched (outcome : Byte × Word) : Prop :=
  outcome.1 = Status.ok.code ∧ outcome.2 &&& mask ≠ data

/-- The first read within the limit that matches or fails decides: OK for a match, its status for a
failure, which may be TIMEOUT itself. TIMEOUT is the result otherwise only without such a read. -/
structure WaitsAsDocumented (outcomes : Nat → Byte × Word) (status : Byte) : Prop where
  ok_iff : status = Status.ok.code ↔
    ∃ index < driverRetries, Matched data mask (outcomes index) ∧
      ∀ earlier < index, Unmatched data mask (outcomes earlier)
  failed : ∀ index < driverRetries, (outcomes index).1 ≠ Status.ok.code →
    (∀ earlier < index, Unmatched data mask (outcomes earlier)) → status = (outcomes index).1
  timeout : status = Status.timeout.code →
    (∀ index < driverRetries, Unmatched data mask (outcomes index)) ∨
      ∃ index < driverRetries, (outcomes index).1 = Status.timeout.code ∧
        ∀ earlier < index, Unmatched data mask (outcomes earlier)

variable {data mask} {outcomes : Nat → Byte × Word}

theorem Matched.settles {outcome : Byte × Word} (matched : Matched data mask outcome) :
    ¬ Unmatched data mask outcome :=
  fun unmatched => unmatched.2 matched.2

theorem unmatched_failed {outcome : Byte × Word} (failed : outcome.1 ≠ Status.ok.code) :
    ¬ Unmatched data mask outcome :=
  fun unmatched => failed unmatched.1

/-- The status of the deciding read is the documented result. -/
theorem documented_of_settled {index : Nat} (inside : index < driverRetries)
    (before : ∀ earlier < index, Unmatched data mask (outcomes earlier))
    (settles : ¬ Unmatched data mask (outcomes index)) :
    WaitsAsDocumented data mask outcomes (outcomes index).1 := by
  have decides : Attempts (Unmatched data mask) outcomes driverRetries (index + 1)
      (some (outcomes index)) := .settled inside before settles
  -- any other read that decides is the same one
  have same {other : Nat} (inside' : other < driverRetries)
      (before' : ∀ earlier < other, Unmatched data mask (outcomes earlier))
      (settles' : ¬ Unmatched data mask (outcomes other)) : index = other :=
    Nat.succ.inj (decides.unique (.settled inside' before' settles')).1
  refine ⟨⟨fun ok => ⟨index, inside, ⟨ok, ?_⟩, before⟩, ?_⟩, ?_, fun late => ?_⟩
  · by_contra other
    exact settles ⟨ok, other⟩
  · rintro ⟨other, inside', matched, before'⟩
    rw [same inside' before' matched.settles]
    exact matched.1
  · intro other inside' failed before'
    rw [same inside' before' (unmatched_failed failed)]
  · exact .inr ⟨index, inside, late, before⟩

/-- Without a deciding read TIMEOUT is the documented result. -/
theorem documented_of_exhausted
    (all : ∀ index < driverRetries, Unmatched data mask (outcomes index)) :
    WaitsAsDocumented data mask outcomes Status.timeout.code where
  ok_iff := by
    constructor
    · intro same
      cases same
    · rintro ⟨index, inside, matched, -⟩
      exact absurd (all index inside) matched.settles
  failed index inside failed _ := absurd (all index inside) (unmatched_failed failed)
  timeout _ := .inl all

end Documented

/-! ### What is done -/

section Done

variable {σ : Type} (driver : Driver σ) (address data mask : Word)

/-- The last read can only fail. -/
theorem waitTrueLoop_zero (state : σ) :
    (waitTrueLoop driver address data mask 0 state).1 =
      if (driver.readOutcome address 0 state).1 = Status.ok.code then Status.timeout.code
      else (driver.readOutcome address 0 state).1 := by
  unfold waitTrueLoop Driver.readOutcome
  simp only
  by_cases ok : (driver.readMemory address state).1 = Status.ok.code
  · rw [if_pos ok, if_neg (not_not.mpr ok)]
  · rw [if_neg ok, if_pos ok]

theorem waitTrueLoop_succ (rounds : Nat) (state : σ) :
    waitTrueLoop driver address data mask (rounds + 1) state =
      let outcome := driver.readOutcome address 0 state
      let state' := (driver.readMemory address state).2.2
      if outcome.1 ≠ Status.ok.code then (outcome.1, state')
      else if outcome.2 &&& mask ≠ data then waitTrueLoop driver address data mask rounds state'
      else (Status.ok.code, state') := rfl

/-- The loop returns the status of the first of its reads but the last that matches or fails, and
otherwise what the last one leads to. -/
theorem waitTrueLoop_attempts (rounds : Nat) (state : σ) :
    ∃ count result,
      Attempts (Unmatched data mask) (fun index => driver.readOutcome address index state) rounds
        count result ∧
      (∀ outcome ∈ result,
        (waitTrueLoop driver address data mask rounds state).1 = outcome.1) ∧
      (result = none → (waitTrueLoop driver address data mask rounds state).1 =
        if (driver.readOutcome address rounds state).1 = Status.ok.code then Status.timeout.code
        else (driver.readOutcome address rounds state).1) := by
  induction rounds generalizing state with
  | zero =>
      refine ⟨0, none, .zero _ _, fun outcome impossible => ?_, fun _ => ?_⟩
      · cases impossible
      · exact waitTrueLoop_zero driver address data mask state
  | succ rounds ih =>
      obtain ⟨count, result, attempts, settled, exhausted⟩ :=
        ih (driver.readMemory address state).2.2
      rw [waitTrueLoop_succ]
      by_cases ok : (driver.readOutcome address 0 state).1 = Status.ok.code
      · by_cases matched : (driver.readOutcome address 0 state).2 &&& mask = data
        · refine ⟨1, _, .first rounds fun unmatched => unmatched.2 matched, ?_, nofun⟩
          rintro _ ⟨⟩
          simp only
          rw [if_neg (not_not.mpr ok), if_neg (not_not.mpr matched), ok]
        · simp only
          rw [if_neg (not_not.mpr ok), if_pos matched]
          exact ⟨count + 1, result, .again ⟨ok, matched⟩ attempts, settled, exhausted⟩
      · refine ⟨1, _, .first rounds (unmatched_failed ok), ?_, nofun⟩
        rintro _ ⟨⟩
        simp only
        rw [if_pos ok]

end Done

/-- `waitMemoryTrue` returns what is documented, unless its last read is the first that matches. -/
theorem waitMemoryTrue_iff {σ : Type} (driver : Driver σ) (address data mask : Word) (state : σ) :
    let outcomes := fun index => driver.readOutcome address index state
    WaitsAsDocumented data mask outcomes (waitMemoryTrue driver address data mask state).1 ↔
      ¬ ((∀ index < driverRetries - 1, Unmatched data mask (outcomes index)) ∧
        Matched data mask (outcomes (driverRetries - 1))) := by
  intro outcomes
  obtain ⟨count, result, attempts, settled, exhausted⟩ :=
    waitTrueLoop_attempts driver address data mask (driverRetries - 1) state
  rw [waitMemoryTrue]
  have last : driverRetries - 1 < driverRetries := by decide
  cases attempts with
  | settled inside before settles =>
      rw [settled _ rfl]
      refine ⟨fun _ latest => settles (latest.1 _ inside), fun _ => ?_⟩
      exact documented_of_settled (inside.trans last) before settles
  | exhausted all =>
      rw [exhausted rfl]
      split_ifs with ok
      · by_cases matched : Matched data mask (outcomes (driverRetries - 1))
        · constructor
          · intro documented
            have impossible := documented.ok_iff.mpr ⟨driverRetries - 1, last, matched, all⟩
            cases impossible
          · exact fun otherwise => absurd ⟨all, matched⟩ otherwise
        · refine ⟨fun _ latest => matched latest.2, fun _ => documented_of_exhausted ?_⟩
          intro index inside
          rcases Nat.lt_succ_iff_lt_or_eq.mp inside with earlier | rfl
          · exact all index earlier
          · exact ⟨ok, fun same => matched ⟨ok, same⟩⟩
      · refine ⟨fun _ latest => ok latest.2.1, fun _ => ?_⟩
        exact documented_of_settled last all (unmatched_failed ok)

/-! ### A match at the last read -/

/-- A class whose reads have these outcomes, by the number of reads so far. -/
def readingDriver (outcomes : Nat → Byte × Word) : Driver Nat where
  setReset _ reads := reads
  tryConnect reads := (Status.ok.code, 0, reads)
  readDP _ reads := (Status.ok.code, 0, reads)
  writeDP _ _ reads := (Status.ok.code, reads)
  readAP _ reads := (Status.ok.code, 0, reads)
  writeAP _ _ reads := (Status.ok.code, reads)
  readMemory _ reads := ((outcomes reads).1, (outcomes reads).2, reads + 1)
  writeMemory _ _ reads := (Status.ok.code, reads)

/-- The flag is set at the tenth read. -/
def lateFlag (reads : Nat) : Byte × Word := (Status.ok.code, if reads < 9 then 0 else 0x80)

theorem waitMemoryTrue_fails :
    ¬ ∀ (driver : Driver Nat) (address data mask : Word) (state : Nat),
      WaitsAsDocumented data mask (fun index => driver.readOutcome address index state)
        (waitMemoryTrue driver address data mask state).1 := by
  intro claimed
  have documented := claimed (readingDriver lateFlag) 0x40020000 0x80 0x80 0
  have unmatched : ∀ earlier < 9, Unmatched 0x80 0x80
      ((readingDriver lateFlag).readOutcome 0x40020000 earlier 0) := by
    unfold Unmatched
    decide
  have matched : Matched 0x80 0x80 ((readingDriver lateFlag).readOutcome 0x40020000 9 0) := by
    unfold Matched
    decide
  have impossible := documented.ok_iff.mpr ⟨9, by decide, matched, unmatched⟩
  exact absurd impossible (by decide)

end Swagger.Firmware
