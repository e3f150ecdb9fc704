/-
**A debug port behind a switch.**

The port of a target shares its pins with a JTAG port. What selects between the two, and what brings
a port that has lost track of the bits back to its start, are sequences of levels on the line:
fifty ones, and certain bits behind them (`Behind`). `SwjState` is the port of `SwdTarget.lean`
with the levels it has seen, and does with each rising edge what these say.

The port is never reset or switched by accident as long as no run of ones comes near fifty behind
three zeros in a row (`Calm`). `Spare` counts how many more ones there may be.
-/

import Swagger.Firmware.SwdTarget

namespace Swagger.Firmware

/-! ### Sequences on the line -/

/-- The levels end with fifty ones and these bits. The last level is the head. -/
def Behind (bits seen : List Bool) : Prop := bits.reverse ++ List.replicate 50 true <+: seen

instance (bits seen : List Bool) : Decidable (Behind bits seen) :=
  inferInstanceAs (Decidable (_ <+: _))

/-- The 16 bits of a selection, the lowest first. -/
def selection (code : Word) : List Bool := (bitsOfWord code).take 16

/-- From JTAG to SWD. -/
def toSwd : List Bool := selection 0xE79E

/-- From SWD to JTAG. -/
def toJtag : List Bool := selection 0xE73C

/-- What ends a line reset. -/
def twoZeros : List Bool := [false, false]

inductive SwjMode
  | jtag
  | swd
  deriving DecidableEq, Repr

/-- The levels that have been seen, the last one first, the port that is selected, and the state of
the SWD port. -/
structure SwjState (τ : Type) where
  seen : List Bool
  mode : SwjMode
  port : TargetState τ

namespace TargetState

variable {τ : Type}

/-- The transfer that was going on is given up. -/
def lose (port : TargetState τ) : TargetState τ := { port with phase := .lost }

/-- A reset has ended. -/
def rest (port : TargetState τ) : TargetState τ := { port with phase := .idle }

end TargetState

namespace SwjState

variable {τ : Type} (target : SwdTarget τ)

/-- What the SWD port drives. The data pin of JTAG is an input. -/
def drives (swj : SwjState τ) : Option Bool :=
  match swj.mode with
  | .jtag => none
  | .swd => swj.port.drives

/-- One rising clock edge, with the level of the line. -/
def step (line : Bool) (swj : SwjState τ) : SwjState τ :=
  let seen := line :: swj.seen
  if Behind toSwd seen then { seen, mode := .swd, port := swj.port.lose }
  else if Behind toJtag seen then { seen, mode := .jtag, port := swj.port.lose }
  else
    match swj.mode with
    | .jtag => { swj with seen }
    | .swd =>
        if Behind [] seen then { swj with seen, port := swj.port.lose }
        else if Behind twoZeros seen then { swj with seen, port := swj.port.rest }
        else { swj with seen, port := swj.port.step target line }

/-- What an edge can do. -/
inductive Steps (line : Bool) (swj : SwjState τ) : SwjState τ → Prop
  | toSwd : Behind toSwd (line :: swj.seen) →
      Steps line swj { seen := line :: swj.seen, mode := .swd, port := swj.port.lose }
  | toJtag : ¬ Behind toSwd (line :: swj.seen) → Behind toJtag (line :: swj.seen) →
      Steps line swj { seen := line :: swj.seen, mode := .jtag, port := swj.port.lose }
  | jtag : ¬ Behind Firmware.toSwd (line :: swj.seen) → swj.mode = .jtag →
      Steps line swj { seen := line :: swj.seen, mode := .jtag, port := swj.port }
  | ones : swj.mode = .swd → Behind [] (line :: swj.seen) →
      Steps line swj { seen := line :: swj.seen, mode := .swd, port := swj.port.lose }
  | zeros : swj.mode = .swd → Behind twoZeros (line :: swj.seen) →
      Steps line swj { seen := line :: swj.seen, mode := .swd, port := swj.port.rest }
  | port : swj.mode = .swd → ¬ Behind [] (line :: swj.seen) →
      ¬ Behind twoZeros (line :: swj.seen) →
      Steps line swj
        { seen := line :: swj.seen, mode := .swd, port := swj.port.step target line }

theorem step_cases (line : Bool) (swj : SwjState τ) :
    Steps target line swj (swj.step target line) := by
  obtain ⟨seen, mode, port⟩ := swj
  unfold step
  simp only
  by_cases swd : Behind Firmware.toSwd (line :: seen)
  · rw [if_pos swd]
    exact .toSwd swd
  rw [if_neg swd]
  by_cases jtag : Behind Firmware.toJtag (line :: seen)
  · rw [if_pos jtag]
    exact .toJtag swd jtag
  rw [if_neg jtag]
  cases mode with
  | jtag => exact .jtag swd rfl
  | swd =>
      by_cases high : Behind [] (line :: seen)
      · rw [if_pos high]
        exact .ones rfl high
      rw [if_neg high]
      by_cases low : Behind twoZeros (line :: seen)
      · rw [if_pos low]
        exact .zeros rfl low
      · rw [if_neg low]
        exact .port rfl high low

end SwjState

/-! ### Runs of ones -/

/-- Behind three zeros in a row no forty-eight ones have followed each other. -/
def Calm (seen : List Bool) : Prop :=
  ∃ recent old : List Bool, seen = recent ++ ([false, false, false] ++ old) ∧
    ¬ List.replicate 48 true <:+: recent

/-- So many more ones may follow before there are forty-eight. -/
def Spare (left : Nat) (seen : List Bool) : Prop := ¬ List.replicate (48 - left) true <+: seen

theorem shorter_ones {few many : Nat} (fewer : few ≤ many) :
    List.replicate few true <+: List.replicate many true := by
  obtain ⟨rest, rfl⟩ := Nat.exists_eq_add_of_le fewer
  rw [List.replicate_add]
  exact List.prefix_append _ _

theorem Spare.mono {left left' : Nat} {seen : List Bool} (spare : Spare left seen)
    (fewer : left' ≤ left) : Spare left' seen := by
  intro ones
  exact spare ((shorter_ones (by omega)).trans ones)

/-- A zero leaves the most. -/
theorem Spare.zero (seen : List Bool) : Spare 47 (false :: seen) := by
  intro ones
  obtain ⟨same, -⟩ := List.cons_prefix_cons.mp ones
  exact Bool.false_ne_true same.symm

/-- Any level takes one at most. -/
theorem Spare.next {left : Nat} {seen : List Bool} (spare : Spare (left + 1) seen) (line : Bool) :
    Spare left (line :: seen) := by
  intro ones
  by_cases small : left < 48
  · have more : 48 - left = (48 - (left + 1)) + 1 := by omega
    rw [more, List.replicate_succ] at ones
    exact spare (List.cons_prefix_cons.mp ones).2
  · have none : 48 - (left + 1) = 0 := by omega
    rw [Spare, none] at spare
    exact spare (List.nil_prefix)

theorem Calm.next {seen : List Bool} (calm : Calm seen) {line : Bool} {left : Nat}
    (spare : Spare left (line :: seen)) : Calm (line :: seen) := by
  obtain ⟨recent, old, rfl, short⟩ := calm
  refine ⟨line :: recent, old, rfl, fun ones => ?_⟩
  rcases List.infix_cons_iff.mp ones with first | later
  · have whole : line :: recent <+: line :: (recent ++ ([false, false, false] ++ old)) :=
      List.prefix_append (line :: recent) _
    exact spare ((shorter_ones (by omega)).trans (first.trans whole))
  · exact short later

/-- Nothing comes behind fifty ones on a calm line that does not have three zeros in a row. -/
theorem Calm.not_behind {seen : List Bool} (calm : Calm seen) {bits : List Bool}
    (apart : ¬ [false, false, false] <:+: bits.reverse ++ List.replicate 50 true) :
    ¬ Behind bits seen := by
  obtain ⟨recent, old, rfl, short⟩ := calm
  intro behind
  have fortyEight : bits.reverse ++ List.replicate 48 true <+:
      recent ++ ([false, false, false] ++ old) := by
    have fewer : bits.reverse ++ List.replicate 48 true <+:
        bits.reverse ++ List.replicate 50 true :=
      (List.prefix_append_right_inj bits.reverse).mpr (shorter_ones (by decide))
    exact fewer.trans behind
  rcases Nat.lt_or_ge recent.length (bits.reverse ++ List.replicate 48 true).length with
    early | late
  · -- the zeros are inside of the sequence
    have zeros : recent ++ [false, false, false] <+: recent ++ ([false, false, false] ++ old) := by
      rw [← List.append_assoc]
      exact List.prefix_append _ _
    have inside : recent ++ [false, false, false] <+:
        bits.reverse ++ List.replicate 50 true := by
      refine List.prefix_of_prefix_length_le zeros behind ?_
      simp only [List.length_append, List.length_replicate, List.length_cons,
        List.length_nil] at early ⊢
      omega
    exact apart ((List.suffix_append recent _).isInfix.trans inside.isInfix)
  · have inside := List.prefix_of_prefix_length_le fortyEight (List.prefix_append recent _) late
    exact short ((List.suffix_append bits.reverse _).isInfix.trans inside.isInfix)

theorem toSwd_apart :
    ¬ [false, false, false] <:+: toSwd.reverse ++ List.replicate 50 true := by decide

theorem toJtag_apart :
    ¬ [false, false, false] <:+: toJtag.reverse ++ List.replicate 50 true := by decide

theorem twoZeros_apart :
    ¬ [false, false, false] <:+: twoZeros.reverse ++ List.replicate 50 true := by decide

theorem ones_apart :
    ¬ [false, false, false] <:+: ([] : List Bool).reverse ++ List.replicate 50 true := by decide

/-- On a calm line the switch does nothing: the port takes its step. -/
theorem SwjState.step_calm {τ : Type} (target : SwdTarget τ) {swj : SwjState τ} {line : Bool}
    (selected : swj.mode = .swd) (calm : Calm (line :: swj.seen)) :
    swj.step target line =
      { seen := line :: swj.seen, mode := .swd, port := swj.port.step target line } := by
  unfold SwjState.step
  simp only
  rw [if_neg (calm.not_behind toSwd_apart), if_neg (calm.not_behind toJtag_apart), selected]
  simp only
  rw [if_neg (calm.not_behind ones_apart), if_neg (calm.not_behind twoZeros_apart)]

end Swagger.Firmware
