/-
**Attempts up to a limit.**

A loop that tries once more as long as the outcome tells it to, and a limited number of times in
all, is seen through the outcomes it would meet if it never stopped. `Attempts` says how many
attempts it makes and which outcome it stops at. A loop by recursion on the attempts that are left
follows the rules `zero`, `first` and `again`; what they lead to is determined (`unique`).
-/

import Mathlib

namespace Library

variable {α : Type} {goesOn : α → Prop} {outcomes : Nat → α} {limit count : Nat}
  {result : Option α}

/-- So many attempts are made, and this is the first outcome that does not ask for another one, if
there is one within the limit. -/
inductive Attempts (goesOn : α → Prop) (outcomes : Nat → α) (limit : Nat) : Nat → Option α → Prop
  | settled {index : Nat} (inside : index < limit)
      (before : ∀ earlier < index, goesOn (outcomes earlier))
      (settles : ¬ goesOn (outcomes index)) :
      Attempts goesOn outcomes limit (index + 1) (some (outcomes index))
  | exhausted (all : ∀ index < limit, goesOn (outcomes index)) :
      Attempts goesOn outcomes limit limit none

namespace Attempts

/-! ### One attempt after the other -/

theorem zero (goesOn : α → Prop) (outcomes : Nat → α) : Attempts goesOn outcomes 0 0 none :=
  .exhausted fun _ inside => absurd inside (Nat.not_lt_zero _)

theorem first (limit : Nat) (settles : ¬ goesOn (outcomes 0)) :
    Attempts goesOn outcomes (limit + 1) 1 (some (outcomes 0)) :=
  .settled (Nat.succ_pos limit) (fun _ none => absurd none (Nat.not_lt_zero _)) settles

/-- Behind an outcome that asks for it, the rest is done with the outcomes that follow. -/
theorem again (goes : goesOn (outcomes 0))
    (rest : Attempts goesOn (fun index => outcomes (index + 1)) limit count result) :
    Attempts goesOn outcomes (limit + 1) (count + 1) result := by
  cases rest with
  | settled inside before settles =>
      refine .settled (Nat.succ_lt_succ inside) (fun earlier less => ?_) settles
      cases earlier with
      | zero => exact goes
      | succ earlier => exact before earlier (Nat.lt_of_succ_lt_succ less)
  | exhausted all =>
      refine .exhausted fun index less => ?_
      cases index with
      | zero => exact goes
      | succ index => exact all index (Nat.lt_of_succ_lt_succ less)

/-! ### What is determined -/

/-- The outcomes determine the number of attempts and the result. -/
theorem unique {count' : Nat} {result' : Option α}
    (one : Attempts goesOn outcomes limit count result)
    (two : Attempts goesOn outcomes limit count' result') : count = count' ∧ result = result' := by
  cases one with
  | @settled index inside before settles =>
      cases two with
      | @settled index' inside' before' settles' =>
          have same : index = index' := by
            refine le_antisymm (not_lt.mp fun less => ?_) (not_lt.mp fun less => ?_)
            · exact settles' (before index' less)
            · exact settles (before' index less)
          exact ⟨congrArg (· + 1) same, congrArg (fun place => some (outcomes place)) same⟩
      | exhausted all => exact absurd (all index inside) settles
  | exhausted all =>
      cases two with
      | settled inside' _ settles' => exact absurd (all _ inside') settles'
      | exhausted _ => exact ⟨rfl, rfl⟩

end Attempts

end Library
