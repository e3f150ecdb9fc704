/-
**What a history shows.**

A history is a list of events, the latest at its end. Three things are said of one:

* `Guarded`: each time a critical event happened, what happened before allowed it;
* `Followed`: an event of one kind happened, and one of another kind after it;
* `LastOf`: the last event of a kind, with what happened before it, has a property.

The rules say what becomes of them when a history is continued.
-/

import Mathlib

namespace Library

variable {Event : Type*}

/-- What happened before a critical event allowed it. -/
def Guarded (critical : Event → Prop) (allowed : List Event → Prop) (history : List Event) : Prop :=
  ∀ before event after, history = before ++ event :: after → critical event → allowed before

/-- One event, and another one after it. -/
def Followed (first later : Event → Prop) (history : List Event) : Prop :=
  ∃ before event after, history = before ++ event :: after ∧ first event ∧
    ∃ other ∈ after, later other

/-- The last event of a kind, and what happened before it. -/
def LastOf (kind : Event → Prop) (holds : List Event → Event → Prop) (history : List Event) :
    Prop :=
  ∃ before event after, history = before ++ event :: after ∧ kind event ∧
    (∀ other ∈ after, ¬ kind other) ∧ holds before event

/-! ### Guarded -/

section Guarded

variable {critical : Event → Prop} {allowed : List Event → Prop}

/-- Without critical events there is nothing to guard. -/
theorem guarded_of_not {history : List Event} (quiet : ∀ event ∈ history, ¬ critical event) :
    Guarded critical allowed history := by
  rintro before event after rfl crit
  exact absurd crit (quiet event (List.mem_append_right _ List.mem_cons_self))

/-- A history with one critical event depends on what happened before that. -/
theorem guarded_once {before after : List Event} {event : Event} (crit : critical event)
    (quiet : ∀ other ∈ before, ¬ critical other) (still : ∀ other ∈ after, ¬ critical other) :
    Guarded critical allowed (before ++ event :: after) ↔ allowed before := by
  constructor
  · exact fun guarded => guarded before event after rfl crit
  · intro holds before' event' after' same crit'
    have outside := fun member => quiet event' member crit'
    have behind := fun member => still event' member crit'
    rw [((List.append_cons_inj_of_notMem outside behind).mp same).1] at holds
    exact holds

/-- A history that goes on stays guarded if what is critical in the rest is allowed there. -/
theorem guarded_append {history more : List Event} (guarded : Guarded critical allowed history)
    (rest : ∀ before event after, more = before ++ event :: after → critical event →
      allowed (history ++ before)) : Guarded critical allowed (history ++ more) := by
  intro before event after same crit
  rcases List.append_eq_append_iff.mp same with ⟨between, rfl, inside⟩ | ⟨between, rfl, inside⟩
  · exact rest between event after inside crit
  · cases between with
    | nil =>
        have here := rest [] event after inside.symm crit
        rwa [List.append_nil, List.append_nil] at here
    | cons other between =>
        obtain ⟨rfl, -⟩ := List.cons.inj inside
        exact guarded before event between rfl crit

end Guarded

/-! ### Followed -/

section Followed

variable {first later : Event → Prop}

theorem followed_nil : ¬ Followed first later [] := by
  rintro ⟨before, event, after, same, _⟩
  exact List.append_ne_nil_of_right_ne_nil before (List.cons_ne_nil event after) same.symm

theorem followed_cons (event : Event) (history : List Event) :
    Followed first later (event :: history) ↔
      (first event ∧ ∃ other ∈ history, later other) ∨ Followed first later history := by
  constructor
  · rintro ⟨before, event', after, same, isFirst, after_later⟩
    rcases List.cons_eq_append_iff.mp same with ⟨rfl, now⟩ | ⟨before', rfl, rest⟩
    · cases now
      exact .inl ⟨isFirst, after_later⟩
    · exact .inr ⟨before', event', after, rest, isFirst, after_later⟩
  · rintro (⟨isFirst, after_later⟩ | ⟨before, event', after, rfl, isFirst, after_later⟩)
    · exact ⟨[], event, history, rfl, isFirst, after_later⟩
    · exact ⟨event :: before, event', after, rfl, isFirst, after_later⟩

/-- The two events are in one part, or one in each. -/
theorem followed_append (history more : List Event) :
    Followed first later (history ++ more) ↔
      Followed first later history ∨ ((∃ event ∈ history, first event) ∧
        ∃ event ∈ more, later event) ∨ Followed first later more := by
  induction history with
  | nil => simp [followed_nil]
  | cons event history ih =>
      rw [List.cons_append, followed_cons, followed_cons, ih]
      simp only [List.mem_append, List.mem_cons, or_and_right, exists_or, exists_eq_left,
        and_or_left]
      exact Iff.of_eq (by ac_rfl)

theorem followed_concat (history : List Event) (event : Event) :
    Followed first later (history ++ [event]) ↔
      Followed first later history ∨ ((∃ other ∈ history, first other) ∧ later event) := by
  simp [followed_append, followed_cons, followed_nil]

instance followedDecidable [DecidablePred first] [DecidablePred later] :
    DecidablePred (Followed first later)
  | [] => .isFalse followed_nil
  | event :: history =>
      have : Decidable (Followed first later history) := followedDecidable history
      decidable_of_iff _ (followed_cons event history).symm

end Followed

/-! ### LastOf -/

/-- The last event of a kind is the one behind which there is none. -/
theorem lastOf_append_cons {kind : Event → Prop} {holds : List Event → Event → Prop}
    {before after : List Event} {event : Event} (isKind : kind event)
    (last : ∀ other ∈ after, ¬ kind other) :
    LastOf kind holds (before ++ event :: after) ↔ holds before event := by
  constructor
  · rintro ⟨before', event', after', same, isKind', last', holds'⟩
    rcases List.append_eq_append_iff.mp same with ⟨between, rfl, rest⟩ | ⟨between, rfl, rest⟩
    · cases between with
      | nil =>
          cases rest
          rwa [List.append_nil] at holds'
      | cons other between =>
          cases rest
          exact absurd isKind'
            (last event' (List.mem_append_right _ List.mem_cons_self))
    · cases between with
      | nil =>
          cases rest
          rwa [List.append_nil]
      | cons other between =>
          cases rest
          exact absurd isKind (last' event (List.mem_append_right _ List.mem_cons_self))
  · exact fun here => ⟨before, event, after, rfl, isKind, last, here⟩

end Library
