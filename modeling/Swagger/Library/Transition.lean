/-
**Labelled transition systems with silent steps.**

A run is observed through the labels of its visible steps (`Lts.Trace`). Three rules carry every
proof about runs:

* `Trace.invariant`: what holds at the start and is kept by one step holds at the end;
* `Lts.guard`: the runs whose steps all meet a condition on the state before the step and the
  label are the runs of the guarded system, so the first rule applies to them as well;
* `Simulates.trace`: a step-wise simulation relates whole runs with the same labels.

A deterministic system has one run for given labels, up to the silent steps at its end
(`Deterministic.compare`, `Deterministic.unique`).
-/

import Mathlib

namespace Library

/-- A labelled transition system; a step without a label is silent. -/
structure Lts (S L : Type) where
  step : S → Option L → S → Prop

namespace Lts

variable {S T L : Type} {lts : Lts S L}

/-- The runs of a system, observed through their visible labels. -/
inductive Trace (lts : Lts S L) : S → List L → S → Prop
  | refl (state : S) : Trace lts state [] state
  | silent {first middle last : S} {labels : List L} :
      lts.step first none middle → Trace lts middle labels last → Trace lts first labels last
  | visible {first middle last : S} {label : L} {labels : List L} :
      lts.step first (some label) middle → Trace lts middle labels last →
      Trace lts first (label :: labels) last

namespace Trace

theorem single {first last : S} {label : Option L} (step : lts.step first label last) :
    lts.Trace first label.toList last := by
  cases label with
  | none => exact .silent step (.refl last)
  | some label => exact .visible step (.refl last)

theorem trans {first middle last : S} {labels labels' : List L}
    (one : lts.Trace first labels middle) (two : lts.Trace middle labels' last) :
    lts.Trace first (labels ++ labels') last := by
  induction one with
  | refl => exact two
  | silent step _ ih => exact .silent step (ih two)
  | visible step _ ih => exact .visible step (ih two)

/-- A run over `labels ++ labels'` passes through a state between the two. -/
theorem split {first last : S} {labels labels' : List L}
    (run : lts.Trace first (labels ++ labels') last) :
    ∃ middle, lts.Trace first labels middle ∧ lts.Trace middle labels' last := by
  generalize joined : labels ++ labels' = all at run
  induction run generalizing labels with
  | refl state =>
      obtain ⟨rfl, rfl⟩ := List.append_eq_nil_iff.mp joined
      exact ⟨state, .refl state, .refl state⟩
  | silent step _ ih =>
      obtain ⟨middle, one, two⟩ := ih joined
      exact ⟨middle, .silent step one, two⟩
  | @visible first _ _ label _ step rest ih =>
      cases labels with
      | nil =>
          refine ⟨first, .refl first, ?_⟩
          rw [List.nil_append] at joined
          rw [joined]
          exact .visible step rest
      | cons head tail =>
          obtain ⟨rfl, tailEq⟩ := List.cons.inj joined
          obtain ⟨middle, one, two⟩ := ih tailEq
          exact ⟨middle, .visible step one, two⟩

/-- The invariant rule: what one step keeps, a whole run keeps. -/
theorem invariant {P : S → Prop} (keeps : ∀ s label s', P s → lts.step s label s' → P s')
    {first last : S} {labels : List L} (run : lts.Trace first labels last) (start : P first) :
    P last := by
  induction run with
  | refl => exact start
  | silent step _ ih => exact ih (keeps _ _ _ start step)
  | visible step _ ih => exact ih (keeps _ _ _ start step)

/-- The same for the silent steps behind the last label. -/
theorem invariant_silent {P : S → Prop} (keeps : ∀ s s', P s → lts.step s none s' → P s')
    {first last : S} (run : lts.Trace first [] last) (start : P first) : P last := by
  generalize silent : ([] : List L) = labels at run
  induction run with
  | refl => exact start
  | silent step _ ih => exact ih (keeps _ _ start step) silent
  | visible => cases silent

end Trace

/-- The system restricted to the steps that meet a condition on the state before the step and the
label. -/
def guard (lts : Lts S L) (condition : S → Option L → Prop) : Lts S L where
  step first label last := condition first label ∧ lts.step first label last

/-- The same steps under other labels, which are translated. -/
def relabel {K : Type} (lts : Lts S L) (translate : K → L) : Lts S K where
  step first label last := lts.step first (label.map translate) last

theorem Trace.of_relabel {K : Type} {translate : K → L} {first last : S} {labels : List K}
    (run : (lts.relabel translate).Trace first labels last) :
    lts.Trace first (labels.map translate) last := by
  induction run with
  | refl => exact .refl _
  | silent step _ ih => exact .silent step ih
  | visible step _ ih => exact .visible step ih

/-- A forward simulation: each step of the first system is matched by a run of the second with the
same label, and the relation holds again afterwards. -/
def Simulates (concrete : Lts S L) (spec : Lts T L) (R : S → T → Prop) : Prop :=
  ∀ s t label s', R s t → concrete.step s label s' →
    ∃ t', spec.Trace t label.toList t' ∧ R s' t'

/-- A simulation relates whole runs with the same labels. -/
theorem Simulates.trace {concrete : Lts S L} {spec : Lts T L} {R : S → T → Prop}
    (simulates : Simulates concrete spec R) {first last : S} {labels : List L}
    (run : concrete.Trace first labels last) {start : T} (related : R first start) :
    ∃ finish, spec.Trace start labels finish ∧ R last finish := by
  induction run generalizing start with
  | refl => exact ⟨start, .refl start, related⟩
  | silent step _ ih =>
      obtain ⟨middle, moved, next⟩ := simulates _ _ _ _ related step
      obtain ⟨finish, rest, done⟩ := ih next
      exact ⟨finish, moved.trans rest, done⟩
  | visible step _ ih =>
      obtain ⟨middle, moved, next⟩ := simulates _ _ _ _ related step
      obtain ⟨finish, rest, done⟩ := ih next
      exact ⟨finish, moved.trans rest, done⟩

/-! ### Determinism -/

/-- A system whose next step is determined by its label, and that does not take a silent step where
it can take a visible one. -/
structure Deterministic (lts : Lts S L) : Prop where
  functional : ∀ {first label last last'}, lts.step first label last →
    lts.step first label last' → last = last'
  exclusive : ∀ {first label last last'}, lts.step first none last →
    ¬ lts.step first (some label) last'

/-- A state without a silent step. -/
def Quiet (lts : Lts S L) (state : S) : Prop := ∀ next, ¬ lts.step state none next

/-- Of two runs, the one over fewer labels is a part of the other, unless they differ in silent
steps alone. -/
theorem Deterministic.compare (deterministic : lts.Deterministic) {first middle last : S}
    {labels labels' : List L} (one : lts.Trace first labels middle)
    (all : lts.Trace first (labels ++ labels') last) :
    lts.Trace middle labels' last ∨ (labels' = [] ∧ lts.Trace last [] middle) := by
  induction one with
  | refl => exact .inl all
  | silent step rest ih =>
      generalize joined : _ ++ labels' = list at all
      cases all with
      | refl =>
          obtain ⟨rfl, rfl⟩ := List.append_eq_nil_iff.mp joined
          exact .inr ⟨rfl, .silent step rest⟩
      | silent step' rest' =>
          rw [← joined, deterministic.functional step' step] at rest'
          exact ih rest'
      | visible step' _ => exact absurd step' (deterministic.exclusive step)
  | visible step _ ih =>
      rw [List.cons_append] at all
      cases all with
      | silent step' _ => exact absurd step (deterministic.exclusive step')
      | visible step' rest =>
          rw [deterministic.functional step' step] at rest
          exact ih rest

/-- Every run to a quiet state passes through the states of every shorter run. -/
theorem Deterministic.rest (deterministic : lts.Deterministic) {first middle last : S}
    {labels labels' : List L} (one : lts.Trace first labels middle)
    (all : lts.Trace first (labels ++ labels') last) (quiet : lts.Quiet last) :
    lts.Trace middle labels' last := by
  rcases deterministic.compare one all with behind | ⟨rfl, back⟩
  · exact behind
  · cases back with
    | refl => exact .refl _
    | silent step _ => exact absurd step (quiet _)

/-- A deterministic system reaches one quiet state with given labels. -/
theorem Deterministic.unique (deterministic : lts.Deterministic) {first last last' : S}
    {labels : List L} (one : lts.Trace first labels last) (two : lts.Trace first labels last')
    (quiet : lts.Quiet last) (quiet' : lts.Quiet last') : last = last' := by
  rw [← List.append_nil labels] at two
  cases deterministic.rest one two quiet' with
  | refl => rfl
  | silent step _ => exact absurd step (quiet _)

end Lts

end Library
