/-
**A system that reads from a queue.**

The labels of a system arrive in bursts, and wait in a queue until the system takes them; a burst
may arrive at any moment (`Lts.queued`). What has been read and what is waiting are together what
has arrived (`Trace.of_queued`), and a run over labels is one with these labels in the queue
(`Trace.queued`). So it does not matter to a deterministic system how its labels are cut into bursts
and when these arrive: from every state of every run it goes on to the same quiet state
(`Deterministic.goes_on`).
-/

import Swagger.Library.Transition

namespace Library

/-- A state, and the labels that have arrived and are not read yet. -/
structure Queued (S L : Type) where
  state : S
  queue : List L

namespace Lts

variable {S L : Type} {lts : Lts S L}

/-- The system behind a queue: the arrival of a burst is visible, reading is silent. -/
def queued (lts : Lts S L) : Lts (Queued S L) (List L) where
  step first label last :=
    match label with
    | some burst => last = { first with queue := first.queue ++ burst }
    | none => ∃ read : Option L,
        lts.step first.state read last.state ∧ first.queue = read.toList ++ last.queue

/-- Nothing is lost or read twice, and everything is read in its order. -/
theorem Trace.of_queued {first last : Queued S L} {bursts : List (List L)}
    (run : lts.queued.Trace first bursts last) :
    ∃ labels, lts.Trace first.state labels last.state ∧
      first.queue ++ bursts.flatten = labels ++ last.queue := by
  induction run with
  | refl state => exact ⟨[], .refl state.state, List.append_nil _⟩
  | silent step _ ih =>
      obtain ⟨read, moved, taken⟩ := step
      obtain ⟨labels, run, kept⟩ := ih
      refine ⟨read.toList ++ labels, (Trace.single moved).trans run, ?_⟩
      rw [taken, List.append_assoc, kept, List.append_assoc]
  | visible step _ ih =>
      obtain ⟨labels, run, kept⟩ := ih
      rw [step] at run kept
      refine ⟨labels, run, ?_⟩
      rw [List.flatten_cons, ← List.append_assoc]
      exact kept

/-- What waits in the queue is read. -/
theorem Trace.queued {first last : S} {labels : List L} (run : lts.Trace first labels last)
    (rest : List L) :
    lts.queued.Trace { state := first, queue := labels ++ rest } []
      { state := last, queue := rest } := by
  induction run with
  | refl => exact .refl _
  | silent step _ ih => exact .silent ⟨none, step, rfl⟩ ih
  | visible step _ ih => exact .silent ⟨some _, step, rfl⟩ ih

/-- A quiet state is left by no silent run. -/
theorem Quiet.stays {first last : S} (quiet : lts.Quiet first) (run : lts.Trace first [] last) :
    first = last := by
  cases run with
  | refl => rfl
  | silent step _ => exact absurd step (quiet _)

/-- From every state of a run over the same labels, whatever the bursts, a deterministic system goes
on to the same quiet state. -/
theorem Deterministic.goes_on (deterministic : lts.Deterministic) {first last : S}
    {labels : List L} (whole : lts.Trace first labels last) (quiet : lts.Quiet last)
    {bursts : List (List L)} {middle : Queued S L}
    (run : lts.queued.Trace { state := first, queue := [] } bursts middle)
    (same : bursts.flatten = labels) : lts.Trace middle.state middle.queue last := by
  obtain ⟨read, done, kept⟩ := run.of_queued
  rw [List.nil_append, same] at kept
  rw [kept] at whole
  exact deterministic.rest done whole quiet

end Lts

end Library
