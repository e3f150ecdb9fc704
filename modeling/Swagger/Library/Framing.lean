/-
**Frames of a delimited stream.**

`frames delim stream` cuts a stream at every `delim`: the frames that are complete, and what is
left behind the last delimiter. A list of frames that do not contain the delimiter, each followed
by one, is cut back into exactly these frames with nothing left over (`frames_flatMap`). The first
delimiter splits a stream in one way only (`split_first_unique`).
-/

import Mathlib

namespace Library

variable {α : Type} [DecidableEq α]

/-- The complete frames of a stream and the bytes behind the last delimiter. -/
def frames (delim : α) : List α → List (List α) × List α
  | [] => ([], [])
  | head :: tail =>
      if head = delim then ([] :: (frames delim tail).1, (frames delim tail).2)
      else match (frames delim tail).1 with
        | [] => ([], head :: (frames delim tail).2)
        | frame :: rest => ((head :: frame) :: rest, (frames delim tail).2)

/-- A frame without the delimiter, closed by one, is cut off as a whole. -/
theorem frames_append (delim : α) (frame stream : List α) (free : delim ∉ frame) :
    frames delim (frame ++ delim :: stream) =
      (frame :: (frames delim stream).1, (frames delim stream).2) := by
  induction frame with
  | nil => simp [frames]
  | cons head tail ih =>
      have headNe : head ≠ delim := fun same => free (by rw [same]; exact List.mem_cons_self)
      have tailFree : delim ∉ tail := fun member => free (List.mem_cons_of_mem _ member)
      rw [List.cons_append, frames, if_neg headNe, ih tailFree]

/-- The framing law: closed frames are cut back into themselves, with nothing left over. -/
theorem frames_flatMap (delim : α) (list : List (List α)) (free : ∀ frame ∈ list, delim ∉ frame) :
    frames delim (list.flatMap fun frame => frame ++ [delim]) = (list, []) := by
  induction list with
  | nil => rfl
  | cons frame rest ih =>
      have tail := ih fun other member => free other (List.mem_cons_of_mem _ member)
      rw [List.flatMap_cons, List.append_assoc, List.singleton_append,
        frames_append delim frame _ (free frame List.mem_cons_self), tail]

omit [DecidableEq α] in
/-- The first element with a property splits a list in one way only. -/
theorem split_first_unique (stops : α → Prop) {front front' back back' : List α} {stop stop' : α}
    (free : ∀ element ∈ front, ¬ stops element) (free' : ∀ element ∈ front', ¬ stops element)
    (here : stops stop) (here' : stops stop')
    (same : front ++ stop :: back = front' ++ stop' :: back') :
    front = front' ∧ stop = stop' ∧ back = back' := by
  induction front generalizing front' with
  | nil =>
      cases front' with
      | nil =>
          obtain ⟨rfl, rfl⟩ := List.cons.inj same
          exact ⟨rfl, rfl, rfl⟩
      | cons head tail =>
          obtain ⟨rfl, -⟩ := List.cons.inj same
          exact absurd here (free' _ List.mem_cons_self)
  | cons head tail ih =>
      cases front' with
      | nil =>
          obtain ⟨rfl, -⟩ := List.cons.inj same
          exact absurd here' (free _ List.mem_cons_self)
      | cons head' tail' =>
          obtain ⟨rfl, rest⟩ := List.cons.inj same
          obtain ⟨rfl, stops, backs⟩ := ih (fun element member =>
            free element (List.mem_cons_of_mem _ member)) (fun element member =>
            free' element (List.mem_cons_of_mem _ member)) rest
          exact ⟨rfl, stops, backs⟩

end Library
