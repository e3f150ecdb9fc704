/-
**Items taken in turn, up to one that stops.**

A loop takes the items of a list one after the other. Each leaves an event, and an event that stops
the loop is the last. So either every item has gone well (`List.Forall₂`), or the items up to some
place have, and the one there has stopped (`StopsAt`).
-/

import Mathlib

namespace Library

variable {Item Event : Type*} {goes stops : Item → Event → Prop} {item : Item} {event : Event}
  {items : List Item} {events : List Event}

/-- All goes well up to an item that stops. -/
def StopsAt (goes stops : Item → Event → Prop) (items : List Item) (events : List Event) : Prop :=
  ∃ done item left before event, items = done ++ item :: left ∧ events = before ++ [event] ∧
    List.Forall₂ goes done before ∧ stops item event

theorem stopsAt_first (items : List Item) (stopped : stops item event) :
    StopsAt goes stops (item :: items) [event] :=
  ⟨[], item, items, [], event, rfl, rfl, .nil, stopped⟩

theorem StopsAt.cons (first : goes item event) (rest : StopsAt goes stops items events) :
    StopsAt goes stops (item :: items) (event :: events) := by
  obtain ⟨done, other, left, before, last, rfl, rfl, through, stopped⟩ := rest
  exact ⟨item :: done, other, left, event :: before, last, rfl, rfl, .cons first through, stopped⟩

/-- Every event is that of an item, and every item has one. -/
theorem through_event (through : List.Forall₂ goes items events) :
    ∀ event ∈ events, ∃ item, goes item event := by
  induction through with
  | nil => exact fun _ member => absurd member List.not_mem_nil
  | cons first _ ih =>
      intro event member
      rcases List.mem_cons.mp member with rfl | later
      · exact ⟨_, first⟩
      · exact ih event later

theorem through_item (through : List.Forall₂ goes items events) :
    ∀ item ∈ items, ∃ event ∈ events, goes item event := by
  induction through with
  | nil => exact fun _ member => absurd member List.not_mem_nil
  | cons first _ ih =>
      intro item member
      rcases List.mem_cons.mp member with rfl | later
      · exact ⟨_, List.mem_cons_self, first⟩
      · obtain ⟨event, inside, well⟩ := ih item later
        exact ⟨event, List.mem_cons_of_mem _ inside, well⟩

/-- Behind every event but the last, all has gone well. -/
theorem StopsAt.before {before after : List Event} (stopped : StopsAt goes stops items events)
    (here : events = before ++ event :: after) : ∀ other ∈ before, ∃ item, goes item other := by
  obtain ⟨done, item, left, earlier, last, rfl, rfl, through, -⟩ := stopped
  intro other member
  have inside : other ∈ earlier := by
    rcases List.append_eq_append_iff.mp here with ⟨between, rfl, rest⟩ | ⟨between, rfl, rest⟩
    · cases between with
      | nil => rwa [List.append_nil] at member
      | cons first between => exact absurd (List.cons.inj rest).2 (by simp)
    · exact List.mem_append_left _ member
  exact through_event through other inside

/-- Seen alike, the events are those of the items. -/
theorem through_alike {View : Type*} {name : Item → View} {view : Event → View}
    (alike : ∀ item event, goes item event → view event = name item)
    (through : List.Forall₂ goes items events) : events.map view = items.map name := by
  induction through with
  | nil => rfl
  | cons first _ ih => rw [List.map_cons, List.map_cons, ih, alike _ _ first]

/-- And those of the first items when one of them stops. -/
theorem StopsAt.alike {View : Type*} {name : Item → View} {view : Event → View}
    (alike : ∀ item event, goes item event ∨ stops item event → view event = name item)
    (stopped : StopsAt goes stops items events) : events.map view <+: items.map name := by
  obtain ⟨done, item, left, before, event, rfl, rfl, through, last⟩ := stopped
  have seen := through_alike (fun item event here => alike item event (.inl here)) through
  refine ⟨left.map name, ?_⟩
  rw [List.map_append, List.map_append, List.map_singleton, List.map_cons, seen,
    alike _ _ (.inr last), List.append_assoc, List.singleton_append]

end Library
