/-
**A store and its last writes.**

A store holds a value at each address. Its steps are reads, which return what it holds, and writes,
which change one address (`stores`). After a run it holds at each address what was written last, or
the first value if nothing was (`lastWritten`, `store_lastWritten`).
-/

import Swagger.Library.Transition

namespace Library

/-- A step of a store: a read with the value that it returns, a write, or neither. -/
inductive StoreEvent (α β : Type)
  | read (address : α) (value : β)
  | write (address : α) (value : β)
  | other

variable {α β : Type} [DecidableEq α]

/-- The steps of a store. -/
def stores : Lts (α → β) (StoreEvent α β) where
  step store event store' :=
    match event with
    | some (.read address value) => value = store address ∧ store' = store
    | some (.write address value) => store' = Function.update store address value
    | some .other => store' = store
    | none => False

/-- What a step writes to an address. -/
def StoreEvent.wrote (address : α) : StoreEvent α β → Option β
  | .write address' value => if address' = address then some value else none
  | _ => none

/-- The last value written to an address, or else the initial one. -/
def lastWritten (initial : α → β) (events : List (StoreEvent α β)) (address : α) : β :=
  (events.reverse.findSome? fun event => event.wrote address).getD (initial address)

/-- The first of the steps may be taken at once. -/
theorem lastWritten_cons (initial : α → β) (event : StoreEvent α β)
    (events : List (StoreEvent α β)) :
    lastWritten initial (event :: events) =
      lastWritten (fun address => (event.wrote address).getD (initial address)) events := by
  funext address
  unfold lastWritten
  rw [List.reverse_cons, List.findSome?_append, List.findSome?_singleton]
  cases events.reverse.findSome? fun event => event.wrote address with
  | none => rfl
  | some value => rfl

/-- A step leaves what it wrote at its address, and all else as it was. -/
theorem stores_step {store store' : α → β} {event : StoreEvent α β}
    (step : stores.step store (some event) store') :
    store' = fun address => (event.wrote address).getD (store address) := by
  cases event with
  | read _ _ => exact step.2
  | write address value =>
      rw [show store' = Function.update store address value from step]
      funext address'
      simp only [StoreEvent.wrote]
      by_cases same : address = address'
      · rw [if_pos same, same, Function.update_self, Option.getD_some]
      · rw [if_neg same, Function.update_of_ne (Ne.symm same), Option.getD_none]
  | other => exact step

/-- Behind a run, a store holds the last value written to each address. -/
theorem store_lastWritten {initial store : α → β} {events : List (StoreEvent α β)}
    (run : stores.Trace initial events store) : store = lastWritten initial events := by
  induction run with
  | refl => rfl
  | silent step _ _ => exact step.elim
  | visible step _ ih => rw [ih, stores_step step, lastWritten_cons]

end Library
