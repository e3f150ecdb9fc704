/-
**The byte arrays of the firmware.**

A C array of `n` bytes is a memory whose first `n` cells may be written: `write` fails outside, so
a function that writes out of bounds has no result. Reading is not checked: a cell behind the array
holds whatever lies there. What a proof needs of a buffer are its first bytes (`firstBytes`), and
how the two kinds of writes change them: at the end (`firstBytes_write_end`) and inside
(`firstBytes_write_inside`).
-/

import Swagger.Protocol

namespace Swagger.Firmware

/-- An array of `n` bytes, with what lies behind it. -/
structure Buffer (n : Nat) where
  cell : Nat → Byte

namespace Buffer

variable {n : Nat}

/-- `buffer[index] = byte`; a write outside the array has no result. -/
def write (buffer : Buffer n) (index : Nat) (byte : Byte) : Option (Buffer n) :=
  if index < n then some { cell := Function.update buffer.cell index byte } else none

/-- The first bytes of a buffer, in order. -/
def firstBytes (buffer : Buffer n) (count : Nat) : List Byte :=
  (List.range count).map buffer.cell

@[simp] theorem firstBytes_zero (buffer : Buffer n) : buffer.firstBytes 0 = [] := rfl

@[simp] theorem length_firstBytes (buffer : Buffer n) (count : Nat) :
    (buffer.firstBytes count).length = count := by
  rw [firstBytes, List.length_map, List.length_range]

theorem firstBytes_succ (buffer : Buffer n) (count : Nat) :
    buffer.firstBytes (count + 1) = buffer.firstBytes count ++ [buffer.cell count] := by
  rw [firstBytes, List.range_succ, List.map_append, List.map_singleton, firstBytes]

theorem getElem?_firstBytes (buffer : Buffer n) {count index : Nat} (inside : index < count) :
    (buffer.firstBytes count)[index]? = some (buffer.cell index) := by
  rw [firstBytes, List.getElem?_map, List.getElem?_range inside, Option.map_some]

/-- Two buffers with the same cells below `count` have the same first bytes. -/
theorem firstBytes_congr {m : Nat} {buffer : Buffer n} {other : Buffer m} {count : Nat}
    (same : ∀ index < count, buffer.cell index = other.cell index) :
    buffer.firstBytes count = other.firstBytes count := by
  refine List.map_congr_left fun index member => ?_
  exact same index (List.mem_range.mp member)

/-- A write inside the array changes one cell. -/
theorem write_inside (buffer : Buffer n) {index : Nat} (byte : Byte) (inside : index < n) :
    ∃ buffer', buffer.write index byte = some buffer' ∧ buffer'.cell index = byte ∧
      ∀ other, other ≠ index → buffer'.cell other = buffer.cell other :=
  ⟨_, if_pos inside, Function.update_self _ _ _, fun _ other => Function.update_of_ne other _ _⟩

/-- A write changes no other cell. -/
theorem write_others {buffer buffer' : Buffer n} {index : Nat} {byte : Byte}
    (written : buffer.write index byte = some buffer') {other : Nat} (away : other ≠ index) :
    buffer'.cell other = buffer.cell other := by
  unfold write at written
  split_ifs at written
  obtain rfl := Option.some.inj written
  exact Function.update_of_ne away _ _

/-- A byte written behind the first ones extends them. -/
theorem firstBytes_write_end (buffer : Buffer n) {count : Nat} (byte : Byte) (room : count < n) :
    ∃ buffer', buffer.write count byte = some buffer' ∧
      buffer'.firstBytes (count + 1) = buffer.firstBytes count ++ [byte] ∧
      ∀ other, other ≠ count → buffer'.cell other = buffer.cell other := by
  obtain ⟨buffer', written, here, others⟩ := buffer.write_inside byte room
  refine ⟨buffer', written, ?_, others⟩
  rw [firstBytes_succ, here, firstBytes_congr fun index before => others index before.ne]

/-- A byte written inside the first ones replaces one of them. -/
theorem firstBytes_write_inside (buffer : Buffer n) (count : Nat) {index : Nat} (byte : Byte)
    (inside : index < n) :
    ∃ buffer', buffer.write index byte = some buffer' ∧
      buffer'.firstBytes count = (buffer.firstBytes count).set index byte := by
  obtain ⟨buffer', written, at_index, others⟩ := buffer.write_inside byte inside
  refine ⟨buffer', written, List.ext_getElem? fun place => ?_⟩
  by_cases before : place < count
  · rw [getElem?_firstBytes _ before, List.getElem?_set, getElem?_firstBytes _ before,
      length_firstBytes]
    by_cases here : index = place
    · rw [if_pos here, if_pos (here ▸ before), ← here, at_index]
    · rw [if_neg here, others place (Ne.symm here)]
  · rw [List.getElem?_eq_none (by simpa using before),
      List.getElem?_eq_none (by simpa using before)]

end Buffer

end Swagger.Firmware
