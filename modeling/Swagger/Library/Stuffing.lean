/-
**Consistent overhead byte stuffing, over any alphabet.**

A stuffing removes one symbol, the delimiter, from a payload. The payload is cut into blocks; a
block is a code symbol that announces how many data symbols follow, and these symbols. A block of
fewer than `maxRun` symbols stands for its data and one delimiter, a full block for its data alone.

* `stuff pending payload` is the encoding of `pending ++ payload` when `pending` is the open block.
  It is the function every encoder computes, whatever it does to fill in the codes afterwards.
* `unstuff` follows the codes and accepts any string: a block that is cut short yields what is
  there.
* `unstuff_stuff` is the round trip: the payload comes back, followed by one delimiter.
* `delim_notMem_stuff`, `length_stuff` and `length_unstuff_le`: an encoding is free of the
  delimiter, its overhead is one code and one more for each full block, and decoding never expands.
-/

import Mathlib

namespace Library

/-- The codes of a stuffing: `code length` announces a block of `length ≤ maxRun` data symbols,
`run` reads the announcement back. -/
structure Stuffing (α : Type) where
  delim : α
  maxRun : Nat
  code : Nat → α
  run : α → Nat
  maxRun_pos : 0 < maxRun
  run_code : ∀ length ≤ maxRun, run (code length) = length
  code_ne : ∀ length ≤ maxRun, code length ≠ delim

namespace Stuffing

variable {α : Type} [DecidableEq α] (stuffing : Stuffing α)

/-- The encoding of a payload behind an open block. -/
def stuff (pending : List α) : List α → List α
  | [] => stuffing.code pending.length :: pending
  | head :: tail =>
      if head = stuffing.delim then
        stuffing.code pending.length :: pending ++ stuff [] tail
      else if pending.length + 1 = stuffing.maxRun then
        stuffing.code stuffing.maxRun :: (pending ++ [head]) ++ stuff [] tail
      else stuff (pending ++ [head]) tail

/-- Decoding: follow the codes, copy at most as many symbols as each announces, and close a block
that is not full with a delimiter. -/
def unstuff : List α → List α
  | [] => []
  | code :: rest =>
      rest.take (stuffing.run code) ++
        (if stuffing.run code < stuffing.maxRun then [stuffing.delim] else []) ++
        unstuff (rest.drop (stuffing.run code))
  termination_by list => list.length

omit [DecidableEq α] in
/-- Decoding one complete block. -/
theorem unstuff_block (length : Nat) (small : length ≤ stuffing.maxRun) (data rest : List α)
    (exact : data.length = length) :
    stuffing.unstuff (stuffing.code length :: (data ++ rest)) =
      data ++ (if length < stuffing.maxRun then [stuffing.delim] else []) ++
        stuffing.unstuff rest := by
  rw [unstuff, stuffing.run_code length small, ← exact, List.take_left, List.drop_left]

/-- The round trip. The induction runs over the payload with the open block general. -/
theorem unstuff_stuff (payload pending : List α) (room : pending.length < stuffing.maxRun) :
    stuffing.unstuff (stuffing.stuff pending payload) = pending ++ payload ++ [stuffing.delim] := by
  induction payload generalizing pending with
  | nil =>
      have block := stuffing.unstuff_block pending.length room.le pending [] rfl
      rw [List.append_nil, if_pos room, unstuff, List.append_nil] at block
      rw [stuff, block, List.append_nil]
  | cons head tail ih =>
      have next := ih [] stuffing.maxRun_pos
      rw [stuff]
      by_cases isDelim : head = stuffing.delim
      · rw [if_pos isDelim, List.cons_append,
          stuffing.unstuff_block pending.length room.le pending _ rfl, if_pos room, next, isDelim]
        simp
      · rw [if_neg isDelim]
        by_cases full : pending.length + 1 = stuffing.maxRun
        · rw [if_pos full, List.cons_append,
            stuffing.unstuff_block stuffing.maxRun le_rfl (pending ++ [head]) _
              (by simpa using full),
            if_neg (lt_irrefl _), next]
          simp
        · rw [if_neg full, ih (pending ++ [head]) (by simp; omega)]
          simp

/-- No symbol of an encoding is the delimiter. -/
theorem delim_notMem_stuff (payload pending : List α) (room : pending.length < stuffing.maxRun)
    (free : stuffing.delim ∉ pending) : stuffing.delim ∉ stuffing.stuff pending payload := by
  induction payload generalizing pending with
  | nil =>
      rw [stuff, List.mem_cons, not_or]
      exact ⟨(stuffing.code_ne _ room.le).symm, free⟩
  | cons head tail ih =>
      have next := ih [] stuffing.maxRun_pos (by simp)
      rw [stuff]
      by_cases isDelim : head = stuffing.delim
      · rw [if_pos isDelim]
        simp only [List.cons_append, List.mem_cons, List.mem_append, not_or]
        exact ⟨(stuffing.code_ne _ room.le).symm, free, next⟩
      · have free' : stuffing.delim ∉ pending ++ [head] := by
          simp only [List.mem_append, List.mem_singleton, not_or]
          exact ⟨free, fun same => isDelim same.symm⟩
        rw [if_neg isDelim]
        by_cases full : pending.length + 1 = stuffing.maxRun
        · rw [if_pos full, List.cons_append, List.mem_cons, List.mem_append, not_or, not_or]
          exact ⟨(stuffing.code_ne _ le_rfl).symm, free', next⟩
        · rw [if_neg full]
          exact ih (pending ++ [head]) (by simp; omega) free'

/-- The number of full blocks in a payload behind `count` symbols of an open block. The count starts
anew behind each delimiter and behind each full block. -/
def fullBlocks (count : Nat) : List α → Nat
  | [] => 0
  | head :: tail =>
      if head = stuffing.delim then fullBlocks 0 tail
      else if count + 1 = stuffing.maxRun then fullBlocks 0 tail + 1
      else fullBlocks (count + 1) tail

/-- The overhead of an encoding: one code, and one more for each full block. -/
theorem length_stuff (payload pending : List α) :
    (stuffing.stuff pending payload).length =
      pending.length + payload.length + 1 + stuffing.fullBlocks pending.length payload := by
  induction payload generalizing pending with
  | nil => rw [stuff, fullBlocks, List.length_cons, List.length_nil]
  | cons head tail ih =>
      have next := ih []
      rw [List.length_nil, Nat.zero_add] at next
      rw [stuff, fullBlocks, List.length_cons]
      by_cases isDelim : head = stuffing.delim
      · rw [if_pos isDelim, if_pos isDelim]
        simp only [List.cons_append, List.length_cons, List.length_append]
        omega
      · rw [if_neg isDelim, if_neg isDelim]
        by_cases full : pending.length + 1 = stuffing.maxRun
        · rw [if_pos full, if_pos full]
          simp only [List.cons_append, List.length_cons, List.length_append, List.length_nil]
          omega
        · have step := ih (pending ++ [head])
          rw [List.length_append, List.length_singleton] at step
          rw [if_neg full, if_neg full, step]
          omega

/-- A full block takes `maxRun` symbols of the payload. -/
theorem fullBlocks_le (payload : List α) (count : Nat) (room : count < stuffing.maxRun) :
    stuffing.fullBlocks count payload ≤ (count + payload.length) / stuffing.maxRun := by
  induction payload generalizing count with
  | nil => exact Nat.zero_le _
  | cons head tail ih =>
      have next := ih 0 stuffing.maxRun_pos
      rw [Nat.zero_add] at next
      have grows : tail.length / stuffing.maxRun ≤
          (count + (tail.length + 1)) / stuffing.maxRun :=
        Nat.div_le_div_right (by omega)
      rw [fullBlocks, List.length_cons]
      by_cases isDelim : head = stuffing.delim
      · rw [if_pos isDelim]
        exact next.trans grows
      · rw [if_neg isDelim]
        by_cases full : count + 1 = stuffing.maxRun
        · have carry : (count + (tail.length + 1)) / stuffing.maxRun =
              tail.length / stuffing.maxRun + 1 := by
            rw [show count + (tail.length + 1) = tail.length + stuffing.maxRun by omega,
              Nat.add_div_right _ stuffing.maxRun_pos]
          rw [if_pos full, carry]
          exact Nat.succ_le_succ next
        · rw [if_neg full, show count + (tail.length + 1) = count + 1 + tail.length by omega]
          exact ih (count + 1) (by omega)

/-- The same as a bound. -/
theorem length_stuff_le (payload pending : List α) (room : pending.length < stuffing.maxRun) :
    (stuffing.stuff pending payload).length ≤
      pending.length + payload.length + 1 +
        (pending.length + payload.length) / stuffing.maxRun := by
  rw [length_stuff]
  exact Nat.add_le_add_left (stuffing.fullBlocks_le payload pending.length room) _

/-- An encoding is longer than its open block. -/
theorem length_lt_stuff (payload pending : List α) :
    pending.length < (stuffing.stuff pending payload).length := by
  rw [length_stuff]
  omega

omit [DecidableEq α] in
/-- Decoding never expands, also on strings that no encoder produces. -/
theorem length_unstuff_le (list : List α) : (stuffing.unstuff list).length ≤ list.length := by
  induction list using unstuff.induct stuffing with
  | case1 => rw [unstuff]
  | case2 code rest ih =>
      rw [unstuff]
      rw [List.length_drop] at ih
      simp only [List.length_append, List.length_take, List.length_cons]
      split
      · rw [List.length_singleton]
        omega
      · rw [List.length_nil]
        omega

end Stuffing

end Library
