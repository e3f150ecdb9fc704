/-
**Counting what is answered in order.**

Requests are numbered from 0 and answered in order, some of them perhaps more than once. The list of
the numbers that have been answered is sorted.

* `le_of_sorted_of_once`: if no request below a bound is answered twice, the answer at an index up
  to the bound is to a request at least as late.
* `once_of_covered`: if every request below a bound is answered, and there are at most as many
  answers to these as requests, each is answered once.
-/

import Mathlib

namespace Library

/-- Up to a bound, a sorted list without repetitions below the bound grows as fast as its
indices. -/
theorem le_of_sorted_of_once {list : List Nat} {bound : Nat} (sorted : list.Pairwise (· ≤ ·))
    (once : ∀ value < bound, list.count value ≤ 1) {index value : Nat} (inside : index ≤ bound)
    (here : list[index]? = some value) : index ≤ value := by
  induction index generalizing value with
  | zero => exact Nat.zero_le value
  | succ index ih =>
      obtain ⟨room, at_index⟩ := List.getElem?_eq_some_iff.mp here
      have before := ih (by omega) (List.getElem?_eq_getElem (Nat.lt_of_succ_lt room))
      have grows : list[index] ≤ list[index + 1] :=
        List.pairwise_iff_getElem.mp sorted index (index + 1) _ room (Nat.lt_succ_self index)
      rw [at_index] at grows
      by_contra small
      -- then two neighbours are the same value below the bound
      have equal : list[index] = value := by omega
      have twice : 2 ≤ list.count value := by
        rw [← List.duplicate_iff_two_le_count, List.duplicate_iff_exists_distinct_get]
        exact ⟨⟨index, Nat.lt_of_succ_lt room⟩, ⟨index + 1, room⟩,
          Fin.mk_lt_mk.mpr (Nat.lt_succ_self index), equal.symm, at_index.symm⟩
      have most := once value (by omega)
      omega

/-- A list without the values that are the bound. -/
theorem length_ne_add_count (list : List Nat) (bound : Nat) :
    (list.filter (· ≠ bound)).length + list.count bound = list.length := by
  have total := List.length_eq_countP_add_countP (· == bound) (l := list)
  have others : list.countP (fun value => decide ¬ (value == bound) = true) =
      list.countP (· ≠ bound) := List.countP_congr fun value _ => by simp
  rw [others, ← List.count_eq_countP, List.countP_eq_length_filter] at total
  omega

theorem range_subperm {list : List Nat} {bound : Nat} (covered : ∀ value < bound, value ∈ list) :
    (List.range bound).Subperm (list.filter (· ≠ bound)) := by
  refine List.subperm_of_subset List.nodup_range fun value member => ?_
  have below := List.mem_range.mp member
  exact List.mem_filter.mpr ⟨covered value below, decide_eq_true below.ne⟩

/-- If every request below a bound is answered, the answers to these are at least as many. -/
theorem le_length_of_covered {list : List Nat} {bound : Nat}
    (covered : ∀ value < bound, value ∈ list) : bound + list.count bound ≤ list.length := by
  have fewer := (range_subperm covered).length_le
  have total := length_ne_add_count list bound
  rw [List.length_range] at fewer
  omega

/-- And if they are no more than that, none is answered twice. -/
theorem once_of_covered {list : List Nat} {bound : Nat} (covered : ∀ value < bound, value ∈ list)
    (few : list.length ≤ bound + list.count bound) : ∀ value < bound, list.count value ≤ 1 := by
  intro value below
  have total := length_ne_add_count list bound
  have same := (range_subperm covered).perm_of_length_le (by rw [List.length_range]; omega)
  have kept : (list.filter (· ≠ bound)).count value = list.count value :=
    List.count_filter (decide_eq_true below.ne)
  rw [← kept, ← same.count_eq]
  exact List.nodup_iff_count_le_one.mp List.nodup_range value

end Library
