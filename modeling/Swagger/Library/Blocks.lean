/-
**The image of a stuffing.**

A string that an encoder produces splits completely into blocks, and its last block is not full
(`stuff_splits`). Conversely, if every symbol but the delimiter is a code (`Stuffing.Total`), each
such string without delimiters is the encoding of a payload (`splits_stuff`), which is what its
decoding gives in front of the last delimiter (`stuff_unstuff`). So the strings with this shape are
exactly the encodings, and encoding and decoding are inverse to each other on them.
-/

import Swagger.Library.Stuffing

namespace Library

namespace Stuffing

variable {α : Type}

/-- Every symbol but the delimiter is the code of a block. -/
structure Total (stuffing : Stuffing α) : Prop where
  run_le : ∀ symbol, symbol ≠ stuffing.delim → stuffing.run symbol ≤ stuffing.maxRun
  code_run : ∀ symbol, symbol ≠ stuffing.delim → stuffing.code (stuffing.run symbol) = symbol

/-- A code and exactly as many symbols as it announces. -/
structure Block (stuffing : Stuffing α) where
  code : α
  data : List α
  complete : data.length = stuffing.run code

def Block.symbols {stuffing : Stuffing α} (block : stuffing.Block) : List α :=
  block.code :: block.data

/-- The block of a run of symbols. -/
def block (stuffing : Stuffing α) (data : List α) (small : data.length ≤ stuffing.maxRun) :
    stuffing.Block where
  code := stuffing.code data.length
  data := data
  complete := (stuffing.run_code _ small).symm

@[simp] theorem block_symbols (stuffing : Stuffing α) (data : List α)
    (small : data.length ≤ stuffing.maxRun) :
    (stuffing.block data small).symbols = stuffing.code data.length :: data := rfl

/-- A list of blocks whose last one is there and is not full. -/
def EndsShort {stuffing : Stuffing α} (blocks : List stuffing.Block) : Prop :=
  ∃ last ∈ blocks.getLast?, stuffing.run last.code < stuffing.maxRun

variable {stuffing : Stuffing α}

theorem EndsShort.single {block : stuffing.Block}
    (short : stuffing.run block.code < stuffing.maxRun) : EndsShort [block] :=
  ⟨block, rfl, short⟩

theorem EndsShort.cons {blocks : List stuffing.Block} (ends : EndsShort blocks)
    (block : stuffing.Block) : EndsShort (block :: blocks) := by
  obtain ⟨last, isLast, short⟩ := ends
  refine ⟨last, ?_, short⟩
  rw [List.getLast?_cons, Option.mem_def.mp isLast]
  rfl

/-- Behind the first block of a list that ends short, the list is at its end or ends short again. -/
theorem EndsShort.tail {block : stuffing.Block} {blocks : List stuffing.Block}
    (ends : EndsShort (block :: blocks)) :
    (blocks = [] ∧ stuffing.run block.code < stuffing.maxRun) ∨ EndsShort blocks := by
  obtain ⟨last, isLast, short⟩ := ends
  rw [List.getLast?_cons, Option.mem_def] at isLast
  cases blocks with
  | nil =>
      obtain rfl : block = last := Option.some.inj isLast
      exact .inl ⟨rfl, short⟩
  | cons head tail =>
      refine .inr ⟨last, ?_, short⟩
      rw [List.getLast?_cons] at isLast ⊢
      exact isLast

variable [DecidableEq α]

/-- Symbols that leave the open block open are appended to it. -/
theorem stuff_append (data pending tail : List α) (free : stuffing.delim ∉ data)
    (room : pending.length + data.length < stuffing.maxRun) :
    stuffing.stuff pending (data ++ tail) = stuffing.stuff (pending ++ data) tail := by
  induction data generalizing pending with
  | nil => rw [List.nil_append, List.append_nil]
  | cons head rest ih =>
      rw [List.length_cons] at room
      have headNe : head ≠ stuffing.delim := fun same =>
        free (by rw [same]; exact List.mem_cons_self)
      have restFree : stuffing.delim ∉ rest := fun member => free (List.mem_cons_of_mem _ member)
      have notFull : pending.length + 1 ≠ stuffing.maxRun := by omega
      rw [List.cons_append, stuff, if_neg headNe, if_neg notFull, ih _ restFree (by simp; omega),
        List.append_assoc, List.singleton_append]

/-- Encoding the symbols of a short block and a delimiter gives the block. -/
theorem stuff_short (data tail : List α) (free : stuffing.delim ∉ data)
    (short : data.length < stuffing.maxRun) :
    stuffing.stuff [] (data ++ stuffing.delim :: tail) =
      stuffing.code data.length :: data ++ stuffing.stuff [] tail := by
  rw [stuff_append data [] _ free (by simpa using short), List.nil_append, stuff, if_pos rfl]

/-- Encoding the symbols of a full block gives the block. -/
theorem stuff_full (data tail : List α) (free : stuffing.delim ∉ data)
    (full : data.length = stuffing.maxRun) :
    stuffing.stuff [] (data ++ tail) =
      stuffing.code data.length :: data ++ stuffing.stuff [] tail := by
  have nonempty : data ≠ [] := by
    rintro rfl
    exact stuffing.maxRun_pos.ne full
  obtain ⟨front, last, rfl⟩ := List.eq_nil_or_concat data |>.resolve_left nonempty
  rw [List.concat_eq_append] at free full ⊢
  rw [List.mem_append, not_or] at free
  rw [List.length_append, List.length_singleton] at full
  have lastNe : last ≠ stuffing.delim := fun same => free.2 (List.mem_singleton.mpr same.symm)
  rw [List.append_assoc, List.singleton_append,
    stuff_append front [] _ free.1 (by rw [List.length_nil]; omega), List.nil_append, stuff,
    if_neg lastNe, if_pos full, List.length_append, List.length_singleton, full]

/-- An encoding splits into blocks, and its last block is not full. -/
theorem stuff_splits (payload pending : List α) (room : pending.length < stuffing.maxRun) :
    ∃ blocks : List stuffing.Block,
      stuffing.stuff pending payload = blocks.flatMap Block.symbols ∧ EndsShort blocks := by
  induction payload generalizing pending with
  | nil =>
      have short : stuffing.run (stuffing.code pending.length) < stuffing.maxRun := by
        rwa [stuffing.run_code _ room.le]
      refine ⟨[stuffing.block pending room.le], ?_, .single short⟩
      rw [stuff, List.flatMap_singleton]
      rfl
  | cons head tail ih =>
      obtain ⟨blocks, splits, ends⟩ := ih [] stuffing.maxRun_pos
      rw [stuff]
      by_cases isDelim : head = stuffing.delim
      · refine ⟨stuffing.block pending room.le :: blocks, ?_, ends.cons _⟩
        rw [if_pos isDelim, splits, List.flatMap_cons, block_symbols]
      · rw [if_neg isDelim]
        by_cases full : pending.length + 1 = stuffing.maxRun
        · have length : (pending ++ [head]).length = stuffing.maxRun := by simpa using full
          refine ⟨stuffing.block (pending ++ [head]) length.le :: blocks, ?_, ends.cons _⟩
          rw [if_pos full, splits, List.flatMap_cons, block_symbols, length]
        · rw [if_neg full]
          exact ih (pending ++ [head]) (by simp; omega)

/-- A string of blocks whose last one is not full is an encoding. The induction runs over the
blocks: a block that is not full stands for a delimiter as well, unless it is the last one. -/
theorem splits_stuff (total : stuffing.Total) (blocks : List stuffing.Block)
    (free : stuffing.delim ∉ blocks.flatMap Block.symbols) (ends : EndsShort blocks) :
    ∃ payload, stuffing.stuff [] payload = blocks.flatMap Block.symbols := by
  induction blocks with
  | nil =>
      obtain ⟨last, isLast, -⟩ := ends
      cases isLast
  | cons block blocks ih =>
      rw [List.flatMap_cons, List.mem_append, not_or, Block.symbols, List.mem_cons, not_or] at free
      obtain ⟨⟨codeNe, dataFree⟩, restFree⟩ := free
      have code : stuffing.code block.data.length = block.code := by
        rw [block.complete]
        exact total.code_run _ (Ne.symm codeNe)
      have bounded : block.data.length ≤ stuffing.maxRun := by
        rw [block.complete]
        exact total.run_le _ (Ne.symm codeNe)
      rw [List.flatMap_cons, Block.symbols, ← code]
      rcases ends.tail with ⟨rfl, short⟩ | later
      · rw [← block.complete] at short
        refine ⟨block.data, ?_⟩
        have opened := stuff_append block.data [] [] dataFree (by simpa using short)
        rw [List.append_nil, List.nil_append, stuff] at opened
        rw [opened, List.flatMap_nil, List.append_nil]
      · obtain ⟨payload, encoded⟩ := ih restFree later
        rw [← encoded]
        rcases bounded.lt_or_eq with short | full
        · exact ⟨block.data ++ stuffing.delim :: payload, stuff_short _ _ dataFree short⟩
        · exact ⟨block.data ++ payload, stuff_full _ _ dataFree full⟩

/-- Decoding an encoding gives the payload, and encoding that gives the encoding back. -/
theorem stuff_unstuff {list payload : List α} (encoded : stuffing.stuff [] payload = list) :
    (stuffing.unstuff list).dropLast = payload ∧
      stuffing.stuff [] (stuffing.unstuff list).dropLast = list := by
  have decoded : (stuffing.unstuff list).dropLast = payload := by
    rw [← encoded, stuffing.unstuff_stuff payload [] stuffing.maxRun_pos, List.nil_append,
      List.dropLast_concat]
  exact ⟨decoded, by rw [decoded, encoded]⟩

/-- The image of the encoder: the non-empty strings of blocks whose last one is not full. -/
theorem stuff_image (total : stuffing.Total) (list : List α) (free : stuffing.delim ∉ list) :
    (∃ payload, stuffing.stuff [] payload = list) ↔
      ∃ blocks : List stuffing.Block, list = blocks.flatMap Block.symbols ∧ EndsShort blocks := by
  constructor
  · rintro ⟨payload, rfl⟩
    exact stuff_splits payload [] stuffing.maxRun_pos
  · rintro ⟨blocks, rfl, ends⟩
    exact splits_stuff total blocks free ends

end Stuffing

end Library
