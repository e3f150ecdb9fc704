/-
**The firmware's COBS codec, `StuffData` and `UnStuffData` of `swdinterface.ino`.**

Both functions write through a pointer into a buffer of fixed size; here the pointer is an index
and a write outside the buffer has no result.

* `unStuffData_eq`: into a buffer with room for `cobs.unstuff src`, that is what is written.
* `stuffData_eq`: into a buffer with room for `cobs.stuff [] src` and a zero, that is what is
  written. The invariant is the one of the host's encoder (`Stuffer.Open`): finished blocks, the
  place of a code that is not known yet, the bytes of the open block. Here the place is not
  initialised, so it holds any byte.
* `strlen_eq`: the first zero of what `StuffData` wrote is the one it wrote last.
-/

import Swagger.Firmware.Buffer

namespace Swagger.Firmware

variable {n : Nat}

/-! ### The decoder -/

/-- The `for` loop of `UnStuffData`: at most `rounds` bytes are copied. -/
def copyBlock : Nat → List Byte → Nat → Buffer n → Option (List Byte × Nat × Buffer n)
  | 0, src, bytes, dst => some (src, bytes, dst)
  | _ + 1, [], bytes, dst => some ([], bytes, dst)
  | rounds + 1, byte :: src, bytes, dst => do
      let dst ← dst.write bytes byte
      copyBlock rounds src (bytes + 1) dst

/-- The `while` loop of `UnStuffData`. Each round consumes a code byte, so the length of the source
is enough fuel. -/
def unStuffLoop : Nat → List Byte → Nat → Buffer n → Option (Nat × Buffer n)
  | 0, _, bytes, dst => some (bytes, dst)
  | _ + 1, [], bytes, dst => some (bytes, dst)
  | fuel + 1, code :: src, bytes, dst => do
      let (src, bytes, dst) ← copyBlock (code.toNat - 1) src bytes dst
      if code < 0xFF then
        let dst ← dst.write bytes 0
        unStuffLoop fuel src (bytes + 1) dst
      else unStuffLoop fuel src bytes dst

/-- `UnStuffData`: the number of bytes decoded, and the destination. -/
def unStuffData (src : List Byte) (dst : Buffer n) : Option (Nat × Buffer n) :=
  unStuffLoop src.length src 0 dst

theorem copyBlock_eq (rounds : Nat) (src : List Byte) (bytes : Nat) (dst : Buffer n)
    (room : bytes + (src.take rounds).length ≤ n) :
    ∃ dst', copyBlock rounds src bytes dst =
        some (src.drop rounds, bytes + (src.take rounds).length, dst') ∧
      dst'.firstBytes (bytes + (src.take rounds).length) =
        dst.firstBytes bytes ++ src.take rounds ∧
      ∀ index ≥ bytes + (src.take rounds).length, dst'.cell index = dst.cell index := by
  induction rounds generalizing src bytes dst with
  | zero => exact ⟨dst, by simp [copyBlock], by simp, fun _ _ => rfl⟩
  | succ rounds ih =>
      cases src with
      | nil => exact ⟨dst, by simp [copyBlock], by simp, fun _ _ => rfl⟩
      | cons byte src =>
          rw [List.take_succ_cons, List.length_cons] at room
          obtain ⟨first, written, extended, others⟩ := dst.firstBytes_write_end byte
            (show bytes < n by omega)
          obtain ⟨dst', copied, all, behind⟩ := ih src (bytes + 1) first (by omega)
          have count : bytes + 1 + (src.take rounds).length =
              bytes + ((byte :: src).take (rounds + 1)).length := by
            rw [List.take_succ_cons, List.length_cons]
            omega
          refine ⟨dst', ?_, ?_, fun index after => ?_⟩
          · rw [copyBlock, written, Option.bind_eq_bind, Option.bind_some, copied,
              List.drop_succ_cons, count]
          · rw [← count, all, extended, List.take_succ_cons, List.append_assoc,
              List.singleton_append]
          · rw [← count] at after
            rw [behind index after, others index (by omega)]

theorem unStuffLoop_eq (fuel : Nat) (src : List Byte) (bytes : Nat) (dst : Buffer n)
    (enough : src.length ≤ fuel) (room : bytes + (cobs.unstuff src).length ≤ n) :
    ∃ dst', unStuffLoop fuel src bytes dst = some (bytes + (cobs.unstuff src).length, dst') ∧
      dst'.firstBytes (bytes + (cobs.unstuff src).length) =
        dst.firstBytes bytes ++ cobs.unstuff src ∧
      ∀ index ≥ bytes + (cobs.unstuff src).length, dst'.cell index = dst.cell index := by
  induction fuel generalizing src bytes dst with
  | zero =>
      rw [List.length_eq_zero_iff.mp (Nat.le_zero.mp enough), Library.Stuffing.unstuff]
      exact ⟨dst, rfl, by simp, fun _ _ => rfl⟩
  | succ fuel ih =>
      cases src with
      | nil =>
          rw [Library.Stuffing.unstuff]
          exact ⟨dst, rfl, by simp, fun _ _ => rfl⟩
      | cons code src =>
          rw [Library.Stuffing.unstuff, cobs_run, cobs_delim] at room ⊢
          have shorter : (src.drop (code.toNat - 1)).length ≤ fuel := by
            rw [List.length_cons] at enough
            rw [List.length_drop]
            omega
          have full := code_lt_iff code
          rw [cobs_run] at full
          simp only [List.length_append] at room
          obtain ⟨block, copied, wrote, same⟩ :=
            copyBlock_eq (code.toNat - 1) src bytes dst (by omega)
          rw [unStuffLoop, copied, Option.bind_eq_bind, Option.bind_some]
          simp only
          by_cases short : code < 0xFF
          · rw [if_pos (full.mp short), List.length_singleton] at room
            rw [if_pos (full.mp short), if_pos short]
            obtain ⟨closed, written, extended, others⟩ := block.firstBytes_write_end 0
              (show bytes + (src.take (code.toNat - 1)).length < n by omega)
            obtain ⟨dst', looped, all, behind⟩ := ih (src.drop (code.toNat - 1))
              (bytes + (src.take (code.toNat - 1)).length + 1) closed shorter (by omega)
            refine ⟨dst', ?_, ?_, fun index after => ?_⟩
            · rw [written, Option.bind_eq_bind, Option.bind_some, looped]
              simp only [List.length_append, List.length_singleton, Nat.add_assoc]
            · simp only [List.length_append, List.length_singleton, ← Nat.add_assoc]
              rw [all, extended, wrote]
              simp
            · simp only [List.length_append, List.length_singleton, ge_iff_le] at after
              rw [behind index (by omega), others index (by omega), same index (by omega)]
          · rw [if_neg fun small => short (full.mpr small), List.length_nil] at room
            rw [if_neg fun small => short (full.mpr small), if_neg short]
            obtain ⟨dst', looped, all, behind⟩ := ih (src.drop (code.toNat - 1))
              (bytes + (src.take (code.toNat - 1)).length) block shorter (by omega)
            refine ⟨dst', ?_, ?_, fun index after => ?_⟩
            · rw [looped]
              simp only [List.length_append, List.length_nil, Nat.add_zero, Nat.add_assoc]
            · simp only [List.length_append, List.length_nil, Nat.add_zero, ← Nat.add_assoc]
              rw [all, wrote]
              simp
            · simp only [List.length_append, List.length_nil, ge_iff_le] at after
              rw [behind index (by omega), same index (by omega)]

/-- `UnStuffData` follows the codes of the stuffing, on every source for whose decoding the
destination has room, and leaves the bytes behind it alone. -/
theorem unStuffData_eq (src : List Byte) (dst : Buffer n) (room : (cobs.unstuff src).length ≤ n) :
    ∃ dst', unStuffData src dst = some ((cobs.unstuff src).length, dst') ∧
      dst'.firstBytes (cobs.unstuff src).length = cobs.unstuff src ∧
      ∀ index ≥ (cobs.unstuff src).length, dst'.cell index = dst.cell index := by
  have loop := unStuffLoop_eq src.length src 0 dst le_rfl (by rwa [Nat.zero_add])
  rwa [Nat.zero_add] at loop

/-! ### The encoder -/

/-- The variables of `StuffData`: two pointers into the destination, and the code of the open
block. -/
structure Stuffer (n : Nat) where
  dst : Nat
  codePtr : Nat
  code : Byte
  buffer : Buffer n

/-- The macro `FinishBlock(code)`. -/
def Stuffer.finishBlock (state : Stuffer n) : Option (Stuffer n) := do
  let buffer ← state.buffer.write state.codePtr state.code
  return { dst := state.dst + 1, codePtr := state.dst, code := 1, buffer }

/-- One round of the `while` loop of `StuffData`. -/
def Stuffer.push (state : Stuffer n) (byte : Byte) : Option (Stuffer n) :=
  if byte = 0 then state.finishBlock
  else do
    let buffer ← state.buffer.write state.dst byte
    let pushed := { state with dst := state.dst + 1, code := state.code + 1, buffer }
    if pushed.code = 0xFF then pushed.finishBlock else return pushed

/-- `StuffData`: the number of bytes up to the terminator written last, and the destination. -/
def stuffData (src : List Byte) (buffer : Buffer n) : Option (Nat × Buffer n) := do
  let last ← src.foldlM Stuffer.push { dst := 1, codePtr := 0, code := 1, buffer }
  let buffer ← last.buffer.write last.dst 0
  let closed ← Stuffer.finishBlock { last with buffer }
  return (closed.dst, closed.buffer)

/-- `strlen`: the index of the first zero, which has to lie in the array. -/
def strlen (buffer : Buffer n) : Option Nat :=
  (List.range n).find? fun index => buffer.cell index = 0

namespace Stuffer

/-- The loop invariant: `done` is finished, `pending` are the bytes of the open block, and between
them lies the place of its code, which holds any byte. -/
structure Open (state : Stuffer n) (done pending : List Byte) : Prop where
  dst : state.dst = done.length + 1 + pending.length
  codePtr : state.codePtr = done.length
  code : state.code = cobs.code pending.length
  written : ∃ place, state.buffer.firstBytes state.dst = done ++ place :: pending

variable {state : Stuffer n} {done pending : List Byte} {byte : Byte}

/-- Filling in the code of the open block, also when bytes have been written behind it. -/
theorem Open.patch (inv : state.Open done pending) (buffer : Buffer n) (behind : List Byte)
    (written : ∃ place, buffer.firstBytes (state.dst + behind.length) =
      done ++ place :: pending ++ behind) (room : state.dst ≤ n) :
    ∃ buffer', buffer.write state.codePtr state.code = some buffer' ∧
      buffer'.firstBytes (state.dst + behind.length) =
        done ++ cobs.code pending.length :: pending ++ behind := by
  have inside : state.codePtr < n := by
    have dst := inv.dst
    rw [inv.codePtr]
    omega
  obtain ⟨place, before⟩ := written
  obtain ⟨buffer', wrote, after⟩ :=
    buffer.firstBytes_write_inside (state.dst + behind.length) state.code inside
  refine ⟨buffer', wrote, ?_⟩
  rw [after, before, inv.codePtr, inv.code, List.append_assoc, List.set_append_right _ _ le_rfl,
    Nat.sub_self, List.cons_append, List.set_cons_zero, List.append_assoc, List.cons_append]

/-- A finished block opens an empty one behind it. -/
theorem Open.finishBlock (inv : state.Open done pending) (room : state.dst ≤ n) :
    ∃ state', state.finishBlock = some state' ∧
      state'.Open (done ++ cobs.code pending.length :: pending) [] := by
  obtain ⟨buffer, wrote, patched⟩ := inv.patch state.buffer [] (by simpa using inv.written) room
  rw [List.length_nil, Nat.add_zero, List.append_nil] at patched
  refine ⟨_, by rw [Stuffer.finishBlock, wrote]; rfl, ?_⟩
  have dst := inv.dst
  constructor
  · simp only [List.length_append, List.length_cons, List.length_nil]
    omega
  · simp only [List.length_append, List.length_cons]
    omega
  · rfl
  · exact ⟨buffer.cell state.dst, by rw [Buffer.firstBytes_succ, patched]⟩

/-- A byte that is appended to the open block is counted in its code. -/
theorem Open.append (inv : state.Open done pending) (byte : Byte) (room : state.dst < n) :
    ∃ buffer, state.buffer.write state.dst byte = some buffer ∧
      Open { state with dst := state.dst + 1, code := state.code + 1, buffer } done
        (pending ++ [byte]) := by
  obtain ⟨buffer, wrote, after, _⟩ := state.buffer.firstBytes_write_end byte room
  obtain ⟨place, before⟩ := inv.written
  refine ⟨buffer, wrote, ?_⟩
  constructor
  · simp only [inv.dst, List.length_append, List.length_singleton]
    omega
  · exact inv.codePtr
  · rw [List.length_append, List.length_singleton, cobs_code, BitVec.ofNat_add (pending.length + 1)]
    exact congrArg (· + 1) inv.code
  · exact ⟨place, by rw [after, before, List.append_assoc, List.cons_append]⟩

theorem push_zero (inv : state.Open done pending) (room : state.dst ≤ n) :
    ∃ state', state.push 0 = some state' ∧
      state'.Open (done ++ cobs.code pending.length :: pending) [] := by
  rw [push, if_pos rfl]
  exact inv.finishBlock room

/-- The 254th byte of a block closes it. -/
theorem push_full (inv : state.Open done pending) (nonzero : byte ≠ 0)
    (full : pending.length + 1 = cobs.maxRun) (room : state.dst < n) :
    ∃ state', state.push byte = some state' ∧
      state'.Open (done ++ cobs.code cobs.maxRun :: (pending ++ [byte])) [] := by
  obtain ⟨buffer, wrote, grown⟩ := inv.append byte room
  have length : (pending ++ [byte]).length = cobs.maxRun := by simpa using full
  have isFull := (code_eq_full _ length.le).mpr length
  obtain ⟨closed, finished, inv'⟩ := grown.finishBlock room
  rw [length] at inv'
  refine ⟨closed, ?_, inv'⟩
  rw [push, if_neg nonzero, wrote, Option.bind_eq_bind, Option.bind_some]
  simp only
  rw [if_pos (grown.code.trans isFull), finished]

theorem push_open (inv : state.Open done pending) (nonzero : byte ≠ 0)
    (more : pending.length + 1 < cobs.maxRun) (room : state.dst < n) :
    ∃ state', state.push byte = some state' ∧ state'.Open done (pending ++ [byte]) := by
  obtain ⟨buffer, wrote, grown⟩ := inv.append byte room
  have length : (pending ++ [byte]).length < cobs.maxRun := by simpa using more
  have notFull : ¬ cobs.code (pending ++ [byte]).length = 0xFF := fun same =>
    length.ne ((code_eq_full _ length.le).mp same)
  refine ⟨_, ?_, grown⟩
  rw [push, if_neg nonzero, wrote, Option.bind_eq_bind, Option.bind_some]
  simp only
  rw [if_neg fun same => notFull (grown.code.symm.trans same)]
  rfl

/-- The loop succeeds when there is room for the encoding, and ends with an open block: the code of
that block and its bytes close the encoding of what was pending and what was read. -/
theorem loop (src : List Byte) (state : Stuffer n) (done pending : List Byte)
    (inv : state.Open done pending) (small : pending.length < cobs.maxRun)
    (room : done.length + (cobs.stuff pending src).length ≤ n) :
    ∃ last done' pending', src.foldlM push state = some last ∧ last.Open done' pending' ∧
      done' ++ cobs.code pending'.length :: pending' = done ++ cobs.stuff pending src := by
  induction src generalizing state done pending with
  | nil => exact ⟨state, done, pending, rfl, inv, rfl⟩
  | cons byte rest ih =>
      have dst := inv.dst
      have least := cobs.length_lt_stuff rest []
      rw [Library.Stuffing.stuff, cobs_delim] at room ⊢
      rw [List.foldlM_cons]
      by_cases isZero : byte = 0
      · rw [if_pos isZero] at room ⊢
        simp only [List.length_append, List.length_cons] at room
        obtain ⟨closed, pushed, inv'⟩ := push_zero inv (by omega)
        rw [isZero, pushed, Option.bind_eq_bind, Option.bind_some]
        obtain ⟨last, done', pending', folded, open', same⟩ := ih closed _ [] inv' cobs.maxRun_pos
          (by simp only [List.length_append, List.length_cons]; omega)
        exact ⟨last, done', pending', folded, open', by rw [same]; simp⟩
      · rw [if_neg isZero] at room ⊢
        by_cases full : pending.length + 1 = cobs.maxRun
        · rw [if_pos full] at room ⊢
          simp only [List.length_append, List.length_cons, List.length_nil] at room
          obtain ⟨closed, pushed, inv'⟩ := push_full inv isZero full (by omega)
          rw [pushed, Option.bind_eq_bind, Option.bind_some]
          obtain ⟨last, done', pending', folded, open', same⟩ := ih closed _ [] inv' cobs.maxRun_pos
            (by simp only [List.length_append, List.length_cons, List.length_nil]; omega)
          exact ⟨last, done', pending', folded, open', by rw [same]; simp⟩
        · rw [if_neg full] at room ⊢
          have more : pending.length + 1 < cobs.maxRun := Nat.lt_of_le_of_ne small full
          have longer := cobs.length_lt_stuff rest (pending ++ [byte])
          rw [List.length_append, List.length_singleton] at longer
          obtain ⟨grown, pushed, inv'⟩ := push_open inv isZero more (by omega)
          rw [pushed, Option.bind_eq_bind, Option.bind_some]
          exact ih grown done _ inv' (by simpa using more) room

end Stuffer

/-- `StuffData` writes the encoding and its terminator, and nothing behind it. -/
theorem stuffData_eq (src : List Byte) (buffer : Buffer n)
    (room : (cobs.stuff [] src).length + 1 ≤ n) :
    ∃ buffer', stuffData src buffer = some ((cobs.stuff [] src).length + 1, buffer') ∧
      buffer'.firstBytes ((cobs.stuff [] src).length + 1) = cobs.stuff [] src ++ [0] := by
  have start : Stuffer.Open ({ dst := 1, codePtr := 0, code := 1, buffer } : Stuffer n) [] [] :=
    ⟨rfl, rfl, rfl, buffer.cell 0, Buffer.firstBytes_succ buffer 0⟩
  obtain ⟨last, done, pending, folded, inv, same⟩ :=
    Stuffer.loop src _ [] [] start cobs.maxRun_pos (by simpa using by omega)
  rw [List.nil_append] at same
  have dst : last.dst = (cobs.stuff [] src).length := by
    rw [inv.dst, ← same, List.length_append, List.length_cons]
    omega
  obtain ⟨place, before⟩ := inv.written
  obtain ⟨closed, zeroed, behind, _⟩ :=
    last.buffer.firstBytes_write_end 0 (show last.dst < n by omega)
  obtain ⟨buffer', wrote, after⟩ := inv.patch closed [0]
    ⟨place, by rw [List.length_singleton, behind, before]⟩ (by omega)
  refine ⟨buffer', ?_, ?_⟩
  · rw [stuffData, folded, Option.bind_eq_bind, Option.bind_some, zeroed, Option.bind_eq_bind,
      Option.bind_some, Stuffer.finishBlock, wrote, ← dst]
    rfl
  · rw [← dst]
    exact after.trans (by rw [same])

/-- What lies behind the pointer of an encoder is not written yet. -/
structure Stuffer.Advances (state state' : Stuffer n) : Prop where
  inside : state'.codePtr < state'.dst
  grows : state.dst ≤ state'.dst
  behind : ∀ index ≥ state'.dst, state'.buffer.cell index = state.buffer.cell index

theorem Stuffer.Advances.trans {first middle last : Stuffer n} (one : first.Advances middle)
    (two : middle.Advances last) : first.Advances last where
  inside := two.inside
  grows := one.grows.trans two.grows
  behind index after := by
    rw [two.behind index after, one.behind index (two.grows.trans after)]

theorem Stuffer.finishBlock_advances {state state' : Stuffer n}
    (inside : state.codePtr < state.dst) (finished : state.finishBlock = some state') :
    state.Advances state' ∧ state'.dst = state.dst + 1 := by
  unfold finishBlock at finished
  obtain ⟨buffer, wrote, rest⟩ := Option.bind_eq_some_iff.mp finished
  obtain rfl := Option.some.inj rest
  refine ⟨⟨Nat.lt_succ_self _, Nat.le_succ _, fun index after => ?_⟩, rfl⟩
  simp only [ge_iff_le] at after
  exact Buffer.write_others wrote (by omega)

theorem Stuffer.push_advances {state state' : Stuffer n} {byte : Byte}
    (inside : state.codePtr < state.dst) (pushed : state.push byte = some state') :
    state.Advances state' := by
  unfold push at pushed
  by_cases isZero : byte = 0
  · rw [if_pos isZero] at pushed
    exact (finishBlock_advances inside pushed).1
  · rw [if_neg isZero] at pushed
    obtain ⟨buffer, wrote, rest⟩ := Option.bind_eq_some_iff.mp pushed
    have appended : state.Advances
        { state with dst := state.dst + 1, code := state.code + 1, buffer } := by
      refine ⟨Nat.lt_succ_of_lt inside, Nat.le_succ _, fun index after => ?_⟩
      simp only [ge_iff_le] at after
      exact Buffer.write_others wrote (by omega)
    simp only at rest
    split_ifs at rest
    · exact appended.trans (finishBlock_advances appended.inside rest).1
    · obtain rfl := Option.some.inj rest
      exact appended

theorem Stuffer.loop_advances {src : List Byte} {state last : Stuffer n}
    (inside : state.codePtr < state.dst) (folded : src.foldlM push state = some last) :
    state.Advances last := by
  induction src generalizing state with
  | nil =>
      obtain rfl := Option.some.inj folded
      exact ⟨inside, le_rfl, fun _ _ => rfl⟩
  | cons byte rest ih =>
      rw [List.foldlM_cons] at folded
      obtain ⟨middle, pushed, others⟩ := Option.bind_eq_some_iff.mp folded
      have first := push_advances inside pushed
      exact first.trans (ih first.inside others)

/-- `StuffData` leaves the bytes behind its terminator alone. -/
theorem stuffData_behind {src : List Byte} {buffer buffer' : Buffer n} {count : Nat}
    (stuffed : stuffData src buffer = some (count, buffer')) {index : Nat} (after : count ≤ index) :
    buffer'.cell index = buffer.cell index := by
  unfold stuffData at stuffed
  obtain ⟨last, folded, rest⟩ := Option.bind_eq_some_iff.mp stuffed
  obtain ⟨zeroed, wrote, rest⟩ := Option.bind_eq_some_iff.mp rest
  obtain ⟨closed, finished, rest⟩ := Option.bind_eq_some_iff.mp rest
  obtain ⟨rfl, rfl⟩ := Prod.mk.inj (Option.some.inj rest)
  have looped := Stuffer.loop_advances Nat.zero_lt_one folded
  have ended := Stuffer.finishBlock_advances (by exact looped.inside) finished
  have beyond : last.dst < index := by
    have grown := ended.2
    simp only at grown
    omega
  rw [ended.1.behind index after, Buffer.write_others wrote beyond.ne',
    looped.behind index beyond.le]

/-- The string that `StuffData` wrote ends at its terminator. -/
theorem strlen_eq (src : List Byte) (buffer : Buffer n)
    (room : (cobs.stuff [] src).length + 1 ≤ n)
    (written : buffer.firstBytes ((cobs.stuff [] src).length + 1) = cobs.stuff [] src ++ [0]) :
    strlen buffer = some (cobs.stuff [] src).length := by
  have cells {index : Nat} (inside : index < (cobs.stuff [] src).length + 1) :
      (cobs.stuff [] src ++ [0])[index]? = some (buffer.cell index) := by
    rw [← written, Buffer.getElem?_firstBytes _ inside]
  rw [strlen, List.find?_range_eq_some]
  refine ⟨?_, List.mem_range.mpr room, fun index before => ?_⟩
  · have last := cells (Nat.lt_succ_self _)
    rw [List.getElem?_concat_length, Option.some_inj] at last
    rw [← last]
    rfl
  · have inner := cells (Nat.lt_succ_of_lt before)
    rw [List.getElem?_append_left before] at inner
    have nonzero : buffer.cell index ≠ 0 := fun zero =>
      cobs.delim_notMem_stuff src [] cobs.maxRun_pos List.not_mem_nil
        (List.mem_of_getElem? (zero ▸ inner))
    simpa using nonzero

end Swagger.Firmware
