/-
**The host's COBS codec, `src/cobs.cpp`.**

`encode` back-patches: it reserves a place for the code of the open block and fills it in when the
block ends, at a zero or at the 254th byte. The loop invariant (`Encoder.Open`) says what the
output is at any point: finished blocks, the reserved place, the bytes of the open block, whose
number plus one is the code. From it, `encode_eq`: the output is `cobs.stuff` closed by a zero.
`decode_eq`: the decoder is `cobs.unstuff`, on every input. Both functions return `true` always,
so the result here is the output vector alone.
-/

import Swagger.Protocol

namespace Swagger.Host

/-! ### The encoder -/

/-- The variables of `encode`'s loop. -/
structure Encoder where
  outdata : List Byte
  codeIdx : Nat
  code : Byte

namespace Encoder

/-- Fill in the code of the open block and reserve the place of the next one. -/
def finishBlock (state : Encoder) : Encoder where
  outdata := state.outdata.set state.codeIdx state.code ++ [0]
  codeIdx := state.outdata.length
  code := 1

/-- One round of `while (idx < end)`. -/
def push (state : Encoder) (byte : Byte) : Encoder :=
  if byte = 0 then state.finishBlock
  else
    let pushed : Encoder :=
      { state with outdata := state.outdata ++ [byte], code := state.code + 1 }
    if pushed.code = 0xFF then pushed.finishBlock else pushed

end Encoder

/-- `COBS::encode`. -/
def encode (indata : List Byte) : List Byte :=
  let last := indata.foldl Encoder.push { outdata := [0], codeIdx := 0, code := 1 }
  last.outdata.set last.codeIdx last.code ++ [0]

/-- The loop invariant: `done` is finished, `pending` are the bytes of the open block. -/
structure Encoder.Open (state : Encoder) (done pending : List Byte) : Prop where
  outdata : state.outdata = done ++ 0 :: pending
  codeIdx : state.codeIdx = done.length
  code : state.code = cobs.code pending.length

namespace Encoder

variable {state : Encoder} {done pending : List Byte} {byte : Byte}

/-- Patching the reserved place. -/
theorem Open.patch (inv : state.Open done pending) :
    state.outdata.set state.codeIdx state.code = done ++ cobs.code pending.length :: pending := by
  rw [inv.outdata, inv.codeIdx, inv.code, List.set_append_right _ _ le_rfl, Nat.sub_self,
    List.set_cons_zero]

/-- A finished block opens an empty one behind it. -/
theorem Open.finishBlock (inv : state.Open done pending) :
    state.finishBlock.Open (done ++ cobs.code pending.length :: pending) [] where
  outdata := by rw [Encoder.finishBlock, inv.patch]
  codeIdx := by rw [Encoder.finishBlock, inv.outdata]; simp
  code := rfl

/-- A byte that is appended to the open block is counted in its code. -/
theorem Open.append (inv : state.Open done pending) (byte : Byte) :
    Open { state with outdata := state.outdata ++ [byte], code := state.code + 1 } done
      (pending ++ [byte]) where
  outdata := by simp [inv.outdata]
  codeIdx := inv.codeIdx
  code := by
    rw [List.length_append, List.length_singleton, cobs_code, BitVec.ofNat_add (pending.length + 1)]
    exact congrArg (· + 1) inv.code

theorem push_zero (inv : state.Open done pending) :
    (state.push 0).Open (done ++ cobs.code pending.length :: pending) [] := by
  rw [push, if_pos rfl]
  exact inv.finishBlock

/-- The 254th byte of a block closes it. -/
theorem push_full (inv : state.Open done pending) (nonzero : byte ≠ 0)
    (full : pending.length + 1 = cobs.maxRun) :
    (state.push byte).Open (done ++ cobs.code cobs.maxRun :: (pending ++ [byte])) [] := by
  have grown := inv.append byte
  have length : (pending ++ [byte]).length = cobs.maxRun := by simpa using full
  have isFull := (code_eq_full _ length.le).mpr length
  have closed := grown.finishBlock
  rw [length] at closed
  rw [push, if_neg nonzero]
  simp only
  rw [if_pos (grown.code.trans isFull)]
  exact closed

theorem push_open (inv : state.Open done pending) (nonzero : byte ≠ 0)
    (room : pending.length + 1 < cobs.maxRun) :
    (state.push byte).Open done (pending ++ [byte]) := by
  have grown := inv.append byte
  have length : (pending ++ [byte]).length < cobs.maxRun := by simpa using room
  have notFull : ¬ cobs.code (pending ++ [byte]).length = 0xFF := fun same =>
    length.ne ((code_eq_full _ length.le).mp same)
  rw [push, if_neg nonzero]
  simp only
  rw [if_neg (fun same => notFull (grown.code.symm.trans same))]
  exact grown

end Encoder

/-- The rest of the loop and the final patch append the encoding of the open block and the
remaining input. -/
theorem encode_loop (indata : List Byte) (state : Encoder) (done pending : List Byte)
    (inv : state.Open done pending) (room : pending.length < cobs.maxRun) :
    (indata.foldl Encoder.push state).outdata.set (indata.foldl Encoder.push state).codeIdx
        (indata.foldl Encoder.push state).code = done ++ cobs.stuff pending indata := by
  induction indata generalizing state done pending with
  | nil => exact inv.patch
  | cons byte rest ih =>
      rw [List.foldl_cons, Library.Stuffing.stuff, cobs_delim]
      by_cases isZero : byte = 0
      · rw [isZero, ih _ _ _ (Encoder.push_zero inv) cobs.maxRun_pos, if_pos rfl]
        simp
      · rw [if_neg isZero]
        by_cases full : pending.length + 1 = cobs.maxRun
        · rw [if_pos full, ih _ _ _ (Encoder.push_full inv isZero full) cobs.maxRun_pos]
          simp
        · have room' : pending.length + 1 < cobs.maxRun := by omega
          rw [if_neg full, ih _ _ _ (Encoder.push_open inv isZero room') (by simpa using room')]

/-- The encoder computes the stuffing, closed by the delimiter. -/
theorem encode_eq (indata : List Byte) : encode indata = cobs.stuff [] indata ++ [0] := by
  rw [encode, encode_loop indata _ [] [] ⟨rfl, rfl, rfl⟩ cobs.maxRun_pos, List.nil_append]

/-! ### The decoder -/

/-- The `for` loop of `decode`: at most `count` bytes move from the input to the output. -/
def copyBlock : Nat → List Byte → List Byte → List Byte × List Byte
  | 0, input, outdata => (input, outdata)
  | _ + 1, [], outdata => ([], outdata)
  | count + 1, byte :: input, outdata => copyBlock count input (outdata ++ [byte])

/-- The `while` loop of `decode`. Each round consumes a code byte, so the length of the input is
enough fuel. -/
def decodeLoop : Nat → List Byte → List Byte → List Byte
  | 0, _, outdata => outdata
  | _ + 1, [], outdata => outdata
  | fuel + 1, code :: input, outdata =>
      let copied := copyBlock (code.toNat - 1) input outdata
      decodeLoop fuel copied.1 (if code < 0xFF then copied.2 ++ [0] else copied.2)

/-- `COBS::decode`. -/
def decode (indata : List Byte) : List Byte := decodeLoop indata.length indata []

theorem copyBlock_eq (count : Nat) (input outdata : List Byte) :
    copyBlock count input outdata = (input.drop count, outdata ++ input.take count) := by
  induction count generalizing input outdata with
  | zero => simp [copyBlock]
  | succ count ih =>
      cases input with
      | nil => simp [copyBlock]
      | cons byte rest => simp [copyBlock, ih]

theorem decodeLoop_eq (fuel : Nat) (input outdata : List Byte) (enough : input.length ≤ fuel) :
    decodeLoop fuel input outdata = outdata ++ cobs.unstuff input := by
  induction fuel generalizing input outdata with
  | zero =>
      rw [List.length_eq_zero_iff.mp (Nat.le_zero.mp enough), decodeLoop,
        Library.Stuffing.unstuff, List.append_nil]
  | succ fuel ih =>
      cases input with
      | nil => rw [decodeLoop, Library.Stuffing.unstuff, List.append_nil]
      | cons code rest =>
          have shorter : (rest.drop (code.toNat - 1)).length ≤ fuel := by
            rw [List.length_drop]
            rw [List.length_cons] at enough
            omega
          rw [decodeLoop, Library.Stuffing.unstuff, copyBlock_eq]
          simp only
          rw [ih _ _ shorter]
          by_cases short : cobs.run code < cobs.maxRun
          · rw [if_pos ((code_lt_iff code).mpr short), if_pos short]
            simp
          · rw [if_neg fun small => short ((code_lt_iff code).mp small), if_neg short]
            simp

/-- The decoder follows the codes of the stuffing, on every input. -/
theorem decode_eq (indata : List Byte) : decode indata = cobs.unstuff indata := by
  rw [decode, decodeLoop_eq _ _ _ le_rfl, List.nil_append]

/-! ### The codec -/

/-- Decoding the frame of a payload gives the payload and one zero. -/
theorem decode_stuff (payload : List Byte) : decode (cobs.stuff [] payload) = payload ++ [0] := by
  rw [decode_eq, unstuff_stuff]

/-! ### Sizes -/

/-- The 254-byte groups without a zero that are completed in a payload, from left to right. -/
def completedGroups (payload : List Byte) : Nat := cobs.fullBlocks 0 payload

/-- An encoding has two bytes more than its payload, and one more for each completed group. A
decoding is not longer than what is decoded, however malformed that is. -/
theorem encoded_size (payload frame : List Byte) :
    (encode payload).length = payload.length + 2 + completedGroups payload ∧
      (encode payload).length ≤ payload.length + 2 + payload.length / 254 ∧
      (decode frame).length ≤ frame.length := by
  have exact : (encode payload).length = payload.length + 2 + completedGroups payload := by
    rw [encode_eq, List.length_append, List.length_singleton, cobs.length_stuff, List.length_nil,
      Nat.zero_add, completedGroups]
    omega
  have few : completedGroups payload ≤ payload.length / 254 := by
    have bound := cobs.fullBlocks_le payload 0 cobs.maxRun_pos
    rwa [Nat.zero_add] at bound
  refine ⟨exact, ?_, ?_⟩
  · rw [exact]
    exact Nat.add_le_add_left few _
  · rw [decode_eq]
    exact cobs.length_unstuff_le frame

end Swagger.Host
