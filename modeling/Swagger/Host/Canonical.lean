/-
**Which frames the encoder produces.**

The strings that `encode` produces, without the final zero, are the non-empty ones that split
completely into blocks, a code byte `c` and exactly `c - 1` bytes, and whose last code is not
`0xFF` (`Canonical`). On them, encoding and decoding are inverse to each other: `payloadFrames` is
the bijection between payloads and frames. `canonical_form` puts this together.
-/

import Swagger.Host.Cobs
import Swagger.Library.Blocks

namespace Swagger

open Library

/-- Every byte but zero is a code. -/
theorem cobs_total : cobs.Total where
  run_le code _ := by
    have small := code.isLt
    rw [cobs_run, cobs_maxRun]
    omega
  code_run code nonzero := by
    have positive : 0 < code.toNat := Nat.pos_of_ne_zero fun zero =>
      nonzero (BitVec.eq_of_toNat_eq zero)
    rw [cobs_code, cobs_run, Nat.sub_add_cancel positive, BitVec.ofNat_toNat, BitVec.setWidth_eq]

theorem code_ne_iff (code : Byte) : code ≠ 0xFF ↔ cobs.run code < cobs.maxRun := by
  have small := code.isLt
  rw [← code_lt_iff, BitVec.lt_def, ne_eq, BitVec.toNat_eq,
    show (0xFF : Byte).toNat = 255 from rfl]
  omega

namespace Host

/-- The string is the output of `encode` on some payload, without its final zero. -/
def Encoded (f : List Byte) : Prop := ∃ payload, encode payload = f ++ [0]

/-- The string is not empty, it splits completely into blocks, each a code byte and as many bytes
as that announces, and its last code is not `0xFF`. -/
def Canonical (f : List Byte) : Prop :=
  f ≠ [] ∧ ∃ blocks : List cobs.Block, f = blocks.flatMap Stuffing.Block.symbols ∧
    ∀ last ∈ blocks.getLast?, last.code ≠ 0xFF

theorem encode_eq_iff (payload f : List Byte) :
    encode payload = f ++ [0] ↔ cobs.stuff [] payload = f := by
  rw [encode_eq, List.append_cancel_right_eq]

/-- The two ways to say that there is a last block and that it is short. -/
theorem canonical_iff (f : List Byte) :
    Canonical f ↔ ∃ blocks : List cobs.Block,
      f = blocks.flatMap Stuffing.Block.symbols ∧ Stuffing.EndsShort blocks := by
  constructor
  · rintro ⟨nonempty, blocks, rfl, short⟩
    cases last : blocks.getLast? with
    | none =>
        rw [List.getLast?_eq_none_iff.mp last, List.flatMap_nil] at nonempty
        exact absurd rfl nonempty
    | some block => exact ⟨blocks, rfl, block, last, (code_ne_iff _).mp (short block last)⟩
  · rintro ⟨blocks, rfl, block, last, short⟩
    refine ⟨fun empty => ?_, blocks, rfl, fun block' last' => ?_⟩
    · have symbols := List.flatMap_eq_nil_iff.mp empty block (List.mem_of_mem_getLast? last)
      cases symbols
    · obtain rfl : block = block' := Option.some.inj (last.symm.trans last')
      exact (code_ne_iff _).mpr short

/-- The image of the encoder. -/
theorem encoded_iff (f : List Byte) (free : (0 : Byte) ∉ f) : Encoded f ↔ Canonical f := by
  rw [canonical_iff, ← Stuffing.stuff_image cobs_total f free]
  exact exists_congr fun payload => encode_eq_iff payload f

/-- Encoding what the decoder gives without its last byte. -/
theorem encode_decode {f : List Byte} (encoded : Encoded f) :
    encode (decode f).dropLast = f ++ [0] := by
  obtain ⟨payload, same⟩ := encoded
  rw [encode_eq_iff] at same ⊢
  rw [decode_eq]
  exact (Stuffing.stuff_unstuff same).2

/-- Whether a string is an encoding is found out by decoding and encoding it again. -/
instance (f : List Byte) : Decidable (Encoded f) :=
  decidable_of_iff (encode (decode f).dropLast = f ++ [0])
    ⟨fun same => ⟨_, same⟩, encode_decode⟩

example : Encoded [3, 0x11, 0x22, 1] ∧ ¬ Encoded [4, 0x11, 0x22] := by decide

/-- A frame without its delimiter: free of zeros, and in canonical form. -/
structure Frame where
  bytes : List Byte
  free : (0 : Byte) ∉ bytes
  canonical : Canonical bytes

@[ext] theorem Frame.ext {frame frame' : Frame} (same : frame.bytes = frame'.bytes) :
    frame = frame' := by
  cases frame
  cases frame'
  obtain rfl := same
  rfl

theorem dropLast_encode (payload : List Byte) :
    (encode payload).dropLast = cobs.stuff [] payload := by
  rw [encode_eq, List.dropLast_concat]

/-- The frame of a payload. -/
def payloadFrame (payload : List Byte) : Frame where
  bytes := (encode payload).dropLast
  free := by
    rw [dropLast_encode]
    exact zero_notMem_stuff payload
  canonical := by
    have encoded : Encoded (cobs.stuff [] payload) := ⟨payload, encode_eq payload⟩
    rw [dropLast_encode]
    exact (encoded_iff _ (zero_notMem_stuff payload)).mp encoded

@[simp] theorem bytes_payloadFrame (payload : List Byte) :
    (payloadFrame payload).bytes = cobs.stuff [] payload := dropLast_encode payload

/-- The payload of a frame. -/
def Frame.payload (frame : Frame) : List Byte := (decode frame.bytes).dropLast

theorem payload_payloadFrame (payload : List Byte) : (payloadFrame payload).payload = payload := by
  rw [Frame.payload, bytes_payloadFrame, decode_stuff, List.dropLast_concat]

theorem payloadFrame_payload (frame : Frame) : payloadFrame frame.payload = frame := by
  ext1
  rw [bytes_payloadFrame, ← encode_eq_iff]
  exact encode_decode ((encoded_iff _ frame.free).mpr frame.canonical)

/-- Encoding and decoding, as a bijection. -/
def payloadFrames : List Byte ≃ Frame where
  toFun := payloadFrame
  invFun := Frame.payload
  left_inv := payload_payloadFrame
  right_inv := payloadFrame_payload

/-- The canonical form of the code. A string of non-zero bytes is an output of the encoder, without
the final zero, exactly when it is in canonical form; encoding its decoding, without the last byte,
then gives it back; and the two are inverse bijections between payloads and frames. -/
theorem canonical_form :
    (∀ f : List Byte, (0 : Byte) ∉ f → ((∃ payload, encode payload = f ++ [0]) ↔ Canonical f)) ∧
    (∀ f : List Byte, (0 : Byte) ∉ f → Canonical f →
      encode (decode f).dropLast = f ++ [0]) ∧
    ∃ frames : List Byte ≃ Frame,
      (∀ payload, encode payload = (frames payload).bytes ++ [0]) ∧
      ∀ frame, frames.symm frame = (decode frame.bytes).dropLast := by
  refine ⟨encoded_iff, fun f free canonical => ?_, payloadFrames, fun payload => ?_,
    fun frame => rfl⟩
  · exact encode_decode ((encoded_iff f free).mpr canonical)
  · change encode payload = (payloadFrame payload).bytes ++ [0]
    rw [bytes_payloadFrame, encode_eq]

theorem canonical_form_block : encode (decode [3, 0x11, 0x22]).dropLast = [3, 0x11, 0x22, 0] :=
  canonical_form.2.1 [3, 0x11, 0x22] (by decide)
    ⟨by decide, [{ code := 3, data := [0x11, 0x22], complete := rfl }], rfl, by decide⟩

end Host

end Swagger
