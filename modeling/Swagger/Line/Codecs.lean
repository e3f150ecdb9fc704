/-
**The two ends of the line speak the same code.**

The host's `encode` and `decode` and the firmware's `StuffData` and `UnStuffData` are two
implementations of one stuffing, so they write the same bytes: on every input that the firmware's
8-bit length can announce, also on strings that are no encodings (`codecs_agree`).
-/

import Swagger.Host.Cobs
import Swagger.Firmware.Cobs

namespace Swagger.Line

open Firmware Host

/-- The source bytes of a call `f(ptr, N, dst)`: `N` is an `uint8_t`. -/
def announced (src : List Byte) : List Byte := src.take (BitVec.ofNat 8 src.length).toNat

theorem announced_eq {src : List Byte} (short : src.length ≤ 255) : announced src = src := by
  rw [announced, BitVec.toNat_ofNat, Nat.mod_eq_of_lt (by omega), List.take_length]

/-- The result of `StuffData` in a destination: up to its terminator, the first zero, it wrote the
given bytes, and it left the bytes behind them alone. -/
def StuffsTo {n : Nat} (src : List Byte) (dst : Buffer n) (output : List Byte) : Prop :=
  ∃ dst', stuffData (announced src) dst = some (output.length, dst') ∧
    dst'.firstBytes output.length = output ∧
    (strlen dst').map (· + 1) = some output.length ∧
    ∀ index ≥ output.length, dst'.cell index = dst.cell index

/-- The result of `UnStuffData` in a destination: it wrote the given bytes, returned their number,
and left the bytes behind them alone. -/
def UnStuffsTo {n : Nat} (src : List Byte) (dst : Buffer n) (output : List Byte) : Prop :=
  ∃ dst', unStuffData (announced src) dst = some (output.length, dst') ∧
    dst'.firstBytes output.length = output ∧
    ∀ index ≥ output.length, dst'.cell index = dst.cell index

theorem stuffsTo_encode {n : Nat} {src : List Byte} (short : src.length ≤ 255) (dst : Buffer n)
    (room : (encode src).length ≤ n) : StuffsTo src dst (encode src) := by
  have length : (encode src).length = (cobs.stuff [] src).length + 1 := by
    rw [encode_eq, List.length_append, List.length_singleton]
  obtain ⟨dst', stuffed, wrote⟩ := stuffData_eq src dst (by rwa [length] at room)
  have ends := strlen_eq src dst' (by rwa [length] at room) wrote
  rw [← length] at stuffed wrote
  rw [← encode_eq] at wrote
  refine ⟨dst', by rw [announced_eq short, stuffed], wrote, ?_,
    fun index after => stuffData_behind stuffed after⟩
  rw [ends, Option.map_some, length]

theorem unStuffsTo_decode {n : Nat} {src : List Byte} (short : src.length ≤ 255) (dst : Buffer n)
    (room : (decode src).length ≤ n) : UnStuffsTo src dst (decode src) := by
  rw [decode_eq] at room ⊢
  unfold UnStuffsTo
  rw [announced_eq short]
  exact unStuffData_eq src dst room

/-- The two implementations agree: for every source of at most 255 bytes, in a destination with
room for the output and any number of bytes more, `StuffData` writes the output of `encode`, and
`UnStuffData` writes the output of `decode` and returns its length. -/
theorem codecs_agree (src : List Byte) (short : src.length ≤ 255) (more more' : Nat)
    (dst : Buffer ((encode src).length + more)) (dst' : Buffer ((decode src).length + more')) :
    StuffsTo src dst (encode src) ∧ UnStuffsTo src dst' (decode src) :=
  ⟨stuffsTo_encode short dst (Nat.le_add_right _ _),
    unStuffsTo_decode short dst' (Nat.le_add_right _ _)⟩

/-- A source that announces more bytes than it has. -/
theorem codecs_agree_truncated :
    StuffsTo (n := 5) [4, 0, 7] { cell := fun _ => 0xAA } [2, 4, 2, 7, 0] ∧
      UnStuffsTo (n := 4) [4, 0, 7] { cell := fun _ => 0xAA } [0, 7, 0] :=
  codecs_agree [4, 0, 7] (by decide) 0 1 { cell := fun _ => 0xAA } { cell := fun _ => 0xAA }

end Swagger.Line
