/-
**Files and blobs of the script library, `sqstdlib`.**

A script reads the file it is given as one blob, and the blob word by word with `readn('i')`, which
throws when fewer than four bytes are left. A blob is its size and the bytes behind the read
position.

Lengths are integers of the build, so a file is shorter than 2 ^ 31 bytes (`BinaryFile`).

`wordsOf_split`: a list of bytes is its words and fewer than four bytes more.
-/

import Swagger.Host.CommandQueue

namespace Swagger.Host

/-- A number below 2 ^ 31 is the same as a script integer. -/
theorem toInt_ofNat_small {number : Nat} (small : number < 2 ^ 31) :
    (BitVec.ofNat 32 number : SQInteger).toInt = number := by
  have value : (BitVec.ofNat 32 number : SQInteger).toNat = number := by
    rw [BitVec.toNat_ofNat, Nat.mod_eq_of_lt (by omega)]
  rw [BitVec.toInt_eq_toNat_of_lt (by omega), value]

theorem slt_ofNat {left right : Nat} (small : left < 2 ^ 31) (small' : right < 2 ^ 31) :
    (BitVec.ofNat 32 left : SQInteger).slt (BitVec.ofNat 32 right) = decide (left < right) := by
  rw [BitVec.slt_eq_decide, toInt_ofNat_small small, toInt_ofNat_small small']
  exact decide_eq_decide.mpr Int.ofNat_lt

/-- How a script function ends: it returns, or an error leaves it. -/
inductive Ending
  | returned (value : SQInteger)
  | thrown
  deriving DecidableEq, Repr

/-! ### Files -/

/-- The bytes of a file. Its length is a `SQInteger`, as `len()` returns it. -/
structure BinaryFile where
  bytes : List Byte
  fits : bytes.length < 2 ^ 31

structure Blob where
  size : SQInteger
  rest : List Byte

namespace BinaryFile

def len (file : BinaryFile) : SQInteger := BitVec.ofNat 32 file.bytes.length

/-- `readblob` at the start of a file; it throws when it reads nothing. -/
def readblob (size : SQInteger) (file : BinaryFile) : Option Blob :=
  let size := if file.len.slt size then file.len else size
  let data := file.bytes.take size.toNat
  if data = [] then none else some { size := BitVec.ofNat 32 data.length, rest := data }

end BinaryFile

/-! ### Blobs -/

namespace Blob

/-- `readn('i')`: the next four bytes as an integer, lowest first. -/
def readn (blob : Blob) : Option (SQInteger × Blob) :=
  match blob.rest with
  | b0 :: b1 :: b2 :: b3 :: rest => some (wordOfBytes b0 b1 b2 b3, { blob with rest })
  | _ => none

theorem readn_shorter {blob blob' : Blob} {word : SQInteger}
    (read : blob.readn = some (word, blob')) : blob'.rest.length < blob.rest.length := by
  obtain ⟨size, rest⟩ := blob
  rcases rest with _ | ⟨b0, _ | ⟨b1, _ | ⟨b2, _ | ⟨b3, rest⟩⟩⟩⟩
  case cons.cons.cons.cons =>
    obtain ⟨rfl, rfl⟩ := Prod.mk.inj (Option.some.inj read)
    simp only [List.length_cons]
    omega
  all_goals exact nomatch read

theorem readn_word (size : SQInteger) (word : Word) (rest : List Byte) :
    Blob.readn { size, rest := wordBytes word ++ rest } = some (word, { size, rest }) := by
  simp only [wordBytes, List.cons_append, List.nil_append, readn, wordOfBytes_byteOfWord]

theorem readn_short (size : SQInteger) {rest : List Byte} (short : rest.length < 4) :
    Blob.readn { size, rest } = none := by
  rcases rest with _ | ⟨b0, _ | ⟨b1, _ | ⟨b2, _ | ⟨b3, rest⟩⟩⟩⟩
  case cons.cons.cons.cons =>
    simp only [List.length_cons] at short
    omega
  all_goals rfl

end Blob

/-- A file that is not empty is read as a whole. -/
theorem readblob_len {file : BinaryFile} (nonempty : file.bytes ≠ []) :
    file.readblob file.len = some { size := file.len, rest := file.bytes } := by
  have small := file.fits
  have length : file.len.toNat = file.bytes.length := by
    rw [BinaryFile.len, BitVec.toNat_ofNat, Nat.mod_eq_of_lt (by omega)]
  unfold BinaryFile.readblob
  simp only [ite_self, length, List.take_length, if_neg nonempty]
  rfl

/-! ### Words -/

/-- The words of a list of bytes, each with its lowest byte first. -/
def wordsOf : List Byte → List Word
  | b0 :: b1 :: b2 :: b3 :: rest => wordOfBytes b0 b1 b2 b3 :: wordsOf rest
  | _ => []

/-- What is left behind the words. -/
def partOf : List Byte → List Byte
  | _ :: _ :: _ :: _ :: rest => partOf rest
  | short => short

theorem wordsOf_split (bytes : List Byte) :
    bytes = (wordsOf bytes).flatMap wordBytes ++ partOf bytes ∧ (partOf bytes).length < 4 := by
  induction bytes using wordsOf.induct with
  | case1 b0 b1 b2 b3 rest ih =>
      refine ⟨?_, ih.2⟩
      rw [wordsOf, partOf, List.flatMap_cons, wordBytes_wordOfBytes]
      exact congrArg (fun rest => b0 :: b1 :: b2 :: b3 :: rest) ih.1
  | case2 bytes short =>
      rcases bytes with _ | ⟨b0, _ | ⟨b1, _ | ⟨b2, _ | ⟨b3, rest⟩⟩⟩⟩
      case cons.cons.cons.cons => exact absurd rfl (short b0 b1 b2 b3 rest)
      all_goals exact ⟨rfl, by simp [partOf]⟩

theorem length_flatMap_wordBytes (words : List Word) :
    (words.flatMap wordBytes).length = 4 * words.length := by
  induction words with
  | nil => rfl
  | cons word words ih =>
      rw [List.flatMap_cons, List.length_append, length_wordBytes, ih, List.length_cons]
      omega

theorem length_wordsOf (bytes : List Byte) : (wordsOf bytes).length = bytes.length / 4 := by
  obtain ⟨split, short⟩ := wordsOf_split bytes
  have length := congrArg List.length split
  rw [List.length_append, length_flatMap_wordBytes] at length
  omega

end Swagger.Host
