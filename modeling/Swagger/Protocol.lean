/-
**The wire vocabulary of `protocol.h` and `doc/protocol.md`.**

Bytes and words, the status codes, the opcodes the command interpreter has a case for, and the
syntax of host packets: a packet is the concatenation of the bytes of its commands. Words travel
little endian; `wordOfBytes` is the join that the firmware's `getUInt32` and the host's `popUInt32`
compute, `wordBytes` the split that `queueReplyUInt32` and `queueUInt32` compute. `cobs` is the
byte stuffing of the line: blocks of at most 254 bytes behind a code byte, with 0 as delimiter.
-/

import Swagger.Library.Stuffing

namespace Swagger

abbrev Byte := BitVec 8

abbrev Word := BitVec 32

/-! ### The byte stuffing of the line -/

/-- COBS: the code byte of a block is one more than its length, 0 delimits packets. -/
def cobs : Library.Stuffing Byte where
  delim := 0
  maxRun := 254
  code length := BitVec.ofNat 8 (length + 1)
  run code := code.toNat - 1
  maxRun_pos := by norm_num
  run_code length small := by
    rw [BitVec.toNat_ofNat, Nat.mod_eq_of_lt (by omega), Nat.add_sub_cancel]
  code_ne length small same := by
    have value := congrArg BitVec.toNat same
    rw [BitVec.toNat_ofNat, Nat.mod_eq_of_lt (by omega)] at value
    simp at value

@[simp] theorem cobs_delim : cobs.delim = 0 := rfl

@[simp] theorem cobs_maxRun : cobs.maxRun = 254 := rfl

@[simp] theorem cobs_code (length : Nat) : cobs.code length = BitVec.ofNat 8 (length + 1) := rfl

@[simp] theorem cobs_run (code : Byte) : cobs.run code = code.toNat - 1 := rfl

theorem zero_notMem_stuff (payload : List Byte) : (0 : Byte) ∉ cobs.stuff [] payload :=
  cobs.delim_notMem_stuff payload [] cobs.maxRun_pos List.not_mem_nil

theorem unstuff_stuff (payload : List Byte) :
    cobs.unstuff (cobs.stuff [] payload) = payload ++ [0] :=
  cobs.unstuff_stuff payload [] cobs.maxRun_pos

/-- A frame is one byte longer than its payload, and one more for each full block. -/
theorem length_cobs_stuff_le (payload : List Byte) :
    (cobs.stuff [] payload).length ≤ payload.length + 1 + payload.length / 254 := by
  simpa using cobs.length_stuff_le payload [] cobs.maxRun_pos

/-- The 8-bit code of a block counts its bytes, plus one, until the block is full. -/
theorem code_lt_iff (code : Byte) : code < 0xFF ↔ cobs.run code < cobs.maxRun := by
  rw [BitVec.lt_def, cobs_run, cobs_maxRun, show (0xFF : Byte).toNat = 255 from rfl]
  omega

/-- The code reaches `0xFF` exactly when the block is full. -/
theorem code_eq_full (length : Nat) (small : length ≤ cobs.maxRun) :
    cobs.code length = 0xFF ↔ length = cobs.maxRun := by
  constructor
  · intro same
    have value := congrArg cobs.run same
    rw [cobs.run_code length small] at value
    rw [value]
    rfl
  · rintro rfl
    rfl

/-- Only two frames decode to nothing. -/
theorem unstuff_eq_nil_iff (frame : List Byte) :
    cobs.unstuff frame = [] ↔ frame = [] ∨ frame = [0xFF] := by
  rcases frame with _ | ⟨code, rest⟩
  · rw [Library.Stuffing.unstuff]
    exact ⟨fun _ => .inl rfl, fun _ => rfl⟩
  · rw [Library.Stuffing.unstuff, List.append_eq_nil_iff, List.append_eq_nil_iff]
    constructor
    · rintro ⟨⟨copied, closed⟩, -⟩
      have full : ¬ cobs.run code < cobs.maxRun := by
        intro small
        rw [if_pos small] at closed
        cases closed
      have none : rest = [] := by
        rcases List.take_eq_nil_iff.mp copied with zero | none
        · rw [zero, cobs_maxRun] at full
          omega
        · exact none
      have value : code = 0xFF := by
        rw [← code_lt_iff, BitVec.lt_def] at full
        have small := code.isLt
        apply BitVec.eq_of_toNat_eq
        simp only [show (0xFF : Byte).toNat = 255 from rfl] at full ⊢
        omega
      exact .inr (by rw [none, value])
    · rintro (impossible | same)
      · cases impossible
      · cases same
        refine ⟨⟨rfl, rfl⟩, ?_⟩
        rw [List.drop_nil, Library.Stuffing.unstuff]

/-! ### Status codes -/

/-- The `RXCMD_STATUS_*` codes. -/
inductive Status
  | ok
  | timeout
  | swdFault
  | rxOverflow
  | protoErr
  | unknownCmd
  deriving DecidableEq, Repr

def Status.code : Status → Byte
  | .ok => 0
  | .timeout => 1
  | .swdFault => 2
  | .rxOverflow => 3
  | .protoErr => 4
  | .unknownCmd => 5

/-! ### Opcodes -/

/-- The `TXCMD_TYPE_*` opcodes with a case in `loop()`; `WAITMEMFALSE` (9) is defined in
`protocol.h` but falls to the default case. -/
inductive Opcode
  | connect
  | reset
  | readAP
  | writeAP
  | readDP
  | writeDP
  | readMem
  | writeMem
  | waitMemTrue
  | getProgId
  deriving DecidableEq, Repr

namespace Opcode

def code : Opcode → Byte
  | .connect => 0
  | .reset => 1
  | .readAP => 2
  | .writeAP => 3
  | .readDP => 4
  | .writeDP => 5
  | .readMem => 6
  | .writeMem => 7
  | .waitMemTrue => 8
  | .getProgId => 0xFF

/-- The `switch` on the opcode; `none` is its default case. -/
def ofCode? (byte : Byte) : Option Opcode :=
  if byte = connect.code then some .connect
  else if byte = reset.code then some .reset
  else if byte = readAP.code then some .readAP
  else if byte = writeAP.code then some .writeAP
  else if byte = readDP.code then some .readDP
  else if byte = writeDP.code then some .writeDP
  else if byte = readMem.code then some .readMem
  else if byte = writeMem.code then some .writeMem
  else if byte = waitMemTrue.code then some .waitMemTrue
  else if byte = getProgId.code then some .getProgId
  else none

@[simp] theorem ofCode?_code (opcode : Opcode) : ofCode? opcode.code = some opcode := by
  cases opcode <;> rfl

theorem code_of_ofCode? {byte : Byte} {opcode : Opcode} (known : ofCode? byte = some opcode) :
    byte = opcode.code := by
  unfold ofCode? at known
  split_ifs at known with is is is is is is is is is is
  all_goals
    rw [is]
    exact congrArg code (Option.some.inj known)

end Opcode

/-! ### Little-endian words -/

/-- Four bytes joined, the first one lowest. -/
def wordOfBytes (b0 b1 b2 b3 : Byte) : Word :=
  b0.setWidth 32 ||| b1.setWidth 32 <<< 8 ||| b2.setWidth 32 <<< 16 ||| b3.setWidth 32 <<< 24

/-- The byte `(word >> 8 * index) & 0xFF`. -/
def byteOfWord (word : Word) (index : Nat) : Byte :=
  ((word >>> (8 * index)) &&& 0xFF#32).setWidth 8

/-- A word split, the lowest byte first. -/
def wordBytes (word : Word) : List Byte :=
  [byteOfWord word 0, byteOfWord word 1, byteOfWord word 2, byteOfWord word 3]

@[simp] theorem length_wordBytes (word : Word) : (wordBytes word).length = 4 := rfl

/-- An `or` with a value shifted past the other operand is a sum. -/
theorem or_shiftLeft_eq_add (low high shift : Nat) (small : low < 2 ^ shift) :
    low ||| high <<< shift = low + high * 2 ^ shift := by
  rw [Nat.or_comm, ← Nat.shiftLeft_add_eq_or_of_lt small, Nat.shiftLeft_eq, Nat.add_comm]

/-- A byte shifted inside a word loses nothing. -/
theorem toNat_byte_shiftLeft (byte : Byte) (shift : Nat) (inside : shift ≤ 24) :
    (byte.setWidth 32 <<< shift).toNat = byte.toNat <<< shift := by
  have small := byte.isLt
  have bound : byte.toNat * 2 ^ shift < 2 ^ 32 := by
    calc byte.toNat * 2 ^ shift < 2 ^ 8 * 2 ^ shift :=
          Nat.mul_lt_mul_of_pos_right small (by positivity)
      _ ≤ 2 ^ 8 * 2 ^ 24 := Nat.mul_le_mul_left _ (Nat.pow_le_pow_right (by norm_num) inside)
      _ = 2 ^ 32 := by norm_num
  rw [BitVec.toNat_shiftLeft, BitVec.toNat_setWidth, Nat.mod_eq_of_lt (a := byte.toNat) (by omega),
    Nat.shiftLeft_eq, Nat.mod_eq_of_lt bound]

theorem toNat_wordOfBytes (b0 b1 b2 b3 : Byte) :
    (wordOfBytes b0 b1 b2 b3).toNat =
      b0.toNat + b1.toNat * 2 ^ 8 + b2.toNat * 2 ^ 16 + b3.toNat * 2 ^ 24 := by
  have small0 := b0.isLt
  have small1 := b1.isLt
  have small2 := b2.isLt
  rw [wordOfBytes, BitVec.toNat_or, BitVec.toNat_or, BitVec.toNat_or,
    toNat_byte_shiftLeft b1 8 (by norm_num), toNat_byte_shiftLeft b2 16 (by norm_num),
    toNat_byte_shiftLeft b3 24 (by norm_num), BitVec.toNat_setWidth,
    Nat.mod_eq_of_lt (a := b0.toNat) (by omega), or_shiftLeft_eq_add _ _ 8 small0,
    or_shiftLeft_eq_add _ _ 16 (by omega), or_shiftLeft_eq_add _ _ 24 (by omega)]

theorem toNat_byteOfWord (word : Word) (index : Nat) :
    (byteOfWord word index).toNat = word.toNat / 2 ^ (8 * index) % 256 := by
  rw [byteOfWord, BitVec.toNat_setWidth, BitVec.toNat_and, BitVec.toNat_ushiftRight,
    Nat.shiftRight_eq_div_pow, show (0xFF#32).toNat = 2 ^ 8 - 1 from rfl,
    Nat.and_two_pow_sub_one_eq_mod]
  omega

/-- Splitting and joining gives the word back. -/
@[simp] theorem wordOfBytes_byteOfWord (word : Word) :
    wordOfBytes (byteOfWord word 0) (byteOfWord word 1) (byteOfWord word 2) (byteOfWord word 3) =
      word := by
  apply BitVec.eq_of_toNat_eq
  have small := word.isLt
  rw [toNat_wordOfBytes]
  simp only [toNat_byteOfWord]
  omega

/-- Joining and splitting gives the bytes back. -/
theorem wordBytes_wordOfBytes (b0 b1 b2 b3 : Byte) :
    wordBytes (wordOfBytes b0 b1 b2 b3) = [b0, b1, b2, b3] := by
  have small0 := b0.isLt
  have small1 := b1.isLt
  have small2 := b2.isLt
  have small3 := b3.isLt
  have byte0 : byteOfWord (wordOfBytes b0 b1 b2 b3) 0 = b0 := by
    apply BitVec.eq_of_toNat_eq
    rw [toNat_byteOfWord, toNat_wordOfBytes]
    omega
  have byte1 : byteOfWord (wordOfBytes b0 b1 b2 b3) 1 = b1 := by
    apply BitVec.eq_of_toNat_eq
    rw [toNat_byteOfWord, toNat_wordOfBytes]
    omega
  have byte2 : byteOfWord (wordOfBytes b0 b1 b2 b3) 2 = b2 := by
    apply BitVec.eq_of_toNat_eq
    rw [toNat_byteOfWord, toNat_wordOfBytes]
    omega
  have byte3 : byteOfWord (wordOfBytes b0 b1 b2 b3) 3 = b3 := by
    apply BitVec.eq_of_toNat_eq
    rw [toNat_byteOfWord, toNat_wordOfBytes]
    omega
  rw [wordBytes, byte0, byte1, byte2, byte3]

theorem exists_wordBytes {bytes : List Byte} (four : bytes.length = 4) :
    ∃ word, wordBytes word = bytes := by
  obtain ⟨b0, b1, b2, b3, rfl⟩ := List.length_eq_four.mp four
  exact ⟨wordOfBytes b0 b1 b2 b3, wordBytes_wordOfBytes b0 b1 b2 b3⟩

/-! ### Host packets -/

/-- A command of a host packet, with its arguments. -/
inductive Command
  | connect
  | reset (state : Byte)
  | readAP (address : Word)
  | writeAP (address data : Word)
  | readDP (address : Byte)
  | writeDP (address : Byte) (data : Word)
  | readMem (address : Word)
  | writeMem (address data : Word)
  | waitMemTrue (address mask : Word)
  | getProgId
  deriving DecidableEq, Repr

namespace Command

def opcode : Command → Opcode
  | .connect => .connect
  | .reset _ => .reset
  | .readAP _ => .readAP
  | .writeAP _ _ => .writeAP
  | .readDP _ => .readDP
  | .writeDP _ _ => .writeDP
  | .readMem _ => .readMem
  | .writeMem _ _ => .writeMem
  | .waitMemTrue _ _ => .waitMemTrue
  | .getProgId => .getProgId

/-- The payload bytes behind the opcode. -/
def arguments : Command → List Byte
  | .connect | .getProgId => []
  | .reset state => [state]
  | .readAP address | .readMem address => wordBytes address
  | .writeAP address data | .writeMem address data => wordBytes address ++ wordBytes data
  | .readDP address => [address]
  | .writeDP address data => address :: wordBytes data
  | .waitMemTrue address mask => wordBytes address ++ wordBytes mask

/-- The bytes of a command in a host packet. -/
def bytes (command : Command) : List Byte := command.opcode.code :: command.arguments

end Command

/-- The number of argument bytes behind an opcode. -/
def Opcode.arity : Opcode → Nat
  | .connect | .getProgId => 0
  | .reset | .readDP => 1
  | .readAP | .readMem => 4
  | .writeDP => 5
  | .writeAP | .writeMem | .waitMemTrue => 8

@[simp] theorem Command.length_arguments (command : Command) :
    command.arguments.length = command.opcode.arity := by
  cases command <;> rfl

@[simp] theorem Command.length_bytes (command : Command) :
    command.bytes.length = command.opcode.arity + 1 := by
  rw [Command.bytes, List.length_cons, Command.length_arguments]

/-- Every opcode with as many bytes as it takes is a command. -/
theorem Opcode.exists_command (opcode : Opcode) {bytes : List Byte}
    (all : bytes.length = opcode.arity) :
    ∃ command : Command, command.opcode = opcode ∧ command.arguments = bytes := by
  have two (eight : bytes.length = 8) : ∃ one two, wordBytes one ++ wordBytes two = bytes := by
    obtain ⟨one, first⟩ := exists_wordBytes
      (show (bytes.take 4).length = 4 by rw [List.length_take, eight]; rfl)
    obtain ⟨two, second⟩ := exists_wordBytes
      (show (bytes.drop 4).length = 4 by rw [List.length_drop, eight])
    exact ⟨one, two, by rw [first, second, List.take_append_drop]⟩
  cases opcode with
  | connect => exact ⟨.connect, rfl, (List.length_eq_zero_iff.mp all).symm⟩
  | getProgId => exact ⟨.getProgId, rfl, (List.length_eq_zero_iff.mp all).symm⟩
  | reset =>
      obtain ⟨state, rfl⟩ := List.length_eq_one_iff.mp all
      exact ⟨.reset state, rfl, rfl⟩
  | readDP =>
      obtain ⟨address, rfl⟩ := List.length_eq_one_iff.mp all
      exact ⟨.readDP address, rfl, rfl⟩
  | readAP =>
      obtain ⟨address, rfl⟩ := exists_wordBytes all
      exact ⟨.readAP address, rfl, rfl⟩
  | readMem =>
      obtain ⟨address, rfl⟩ := exists_wordBytes all
      exact ⟨.readMem address, rfl, rfl⟩
  | writeDP =>
      obtain ⟨address, rest, rfl⟩ := List.exists_cons_of_length_eq_add_one all
      obtain ⟨data, rfl⟩ := exists_wordBytes (Nat.succ.inj all)
      exact ⟨.writeDP address data, rfl, rfl⟩
  | writeAP =>
      obtain ⟨address, data, rfl⟩ := two all
      exact ⟨.writeAP address data, rfl, rfl⟩
  | writeMem =>
      obtain ⟨address, data, rfl⟩ := two all
      exact ⟨.writeMem address data, rfl, rfl⟩
  | waitMemTrue =>
      obtain ⟨address, mask, rfl⟩ := two all
      exact ⟨.waitMemTrue address mask, rfl, rfl⟩

/-- The payload of a packet of commands, closed by at most one opcode that no case handles. -/
def packetBytes (commands : List Command) (unknown : Option Byte) : List Byte :=
  commands.flatMap Command.bytes ++ unknown.toList

end Swagger
