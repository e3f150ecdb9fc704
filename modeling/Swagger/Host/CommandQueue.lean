/-
**The queues behind the script functions, `src/squirrel_funcs.cpp`.**

The script sees two byte queues and five functions on them: `queueUInt8` and `queueUInt32` append to
the command queue, `executeCmdQueue` sends it as a packet and receives the result queue,
`popUInt8` and `popUInt32` take integers off the result queue.

The width of a script's integer is that of the build: `squirrel.h` makes it 64 bits when it defines
`_SQ64`, as for a 64-bit target, and 32 bits otherwise. The build assumed here is the 32-bit one
(`SQInteger`), and with it whatever is said of the scripts.

The packet layer is a parameter (`Link`): a write and a read that may succeed or fail, and a read
that fails leaves an empty vector empty, which `HardwareInterface.link` obeys. `Link.logged` records
what each read delivered.
-/

import Swagger.Host.HardwareInterface

namespace Swagger.Host

/-- The script's integers in a 32-bit build. -/
abbrev SQInteger := BitVec 32

/-! ### The packet layer, as the queues use it -/

/-- `writePacket` and `readPacket` of some transport. -/
structure Link (σ : Type) where
  writePacket : List Byte → σ → Bool × σ
  readPacket : List Byte → σ → Bool × List Byte × σ
  failed_empty : ∀ state, (readPacket [] state).1 = false → (readPacket [] state).2.1 = []

/-- The packet layer of `hardwareinterface.cpp`. -/
def HardwareInterface.link : Link HardwareInterface where
  writePacket := HardwareInterface.writePacket
  readPacket := HardwareInterface.readPacket
  failed_empty := HardwareInterface.readPacket_failed

namespace Link

variable {σ : Type} (link : Link σ)

/-- The packet that arrives in answer to a packet, if any, and the transport afterwards. A failed
write does not keep the read from happening. -/
def exchange (packet : List Byte) (state : σ) : Option (List Byte) × σ :=
  let read := link.readPacket [] (link.writePacket packet state).2
  (if read.1 then some read.2.1 else none, read.2.2)

/-- The transport with a record of what each read delivered. -/
def logged : Link (σ × List (Option (List Byte))) where
  writePacket packet state :=
    let written := link.writePacket packet state.1
    (written.1, written.2, state.2)
  readPacket data state :=
    let read := link.readPacket data state.1
    (read.1, read.2.1, read.2.2, state.2 ++ [if read.1 then some read.2.1 else none])
  failed_empty state failed := link.failed_empty state.1 failed

@[simp] theorem logged_exchange (packet : List Byte) (state : σ)
    (log : List (Option (List Byte))) :
    link.logged.exchange packet (state, log) =
      ((link.exchange packet state).1,
        ((link.exchange packet state).2, log ++ [(link.exchange packet state).1])) := rfl

end Link

/-! ### The queues -/

/-- `g_cmdQueue`, `g_resultQueue` and the transport. -/
structure Queues (σ : Type) where
  cmdQueue : List Byte
  resultQueue : List Byte
  state : σ

section Functions

variable {σ : Type} (link : Link σ)

def queueUInt8 (byte : SQInteger) (queues : Queues σ) : Queues σ :=
  { queues with cmdQueue := queues.cmdQueue ++ [byte.setWidth 8] }

/-- The byte `(word >> shift) & 0xFF`; the shift of a `SQInteger` copies its sign. -/
def shiftedByte (word : SQInteger) (shift : Nat) : Byte :=
  (word.sshiftRight shift &&& 0xFF#32).setWidth 8

def queueUInt32 (word : SQInteger) (queues : Queues σ) : Queues σ :=
  { queues with
    cmdQueue := queues.cmdQueue ++
      [shiftedByte word 0, shiftedByte word 8, shiftedByte word 16, shiftedByte word 24] }

def clearCmdQueue (queues : Queues σ) : Queues σ := { queues with cmdQueue := [] }

/-- `executeCmdQueue`. The codes 1 and 2 are pushed on the script's stack and the function goes
on, so the value it returns is the one pushed last. -/
def executeCmdQueue (queues : Queues σ) : SQInteger × Queues σ :=
  let written := link.writePacket queues.cmdQueue queues.state
  let stack : List SQInteger := if written.1 = false then [1] else []
  let read := link.readPacket [] written.2
  let stack := if read.1 = false then 2 :: stack else stack
  let stack := 0 :: stack
  (stack.headD 0, { queues with resultQueue := read.2.1, state := read.2.2 })

def popUInt8 (queues : Queues σ) : SQInteger × Queues σ :=
  match queues.resultQueue with
  | byte :: rest => (byte.setWidth 32, { queues with resultQueue := rest })
  | [] => (0, queues)

def popUInt32 (queues : Queues σ) : SQInteger × Queues σ :=
  match queues.resultQueue with
  | b0 :: b1 :: b2 :: b3 :: rest => (wordOfBytes b0 b1 b2 b3, { queues with resultQueue := rest })
  | _ => (0, queues)

/-! ### Laws of the queue functions -/

/-- The byte that is queued does not depend on the sign. -/
theorem shiftedByte_eq (word : SQInteger) (index : Nat) (inside : index ≤ 3) :
    shiftedByte word (8 * index) = byteOfWord word index := by
  apply BitVec.eq_of_getLsbD_eq
  intro bit small
  simp only [shiftedByte, byteOfWord, BitVec.getLsbD_setWidth, BitVec.getLsbD_and,
    BitVec.getLsbD_sshiftRight, BitVec.getLsbD_ushiftRight]
  have low : 8 * index + bit < 32 := by omega
  have outside : decide (32 ≤ bit) = false := by
    rw [decide_eq_false_iff_not]
    omega
  rw [if_pos low, outside, Bool.not_false, Bool.true_and]

/-- A queued word is its four bytes, lowest first. -/
theorem queueUInt32_eq (word : SQInteger) (queues : Queues σ) :
    queueUInt32 word queues = { queues with cmdQueue := queues.cmdQueue ++ wordBytes word } := by
  have byte0 := shiftedByte_eq word 0 (by norm_num)
  have byte1 := shiftedByte_eq word 1 (by norm_num)
  have byte2 := shiftedByte_eq word 2 (by norm_num)
  have byte3 := shiftedByte_eq word 3 (by norm_num)
  norm_num at byte0 byte1 byte2 byte3
  rw [queueUInt32, wordBytes, byte0, byte1, byte2, byte3]

/-- The result queue is the packet that arrived, and empty if none did. -/
theorem executeCmdQueue_snd (queues : Queues σ) :
    (executeCmdQueue link queues).2 =
      { cmdQueue := queues.cmdQueue
        resultQueue := (link.exchange queues.cmdQueue queues.state).1.getD []
        state := (link.exchange queues.cmdQueue queues.state).2 } := by
  have empty := link.failed_empty (link.writePacket queues.cmdQueue queues.state).2
  rw [executeCmdQueue, Link.exchange]
  simp only
  cases success : (link.readPacket [] (link.writePacket queues.cmdQueue queues.state).2).1 with
  | false => rw [empty success]; rfl
  | true => rfl

@[simp] theorem popUInt32_state (queues : Queues σ) :
    (popUInt32 queues).2.state = queues.state := by
  unfold popUInt32
  split <;> rfl

/-- A queue of fewer than four bytes pops the word 0. -/
theorem popUInt32_short (queues : Queues σ) (short : queues.resultQueue.length < 4) :
    popUInt32 queues = (0, queues) := by
  unfold popUInt32
  split
  · rename_i b0 b1 b2 b3 rest queue
    rw [queue] at short
    simp at short
    omega
  · rfl

/-- A word at the front of the result queue is popped as a whole. -/
theorem popUInt32_word (word : Word) (rest cmdQueue : List Byte) (state : σ) :
    popUInt32 { cmdQueue, resultQueue := wordBytes word ++ rest, state } =
      (word, { cmdQueue, resultQueue := rest, state }) := by
  simp only [wordBytes, List.cons_append, List.nil_append, popUInt32, wordOfBytes_byteOfWord]

end Functions

end Swagger.Host
