/-
**The firmware's main program, `swdinterface.ino`.**

The state holds the global variables, the locals of `loop()` while a packet is interpreted, the
target behind the driver, and the replies handed to `Serial.write`. A write outside an array has no
result, so every function that writes is partial.

* `receive` is what `loop()` does with one byte, `interpret` one round of `while (ptr < endptr)`,
  `command` the `switch`. The one case that neither returns nor advances `ptr` is a
  `WAIT MEMORY TRUE` that timed out.
* Local arrays are not initialised: the board says what each of them holds at first. A read behind
  the decoded bytes sees that.
* Pointers have 16 bits. `ptr` is kept as an index into `decodebuffer`, `endptr` as an address.
* `Event` is ghost state: what was read, decoded and encoded on the way.

The steps of the program are `lts`: `loop()` is called, returns when no byte is available, reads a
byte (the visible label), or goes one round on in a packet.
-/

import Swagger.Firmware.Cobs
import Swagger.Firmware.MidLevel
import Swagger.Library.Transition

namespace Swagger.Firmware

/-- `MAX_RETRIES` of `swdinterface.ino`. -/
def maxRetries : Nat := 100

/-- What a run does on the way. -/
inductive Event
  /-- `UnStuffData` returned this number of bytes. -/
  | decoded (bytes : Nat)
  /-- `decodebuffer[index]` was read in a packet of so many decoded bytes. -/
  | fetched (index decoded : Nat)
  /-- `StuffData` wrote so many bytes, and so many were handed to `Serial.write`. -/
  | stuffed (written handed : Nat)
  deriving DecidableEq, Repr

/-- The surroundings of the program: the driver, the first contents of each local array, and the
address of `decodebuffer` in the SRAM of the controller. -/
structure Board (σ : Type) where
  driver : Driver σ
  locals : Nat → Nat → Byte
  decodebuffer : Nat
  above : 0x100 ≤ decodebuffer
  below : decodebuffer + 64 ≤ 0x900

/-- The locals of `loop()` while a packet is interpreted. -/
structure Cursor where
  decodebuffer : Buffer 64
  decoded : Nat
  ptr : Nat
  endptr : Nat

/-- Where the program is: not in `loop()`, at `Serial.available()`, or at `ptr < endptr`. -/
inductive Control
  | outside
  | receiving
  | interpreting (cursor : Cursor)

/-- The state of the program. `arrays` counts the local arrays so far. -/
structure Programmer (σ : Type) where
  rxbuffer : Buffer 64
  rxidx : Nat
  txbuffer : Buffer 64
  txidx : Nat
  control : Control
  target : σ
  sent : List (List Byte)
  events : List Event
  arrays : Nat

namespace Programmer

/-- The state after `setup()`. -/
def boot {σ : Type} (target : σ) : Programmer σ where
  rxbuffer := { cell := fun _ => 0 }
  rxidx := 0
  txbuffer := { cell := fun _ => 0 }
  txidx := 1
  control := .outside
  target := target
  sent := []
  events := []
  arrays := 0

section Functions

variable {σ : Type} (board : Board σ)

/-! ### Reading the packet -/

/-- `ptr[offset]`. -/
def fetch (cursor : Cursor) (offset : Nat) (prog : Programmer σ) : Byte × Programmer σ :=
  (cursor.decodebuffer.cell (cursor.ptr + offset),
    { prog with events := prog.events ++ [.fetched (cursor.ptr + offset) cursor.decoded] })

/-- `getUInt32(ptr + offset)`. -/
def getUInt32 (cursor : Cursor) (offset : Nat) (prog : Programmer σ) : Word × Programmer σ :=
  let (b0, prog) := prog.fetch cursor offset
  let (b1, prog) := prog.fetch cursor (offset + 1)
  let (b2, prog) := prog.fetch cursor (offset + 2)
  let (b3, prog) := prog.fetch cursor (offset + 3)
  (wordOfBytes b0 b1 b2 b3, prog)

/-! ### Replying -/

def queueReplyUInt8 (b : Byte) (prog : Programmer σ) : Option (Bool × Programmer σ) :=
  if prog.txidx ≥ 64 then some (false, prog)
  else do
    let txbuffer ← prog.txbuffer.write prog.txidx b
    return (true, { prog with txbuffer, txidx := prog.txidx + 1 })

def queueReplyUInt32 (w : Word) (prog : Programmer σ) : Option (Bool × Programmer σ) :=
  if prog.txidx + 4 ≥ 64 then some (false, prog)
  else do
    let txbuffer ← prog.txbuffer.write prog.txidx (byteOfWord w 0)
    let txbuffer ← txbuffer.write (prog.txidx + 1) (byteOfWord w 1)
    let txbuffer ← txbuffer.write (prog.txidx + 2) (byteOfWord w 2)
    let txbuffer ← txbuffer.write (prog.txidx + 3) (byteOfWord w 3)
    return (true, { prog with txbuffer, txidx := prog.txidx + 4 })

def sendReply (replyStatus : Byte) (prog : Programmer σ) : Option (Programmer σ) := do
  let encodebuffer : Buffer 66 := { cell := board.locals prog.arrays }
  let txbuffer ← prog.txbuffer.write 0 replyStatus
  let (written, encodebuffer) ← stuffData (txbuffer.firstBytes prog.txidx) encodebuffer
  let length ← strlen encodebuffer
  return { prog with
    txbuffer
    txidx := 1
    sent := prog.sent ++ [encodebuffer.firstBytes (length + 1)]
    events := prog.events ++ [.stuffed written (length + 1)]
    arrays := prog.arrays + 1 }

/-- `sendReply(replyStatus); return;` -/
def abort (replyStatus : Byte) (prog : Programmer σ) : Option (Programmer σ) := do
  let prog ← prog.sendReply board replyStatus
  return { prog with control := .outside }

/-! ### The commands -/

/-- `ptr += count`, and the next round. -/
def advance (cursor : Cursor) (count : Nat) (prog : Programmer σ) : Programmer σ :=
  { prog with control := .interpreting { cursor with ptr := cursor.ptr + count } }

/-- The end of a case that answers with a word. -/
def answerWord (cursor : Cursor) (count : Nat) (response : Byte × Word × σ)
    (prog : Programmer σ) : Option (Programmer σ) :=
  let (stat, data32, target) := response
  let prog := { prog with target }
  if stat = Status.ok.code then do
    let (_, prog) ← prog.queueReplyUInt32 data32
    return prog.advance cursor count
  else prog.abort board stat

/-- The end of a case that answers with its status alone. -/
def acknowledge (cursor : Cursor) (count : Nat) (response : Byte × σ) (prog : Programmer σ) :
    Option (Programmer σ) :=
  let (stat, target) := response
  let prog := { prog with target }
  if stat = Status.ok.code then some (prog.advance cursor count)
  else prog.abort board stat

/-- The end of `WRITE MEMORY`: as the others, but a failure also sets `g_rxidx`. -/
def endWriteMem (cursor : Cursor) (count : Nat) (response : Byte × σ) (prog : Programmer σ) :
    Option (Programmer σ) :=
  let (stat, target) := response
  let prog := { prog with target }
  if stat = Status.ok.code then some (prog.advance cursor count)
  else do
    let prog ← prog.abort board stat
    return { prog with rxidx := 0 }

/-- How the loop of `WAIT MEMORY TRUE` ends. -/
inductive Waited
  | matched
  | failed (stat : Byte)
  | timedOut

/-- `while (retries < MAX_RETRIES)` of `WAIT MEMORY TRUE`, by the retries that are left. -/
def waitLoop (driver : Driver σ) (address mask32 : Word) : Nat → σ → Waited × σ
  | 0, target => (.timedOut, target)
  | retries + 1, target =>
      let (stat, data32, target) := driver.readMemory address target
      if stat = Status.ok.code then
        if data32 &&& mask32 = mask32 then (.matched, target)
        else waitLoop driver address mask32 retries target
      else (.failed stat, target)

/-- The end of `WAIT MEMORY TRUE`. Behind the reply of a time-out there is neither a `return` nor a
change of `ptr`, so the next round finds the same command. -/
def endWait (cursor : Cursor) (count : Nat) (result : Waited × σ) (prog : Programmer σ) :
    Option (Programmer σ) :=
  let (waited, target) := result
  let prog := { prog with target }
  match waited with
  | .matched => some (prog.advance cursor count)
  | .failed stat => prog.abort board stat
  | .timedOut => do
      let prog ← prog.sendReply board Status.timeout.code
      return prog.advance cursor 0

/-- The `switch` on the opcode. -/
def command (cursor : Cursor) (prog : Programmer σ) : Option (Programmer σ) :=
  let (opcode, prog) := prog.fetch cursor 0
  match Opcode.ofCode? opcode with
  | none => do
      let (_, prog) ← prog.queueReplyUInt32 0xDEADBEEF
      prog.abort board Status.unknownCmd.code
  | some .reset =>
      let (state, prog) := prog.fetch cursor 1
      let prog := { prog with target := board.driver.setReset (decide (0 < state)) prog.target }
      some (prog.advance cursor 2)
  | some .connect => prog.answerWord board cursor 1 (board.driver.tryConnect prog.target)
  | some .readDP =>
      let (address, prog) := prog.fetch cursor 1
      prog.answerWord board cursor 2 (board.driver.readDP (address.setWidth 32) prog.target)
  | some .writeDP =>
      let (address, prog) := prog.fetch cursor 1
      let (data32, prog) := prog.getUInt32 cursor 2
      prog.acknowledge board cursor 6
        (board.driver.writeDP (address.setWidth 32) data32 prog.target)
  | some .readAP =>
      let (address, prog) := prog.getUInt32 cursor 1
      prog.answerWord board cursor 5 (board.driver.readAP address prog.target)
  | some .writeAP =>
      let (address, prog) := prog.getUInt32 cursor 1
      let (data32, prog) := prog.getUInt32 cursor 5
      prog.acknowledge board cursor 9 (board.driver.writeAP address data32 prog.target)
  | some .readMem =>
      let (address, prog) := prog.getUInt32 cursor 1
      prog.answerWord board cursor 5 (board.driver.readMemory address prog.target)
  | some .waitMemTrue =>
      let (address, prog) := prog.getUInt32 cursor 1
      let (mask32, prog) := prog.getUInt32 cursor 5
      prog.endWait board cursor 9 (waitLoop board.driver address mask32 maxRetries prog.target)
  | some .writeMem =>
      let (address, prog) := prog.getUInt32 cursor 1
      let (data32, prog) := prog.getUInt32 cursor 5
      prog.endWriteMem board cursor 9 (board.driver.writeMemory address data32 prog.target)
  | some .getProgId => do
      let (_, prog) ← prog.queueReplyUInt8 0x01
      let (_, prog) ← prog.queueReplyUInt8 64
      let (_, prog) ← prog.queueReplyUInt8 0
      return prog.advance cursor 1

/-- One round of `while (ptr < endptr)`; behind the loop the reply is OK. -/
def interpret (cursor : Cursor) (prog : Programmer σ) : Option (Programmer σ) :=
  if board.decodebuffer + cursor.ptr < cursor.endptr then prog.command board cursor
  else do
    let prog ← prog.sendReply board Status.ok.code
    return { prog with control := .receiving }

/-! ### Receiving -/

/-- One byte from `Serial.read()`. -/
def receive (byteRead : Byte) (prog : Programmer σ) : Option (Programmer σ) :=
  if byteRead ≠ 0 then
    if prog.rxidx ≥ 64 then
      abort board Status.rxOverflow.code { prog with txidx := 1, rxidx := 0 }
    else do
      let rxbuffer ← prog.rxbuffer.write prog.rxidx byteRead
      return { prog with rxbuffer, rxidx := prog.rxidx + 1 }
  else do
    let decodebuffer : Buffer 64 := { cell := board.locals prog.arrays }
    let (decoded, decodebuffer) ← unStuffData (prog.rxbuffer.firstBytes prog.rxidx) decodebuffer
    let bytes : BitVec 32 := BitVec.ofNat 32 decoded - 1
    let endptr := (board.decodebuffer + bytes.toNat) % 2 ^ 16
    return { prog with
      rxidx := 0
      control := .interpreting { decodebuffer, decoded, ptr := 0, endptr }
      events := prog.events ++ [.decoded decoded]
      arrays := prog.arrays + 1 }

/-- The steps of the program. Between two bytes `loop()` may return and be called again any number
of times. -/
def lts : Library.Lts (Programmer σ) Byte where
  step prog label prog' :=
    match prog.control, label with
    | .outside, none => prog' = { prog with control := .receiving }
    | .receiving, none => prog' = { prog with control := .outside }
    | .receiving, some byteRead => prog.receive board byteRead = some prog'
    | .interpreting cursor, none => prog.interpret board cursor = some prog'
    | _, some _ => False

end Functions

end Programmer

end Swagger.Firmware
