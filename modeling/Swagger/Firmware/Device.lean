/-
**What the programmer is for: an abstract device.**

The device has lists where the program has arrays and indices, runs commands where the program has
a `switch`, and does not know about calls of `loop()`. Its steps are total functions (`receive`,
`round`), so its runs are determined by the bytes it reads (`deterministic`).

* `runCommand` is the meaning of one command: the results it queues, or a failure, or the time-out
  of a wait.
* `commandAt` reads the command that lies at an index of the packet memory. Behind the
  decoded bytes the memory holds what was there before (`overlay`).
* A result that does not fit the reply is dropped (`Result.queue`).

`Refinement.lean` proves that the program does what the device does.
-/

import Swagger.Firmware.Loop

namespace Swagger.Firmware

/-! ### The meaning of a command -/

/-- A result that is queued as a whole. -/
inductive Result
  | word (value : Word)
  | byte (value : Byte)
  deriving DecidableEq, Repr

namespace Result

def bytes : Result → List Byte
  | .word value => wordBytes value
  | .byte value => [value]

/-- The results in the reply after one more: a word needs a byte of room behind it. -/
def queue (queued : List Byte) : Result → List Byte
  | .word value => if queued.length + 5 ≥ 64 then queued else queued ++ wordBytes value
  | .byte value => if queued.length + 1 ≥ 64 then queued else queued ++ [value]

end Result

/-- How a command ends. -/
inductive Outcome
  | done (results : List Result)
  | failed (status : Byte)
  | timedOut
  deriving DecidableEq, Repr

/-- A command that answers with a word. -/
def Outcome.ofRead {σ : Type} (response : Byte × Word × σ) : Outcome × σ :=
  (if response.1 = Status.ok.code then .done [.word response.2.1] else .failed response.1,
    response.2.2)

/-- A command that answers with its status alone. -/
def Outcome.ofWrite {σ : Type} (response : Byte × σ) : Outcome × σ :=
  (if response.1 = Status.ok.code then .done [] else .failed response.1, response.2)

/-- A wait: no result, and a time-out is an outcome of its own. -/
def Outcome.ofWait {σ : Type} (result : Programmer.Waited × σ) : Outcome × σ :=
  (match result.1 with
    | .matched => .done []
    | .failed status => .failed status
    | .timedOut => .timedOut,
    result.2)

/-- The words that `GET INTERFACE INFO` queues: version, and the size of the receive buffer. -/
def interfaceInfo : List Result := [.byte 0x01, .byte 64, .byte 0]

/-- One command at the target. -/
def runCommand {σ : Type} (driver : Driver σ) : Command → σ → Outcome × σ
  | .connect, target => Outcome.ofRead (driver.tryConnect target)
  | .reset state, target => (.done [], driver.setReset (decide (0 < state)) target)
  | .readAP address, target => Outcome.ofRead (driver.readAP address target)
  | .writeAP address data, target => Outcome.ofWrite (driver.writeAP address data target)
  | .readDP address, target => Outcome.ofRead (driver.readDP (address.setWidth 32) target)
  | .writeDP address data, target =>
      Outcome.ofWrite (driver.writeDP (address.setWidth 32) data target)
  | .readMem address, target => Outcome.ofRead (driver.readMemory address target)
  | .writeMem address data, target => Outcome.ofWrite (driver.writeMemory address data target)
  | .waitMemTrue address mask, target =>
      Outcome.ofWait (Programmer.waitLoop driver address mask maxRetries target)
  | .getProgId, target => (.done interfaceInfo, target)

/-! ### The packet in memory -/

/-- A memory that holds a list, and behind it what was there before. -/
def overlay (list : List Byte) (before : Nat → Byte) (index : Nat) : Byte :=
  list[index]?.getD (before index)

def wordAt (memory : Nat → Byte) (index : Nat) : Word :=
  wordOfBytes (memory index) (memory (index + 1)) (memory (index + 2)) (memory (index + 3))

/-- The command of an opcode, with its arguments from the memory. -/
def commandAt (memory : Nat → Byte) (index : Nat) : Opcode → Command
  | .connect => .connect
  | .reset => .reset (memory (index + 1))
  | .readAP => .readAP (wordAt memory (index + 1))
  | .writeAP => .writeAP (wordAt memory (index + 1)) (wordAt memory (index + 5))
  | .readDP => .readDP (memory (index + 1))
  | .writeDP => .writeDP (memory (index + 1)) (wordAt memory (index + 2))
  | .readMem => .readMem (wordAt memory (index + 1))
  | .writeMem => .writeMem (wordAt memory (index + 1)) (wordAt memory (index + 5))
  | .waitMemTrue => .waitMemTrue (wordAt memory (index + 1)) (wordAt memory (index + 5))
  | .getProgId => .getProgId

/-- The packet that is interpreted: the memory it lies in, its decoded length with the terminator,
and the index of the next command. -/
structure Packet where
  memory : Nat → Byte
  decoded : Nat
  index : Nat

/-- The reads of `count` bytes from the index on. -/
def Packet.fetches (packet : Packet) (count : Nat) : List Event :=
  (List.range count).map fun offset => .fetched (packet.index + offset) packet.decoded

def Packet.advance (packet : Packet) (count : Nat) : Packet :=
  { packet with index := packet.index + count }

/-! ### The device -/

inductive Phase
  | waiting
  | interpreting (packet : Packet)

structure Device (σ : Type) where
  received : List Byte
  queued : List Byte
  target : σ
  phase : Phase
  sent : List (List Byte)
  events : List Event
  arrays : Nat

/-- The frame of a payload on the line. -/
def frameOf (payload : List Byte) : List Byte := cobs.stuff [] payload ++ [0]

namespace Device

section Functions

variable {σ : Type} (board : Board σ)

/-- Send the status and the queued results. -/
def reply (status : Byte) (device : Device σ) : Device σ :=
  let frame := frameOf (status :: device.queued)
  { device with
    queued := []
    sent := device.sent ++ [frame]
    events := device.events ++ [.stuffed frame.length frame.length]
    arrays := device.arrays + 1 }

/-- Send a reply and wait for the next packet. -/
def finish (status : Byte) (device : Device σ) : Device σ :=
  { device.reply status with phase := .waiting }

/-- Queue results, as far as they fit. -/
def queue (results : List Result) (device : Device σ) : Device σ :=
  { device with queued := results.foldl Result.queue device.queued }

/-- Note the reads of the next bytes of the packet. -/
def fetch (packet : Packet) (count : Nat) (device : Device σ) : Device σ :=
  { device with events := device.events ++ packet.fetches count }

/-- What follows from the outcome of a command of `count` bytes. -/
def conclude (packet : Packet) (count : Nat) (result : Outcome × σ) (device : Device σ) :
    Device σ :=
  let device := { device with target := result.2 }
  match result.1 with
  | .done results => { device.queue results with phase := .interpreting (packet.advance count) }
  | .failed status => device.finish status
  | .timedOut => { device.reply Status.timeout.code with phase := .interpreting packet }

/-- The command at the index. -/
def command (packet : Packet) (device : Device σ) : Device σ :=
  match Opcode.ofCode? (packet.memory packet.index) with
  | none =>
      ((device.fetch packet 1).queue [.word 0xDEADBEEF]).finish Status.unknownCmd.code
  | some opcode =>
      (device.fetch packet (opcode.arity + 1)).conclude packet (opcode.arity + 1)
        (runCommand board.driver (commandAt packet.memory packet.index opcode) device.target)

/-- One round: the command at the index if it lies in front of the last decoded byte. -/
def round (packet : Packet) (device : Device σ) : Device σ :=
  if packet.index + 1 < packet.decoded then device.command board packet
  else device.finish Status.ok.code

def receive (byteRead : Byte) (device : Device σ) : Device σ :=
  if byteRead ≠ 0 then
    if device.received.length ≥ 64 then
      finish Status.rxOverflow.code { device with received := [], queued := [] }
    else { device with received := device.received ++ [byteRead] }
  else
    let payload := cobs.unstuff device.received
    { device with
      received := []
      phase := .interpreting
        { memory := overlay payload (board.locals device.arrays)
          decoded := payload.length
          index := 0 }
      events := device.events ++ [.decoded payload.length]
      arrays := device.arrays + 1 }

/-- The steps of the device: a byte while it waits, a round while it interprets. -/
def lts : Library.Lts (Device σ) Byte where
  step device label device' :=
    match device.phase, label with
    | .waiting, some byteRead => device' = device.receive board byteRead
    | .interpreting packet, none => device' = device.round board packet
    | _, _ => False

end Functions

/-- What a step of the device is. -/
theorem step_cases {σ : Type} {board : Board σ} {device device' : Device σ} {label : Option Byte}
    (step : (Device.lts board).step device label device') :
    (∃ byteRead, label = some byteRead ∧ device.phase = .waiting ∧
        device' = device.receive board byteRead) ∨
      ∃ packet, label = none ∧ device.phase = .interpreting packet ∧
        device' = device.round board packet := by
  simp only [Device.lts] at step
  cases phase : device.phase <;> cases label <;> rw [phase] at step
  · exact step.elim
  · exact .inl ⟨_, rfl, rfl, step⟩
  · exact .inr ⟨_, rfl, rfl, step⟩
  · exact step.elim

end Device

end Swagger.Firmware
