/-
**The low-level SWD driver, `low_level.cpp`.**

The class `SWDInterfaceBase` leaves the pins to the classes derived from it: they are virtual
methods. `SWDInterfaceBase` lists these methods, and the functions of the class are those of the
source over any pins.

On a `Bench` the target sees the clock and one line. The line carries what the host drives, or what
the target drives; when neither drives it, or both do, its level is arbitrary (`noise`). A step of
the target is a rising edge of the clock. `Bench.pins` are the pins of a bench.

`data` is a reference parameter of `doReadTransaction`: it is passed in, and handed back as the
function leaves it.
-/

import Swagger.Firmware.SwdTarget

namespace Swagger.Firmware

/-! ### The class -/

/-- The virtual methods, on pins in a state `σ`. -/
structure SWDInterfaceBase (σ : Type) where
  configDataPin : (output : Bool) → σ → σ
  setDataPin : (v : Bool) → σ → σ
  getDataPin : σ → Bool
  setClockPin : (v : Bool) → σ → σ
  doDelay : σ → σ

def calcParity (x : Word) : Bool :=
  let y := x ^^^ x >>> 1
  let y := y ^^^ y >>> 2
  let y := y ^^^ y >>> 4
  let y := y ^^^ y >>> 8
  let y := y ^^^ y >>> 16
  decide (y &&& 1 ≠ 0)

def swdFail : Byte := 4

namespace SWDInterfaceBase

variable {σ : Type} (base : SWDInterfaceBase σ)

/-! ### Bits -/

def clockStrobe (state : σ) : σ :=
  let state := base.setClockPin false state
  let state := base.doDelay state
  let state := base.setClockPin true state
  base.doDelay state

def writeBit (v : Bool) (state : σ) : σ :=
  let state := base.setDataPin v state
  base.clockStrobe state

def readBit (state : σ) : Bool × σ :=
  let state := base.setClockPin false state
  let state := base.doDelay state
  let b := base.getDataPin state
  let state := base.setClockPin true state
  (b, base.doDelay state)

/-- The loop of `writeWord32`, by the rounds that are left. -/
def writeBits : Nat → Word → σ → σ
  | 0, _, state => state
  | rounds + 1, data, state =>
      writeBits rounds (data >>> 1) (base.writeBit (decide (data &&& 1 ≠ 0)) state)

def writeWord32 (data : Word) (state : σ) : σ := base.writeBits 32 data state

def readAck (state : σ) : Byte × σ :=
  let state := base.configDataPin false state
  let (bit0, state) := base.readBit state
  let (bit1, state) := base.readBit state
  let (bit2, state) := base.readBit state
  let swdcode : Byte := 0
  let swdcode := if bit0 then swdcode ||| 1 else swdcode
  let swdcode := if bit1 then swdcode ||| 2 else swdcode
  let swdcode := if bit2 then swdcode ||| 4 else swdcode
  (swdcode, state)

/-- A loop of `writeBit(v)`. -/
def repeatBit (v : Bool) : Nat → σ → σ
  | 0, state => state
  | rounds + 1, state => repeatBit v rounds (base.writeBit v state)

def lineReset (state : σ) : σ :=
  let state := base.configDataPin true state
  base.repeatBit true 64 state

def lineIdle (state : σ) : σ :=
  let state := base.setDataPin false state
  let state := base.configDataPin true state
  base.repeatBit false 8 state

/-- A loop of `readBit()` whose results are dropped. -/
def skipBits : Nat → σ → σ
  | 0, state => state
  | rounds + 1, state => skipBits rounds (base.readBit state).2

/-- The loop that reads the data of a transaction, by the rounds that are left. -/
def readBits : Nat → Word → σ → Word × σ
  | 0, data, state => (data, state)
  | rounds + 1, data, state =>
      let data := data >>> 1
      let (bit, state) := base.readBit state
      readBits rounds (if bit then data ||| 0x80000000 else data) state

/-! ### Transactions -/

/-- The start of a transaction up to its acknowledgement, which reads and writes share. -/
def request (apNotDp readNotWrite : Bool) (address : Byte) (state : σ) : Byte × σ :=
  let a2 := decide (address &&& 1 > 0)
  let a3 := decide (address &&& 2 > 0)
  let state := base.configDataPin true state
  let state := base.writeBit false state
  let parity := readNotWrite ^^ apNotDp ^^ a2 ^^ a3
  let state := base.writeBit true state
  let state := base.writeBit apNotDp state
  let state := base.writeBit readNotWrite state
  let state := base.writeBit a2 state
  let state := base.writeBit a3 state
  let state := base.writeBit parity state
  let state := base.writeBit false state
  let state := base.writeBit true state
  let state := base.configDataPin false state
  let state := (base.readBit state).2
  base.readAck state

/-- The end of a transaction that is refused with FAIL or WAIT. -/
def endRefused (state : σ) : σ :=
  let state := (base.readBit state).2
  let state := base.configDataPin true state
  base.setDataPin true state

/-- The end of a transaction with an acknowledgement that is none. -/
def endProtocolError (state : σ) : σ :=
  let state := base.skipBits 33 state
  let state := base.lineIdle state
  base.setDataPin true state

def doReadTransaction (apNotDp : Bool) (address : Byte) (data : Word) (state : σ) :
    Byte × Word × σ :=
  let (swdcode, state) := base.request apNotDp true address state
  if swdcode = swdOk then
    let (data, state) := base.readBits 32 0 state
    let (parity, state) := base.readBit state
    let swdcode := if calcParity data ≠ parity then 4 else swdcode
    -- the turnaround: unlike on the other paths, the pin is an output first
    let state := base.configDataPin true state
    let state := base.writeBit false state
    let state := base.lineIdle state
    let state := base.setDataPin true state
    (swdcode, data, state)
  else if swdcode = swdFail ∨ swdcode = swdWait then (swdcode, data, base.endRefused state)
  else (swdcode, data, base.endProtocolError state)

def doWriteTransaction (apNotDp : Bool) (address : Byte) (data : Word) (state : σ) : Byte × σ :=
  let (swdcode, state) := base.request apNotDp false address state
  if swdcode = swdOk then
    let state := (base.readBit state).2
    let state := base.configDataPin true state
    let state := base.writeWord32 data state
    let state := base.writeBit (calcParity data) state
    let state := base.lineIdle state
    let state := base.setDataPin true state
    (swdcode, state)
  else if swdcode = swdFail ∨ swdcode = swdWait then (swdcode, base.endRefused state)
  else (swdcode, base.endProtocolError state)

def doConnect (state : σ) : Byte × Word × σ :=
  let idcode : Word := 0
  let state := base.configDataPin true state
  let state := base.lineReset state
  let state := base.writeWord32 0xE79E state
  let state := base.lineReset state
  let state := base.lineIdle state
  let state := base.setDataPin true state
  base.doReadTransaction false 0 idcode state

/-- The transactions as the mid-level driver calls them. A word that is read without OK is not
used, so the driver's variable may hold 0 before. -/
def port (setReset : Bool → σ → σ) : SwdPort σ where
  setReset
  doConnect := base.doConnect
  doReadTransaction apNotDp bits state := base.doReadTransaction apNotDp bits 0 state
  doWriteTransaction apNotDp bits data state := base.doWriteTransaction apNotDp bits data state

end SWDInterfaceBase

/-! ### A target behind the pins -/

/-- The pins of the host and the target behind them. `cycles` counts the rising edges. -/
structure Bench (τ : Type) where
  hostOutput : Bool
  level : Bool
  clock : Bool
  cycles : Nat
  wire : TargetState τ

namespace Bench

variable {τ : Type} (target : SwdTarget τ) (noise : Nat → Bool)

/-- The level of the data line. -/
def line (bench : Bench τ) : Bool :=
  match bench.hostOutput, bench.wire.drives with
  | true, none => bench.level
  | false, some bit => bit
  | _, _ => noise bench.cycles

def configDataPin (output : Bool) (bench : Bench τ) : Bench τ := { bench with hostOutput := output }

def setDataPin (v : Bool) (bench : Bench τ) : Bench τ := { bench with level := v }

def getDataPin (bench : Bench τ) : Bool := bench.line noise

def setClockPin (v : Bool) (bench : Bench τ) : Bench τ :=
  if v = true ∧ bench.clock = false then
    { bench with
      clock := true
      cycles := bench.cycles + 1
      wire := bench.wire.step target (bench.line noise) }
  else { bench with clock := v }

/-- The pins with a target on the wire. A delay moves nothing. -/
def pins : SWDInterfaceBase (Bench τ) where
  configDataPin := configDataPin
  setDataPin := setDataPin
  getDataPin := getDataPin noise
  setClockPin := setClockPin target noise
  doDelay := id

theorem pins_configDataPin (output : Bool) (bench : Bench τ) :
    (pins target noise).configDataPin output bench = bench.configDataPin output := rfl

end Bench

end Swagger.Firmware
