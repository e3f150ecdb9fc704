/-
**The mid-level SWD driver, `mid_level.cpp`.**

A target is an arbitrary state with an arbitrary answer to every transaction (`SwdPort`): the acks
and data words are the target's choice. On it stands the class `ArduinoSWDInterface`, whose only
variable is the cache of the SELECT register. A `while` loop over retries is a recursion on the
retries that are left.

The command interpreter sees the class through its public functions alone, which is what `Driver`
lists, so everything about the interpreter is proved for an arbitrary `Driver`.
-/

import Swagger.Protocol

namespace Swagger.Firmware

/-! ### The ports -/

/-- The transactions of `low_level.h`, on a target in state `σ`. A transaction returns the ack
code, and a read the data word as well. -/
structure SwdPort (σ : Type) where
  setReset : Bool → σ → σ
  doConnect : σ → Byte × Word × σ
  doReadTransaction : (apNotDp : Bool) → (a23 : Byte) → σ → Byte × Word × σ
  doWriteTransaction : (apNotDp : Bool) → (a23 : Byte) → (data : Word) → σ → Byte × σ

/-- The functions of the class that the command interpreter calls. Each returns a status code, and
a read the data word as well. -/
structure Driver (σ : Type) where
  setReset : Bool → σ → σ
  tryConnect : σ → Byte × Word × σ
  readDP : (address : Word) → σ → Byte × Word × σ
  writeDP : (address data : Word) → σ → Byte × σ
  readAP : (address : Word) → σ → Byte × Word × σ
  writeAP : (address data : Word) → σ → Byte × σ
  readMemory : (address : Word) → σ → Byte × Word × σ
  writeMemory : (address data : Word) → σ → Byte × σ

/-! ### Constants -/

def swdOk : Byte := 1

def swdWait : Byte := 2

/-- `MAX_RETRIES` of `mid_level.cpp`. -/
def driverRetries : Nat := 10

def dpSelect : Word := 0x08

def dpRdbuff : Word := 0x0C

def ahbApCsw : Word := 0x00000000

def ahbApTar : Word := 0x00000004

def ahbApData : Word := 0x0000000C

/-- The fields of an AP address that go to the SELECT register. -/
def apMask : Word := 0xFF0000F0

/-- The value of `m_APcache` that equals no masked address. -/
def invalidCache : Word := 0xFFFFFFFF

/-- `(address >> 2) & 0x03`, as the `uint8_t` parameter of a transaction takes it. -/
def a23 (address : Word) : Byte := (address >>> 2 &&& 0x03#32).setWidth 8

/-! ### The class -/

/-- The target and `m_APcache`. -/
structure MidLevel (σ : Type) where
  target : σ
  apCache : Word

namespace MidLevel

/-- The driver after its construction. -/
def boot {σ : Type} (target : σ) : MidLevel σ := { target, apCache := invalidCache }

section Functions

variable {σ : Type} (port : SwdPort σ)

/-- The `switch (retval)` behind a retry loop. -/
def statusOfAck (ack : Byte) : Byte := if ack = swdOk then Status.ok.code else Status.swdFault.code

/-- The retry loop of a write: repeat while the answer is WAIT. -/
def retryWrite (apNotDp : Bool) (address data : Word) : Nat → MidLevel σ → Byte × MidLevel σ
  | 0, state => (Status.timeout.code, state)
  | retries + 1, state =>
      let (ack, target) := port.doWriteTransaction apNotDp (a23 address) data state.target
      if ack = swdWait then retryWrite apNotDp address data retries { state with target }
      else (statusOfAck ack, { state with target })

/-- The retry loop of a read: repeat while the answer is WAIT. -/
def retryRead (apNotDp : Bool) (address : Word) : Nat → MidLevel σ → Byte × Word × MidLevel σ
  | 0, state => (Status.timeout.code, 0, state)
  | retries + 1, state =>
      let (ack, data, target) := port.doReadTransaction apNotDp (a23 address) state.target
      if ack = swdWait then retryRead apNotDp address retries { state with target }
      else (statusOfAck ack, data, { state with target })

def setReset (value : Bool) (state : MidLevel σ) : MidLevel σ :=
  { state with target := port.setReset value state.target }

def tryConnect (state : MidLevel σ) : Byte × Word × MidLevel σ :=
  let state := { state with apCache := invalidCache }
  let (ack, idcode, target) := port.doConnect state.target
  (statusOfAck ack, idcode, { state with target })

def writeDP (address data : Word) (state : MidLevel σ) : Byte × MidLevel σ :=
  retryWrite port false address data driverRetries state

def readDP (address : Word) (state : MidLevel σ) : Byte × Word × MidLevel σ :=
  retryRead port false address driverRetries state

def selectAP (address : Word) (state : MidLevel σ) : Byte × MidLevel σ :=
  let ap := address &&& apMask
  if ap = state.apCache then (Status.ok.code, state)
  else
    let (retval, state) := writeDP port dpSelect ap state
    if retval = Status.ok.code then (retval, { state with apCache := ap }) else (retval, state)

def writeAP (address data : Word) (state : MidLevel σ) : Byte × MidLevel σ :=
  let (retval, state) := selectAP port address state
  if retval ≠ Status.ok.code then (retval, state)
  else retryWrite port true address data driverRetries state

/-- `readAP`: the AP read is posted, its result is fetched from RDBUFF. -/
def readAP (address : Word) (state : MidLevel σ) : Byte × Word × MidLevel σ :=
  let (retval, state) := selectAP port address state
  if retval ≠ Status.ok.code then (retval, 0, state)
  else
    let (retval, data, state) := retryRead port true address driverRetries state
    if retval ≠ Status.ok.code then (retval, data, state) else readDP port dpRdbuff state

/-- The loop of `waitForMemory`: one read more than there are retries. -/
def waitLoop : Nat → MidLevel σ → Byte × MidLevel σ
  | retries, state =>
      let (retval, data, state) := readAP port ahbApCsw state
      if retval ≠ Status.ok.code then (retval, state)
      else if data &&& 0x80 = 0 then (Status.ok.code, state)
      else match retries with
        | 0 => (Status.timeout.code, state)
        | retries + 1 => waitLoop retries state

theorem waitLoop_zero (state : MidLevel σ) :
    waitLoop port 0 state =
      let (retval, data, state) := readAP port ahbApCsw state
      if retval ≠ Status.ok.code then (retval, state)
      else if data &&& 0x80 = 0 then (Status.ok.code, state)
      else (Status.timeout.code, state) := rfl

theorem waitLoop_succ (retries : Nat) (state : MidLevel σ) :
    waitLoop port (retries + 1) state =
      let (retval, data, state) := readAP port ahbApCsw state
      if retval ≠ Status.ok.code then (retval, state)
      else if data &&& 0x80 = 0 then (Status.ok.code, state)
      else waitLoop port retries state := rfl

def waitForMemory (state : MidLevel σ) : Byte × MidLevel σ := waitLoop port driverRetries state

/-- The common start of `readMemory` and `writeMemory`: set up CSW, wait, set TAR. -/
def setUpAccess (address : Word) (state : MidLevel σ) : Byte × MidLevel σ :=
  let (retval, state) := writeAP port ahbApCsw 0x22000012 state
  if retval ≠ Status.ok.code then (retval, state)
  else
    let (retval, state) := waitForMemory port state
    if retval ≠ Status.ok.code then (retval, state)
    else writeAP port ahbApTar address state

def readMemory (address : Word) (state : MidLevel σ) : Byte × Word × MidLevel σ :=
  let (retval, state) := setUpAccess port address state
  if retval ≠ Status.ok.code then (retval, 0, state) else readAP port ahbApData state

def writeMemory (address data : Word) (state : MidLevel σ) : Byte × MidLevel σ :=
  let (retval, state) := setUpAccess port address state
  if retval ≠ Status.ok.code then (retval, state) else writeAP port ahbApData data state

end Functions

end MidLevel

/-- The class `ArduinoSWDInterface`, as the command interpreter calls it. -/
def arduinoSWDInterface {σ : Type} (port : SwdPort σ) : Driver (MidLevel σ) where
  setReset := MidLevel.setReset port
  tryConnect := MidLevel.tryConnect port
  readDP := MidLevel.readDP port
  writeDP := MidLevel.writeDP port
  readAP := MidLevel.readAP port
  writeAP := MidLevel.writeAP port
  readMemory := MidLevel.readMemory port
  writeMemory := MidLevel.writeMemory port

end Swagger.Firmware
