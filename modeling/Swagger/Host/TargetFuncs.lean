/-
**The script functions of `targets/targetfuncs.nut`.**

Every function clears the command queue, queues commands, calls `executeCmdQueue` and pops what it
needs from the result queue. A `while (retries < n)` loop is a recursion on the rounds that are
left. `pollAP` and `pollAP_not` differ in their test alone, so both are `pollWith`.
-/

import Swagger.Host.CommandQueue

namespace Swagger.Host

/-! ### Constants -/

/-- `MAX_RETRIES` of the script. -/
def maxRetries : Nat := 100

def cmdStatusOk : SQInteger := 0

def cmdStatusTimeout : SQInteger := 1

def dpCtrlStat : SQInteger := 0x04

def scsDhcsr : SQInteger := 0xE000EDF0

def scsDcrsr : SQInteger := 0xE000EDF4

def scsDcrdr : SQInteger := 0xE000EDF8

def dhcsrDbgKey : SQInteger := 0xA05F0000

def cDebugEn : SQInteger := 0x00000001

def cHalt : SQInteger := 0x00000002

def cMaskInts : SQInteger := 0x00000008

def dcrsrRegMsp : SQInteger := 0x11

/-- An opcode as a script constant `CMD_TYPE_*`. -/
def cmdType (opcode : Opcode) : SQInteger := opcode.code.setWidth 32

section Functions

variable {σ : Type} (link : Link σ)

/-! ### Queuing functions -/

def queueReadDP (address : SQInteger) (queues : Queues σ) : Queues σ :=
  queueUInt8 address (queueUInt8 (cmdType .readDP) queues)

def queueWriteDP (address value : SQInteger) (queues : Queues σ) : Queues σ :=
  queueUInt32 value (queueUInt8 address (queueUInt8 (cmdType .writeDP) queues))

def queueReadAP (address : SQInteger) (queues : Queues σ) : Queues σ :=
  queueUInt32 address (queueUInt8 (cmdType .readAP) queues)

def queueWriteAP (address value : SQInteger) (queues : Queues σ) : Queues σ :=
  queueUInt32 value (queueUInt32 address (queueUInt8 (cmdType .writeAP) queues))

def queueReadStat (queues : Queues σ) : Queues σ := queueReadDP dpCtrlStat queues

def queueWriteStat (value : SQInteger) (queues : Queues σ) : Queues σ :=
  queueWriteDP dpCtrlStat value queues

def queueWriteMemory (address value : SQInteger) (queues : Queues σ) : Queues σ :=
  queueUInt32 value (queueUInt32 address (queueUInt8 (cmdType .writeMem) queues))

def queueReadMemory (address : SQInteger) (queues : Queues σ) : Queues σ :=
  queueUInt32 address (queueUInt8 (cmdType .readMem) queues)

def queuePollMemory (address mask : SQInteger) (queues : Queues σ) : Queues σ :=
  queueUInt32 mask (queueUInt32 address (queueUInt8 (cmdType .waitMemTrue) queues))

/-- The raw opcode `connect` queues. -/
def queueConnect (queues : Queues σ) : Queues σ := queueUInt8 (cmdType .connect) queues

/-- The raw opcode and argument `setReset` queues. -/
def queueReset (state : SQInteger) (queues : Queues σ) : Queues σ :=
  queueUInt8 state (queueUInt8 (cmdType .reset) queues)

/-! ### Immediate functions -/

/-- The rounds of `connect`: the status and the IDCODE are popped in every one. -/
def connectLoop : Nat → Queues σ → SQInteger × Queues σ
  | 0, queues => (-1, queues)
  | retries + 1, queues =>
      let executed := executeCmdQueue link (queueConnect (clearCmdQueue queues))
      let result := popUInt8 executed.2
      let idcode := popUInt32 result.2
      if result.1 = cmdStatusOk then idcode else connectLoop retries idcode.2

/-- `connect()`: the IDCODE, or -1 when ten rounds failed. -/
def connect (queues : Queues σ) : SQInteger × Queues σ := connectLoop link 10 queues

/-- `executeCmdQueue(); local status = popUInt8(); return status;` -/
def executeStatus (queues : Queues σ) : SQInteger × Queues σ :=
  popUInt8 (executeCmdQueue link queues).2

def setReset (state : SQInteger) (queues : Queues σ) : Queues σ :=
  (executeCmdQueue link (queueReset state (clearCmdQueue queues))).2

/-- What the functions that read a word do with the queue: pop the word if the status is OK, and
return 0 if it is not. -/
def executeRead (queues : Queues σ) : SQInteger × Queues σ :=
  let status := executeStatus link queues
  if status.1 = cmdStatusOk then popUInt32 status.2 else (0, status.2)

def readStat (queues : Queues σ) : SQInteger × Queues σ :=
  executeRead link (queueReadStat (clearCmdQueue queues))

def writeStat (value : SQInteger) (queues : Queues σ) : SQInteger × Queues σ :=
  executeStatus link (queueWriteStat value (clearCmdQueue queues))

def readAP (address : SQInteger) (queues : Queues σ) : SQInteger × Queues σ :=
  executeRead link (queueReadAP address (clearCmdQueue queues))

def writeAP (address value : SQInteger) (queues : Queues σ) : SQInteger × Queues σ :=
  executeStatus link (queueWriteAP address value (clearCmdQueue queues))

def readMemory (address : SQInteger) (queues : Queues σ) : SQInteger × Queues σ :=
  executeRead link (queueReadMemory address (clearCmdQueue queues))

def writeMemory (address value : SQInteger) (queues : Queues σ) : SQInteger × Queues σ :=
  executeStatus link (queueWriteMemory address value (clearCmdQueue queues))

/-- `readCoreRegister`. The status of the write is not looked at. -/
def readCoreRegister (regID : SQInteger) (queues : Queues σ) : SQInteger × Queues σ :=
  let requested := writeMemory link scsDcrsr regID queues
  readMemory link scsDcrdr requested.2

/-- The loop of the two poll functions; `hit` is the test that ends it with `CMD_STATUS_OK`. -/
def pollWith (address : SQInteger) (hit : SQInteger → Bool) :
    Nat → Queues σ → SQInteger × Queues σ
  | 0, queues => (cmdStatusTimeout, queues)
  | retries + 1, queues =>
      let status := executeStatus link (queueReadAP address (clearCmdQueue queues))
      if status.1 ≠ cmdStatusOk then status
      else
        let v := popUInt32 status.2
        if hit v.1 then (cmdStatusOk, v.2) else pollWith address hit retries v.2

/-- `pollAP`: wait until the bits of the mask are all ones. -/
def pollAP (address mask : SQInteger) (queues : Queues σ) : SQInteger × Queues σ :=
  pollWith link address (fun v => v &&& mask = mask) maxRetries queues

/-- `pollAP_not`: wait until they are not. -/
def pollAPNot (address mask : SQInteger) (queues : Queues σ) : SQInteger × Queues σ :=
  pollWith link address (fun v => v &&& mask ≠ mask) maxRetries queues

/-- A script value that is an integer or an array. -/
inductive SQValue
  | integer (value : SQInteger)
  | array (values : List SQInteger)
  deriving DecidableEq, Repr

/-- The first loop of `readMemoryWords`, with the words that are left. -/
def queueReadMemoryWords : Nat → SQInteger → Queues σ → Queues σ
  | 0, _, queues => queues
  | words + 1, address, queues =>
      queueReadMemoryWords words (address + 4) (queueReadMemory address queues)

/-- The second loop of `readMemoryWords`. -/
def popWords : Nat → Queues σ → List SQInteger × Queues σ
  | 0, queues => ([], queues)
  | words + 1, queues =>
      let first := popUInt32 queues
      let rest := popWords words first.2
      (first.1 :: rest.1, rest.2)

/-- `readMemoryWords`. The count is compared signed; a count below one queues nothing. -/
def readMemoryWords (address words : SQInteger) (queues : Queues σ) : SQValue × Queues σ :=
  let queues := clearCmdQueue queues
  if words.toInt > 6 then (.integer (-1), queues)
  else
    let status := executeStatus link (queueReadMemoryWords words.toInt.toNat address queues)
    if status.1 = cmdStatusOk then
      let contents := popWords words.toInt.toNat status.2
      (.array contents.1, contents.2)
    else (.integer status.1, status.2)

end Functions

/-! ### What the queuing functions send -/

theorem setWidth_cmdType (opcode : Opcode) : (cmdType opcode).setWidth 8 = opcode.code := by
  cases opcode <;> rfl

/-! ### What is popped -/

/-- Words at the front of the result queue are popped one after the other. -/
theorem popWords_words (words : List Word) (rest cmdQueue : List Byte) {σ : Type} (state : σ) :
    popWords words.length { cmdQueue, resultQueue := words.flatMap wordBytes ++ rest, state } =
      (words, { cmdQueue, resultQueue := rest, state }) := by
  induction words with
  | nil => rfl
  | cons word words ih =>
      rw [List.length_cons, popWords, List.flatMap_cons, List.append_assoc, popUInt32_word]
      simp only
      rw [ih]

end Swagger.Host
