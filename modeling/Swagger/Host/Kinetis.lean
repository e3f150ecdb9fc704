/-
**Kinetis flash programming, `targets/nxp/kinetis.nut`.**

`kinetis_flash_longword` sends one packet: clear the error flags, wait, set address and data,
launch the command, wait, read the flash status. The bits of the status word are then tested one
after the other; `MGSTAT0` is logged without a return.

`kinetis_flasherase` halts the core, checks the flash clock, the flash, the security and the size of
the part, requests the mass erase and waits for its end. Whether the core is halted does not matter.
-/

import Swagger.Host.TargetFuncs

namespace Swagger.Host

/-! ### Flash registers and status bits -/

def ftfaFstat : SQInteger := 0x40020000

def ftfaFccobBase : SQInteger := 0x40020004

def fstatCcif : SQInteger := 0x80

def fstatRdcolerr : SQInteger := 0x40

def fstatAccerr : SQInteger := 0x20

def fstatFpviol : SQInteger := 0x10

/-! ### The debug port and the system registers -/

def mdmApStat : SQInteger := 0x01000000

def mdmApCtrl : SQInteger := 0x01000004

def mdmCtrlFlashErase : SQInteger := 0x01

def mdmCtrlDebugReq : SQInteger := 0x04

def mdmCtrlSysResetReq : SQInteger := 0x08

def mdmStatFlashReady : SQInteger := 0x0002

def mdmStatSysSecurity : SQInteger := 0x0004

def mdmStatCoreHalted : SQInteger := 0x010000

def simFcfg1 : SQInteger := 0x4004804C

def simScgc6 : SQInteger := 0x4004803C

def scgc6Ftf : SQInteger := 0x1

/-! ### The size of the flash -/

/-- `psize_tbl`: program size in KB. -/
def psizeTbl : List SQInteger :=
  [8, 16, -1, 32, -1, 64, -1, 128, -1, 256, -1, -1, -1, -1, -1, 32]

/-- `secsize_tbl`: sector size in bytes. -/
def secsizeTbl : List SQInteger :=
  [256, 512, -1, 1024, -1, 2048, -1, 4096, -1, 4096, -1, -1, -1, -1, -1, 1024]

/-- The index `(retval >> 24) & 0x0F` into the two tables. -/
def sizeCode (retval : SQInteger) : Nat := (retval.sshiftRight 24 &&& 0x0F).toNat

theorem sizeCode_lt (retval : SQInteger) : sizeCode retval < 16 := by
  have masked := BitVec.toNat_and (retval.sshiftRight 24) 0x0F
  rw [sizeCode, masked]
  exact Nat.lt_succ_of_le Nat.and_le_right

def psize (retval : SQInteger) : SQInteger := psizeTbl.get ⟨sizeCode retval, sizeCode_lt retval⟩

def secsize (retval : SQInteger) : SQInteger :=
  secsizeTbl.get ⟨sizeCode retval, sizeCode_lt retval⟩

section Functions

variable {σ : Type} (link : Link σ)

/-! ### Halting the core -/

/-- The loop of `kinetis_enableDebugPower`, by the time-outs that are left. -/
def debugPowerLoop : Nat → Queues σ → SQInteger × Queues σ
  | 0, queues =>
      let stat := readStat link queues
      if stat.1 &&& 0xF0000000 ≠ 0xF0000000 then (1, stat.2) else (0, stat.2)
  | timeouts + 1, queues =>
      let stat := readStat link queues
      if stat.1 &&& 0xF0000000 ≠ 0xF0000000 then debugPowerLoop timeouts stat.2 else (0, stat.2)

/-- `kinetis_enableDebugPower`. The status of the write is not looked at. -/
def kinetisEnableDebugPower (queues : Queues σ) : SQInteger × Queues σ :=
  let requested := writeStat link 0x50000000 queues
  debugPowerLoop link 100 requested.2

/-- `kinetis_mdm_halt`. -/
def kinetisMdmHalt (queues : Queues σ) : SQInteger × Queues σ :=
  let powered := kinetisEnableDebugPower link queues
  if powered.1 ≠ 0 then (-1, powered.2)
  else
    let debugged := writeMemory link scsDhcsr (dhcsrDbgKey ||| cDebugEn ||| cHalt ||| cMaskInts)
      powered.2
    if debugged.1 ≠ cmdStatusOk then (-1, debugged.2)
    else
      let released := writeAP link mdmApCtrl mdmCtrlDebugReq debugged.2
      if released.1 ≠ cmdStatusOk then (-1, released.2)
      else
        let result := readAP link mdmApStat released.2
        if result.1 &&& mdmStatCoreHalted ≠ 0 then
          -- both are read to be logged
          let pc := readCoreRegister link 15 result.2
          let msp := readCoreRegister link dcrsrRegMsp pc.2
          (0, msp.2)
        else (-1, result.2)

/-! ### Programming and erasing -/

/-- The commands `kinetis_flash_longword` queues. -/
def queueFlashLongword (address data : SQInteger) (queues : Queues σ) : Queues σ :=
  let queues := queueWriteMemory ftfaFstat
    (0xFFFE0000 ||| fstatRdcolerr ||| fstatAccerr ||| fstatFpviol) queues
  let queues := queuePollMemory ftfaFstat fstatCcif queues
  let queues := queueWriteMemory ftfaFccobBase (0x06000000 ||| (address &&& 0x00FFFFFF)) queues
  let queues := queueWriteMemory (ftfaFccobBase + 4) data queues
  let queues := queueWriteMemory ftfaFstat (0xFFFE0000 ||| fstatCcif) queues
  let queues := queuePollMemory ftfaFstat fstatCcif queues
  queueReadMemory ftfaFstat queues

/-- The error bits that end `kinetis_flash_longword` with -1. -/
def flashFailed (retval : SQInteger) : Bool :=
  if retval &&& fstatRdcolerr ≠ 0 then true
  else if retval &&& fstatAccerr ≠ 0 then true
  else if retval &&& fstatFpviol ≠ 0 then true
  else false

/-- `kinetis_flash_longword`. -/
def kinetisFlashLongword (address data : SQInteger) (queues : Queues σ) : SQInteger × Queues σ :=
  let executed := executeCmdQueue link (queueFlashLongword address data (clearCmdQueue queues))
  if executed.1 ≠ 0 then (-1, executed.2)
  else
    let result := popUInt8 executed.2
    if result.1 ≠ cmdStatusOk then (-1, result.2)
    else
      -- `MGSTAT0` is only logged
      let retval := popUInt32 result.2
      if flashFailed retval.1 then (-1, retval.2) else (0, retval.2)

/-- The erasing part of `kinetis_flasherase`. -/
def erasingFlash (queues : Queues σ) : SQInteger × Queues σ :=
  let triggered := writeAP link mdmApCtrl (mdmCtrlSysResetReq ||| mdmCtrlFlashErase) queues
  if triggered.1 ≠ cmdStatusOk then (-1, triggered.2)
  else
    let erased := pollAPNot link mdmApCtrl mdmCtrlFlashErase triggered.2
    if erased.1 = 0 then
      let queues := setReset link 1 erased.2
      let queues := setReset link 0 queues
      let connected := connect link queues
      let halted := kinetisMdmHalt link connected.2
      (0, halted.2)
    else (-1, erased.2)

/-- `kinetis_flasherase`. -/
def kinetisFlasherase (queues : Queues σ) : SQInteger × Queues σ :=
  let queues := setReset link 0 queues
  -- the `return -1` behind a failed halt is commented out
  let halted := kinetisMdmHalt link queues
  let clocked := writeMemory link simScgc6 scgc6Ftf halted.2
  if clocked.1 ≠ cmdStatusOk then (-1, clocked.2)
  else
    let ready := pollAP link mdmApStat mdmStatFlashReady clocked.2
    if ready.1 ≠ cmdStatusOk then (-1, ready.2)
    else
      let security := readAP link mdmApStat ready.2
      if security.1 &&& mdmStatSysSecurity ≠ 0 then (-1, security.2)
      else
        let retval := readMemory link simFcfg1 security.2
        if psize retval.1 ≠ 32 ∨ secsize retval.1 ≠ 1024 then (-1, retval.2)
        else if retval.1 &&& 1 = 1 then (-1, retval.2)
        else erasingFlash link retval.2

end Functions

end Swagger.Host
