/-
**A target with a device behind its access ports.**

The debug port acknowledges every transaction with OK. Access port 0 is a MEM-AP: through CSW, TAR
and DRW it accesses a bus, and what is on the bus may do anything (`Peripheral`). The registers of
the other access ports belong to the device as well.

As long as the cache is in step with SELECT (`InStep`), the class does over this target what its
functions are for. `readAP` and `writeAP` access the register at their address (`readAP_register`,
`writeAP_register`), `readMemory` and `writeMemory` the bus (`readMemory_bus`, `writeMemory_bus`).
-/

import Swagger.Firmware.ApSelect
import Swagger.Firmware.Attached

namespace Swagger.Firmware

/-! ### The target -/

/-- A device: reads and writes on the bus, and of the registers of access ports. -/
structure Peripheral (β : Type) where
  idcode : Word
  read : Word → β → Word × β
  write : Word → Word → β → β
  readPort : Word → β → Word × β
  writePort : Word → Word → β → β

/-- The registers of the debug port and of the MEM-AP, and the device behind them. -/
structure BusTarget (β : Type) where
  select : Word
  rdbuff : Word
  csw : Word
  tar : Word
  behind : β

/-- `CTRL/STAT` with both power domains up. -/
def poweredUp : Word := 0xF0000000

/-- The address of an AP register by SELECT and A[3:2]. -/
def registerAt (select : Word) (bits : BitVec 2) : Word :=
  select &&& apMask ||| bits.setWidth 32 <<< 2

/-- The register that an address is for. -/
def registerOf (address : Word) : Word :=
  registerAt address ((a23 address).setWidth 2)

namespace Peripheral

variable {β : Type} (device : Peripheral β)

/-- The read of an AP register. No access is still going on when CSW is read. -/
def readRegister (register : Word) (target : BusTarget β) : Word × BusTarget β :=
  if register = ahbApCsw then (target.csw &&& ~~~cswStatus, target)
  else if register = ahbApTar then (target.tar, target)
  else if register = ahbApData then
    let (word, behind) := device.read target.tar target.behind
    (word, { target with behind })
  else
    let (word, behind) := device.readPort register target.behind
    (word, { target with behind })

def writeRegister (register data : Word) (target : BusTarget β) : BusTarget β :=
  if register = ahbApCsw then { target with csw := data }
  else if register = ahbApTar then { target with tar := data }
  else if register = ahbApData then
    { target with behind := device.write target.tar data target.behind }
  else { target with behind := device.writePort register data target.behind }

/-- An AP read is posted. -/
def reads (request : Request) (target : BusTarget β) : Word × BusTarget β :=
  if request.apNotDp then
    let (word, after) := device.readRegister (registerAt target.select request.a23) target
    (target.rdbuff, { after with rdbuff := word })
  else if request.a23 = 0 then (device.idcode, target)
  else if request.a23 = 3 then (target.rdbuff, target)
  else (poweredUp, target)

def writes (request : Request) (data : Word) (target : BusTarget β) : BusTarget β :=
  if request.apNotDp then
    device.writeRegister (registerAt target.select request.a23) data target
  else if request.a23 = 2 then { target with select := data }
  else target

/-- The target as a whole. -/
def target : SwdTarget (BusTarget β) where
  respond request target :=
    if request.readNotWrite then
      let (word, target) := device.reads request target
      (.ok, word, target)
    else (.ok, 0, target)
  accept := device.writes

/-- Its transactions. The reset pin does not reach the debug port. -/
def port : SwdPort (BusTarget β) :=
  device.target.port (fun _ target => target) device.target.identified

end Peripheral

/-! ### Transactions -/

section Driver

variable {β : Type} (device : Peripheral β) {state : MidLevel (BusTarget β)}

theorem Peripheral.writeRegister_select (register data : Word) (target : BusTarget β) :
    (device.writeRegister register data target).select = target.select := by
  unfold writeRegister
  split_ifs <;> rfl

theorem Peripheral.readRegister_select (register : Word) (target : BusTarget β) :
    (device.readRegister register target).2.select = target.select := by
  unfold readRegister
  split_ifs <;> rfl

/-- The first try of a write is taken. -/
theorem retryWrite_bus (apNotDp : Bool) (address data : Word) (retries : Nat)
    (state : MidLevel (BusTarget β)) :
    MidLevel.retryWrite device.port apNotDp address data (retries + 1) state =
      (Status.ok.code,
        { state with
          target := device.writes (requestOf apNotDp false (a23 address)) data state.target }) :=
  rfl

/-- The first try of a read is answered. -/
theorem retryRead_bus (apNotDp : Bool) (address : Word) (retries : Nat)
    (state : MidLevel (BusTarget β)) :
    MidLevel.retryRead device.port apNotDp address (retries + 1) state =
      (Status.ok.code, (device.reads (requestOf apNotDp true (a23 address)) state.target).1,
        { state with
          target := (device.reads (requestOf apNotDp true (a23 address)) state.target).2 }) :=
  rfl

/-- The cache is invalid, or shows what SELECT holds. -/
def InStep (state : MidLevel (BusTarget β)) : Prop :=
  state.apCache = invalidCache ∨ state.target.select &&& apMask = state.apCache

/-- SELECT fits the address, and nothing else has changed. -/
theorem selectAP_bus (inStep : InStep state) (address : Word) :
    ∃ select, select &&& apMask = address &&& apMask ∧
      MidLevel.selectAP device.port address state =
        (Status.ok.code,
          { target := { state.target with select }, apCache := address &&& apMask }) := by
  by_cases hit : address &&& apMask = state.apCache
  · have valid : state.apCache ≠ invalidCache := by
      rw [← hit]
      exact masked_ne_invalidCache address
    refine ⟨state.target.select, ?_, ?_⟩
    · rw [inStep.resolve_left valid, hit]
    · rw [MidLevel.selectAP]
      simp only [if_pos hit]
      rw [hit]
  · refine ⟨address &&& apMask, ?_, ?_⟩
    · rw [BitVec.and_assoc, BitVec.and_self]
    · have written : MidLevel.writeDP device.port dpSelect (address &&& apMask) state =
          (Status.ok.code,
            { state with target := { state.target with select := address &&& apMask } }) :=
        retryWrite_bus device false dpSelect (address &&& apMask) 9 state
      rw [MidLevel.selectAP]
      simp only [if_neg hit, written, if_true]

theorem registerAt_of_fits {select address : Word}
    (fits : select &&& apMask = address &&& apMask) (bits : BitVec 2) :
    registerAt select bits = registerAt address bits := by
  rw [registerAt, registerAt, fits]

/-- The cache as an AP access leaves it is in step if SELECT is as `selectAP` left it. -/
theorem inStep_of_fits {select address : Word} (fits : select &&& apMask = address &&& apMask)
    {target : BusTarget β} (same : target.select = select) :
    InStep { target, apCache := address &&& apMask } :=
  .inr (same ▸ fits)

/-- `writeAP` writes the register at its address. -/
theorem writeAP_register (inStep : InStep state) (address data : Word) :
    ∃ select after, MidLevel.writeAP device.port address data state = (Status.ok.code, after) ∧
      InStep after ∧
      after.target =
        device.writeRegister (registerOf address) data { state.target with select } := by
  obtain ⟨select, fits, selected⟩ := selectAP_bus device inStep address
  let after : MidLevel (BusTarget β) :=
    { target := device.writeRegister (registerOf address) data { state.target with select }
      apCache := address &&& apMask }
  refine ⟨select, after, ?_, inStep_of_fits fits (device.writeRegister_select _ _ _), rfl⟩
  have reached : device.writes (requestOf true false (a23 address)) data
      { state.target with select } = after.target := by
    unfold Peripheral.writes after registerOf
    simp only [requestOf, if_true]
    rw [registerAt_of_fits fits]
  unfold MidLevel.writeAP
  rw [selected]
  simp only [ne_eq, not_true_eq_false, if_false]
  rw [driverRetries, retryWrite_bus, reached]

/-- `readAP` reads the register at its address. -/
theorem readAP_register (inStep : InStep state) (address : Word) :
    ∃ select after,
      let read := device.readRegister (registerOf address) { state.target with select }
      MidLevel.readAP device.port address state = (Status.ok.code, read.1, after) ∧
        InStep after ∧ after.target = { read.2 with rdbuff := read.1 } := by
  obtain ⟨select, fits, selected⟩ := selectAP_bus device inStep address
  rcases read : device.readRegister (registerOf address) { state.target with select } with
    ⟨word, behind⟩
  let after : MidLevel (BusTarget β) :=
    { target := { behind with rdbuff := word }
      apCache := address &&& apMask }
  have same := device.readRegister_select (registerOf address) { state.target with select }
  rw [read] at same
  refine ⟨select, after, ?_⟩
  rw [read]
  refine ⟨?_, inStep_of_fits fits same, rfl⟩
  have reached : device.reads (requestOf true true (a23 address)) { state.target with select } =
      (state.target.rdbuff, after.target) := by
    unfold Peripheral.reads
    simp only [requestOf, if_true]
    rw [registerAt_of_fits fits]
    unfold registerOf at read
    rw [read]
  unfold MidLevel.readAP
  rw [selected]
  simp only [ne_eq, not_true_eq_false, if_false]
  rw [driverRetries, retryRead_bus, reached]
  rfl

/-- A register that is none of the MEM-AP. -/
def OtherRegister (address : Word) : Prop :=
  registerOf address ≠ ahbApCsw ∧ registerOf address ≠ ahbApTar ∧ registerOf address ≠ ahbApData

theorem writeAP_other_bus (inStep : InStep state) {address : Word} (other : OtherRegister address)
    (data : Word) :
    ∃ after, MidLevel.writeAP device.port address data state = (Status.ok.code, after) ∧
      InStep after ∧
      after.target.behind = device.writePort (registerOf address) data state.target.behind := by
  obtain ⟨select, after, written, inStep', target⟩ :=
    writeAP_register device inStep address data
  refine ⟨after, written, inStep', ?_⟩
  rw [target, Peripheral.writeRegister, if_neg other.1, if_neg other.2.1, if_neg other.2.2]

theorem readAP_other_bus (inStep : InStep state) {address : Word} (other : OtherRegister address) :
    let read := device.readPort (registerOf address) state.target.behind
    ∃ after, MidLevel.readAP device.port address state = (Status.ok.code, read.1, after) ∧
      InStep after ∧ after.target.behind = read.2 := by
  obtain ⟨select, after, read, inStep', target⟩ := readAP_register device inStep address
  rw [Peripheral.readRegister, if_neg other.1, if_neg other.2.1, if_neg other.2.2] at read target
  exact ⟨after, read, inStep', congrArg BusTarget.behind target⟩

/-! ### The debug port -/

theorem tryConnect_bus (state : MidLevel (BusTarget β)) :
    MidLevel.tryConnect device.port state =
      (Status.ok.code, device.idcode, { state with apCache := invalidCache }) := rfl

/-- `CTRL/STAT` shows the power, and a write to it changes nothing. -/
theorem readStat_bus (state : MidLevel (BusTarget β)) :
    MidLevel.readDP device.port 4 state = (Status.ok.code, poweredUp, state) := rfl

theorem writeStat_bus (data : Word) (state : MidLevel (BusTarget β)) :
    MidLevel.writeDP device.port 4 data state = (Status.ok.code, state) := rfl

/-! ### Memory accesses -/

/-- The address is in TAR, and nothing has happened on the bus. -/
theorem setUpAccess_bus (inStep : InStep state) (address : Word) :
    ∃ after, MidLevel.setUpAccess device.port address state = (Status.ok.code, after) ∧
      InStep after ∧ after.target.tar = address ∧
      after.target.behind = state.target.behind := by
  obtain ⟨_, first, configured, inStep₁, target₁⟩ :=
    writeAP_register device inStep ahbApCsw 0x22000012
  obtain ⟨_, second, polled, inStep₂, target₂⟩ := readAP_register device inStep₁ ahbApCsw
  obtain ⟨_, third, addressed, inStep₃, target₃⟩ :=
    writeAP_register device inStep₂ ahbApTar address
  have csw : registerOf ahbApCsw = ahbApCsw := by decide
  have tar : registerOf ahbApTar = ahbApTar := by decide
  have other : ahbApTar ≠ ahbApCsw := by decide
  rw [csw, Peripheral.writeRegister, if_pos rfl] at target₁
  rw [csw, Peripheral.readRegister, if_pos rfl] at polled target₂
  rw [tar, Peripheral.writeRegister, if_neg other, if_pos rfl] at target₃
  have idle : first.target.csw &&& ~~~cswStatus &&& 0x80 = 0 := by
    rw [BitVec.and_assoc]
    exact BitVec.and_zero
  refine ⟨third, ?_, inStep₃, by rw [target₃], by rw [target₃, target₂, target₁]⟩
  unfold MidLevel.setUpAccess MidLevel.waitForMemory
  rw [configured]
  simp only [ne_eq, not_true_eq_false, if_false]
  rw [driverRetries, MidLevel.waitLoop_succ, polled]
  simp only [ne_eq, not_true_eq_false, if_false, if_pos idle]
  exact addressed

/-- `readMemory` is a read on the bus. -/
theorem readMemory_bus (inStep : InStep state) (address : Word) :
    let read := device.read address state.target.behind
    ∃ after, MidLevel.readMemory device.port address state = (Status.ok.code, read.1, after) ∧
      InStep after ∧ after.target.behind = read.2 := by
  obtain ⟨middle, ready, inStep₁, tar, behind⟩ := setUpAccess_bus device inStep address
  obtain ⟨_, after, read, inStep₂, target⟩ := readAP_register device inStep₁ ahbApData
  have data : registerOf ahbApData = ahbApData := by decide
  have csw : ahbApData ≠ ahbApCsw := by decide
  have other : ahbApData ≠ ahbApTar := by decide
  rw [data, Peripheral.readRegister, if_neg csw, if_neg other, if_pos rfl] at read target
  simp only [tar, behind] at read target
  refine ⟨after, ?_, inStep₂, congrArg BusTarget.behind target⟩
  unfold MidLevel.readMemory
  rw [ready]
  simp only [ne_eq, not_true_eq_false, if_false]
  exact read

/-- `writeMemory` is a write on the bus. -/
theorem writeMemory_bus (inStep : InStep state) (address data : Word) :
    ∃ after, MidLevel.writeMemory device.port address data state = (Status.ok.code, after) ∧
      InStep after ∧ after.target.behind = device.write address data state.target.behind := by
  obtain ⟨middle, ready, inStep₁, tar, behind⟩ := setUpAccess_bus device inStep address
  obtain ⟨_, after, written, inStep₂, target⟩ := writeAP_register device inStep₁ ahbApData data
  have register : registerOf ahbApData = ahbApData := by decide
  have csw : ahbApData ≠ ahbApCsw := by decide
  have other : ahbApData ≠ ahbApTar := by decide
  rw [register, Peripheral.writeRegister, if_neg csw, if_neg other, if_pos rfl] at target
  simp only [tar, behind] at target
  refine ⟨after, ?_, inStep₂, congrArg BusTarget.behind target⟩
  unfold MidLevel.writeMemory
  rw [ready]
  simp only [ne_eq, not_true_eq_false, if_false]
  exact written

end Driver

end Swagger.Firmware
