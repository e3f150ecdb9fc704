/-
**A flash controller on the bus.**

The driver of the firmware reaches a device through the debug port and a MEM-AP (`Peripheral`). What
the device owes is said at the bus: what a read and a write of the bus do, and an access to a
register of the MDM-AP (`FlashDevice`). `FSTAT` may show a command under way at some reads, fewer
than a wait makes.

`FlashDevice.chip`: such a device behind the driver is a chip. `kv10z` is one, with a command that
takes any number of reads below 100 and an erase that takes any number.
-/

import Swagger.Firmware.Bus
import Swagger.Line.Chip

namespace Swagger.Line

open Library Firmware Host

/-! ### What the device owes -/

/-- What a step that does not concern the flash comes to. -/
structure Quiet {β : Type} (view : β → Controller) (sound ready : β → Prop) (part next : β) :
    Prop where
  sound : sound next
  flash : (view next).flash = (view part).flash
  ready : ready part → ready next

/-- A device in the states that are `sound`: `view` is its flash controller, `busy` counts the reads
of `FSTAT` until the command is over, and one that is `ready` is not being erased. -/
structure FlashDevice {β : Type} (device : Peripheral β) (view : β → Controller)
    (sound ready : β → Prop) (busy : β → Nat) (limit : Nat) : Prop where
  addressable : limit ≤ 2 ^ 24
  read : ∀ address part, sound part → let next := (device.read address part).2
    Quiet view sound ready part next ∧ view next = view part
  words : ∀ address part, sound part → ready part → address.toNat % 4 = 0 →
    address.toNat + 4 ≤ limit →
    (device.read address part).1 = Host.wordAt (view part).flash address
  few : ∀ part, sound part → busy part < Firmware.maxRetries
  ends : ∀ part, sound part → let status := device.read ftfaFstat part
    status.1 &&& fstatCcif = fstatCcif ∨ busy status.2 < busy part
  status : ∀ part, sound part → ready part →
    flashFailed (device.read ftfaFstat part).1 = (view part).failed
  write : ∀ register value part, FlashRegister register → sound part →
    let next := device.write register value part
    sound next ∧ (ready part → ready next ∧ view next = (view part).write limit register value)
  /-- The other registers that a run writes are none of the flash. -/
  quiet : ∀ address value part, Prompt (.writeMem address value) → sound part →
    Quiet view sound ready part (device.write address value part)
  readPort : ∀ register part, Prompt (.readAP register) → sound part →
    Quiet view sound ready part (device.readPort register part).2
  request : ∀ part, sound part →
    Quiet view sound ready part (device.writePort mdmApCtrl mdmCtrlDebugReq part)
  erase : ∀ part, sound part →
    let next := device.writePort mdmApCtrl (mdmCtrlSysResetReq ||| mdmCtrlFlashErase) part
    sound next ∧ (view next).flash = blank
  erased : ∀ part, sound part → let polled := device.readPort mdmApCtrl part
    polled.1 &&& mdmCtrlFlashErase = 0 → ready polled.2

/-! ### The driver over it -/

/-- The driver is in step with the target, and the device is sound. -/
def Behind {β : Type} (sound : β → Prop) (state : MidLevel (BusTarget β)) : Prop :=
  InStep state ∧ sound state.target.behind

theorem registerOf_mdm {register : Word} (is : Prompt (.readAP register)) :
    registerOf register = register ∧ OtherRegister register := by
  rcases is with rfl | rfl
  · exact ⟨by decide, by decide, by decide, by decide⟩
  · exact ⟨by decide, by decide, by decide, by decide⟩

section Driver

variable {β : Type} {device : Peripheral β} {view : β → Controller} {sound ready : β → Prop}
  {busy : β → Nat} {limit : Nat} {state : MidLevel (BusTarget β)}

/-- `writeAP` of `MDM_AP_CTRL`. -/
theorem writeAP_ctrl (device : Peripheral β) (value : Word) (inStep : InStep state) :
    ∃ after, MidLevel.writeAP device.port mdmApCtrl value state = (Status.ok.code, after) ∧
      InStep after ∧
      after.target.behind = device.writePort mdmApCtrl value state.target.behind := by
  obtain ⟨same, other⟩ := registerOf_mdm (show Prompt (.readAP mdmApCtrl) from .inr rfl)
  obtain ⟨after, written, inStep', behind⟩ := writeAP_other_bus device inStep other value
  rw [same] at behind
  exact ⟨after, written, inStep', behind⟩

variable (owes : FlashDevice device view sound ready busy limit)

include owes

namespace FlashDevice

/-- `readAP` of a register of the MDM-AP. -/
theorem readAP_mdm {register : Word} (is : Prompt (.readAP register))
    (here : Behind sound state) :
    ∃ after, MidLevel.readAP device.port register state =
        (Status.ok.code, (device.readPort register state.target.behind).1, after) ∧
      Behind sound after ∧
      after.target.behind = (device.readPort register state.target.behind).2 := by
  obtain ⟨same, other⟩ := registerOf_mdm is
  obtain ⟨after, read, inStep, behind⟩ := readAP_other_bus device here.1 other
  rw [same] at read behind
  have kept := (owes.readPort register state.target.behind is here.2).sound
  exact ⟨after, read, ⟨inStep, behind ▸ kept⟩, behind⟩

theorem readMemory_behind (address : Word) (here : Behind sound state) :
    ∃ after, MidLevel.readMemory device.port address state =
        (Status.ok.code, (device.read address state.target.behind).1, after) ∧
      Behind sound after ∧ after.target.behind = (device.read address state.target.behind).2 := by
  obtain ⟨after, read, inStep, behind⟩ := readMemory_bus device here.1 address
  have kept := (owes.read address state.target.behind here.2).1.sound
  exact ⟨after, read, ⟨inStep, behind ▸ kept⟩, behind⟩

/-- What a prompt command does to the device is quiet. -/
theorem runCommand_prompt {command : Command} (prompt : Prompt command)
    (here : Behind sound state) :
    let next := (runCommand (arduinoSWDInterface device.port) command state).2
    InStep next ∧ Quiet view sound ready state.target.behind next.target.behind := by
  have still : Quiet view sound ready state.target.behind state.target.behind :=
    ⟨here.2, rfl, id⟩
  cases command with
  | connect =>
      have ran : (runCommand (arduinoSWDInterface device.port) .connect state).2 =
          { state with apCache := invalidCache } :=
        congrArg (fun read => (Outcome.ofRead read).2) (tryConnect_bus device state)
      rw [ran]
      exact ⟨.inl rfl, still⟩
  | reset value => exact ⟨here.1, still⟩
  | readDP address =>
      obtain rfl : address = 4 := prompt
      have ran : (runCommand (arduinoSWDInterface device.port) (.readDP 4) state).2 = state :=
        congrArg (fun read => (Outcome.ofRead read).2) (readStat_bus device state)
      rw [ran]
      exact ⟨here.1, still⟩
  | writeDP address value =>
      obtain ⟨rfl, rfl⟩ := prompt
      have ran : (runCommand (arduinoSWDInterface device.port) (.writeDP 4 0x50000000) state).2 =
          state :=
        congrArg (fun written => (Outcome.ofWrite written).2) (writeStat_bus device _ state)
      rw [ran]
      exact ⟨here.1, still⟩
  | readAP register =>
      obtain ⟨after, read, here', behind⟩ := owes.readAP_mdm prompt here
      have ran : (runCommand (arduinoSWDInterface device.port) (.readAP register) state).2 =
          after :=
        congrArg (fun read => (Outcome.ofRead read).2) read
      rw [ran]
      exact ⟨here'.1, behind ▸ owes.readPort register _ prompt here.2⟩
  | writeAP register value =>
      obtain ⟨rfl, rfl⟩ := prompt
      obtain ⟨after, written, inStep, behind⟩ := writeAP_ctrl device mdmCtrlDebugReq here.1
      have ran : (runCommand (arduinoSWDInterface device.port)
          (.writeAP mdmApCtrl mdmCtrlDebugReq) state).2 = after :=
        congrArg (fun written => (Outcome.ofWrite written).2) written
      rw [ran]
      exact ⟨inStep, behind ▸ owes.request _ here.2⟩
  | readMem address =>
      obtain ⟨after, read, here', behind⟩ := owes.readMemory_behind address here
      rw [read_done read]
      exact ⟨here'.1, behind ▸ (owes.read address _ here.2).1⟩
  | writeMem address value =>
      obtain ⟨after, written, inStep, behind⟩ := writeMemory_bus device here.1 address value
      rw [write_done written]
      exact ⟨inStep, behind ▸ owes.quiet address value _ prompt here.2⟩
  | waitMemTrue address mask => exact prompt.elim
  | getProgId => exact prompt.elim

/-- A wait for the flash controller is over before its reads are. -/
theorem waits (retries : Nat) (here : Behind sound state)
    (enough : busy state.target.behind < retries) :
    ∃ after, Programmer.waitLoop (arduinoSWDInterface device.port) ftfaFstat fstatCcif retries
        state = (.matched, after) ∧ Behind sound after ∧
      view after.target.behind = view state.target.behind ∧
      (ready state.target.behind → ready after.target.behind) := by
  induction retries generalizing state with
  | zero => exact absurd enough (Nat.not_lt_zero _)
  | succ retries ih =>
      obtain ⟨next, read, here', behind⟩ := owes.readMemory_behind ftfaFstat here
      obtain ⟨quiet, same⟩ := owes.read ftfaFstat state.target.behind here.2
      rw [← behind] at quiet same
      have first : (arduinoSWDInterface device.port).readMemory ftfaFstat state = _ := read
      rw [Programmer.waitLoop, first]
      simp only [if_true]
      by_cases shown : (device.read ftfaFstat state.target.behind).1 &&& fstatCcif = fstatCcif
      · rw [if_pos shown]
        exact ⟨next, rfl, here', same, quiet.ready⟩
      · have fewer := (owes.ends state.target.behind here.2).resolve_left shown
        rw [← behind] at fewer
        obtain ⟨after, waited, here'', same', stays⟩ := ih here' (by omega)
        rw [if_neg shown]
        exact ⟨after, waited, here'', same'.trans same, fun start => stays (quiet.ready start)⟩

/-- With the driver of the firmware, the device is a chip. -/
theorem chip : Chip (arduinoSWDInterface device.port) (fun state => view state.target.behind)
    (Behind sound) (fun state => ready state.target.behind) limit where
  addressable := owes.addressable
  keeps command sent state here := by
    cases sent with
    | prompt prompt =>
        obtain ⟨inStep, quiet⟩ := owes.runCommand_prompt prompt here
        exact ⟨inStep, quiet.sound⟩
    | erase =>
        obtain ⟨after, written, inStep, behind⟩ :=
          writeAP_ctrl device (mdmCtrlSysResetReq ||| mdmCtrlFlashErase) here.1
        have ran : (runCommand (arduinoSWDInterface device.port) eraseCommand state).2 = after :=
          congrArg (fun written => (Outcome.ofWrite written).2) written
        rw [ran]
        exact ⟨inStep, behind ▸ (owes.erase _ here.2).1⟩
    | write value is =>
        obtain ⟨after, written, inStep, behind⟩ := writeMemory_bus device here.1 _ value
        rw [write_done written]
        exact ⟨inStep, behind ▸ (owes.write _ value _ is here.2).1⟩
    | wait =>
        obtain ⟨after, waited, here', -⟩ := owes.waits _ here (owes.few _ here.2)
        rw [wait_done waited]
        exact here'
  erase state here := by
    obtain ⟨after, written, -, behind⟩ :=
      writeAP_ctrl device (mdmCtrlSysResetReq ||| mdmCtrlFlashErase) here.1
    have first : (arduinoSWDInterface device.port).writeAP mdmApCtrl
        (mdmCtrlSysResetReq ||| mdmCtrlFlashErase) state = _ := written
    rw [first]
    exact .inl ⟨rfl, behind ▸ (owes.erase _ here.2).2⟩
  poll state here := by
    obtain ⟨after, read, -, behind⟩ := owes.readAP_mdm (.inr rfl) here
    have first : (arduinoSWDInterface device.port).readAP mdmApCtrl state = _ := read
    rw [first]
    exact fun _ clear => behind ▸ owes.erased _ here.2 clear
  prompt command state prompt here := by
    obtain ⟨-, quiet⟩ := owes.runCommand_prompt prompt here
    exact ⟨quiet.flash, quiet.ready⟩
  write register value state is here isReady := by
    obtain ⟨after, written, -, behind⟩ := writeMemory_bus device here.1 register value
    obtain ⟨-, acts⟩ := owes.write register value _ is here.2
    rw [← behind] at acts
    exact ⟨after, written, acts isReady⟩
  wait state here isReady := by
    obtain ⟨after, waited, -, same, stays⟩ := owes.waits _ here (owes.few _ here.2)
    exact ⟨after, waited, stays isReady, same⟩
  inTime state here := by
    obtain ⟨after, waited, -⟩ := owes.waits _ here (owes.few _ here.2)
    rw [waited]
    exact Programmer.Waited.noConfusion
  status state here isReady := by
    obtain ⟨after, read, -, behind⟩ := owes.readMemory_behind ftfaFstat here
    obtain ⟨quiet, same⟩ := owes.read ftfaFstat state.target.behind here.2
    rw [← behind] at quiet same
    exact ⟨_, after, read, owes.status _ here.2 isReady, quiet.ready isReady, same⟩
  read address state here isReady aligned inside := by
    obtain ⟨after, read, -, behind⟩ := owes.readMemory_behind address here
    obtain ⟨quiet, same⟩ := owes.read address state.target.behind here.2
    rw [← behind] at quiet same
    rw [owes.words address _ here.2 isReady aligned inside] at read
    exact ⟨after, read, quiet.ready isReady, same⟩

end FlashDevice

end Driver

/-! ### A KV10Z -/

/-- A part with 32 KB of flash. A command is over behind `busy` reads of `FSTAT`, and an erase
behind `erasing` reads of `MDM_AP_CTRL`. -/
structure Kv10z where
  controller : Controller
  busy : Nat
  erasing : Nat

/-- What `FSTAT` shows. -/
def Kv10z.fstat (part : Kv10z) : Word :=
  (if part.busy = 0 then fstatCcif else 0) ||| if part.controller.failed then fstatAccerr else 0

/-- It takes so many reads for a command and for an erase. -/
def kv10z (commandReads eraseReads : Nat) : Peripheral Kv10z where
  idcode := 0x0BC11477
  read address part :=
    if address = ftfaFstat then (part.fstat, { part with busy := part.busy - 1 })
    else if address.toNat < 0x8000 then (Host.wordAt part.controller.flash address, part)
    else if address = simFcfg1 then (0x03000000, part)
    else (0, part)
  write address value part :=
    if FlashRegister address then
      { part with
        controller := part.controller.write 0x8000 address value
        busy := if value &&& fstatCcif = 0 then part.busy else commandReads }
    else part
  readPort register part :=
    if register = mdmApStat then (mdmStatFlashReady ||| mdmStatCoreHalted, part)
    else if register = mdmApCtrl then
      (if part.erasing = 0 then 0 else mdmCtrlFlashErase,
        { part with erasing := part.erasing - 1 })
    else (0, part)
  writePort register value part :=
    if register = mdmApCtrl ∧ value &&& mdmCtrlFlashErase ≠ 0 then
      { part with
        controller := { part.controller with flash := blank }
        erasing := eraseReads }
    else part

namespace Kv10z

/-- The command is over in time. -/
def Sound (commandReads : Nat) (part : Kv10z) : Prop := part.busy ≤ commandReads

/-- No erase is under way. -/
def Ready (part : Kv10z) : Prop := part.erasing = 0

theorem fstat_over {part : Kv10z} (idle : part.busy = 0) :
    part.fstat &&& fstatCcif = fstatCcif := by
  rw [fstat, if_pos idle]
  cases part.controller.failed <;> decide

theorem flashFailed_fstat (part : Kv10z) : flashFailed part.fstat = part.controller.failed := by
  unfold fstat
  by_cases idle : part.busy = 0
  · rw [if_pos idle]
    cases part.controller.failed <;> decide
  · rw [if_neg idle]
    cases part.controller.failed <;> decide

variable (commandReads eraseReads : Nat)

theorem read_fstat (part : Kv10z) :
    (kv10z commandReads eraseReads).read ftfaFstat part =
      (part.fstat, { part with busy := part.busy - 1 }) := by
  simp only [kv10z, if_true]

/-- Except for `FSTAT`, a read changes nothing. -/
theorem read_other {address : Word} (other : address ≠ ftfaFstat) (part : Kv10z) :
    ((kv10z commandReads eraseReads).read address part).2 = part := by
  simp only [kv10z, if_neg other]
  split_ifs <;> rfl

theorem readPort_ctrl (part : Kv10z) :
    (kv10z commandReads eraseReads).readPort mdmApCtrl part =
      (if part.erasing = 0 then 0 else mdmCtrlFlashErase,
        { part with erasing := part.erasing - 1 }) := by
  have other : mdmApCtrl ≠ mdmApStat := by decide
  simp only [kv10z, if_neg other, if_true]

/-- It owes what a flash controller on the bus does. -/
theorem owes (few : commandReads < Firmware.maxRetries) :
    FlashDevice (kv10z commandReads eraseReads) controller (Sound commandReads) Ready busy
      0x8000 where
  addressable := by norm_num
  read address part isSound := by
    by_cases fstat : address = ftfaFstat
    · subst fstat
      rw [read_fstat]
      exact ⟨⟨(Nat.sub_le part.busy 1).trans isSound, rfl, id⟩, rfl⟩
    · rw [read_other commandReads eraseReads fstat]
      exact ⟨⟨isSound, rfl, id⟩, rfl⟩
  words address part _ _ _ inside := by
    have other : address ≠ ftfaFstat := by
      rintro rfl
      exact absurd inside (by decide)
    have below : address.toNat < 0x8000 := by omega
    simp only [kv10z, if_neg other, if_pos below]
  few part isSound := lt_of_le_of_lt isSound few
  ends part _ := by
    rw [read_fstat]
    by_cases idle : part.busy = 0
    · exact .inl (fstat_over idle)
    · exact .inr (Nat.sub_lt (Nat.pos_of_ne_zero idle) Nat.one_pos)
  status part _ _ := by
    rw [read_fstat, flashFailed_fstat]
  write register value part is isSound := by
    have acts : (kv10z commandReads eraseReads).write register value part =
        { part with
          controller := part.controller.write 0x8000 register value
          busy := if value &&& fstatCcif = 0 then part.busy else commandReads } := if_pos is
    rw [acts]
    refine ⟨?_, fun isReady => ⟨isReady, rfl⟩⟩
    by_cases waits : value &&& fstatCcif = 0
    · exact (if_pos waits).le.trans isSound
    · exact (if_neg waits).le
  quiet address value part prompt isSound := by
    have other : ¬ FlashRegister address := by
      rcases prompt with rfl | rfl | rfl <;> decide
    have same : (kv10z commandReads eraseReads).write address value part = part := if_neg other
    rw [same]
    exact ⟨isSound, rfl, id⟩
  readPort register part prompt isSound := by
    rcases prompt with rfl | rfl
    · exact ⟨isSound, rfl, id⟩
    · rw [readPort_ctrl]
      refine ⟨isSound, rfl, fun isReady => ?_⟩
      exact Nat.sub_eq_zero_of_le (isReady.le.trans (Nat.zero_le 1))
  request part isSound := ⟨isSound, rfl, id⟩
  erase part isSound := ⟨isSound, rfl⟩
  erased part _ := by
    rw [readPort_ctrl]
    intro polled clear
    by_cases done : part.erasing = 0
    · exact Nat.sub_eq_zero_of_le (done.le.trans (Nat.zero_le 1))
    · have shown : polled.1 = mdmCtrlFlashErase := if_neg done
      rw [shown] at clear
      exact absurd clear (by decide)

end Kv10z

/-- The part with something else in its flash. -/
def usedKv10z : MidLevel (BusTarget Kv10z) :=
  MidLevel.boot
    { select := 0
      rdbuff := 0
      csw := 0
      tar := 0
      behind :=
        { controller := { flash := fun _ => 0x5A, command := 0, data := 0, failed := true }
          busy := 0
          erasing := 0 } }

theorem usedKv10z_behind : Behind (Kv10z.Sound 2) usedKv10z := ⟨.inl rfl, Nat.zero_le _⟩

/-- Its driver, when a command takes two reads and an erase three. -/
def kv10zDriver : Driver (MidLevel (BusTarget Kv10z)) := arduinoSWDInterface (kv10z 2 3).port

theorem kv10z_chip :
    Chip kv10zDriver (fun state => state.target.behind.controller) (Behind (Kv10z.Sound 2))
      (fun state => state.target.behind.Ready) 0x8000 :=
  (Kv10z.owes 2 3 (by decide)).chip

/-- The erase goes well. -/
theorem usedKv10z_erased :
    (kinetisFlasherase (Direct.link kv10zDriver)
      (connect (Direct.link kv10zDriver) (fresh { target := usedKv10z, reply := none })).2).1 =
        0 := by
  decide +kernel

theorem twoWords_fits : ∀ file ∈ some twoWords, file.bytes.length ≤ 0x8000 := by
  rintro file ⟨⟩
  decide

/-- Two words, on the part itself. -/
theorem usedKv10z_finishes :
    (initSystem (Direct.link kv10zDriver) false (some twoWords)
      (fresh { target := usedKv10z, reply := none })).1 = .finished := by
  have flashes := kv10z_chip.part.flashes (some twoWords) twoWords_fits
    (fresh { target := usedKv10z, reply := none }) usedKv10z_behind
  exact flashes.finished.mpr ⟨usedKv10z_erased, twoWords, rfl, by decide, by decide⟩

end Swagger.Line
