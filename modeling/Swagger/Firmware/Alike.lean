/-
**The driver does not see more of a port than its answers.**

Two ports are alike on related targets if each transaction returns the same on both and leaves the
targets related (`PortsAlike`). Whatever is built from the transactions then returns the same, and
leaves the caches equal: the functions of the mid-level driver one by one (`driver_alike`), a
command, and a whole packet of commands (`DriversAlike.execute`).
-/

import Swagger.Firmware.Execution
import Swagger.Firmware.ApSelect

namespace Swagger.Firmware

/-! ### Answers -/

section Answers

variable {σ σ' : Type} (related : σ → σ' → Prop)

/-- The same code, and the same word if the code is `ok`, on related targets. -/
structure ReadsAlike (ok : Byte) (answer : Byte × Word × σ) (answer' : Byte × Word × σ') :
    Prop where
  code : answer.1 = answer'.1
  data : answer'.1 = ok → answer.2.1 = answer'.2.1
  targets : related answer.2.2 answer'.2.2

/-- The same result, on related targets. -/
structure EndsAlike {α : Type} (answer : α × σ) (answer' : α × σ') : Prop where
  result : answer.1 = answer'.1
  targets : related answer.2 answer'.2

/-- The ports cannot be told apart. -/
structure PortsAlike (port : SwdPort σ) (port' : SwdPort σ') : Prop where
  setReset : ∀ value {target target'}, related target target' →
    related (port.setReset value target) (port'.setReset value target')
  doConnect : ∀ {target target'}, related target target' →
    ReadsAlike related swdOk (port.doConnect target) (port'.doConnect target')
  doReadTransaction : ∀ apNotDp a23 {target target'}, related target target' →
    ReadsAlike related swdOk (port.doReadTransaction apNotDp a23 target)
      (port'.doReadTransaction apNotDp a23 target')
  doWriteTransaction : ∀ apNotDp a23 data {target target'}, related target target' →
    EndsAlike related (port.doWriteTransaction apNotDp a23 data target)
      (port'.doWriteTransaction apNotDp a23 data target')

/-- The drivers cannot be told apart. -/
structure DriversAlike (driver : Driver σ) (driver' : Driver σ') : Prop where
  setReset : ∀ value {target target'}, related target target' →
    related (driver.setReset value target) (driver'.setReset value target')
  tryConnect : ∀ {target target'}, related target target' →
    ReadsAlike related Status.ok.code (driver.tryConnect target) (driver'.tryConnect target')
  readDP : ∀ address {target target'}, related target target' →
    ReadsAlike related Status.ok.code (driver.readDP address target) (driver'.readDP address target')
  writeDP : ∀ address data {target target'}, related target target' →
    EndsAlike related (driver.writeDP address data target) (driver'.writeDP address data target')
  readAP : ∀ address {target target'}, related target target' →
    ReadsAlike related Status.ok.code (driver.readAP address target) (driver'.readAP address target')
  writeAP : ∀ address data {target target'}, related target target' →
    EndsAlike related (driver.writeAP address data target) (driver'.writeAP address data target')
  readMemory : ∀ address {target target'}, related target target' →
    ReadsAlike related Status.ok.code (driver.readMemory address target) (driver'.readMemory address target')
  writeMemory : ∀ address data {target target'}, related target target' →
    EndsAlike related (driver.writeMemory address data target)
      (driver'.writeMemory address data target')

end Answers

/-! ### The mid-level driver -/

section MidLevel

open MidLevel

variable {σ σ' : Type} {related : σ → σ' → Prop} {port : SwdPort σ} {port' : SwdPort σ'}

/-- Drivers on related targets, with equal caches. -/
structure SameCache (related : σ → σ' → Prop) (state : MidLevel σ) (state' : MidLevel σ') :
    Prop where
  target : related state.target state'.target
  apCache : state.apCache = state'.apCache

variable (alike : PortsAlike related port port') {state : MidLevel σ} {state' : MidLevel σ'}

include alike

theorem retryWrite_alike (apNotDp : Bool) (address data : Word) (retries : Nat)
    {state : MidLevel σ} {state' : MidLevel σ'} (same : SameCache related state state') :
    EndsAlike (SameCache related) (retryWrite port apNotDp address data retries state)
      (retryWrite port' apNotDp address data retries state') := by
  induction retries generalizing state state' with
  | zero => exact ⟨rfl, same⟩
  | succ retries ih =>
      obtain ⟨ack, targets⟩ := alike.doWriteTransaction apNotDp (a23 address) data same.target
      unfold retryWrite
      simp only
      rw [ack]
      split_ifs
      · exact ih ⟨targets, same.apCache⟩
      · exact ⟨rfl, targets, same.apCache⟩

theorem retryRead_alike (apNotDp : Bool) (address : Word) (retries : Nat)
    {state : MidLevel σ} {state' : MidLevel σ'} (same : SameCache related state state') :
    ReadsAlike (SameCache related) Status.ok.code (retryRead port apNotDp address retries state)
      (retryRead port' apNotDp address retries state') := by
  induction retries generalizing state state' with
  | zero => exact ⟨rfl, fun _ => rfl, same⟩
  | succ retries ih =>
      obtain ⟨ack, data, targets⟩ := alike.doReadTransaction apNotDp (a23 address) same.target
      unfold retryRead
      simp only
      rw [ack]
      split_ifs
      · exact ih ⟨targets, same.apCache⟩
      · exact ⟨rfl, fun ok => data ((statusOfAck_ok_iff _).mp ok), targets, same.apCache⟩

theorem selectAP_alike (address : Word) (same : SameCache related state state') :
    EndsAlike (SameCache related) (selectAP port address state)
      (selectAP port' address state') := by
  obtain ⟨status, written⟩ := retryWrite_alike alike false dpSelect (address &&& apMask)
    driverRetries same
  unfold selectAP writeDP
  simp only
  rw [same.apCache, status]
  split_ifs
  · exact ⟨rfl, same⟩
  · exact ⟨rfl, written.target, rfl⟩
  · exact ⟨rfl, written⟩

theorem writeAP_alike (address data : Word) (same : SameCache related state state') :
    EndsAlike (SameCache related) (writeAP port address data state)
      (writeAP port' address data state') := by
  obtain ⟨status, selected⟩ := selectAP_alike alike address same
  unfold writeAP
  simp only
  rw [status]
  split_ifs
  · exact ⟨rfl, selected⟩
  · exact retryWrite_alike alike true address data driverRetries selected

theorem readAP_alike (address : Word) (same : SameCache related state state') :
    ReadsAlike (SameCache related) Status.ok.code (readAP port address state) (readAP port' address state') := by
  obtain ⟨status, selected⟩ := selectAP_alike alike address same
  obtain ⟨code, data, read⟩ := retryRead_alike alike true address driverRetries selected
  unfold readAP
  simp only
  rw [status, code]
  split_ifs
  · exact ⟨rfl, fun _ => rfl, selected⟩
  · exact ⟨rfl, data, read⟩
  · exact retryRead_alike alike false dpRdbuff driverRetries read

theorem waitLoop_alike (retries : Nat) {state : MidLevel σ} {state' : MidLevel σ'}
    (same : SameCache related state state') :
    EndsAlike (SameCache related) (waitLoop port retries state) (waitLoop port' retries state') := by
  induction retries generalizing state state' with
  | zero =>
      obtain ⟨code, data, read⟩ := readAP_alike alike ahbApCsw same
      rw [waitLoop_zero, waitLoop_zero]
      simp only
      rw [code]
      by_cases ok : (readAP port' ahbApCsw state').1 = Status.ok.code
      · rw [if_neg (not_not.mpr ok), if_neg (not_not.mpr ok), data ok]
        split_ifs
        · exact ⟨rfl, read⟩
        · exact ⟨rfl, read⟩
      · rw [if_pos ok, if_pos ok]
        exact ⟨rfl, read⟩
  | succ retries ih =>
      obtain ⟨code, data, read⟩ := readAP_alike alike ahbApCsw same
      rw [waitLoop_succ, waitLoop_succ]
      simp only
      rw [code]
      by_cases ok : (readAP port' ahbApCsw state').1 = Status.ok.code
      · rw [if_neg (not_not.mpr ok), if_neg (not_not.mpr ok), data ok]
        split_ifs
        · exact ⟨rfl, read⟩
        · exact ih read
      · rw [if_pos ok, if_pos ok]
        exact ⟨rfl, read⟩

theorem setUpAccess_alike (address : Word) (same : SameCache related state state') :
    EndsAlike (SameCache related) (setUpAccess port address state)
      (setUpAccess port' address state') := by
  obtain ⟨status, setUp⟩ := writeAP_alike alike ahbApCsw 0x22000012 same
  obtain ⟨waited, idle⟩ := waitLoop_alike alike driverRetries setUp
  unfold setUpAccess waitForMemory
  simp only
  rw [status, waited]
  split_ifs
  · exact ⟨rfl, setUp⟩
  · exact ⟨rfl, idle⟩
  · exact writeAP_alike alike ahbApTar address idle

omit alike in
theorem tryConnect_alike (connects : ReadsAlike related swdOk (port.doConnect state.target)
      (port'.doConnect state'.target)) :
    ReadsAlike (SameCache related) Status.ok.code (tryConnect port state)
      (tryConnect port' state') := by
  obtain ⟨ack, idcode, targets⟩ := connects
  exact ⟨congrArg statusOfAck ack, fun ok => idcode ((statusOfAck_ok_iff _).mp ok), targets, rfl⟩

/-- The driver on the one port, and on the other. -/
theorem driver_alike :
    DriversAlike (SameCache related) (arduinoSWDInterface port) (arduinoSWDInterface port') where
  setReset value _ _ same := ⟨alike.setReset value same.target, same.apCache⟩
  tryConnect same := tryConnect_alike (alike.doConnect same.target)
  readDP address _ _ same := retryRead_alike alike false address driverRetries same
  writeDP address data _ _ same := retryWrite_alike alike false address data driverRetries same
  readAP address _ _ same := readAP_alike alike address same
  writeAP address data _ _ same := writeAP_alike alike address data same
  readMemory address state state' same := by
    obtain ⟨status, ready⟩ := setUpAccess_alike alike address same
    change ReadsAlike _ _ (readMemory port address state) (readMemory port' address state')
    unfold readMemory
    simp only
    rw [status]
    split_ifs
    · exact ⟨rfl, fun _ => rfl, ready⟩
    · exact readAP_alike alike ahbApData ready
  writeMemory address data state state' same := by
    obtain ⟨status, ready⟩ := setUpAccess_alike alike address same
    change EndsAlike _ (writeMemory port address data state) (writeMemory port' address data state')
    unfold writeMemory
    simp only
    rw [status]
    split_ifs
    · exact ⟨rfl, ready⟩
    · exact writeAP_alike alike ahbApData data ready

end MidLevel

/-! ### Packets -/

/-- The same results and the same status, on related targets; a wait times out on both or on
none. -/
structure ExecutesAlike {σ σ' : Type} (related : σ → σ' → Prop) (driver : Driver σ)
    (driver' : Driver σ') (unknown : Option Byte) (commands : List Command) (target : σ)
    (target' : σ') : Prop where
  results : (execute driver unknown commands target).results =
    (execute driver' unknown commands target').results
  status : (execute driver unknown commands target).status =
    (execute driver' unknown commands target').status
  targets : related (execute driver unknown commands target).target
    (execute driver' unknown commands target').target
  late : TimesOut driver commands target ↔ TimesOut driver' commands target'

namespace DriversAlike

variable {σ σ' : Type} {related : σ → σ' → Prop} {driver : Driver σ} {driver' : Driver σ'}

theorem ofRead {answer : Byte × Word × σ} {answer' : Byte × Word × σ'}
    (answers : ReadsAlike related Status.ok.code answer answer') :
    EndsAlike related (Outcome.ofRead answer) (Outcome.ofRead answer') := by
  obtain ⟨code, data, targets⟩ := answers
  refine ⟨?_, targets⟩
  unfold Outcome.ofRead
  rw [code]
  split_ifs with ok
  · rw [data ok]
  · rfl

theorem ofWrite {answer : Byte × σ} {answer' : Byte × σ'}
    (answers : EndsAlike related answer answer') :
    EndsAlike related (Outcome.ofWrite answer) (Outcome.ofWrite answer') := by
  obtain ⟨code, targets⟩ := answers
  refine ⟨?_, targets⟩
  unfold Outcome.ofWrite
  rw [code]

variable (alike : DriversAlike related driver driver') {target : σ} {target' : σ'}

include alike

theorem waitLoop (address mask : Word) (retries : Nat) {target : σ} {target' : σ'}
    (same : related target target') :
    EndsAlike related (Programmer.waitLoop driver address mask retries target)
      (Programmer.waitLoop driver' address mask retries target') := by
  induction retries generalizing target target' with
  | zero => exact ⟨rfl, same⟩
  | succ retries ih =>
      obtain ⟨code, data, targets⟩ := alike.readMemory address same
      unfold Programmer.waitLoop
      simp only
      rw [code]
      by_cases ok : (driver'.readMemory address target').1 = Status.ok.code
      · rw [if_pos ok, if_pos ok, data ok]
        split_ifs
        · exact ⟨rfl, targets⟩
        · exact ih targets
      · rw [if_neg ok, if_neg ok]
        exact ⟨rfl, targets⟩

theorem runCommand (command : Command) (same : related target target') :
    EndsAlike related (Firmware.runCommand driver command target)
      (Firmware.runCommand driver' command target') := by
  cases command with
  | connect => exact ofRead (alike.tryConnect same)
  | reset state => exact ⟨rfl, alike.setReset _ same⟩
  | readAP address => exact ofRead (alike.readAP address same)
  | writeAP address data => exact ofWrite (alike.writeAP address data same)
  | readDP address => exact ofRead (alike.readDP _ same)
  | writeDP address data => exact ofWrite (alike.writeDP _ data same)
  | readMem address => exact ofRead (alike.readMemory address same)
  | writeMem address data => exact ofWrite (alike.writeMemory address data same)
  | waitMemTrue address mask =>
      obtain ⟨waited, targets⟩ := alike.waitLoop address mask maxRetries same
      refine ⟨?_, targets⟩
      change (Outcome.ofWait _).1 = (Outcome.ofWait _).1
      unfold Outcome.ofWait
      rw [waited]
  | getProgId => exact ⟨rfl, same⟩

omit alike in
/-- A packet, when it is known what its first command does. -/
theorem execute_first {unknown : Option Byte} {command : Command} {commands : List Command}
    (first : EndsAlike related (Firmware.runCommand driver command target)
      (Firmware.runCommand driver' command target'))
    (rest : ∀ {target : σ} {target' : σ'}, related target target' →
      ExecutesAlike related driver driver' unknown commands target target') :
    ExecutesAlike related driver driver' unknown (command :: commands) target target' := by
  obtain ⟨ended, targets⟩ := first
  rcases one : Firmware.runCommand driver command target with ⟨outcome, target₁⟩
  rcases two : Firmware.runCommand driver' command target' with ⟨outcome', target₂⟩
  rw [one, two] at ended targets
  obtain rfl : outcome = outcome' := ended
  cases outcome with
  | done results =>
      obtain ⟨more, status, last, late⟩ := rest targets
      constructor
      all_goals simp only [Firmware.execute, TimesOut, one, two]
      · rw [more]
      · exact status
      · exact last
      · exact late
  | failed status =>
      constructor
      all_goals simp only [Firmware.execute, TimesOut, one, two]
      exact targets
  | timedOut =>
      constructor
      all_goals simp only [Firmware.execute, TimesOut, one, two]
      exact targets

/-- A packet of commands gets the same reply, and leaves the targets related. -/
theorem execute (unknown : Option Byte) (commands : List Command) {target : σ} {target' : σ'}
    (same : related target target') :
    ExecutesAlike related driver driver' unknown commands target target' := by
  induction commands generalizing target target' with
  | nil => cases unknown <;> exact ⟨rfl, rfl, same, Iff.rfl⟩
  | cons command commands ih => exact execute_first (alike.runCommand command same) ih

end DriversAlike

theorem ExecutesAlike.reply {σ σ' : Type} {related : σ → σ' → Prop} {driver : Driver σ}
    {driver' : Driver σ'} {unknown : Option Byte} {commands : List Command} {target : σ}
    {target' : σ'} (executes : ExecutesAlike related driver driver' unknown commands target target') :
    (execute driver unknown commands target).reply =
      (execute driver' unknown commands target').reply := by
  rw [Execution.reply, Execution.reply, executes.results, executes.status]

end Swagger.Firmware
