/-
**The transactions of an operation.**

An operation of the driver is a finite sequence of transactions at the port, whatever the target
answers (`operation_transactions`), and so is a run of the program (`Device.run_transactions`).
Hence a property of the target that every transaction keeps is kept by a whole run. The number of
transactions so far is the use that is made of it: `SwdPort.counted` counts them, and the count
never decreases (`Device.run_count`).
-/

import Swagger.Firmware.ApSelect

namespace Swagger.Firmware

open Library

variable {σ : Type}

/-! ### Transactions at a port -/

inductive Transaction
  | setReset (value : Bool)
  | connect
  | read (apNotDp : Bool) (a23 : Byte)
  | write (apNotDp : Bool) (a23 : Byte) (data : Word)
  deriving DecidableEq, Repr

namespace Transaction

def run (port : SwdPort σ) : Transaction → σ → σ
  | .setReset value, target => port.setReset value target
  | .connect, target => (port.doConnect target).2.2
  | .read apNotDp bits, target => (port.doReadTransaction apNotDp bits target).2.2
  | .write apNotDp bits data, target => (port.doWriteTransaction apNotDp bits data target).2

end Transaction

/-- The runs of a target: any transaction in any state. -/
def transactions (port : SwdPort σ) : Lts σ Transaction where
  step target label target' :=
    match label with
    | some transaction => target' = transaction.run port target
    | none => False

/-- A target comes to another state through transactions. -/
def SwdPort.Leads (port : SwdPort σ) (first last : σ) : Prop :=
  ∃ labels, (transactions port).Trace first labels last

namespace SwdPort.Leads

variable {port : SwdPort σ}

theorem refl (target : σ) : port.Leads target target := ⟨[], .refl target⟩

theorem single (transaction : Transaction) (target : σ) :
    port.Leads target (transaction.run port target) :=
  ⟨[transaction], .visible rfl (.refl _)⟩

theorem trans {first second third : σ} (one : port.Leads first second)
    (two : port.Leads second third) : port.Leads first third := by
  obtain ⟨labels, run⟩ := one
  obtain ⟨labels', run'⟩ := two
  exact ⟨labels ++ labels', run.trans run'⟩

end SwdPort.Leads

/-! ### Operations -/

section Operations

open MidLevel

variable (port : SwdPort σ)

theorem retryWrite_leads (apNotDp : Bool) (address data : Word) (retries : Nat)
    (state : MidLevel σ) :
    port.Leads state.target (retryWrite port apNotDp address data retries state).2.target := by
  induction retries generalizing state with
  | zero => exact .refl _
  | succ retries ih =>
      have once : port.Leads state.target
          (port.doWriteTransaction apNotDp (Firmware.a23 address) data state.target).2 :=
        .single (.write apNotDp (Firmware.a23 address) data) state.target
      unfold retryWrite
      simp only
      split_ifs
      · exact once.trans (ih { state with target := _ })
      · exact once

theorem retryRead_leads (apNotDp : Bool) (address : Word) (retries : Nat) (state : MidLevel σ) :
    port.Leads state.target (retryRead port apNotDp address retries state).2.2.target := by
  induction retries generalizing state with
  | zero => exact .refl _
  | succ retries ih =>
      have once : port.Leads state.target
          (port.doReadTransaction apNotDp (Firmware.a23 address) state.target).2.2 :=
        .single (.read apNotDp (Firmware.a23 address)) state.target
      unfold retryRead
      simp only
      split_ifs
      · exact once.trans (ih { state with target := _ })
      · exact once

theorem selectAP_leads (address : Word) (state : MidLevel σ) :
    port.Leads state.target (selectAP port address state).2.target := by
  have written := retryWrite_leads port false dpSelect (address &&& apMask) driverRetries state
  unfold selectAP
  simp only
  split_ifs
  · exact .refl _
  · exact written
  · exact written

theorem writeAP_leads (address data : Word) (state : MidLevel σ) :
    port.Leads state.target (writeAP port address data state).2.target := by
  have selected := selectAP_leads port address state
  unfold writeAP
  simp only
  split_ifs
  · exact selected
  · exact selected.trans (retryWrite_leads port true address data driverRetries _)

theorem readAP_leads (address : Word) (state : MidLevel σ) :
    port.Leads state.target (readAP port address state).2.2.target := by
  have selected := selectAP_leads port address state
  unfold readAP
  simp only
  split_ifs
  · exact selected
  · exact selected.trans (retryRead_leads port true address driverRetries _)
  · exact (selected.trans (retryRead_leads port true address driverRetries _)).trans
      (retryRead_leads port false dpRdbuff driverRetries _)

/-- So the memory accesses are sequences of transactions as well. -/
theorem memory_leads : MemoryFrame port fun one two => port.Leads one.target two.target where
  trans := SwdPort.Leads.trans
  readAP address _ state := readAP_leads port address state
  writeAP address _ data state := writeAP_leads port address data state

/-- An operation of the driver is a sequence of transactions. -/
theorem operation_transactions (operation : Operation) (state : MidLevel σ) :
    port.Leads state.target (operation.run (arduinoSWDInterface port) state).target := by
  cases operation with
  | setReset value => exact .single (.setReset value) state.target
  | tryConnect => exact .single .connect state.target
  | readDP address => exact retryRead_leads port false address driverRetries state
  | writeDP address data => exact retryWrite_leads port false address data driverRetries state
  | readAP address => exact readAP_leads port address state
  | writeAP address data => exact writeAP_leads port address data state
  | readMemory address => exact (memory_leads port).readMemory address state
  | writeMemory address data => exact (memory_leads port).writeMemory address data state

theorem operations_lead {first last : MidLevel σ} {labels : List Operation}
    (run : (operations (arduinoSWDInterface port)).Trace first labels last) :
    port.Leads first.target last.target := by
  have keeps (one : MidLevel σ) (label : Option Operation) (two : MidLevel σ)
      (before : port.Leads first.target one.target)
      (step : (operations (arduinoSWDInterface port)).step one label two) :
      port.Leads first.target two.target := by
    cases label with
    | none => exact step.elim
    | some operation =>
        obtain rfl : two = operation.run (arduinoSWDInterface port) one := step
        exact before.trans (operation_transactions port operation one)
  exact Lts.Trace.invariant keeps run (.refl _)

end Operations

/-- A run of the device reaches the target through transactions alone. -/
theorem Device.run_transactions {port : SwdPort σ} {board : Board (MidLevel σ)}
    (driver : board.driver = arduinoSWDInterface port) {device device' : Device (MidLevel σ)}
    {labels : List Byte} (run : (Device.lts board).Trace device labels device') :
    port.Leads device.target.target device'.target.target := by
  have keeps (one : Device (MidLevel σ)) (label : Option Byte) (two : Device (MidLevel σ))
      (before : port.Leads device.target.target one.target.target)
      (step : (Device.lts board).step one label two) :
      port.Leads device.target.target two.target.target := by
    rcases Device.step_cases step with ⟨byteRead, -, -, rfl⟩ | ⟨packet, -, -, rfl⟩
    · rwa [Device.receive_target]
    · obtain ⟨labels, behind⟩ := Device.round_operations board packet one
      rw [driver] at behind
      exact before.trans (operations_lead port behind)
  exact Lts.Trace.invariant keeps run (.refl _)

/-! ### Counting -/

/-- A target with the number of transactions so far. -/
structure Counted (σ : Type) where
  target : σ
  count : Nat

/-- Count the transactions; a pulse on the reset line is none. -/
def SwdPort.counted (port : SwdPort σ) : SwdPort (Counted σ) where
  setReset value state := { state with target := port.setReset value state.target }
  doConnect state :=
    let (ack, idcode, target) := port.doConnect state.target
    (ack, idcode, { target, count := state.count + 1 })
  doReadTransaction apNotDp bits state :=
    let (ack, data, target) := port.doReadTransaction apNotDp bits state.target
    (ack, data, { target, count := state.count + 1 })
  doWriteTransaction apNotDp bits data state :=
    let (ack, target) := port.doWriteTransaction apNotDp bits data state.target
    (ack, { target, count := state.count + 1 })

theorem SwdPort.Leads.count_le {port : SwdPort σ} {first last : Counted σ}
    (leads : port.counted.Leads first last) : first.count ≤ last.count := by
  obtain ⟨labels, run⟩ := leads
  have keeps (one : Counted σ) (label : Option Transaction) (two : Counted σ)
      (before : first.count ≤ one.count)
      (step : (transactions port.counted).step one label two) : first.count ≤ two.count := by
    cases label with
    | none => exact step.elim
    | some transaction =>
        obtain rfl : two = transaction.run port.counted one := step
        cases transaction with
        | setReset => exact before
        | connect => exact Nat.le_succ_of_le before
        | read => exact Nat.le_succ_of_le before
        | write => exact Nat.le_succ_of_le before
  exact Lts.Trace.invariant keeps run le_rfl

/-- The count never decreases. -/
theorem Device.run_count {port : SwdPort σ} {board : Board (MidLevel (Counted σ))}
    (driver : board.driver = arduinoSWDInterface port.counted)
    {device device' : Device (MidLevel (Counted σ))} {labels : List Byte}
    (run : (Device.lts board).Trace device labels device') :
    device.target.target.count ≤ device'.target.target.count :=
  (Device.run_transactions driver run).count_le

end Swagger.Firmware
