/-
**The cache of the SELECT register.**

The target's SELECT register decides which access port and bank an AP transaction reaches.
`Tracked` adds the register to an arbitrary target, and records for each AP transaction what SELECT
held. The class writes SELECT only when `m_APcache` differs, so its accesses reach the address they
are for as long as the cache is invalid or shows SELECT (`Shadows`). Every operation keeps that, but
for one: a raw `WRITE DP` to SELECT leaves a valid cache as it is (`Misleads`).

Host packets cause sequences of such operations (`reachable_operations`).

* `select_coherent`: in a run without such a write every AP transaction reaches its address.
* `misled`: behind such a write the next access to the cached address does not.
-/

import Swagger.Firmware.Safety

namespace Swagger.Firmware

open Library

/-! ### A target with its SELECT register -/

/-- An AP transaction: the address bits it carries, and SELECT while it takes place. -/
structure Access where
  bits : Byte
  select : Word
  deriving DecidableEq, Repr

/-- The transaction reaches the register of an AP address. -/
def Access.Reaches (access : Access) (address : Word) : Prop :=
  access.bits = a23 address ∧ access.select &&& apMask = address &&& apMask

/-- A target, its SELECT register, and the AP transactions so far. -/
structure Tracked (σ : Type) where
  target : σ
  select : Word
  accesses : List Access

/-- The AP transactions after one more transaction. -/
def Tracked.note {σ : Type} (state : Tracked σ) (apNotDp : Bool) (bits : Byte) : List Access :=
  if apNotDp then state.accesses ++ [{ bits, select := state.select }] else state.accesses

section Port

variable {σ : Type}

/-- SELECT takes the word of a DP write to `A[3:2] = 2` that is acknowledged, and may hold anything
after a connect. -/
def SwdPort.tracked (port : SwdPort σ) (connected : σ → Word) : SwdPort (Tracked σ) where
  setReset value state := { state with target := port.setReset value state.target }
  doConnect state :=
    let (ack, idcode, target) := port.doConnect state.target
    (ack, idcode, { state with target, select := connected target })
  doReadTransaction apNotDp bits state :=
    let (ack, data, target) := port.doReadTransaction apNotDp bits state.target
    (ack, data, { state with target, accesses := state.note apNotDp bits })
  doWriteTransaction apNotDp bits data state :=
    let (ack, target) := port.doWriteTransaction apNotDp bits data state.target
    (ack, {
      target
      select := if apNotDp = false ∧ bits = 2 ∧ ack = swdOk then data else state.select
      accesses := state.note apNotDp bits })

/-- The target acknowledges a DP write within the tries that are left. -/
def SwdPort.Acknowledges (port : SwdPort σ) (bits : Byte) (data : Word) : Nat → σ → Prop
  | 0, _ => False
  | tries + 1, target =>
      let (ack, target) := port.doWriteTransaction false bits data target
      ack = swdOk ∨ (ack = swdWait ∧ port.Acknowledges bits data tries target)

end Port

/-! ### The operations -/

/-- The AP registers of a memory access. -/
def memoryAddresses : List Word := [ahbApCsw, ahbApTar, ahbApData]

/-- The operations of the class, with their arguments. -/
inductive Operation
  | tryConnect
  | setReset (value : Bool)
  | readDP (address : Word)
  | writeDP (address data : Word)
  | readAP (address : Word)
  | writeAP (address data : Word)
  | readMemory (address : Word)
  | writeMemory (address data : Word)
  deriving DecidableEq, Repr

namespace Operation

def run {σ : Type} (driver : Driver σ) : Operation → σ → σ
  | .tryConnect, state => (driver.tryConnect state).2.2
  | .setReset value, state => driver.setReset value state
  | .readDP address, state => (driver.readDP address state).2.2
  | .writeDP address data, state => (driver.writeDP address data state).2
  | .readAP address, state => (driver.readAP address state).2.2
  | .writeAP address data, state => (driver.writeAP address data state).2
  | .readMemory address, state => (driver.readMemory address state).2.2
  | .writeMemory address data, state => (driver.writeMemory address data state).2

/-- The AP addresses for which an operation issues transactions: those it is given, or the registers
of a memory access. -/
def addresses : Operation → List Word
  | .readAP address | .writeAP address _ => [address]
  | .readMemory _ | .writeMemory _ _ => memoryAddresses
  | _ => []

end Operation

/-- The runs of a driver: any operation in any state. -/
def operations {σ : Type} (driver : Driver σ) : Lts σ Operation where
  step state label state' :=
    match label with
    | some operation => state' = operation.run driver state
    | none => False

section Packets

variable {σ : Type}

theorem operation_trace (driver : Driver σ) (operation : Operation) (state : σ) :
    (operations driver).Trace state [operation] (operation.run driver state) :=
  .visible rfl (.refl _)

theorem waitLoop_operations (driver : Driver σ) (address mask32 : Word) (retries : Nat)
    (state : σ) :
    ∃ labels, (operations driver).Trace state labels
      (Programmer.waitLoop driver address mask32 retries state).2 := by
  induction retries generalizing state with
  | zero => exact ⟨[], .refl _⟩
  | succ retries ih =>
      have read := operation_trace driver (.readMemory address) state
      rw [Operation.run] at read
      unfold Programmer.waitLoop
      generalize driver.readMemory address state = result at read ⊢
      obtain ⟨stat, data32, after⟩ := result
      obtain ⟨labels, rest⟩ := ih after
      simp only
      split_ifs
      · exact ⟨_, read⟩
      · exact ⟨_, read.trans rest⟩
      · exact ⟨_, read⟩

/-- A command of a packet is a sequence of operations. -/
theorem runCommand_operations (driver : Driver σ) (command : Command) (state : σ) :
    ∃ labels, (operations driver).Trace state labels (runCommand driver command state).2 := by
  cases command with
  | connect => exact ⟨_, operation_trace driver .tryConnect state⟩
  | reset value => exact ⟨_, operation_trace driver (.setReset (decide (0 < value))) state⟩
  | readAP address => exact ⟨_, operation_trace driver (.readAP address) state⟩
  | writeAP address data => exact ⟨_, operation_trace driver (.writeAP address data) state⟩
  | readDP address => exact ⟨_, operation_trace driver (.readDP (address.setWidth 32)) state⟩
  | writeDP address data =>
      exact ⟨_, operation_trace driver (.writeDP (address.setWidth 32) data) state⟩
  | readMem address => exact ⟨_, operation_trace driver (.readMemory address) state⟩
  | writeMem address data => exact ⟨_, operation_trace driver (.writeMemory address data) state⟩
  | waitMemTrue address mask => exact waitLoop_operations driver address mask maxRetries state
  | getProgId => exact ⟨[], .refl _⟩

theorem Device.round_operations (board : Board σ) (packet : Packet) (device : Device σ) :
    ∃ labels, (operations board.driver).Trace device.target labels
      (device.round board packet).target := by
  unfold Device.round
  split
  · unfold Device.command
    split
    · exact ⟨[], .refl _⟩
    · rename_i opcode _
      have ran := runCommand_operations board.driver
        (commandAt packet.memory packet.index opcode) device.target
      generalize runCommand board.driver _ device.target = result at ran ⊢
      obtain ⟨outcome, target⟩ := result
      cases outcome with
      | done results => exact ran
      | failed status => exact ran
      | timedOut => exact ran
  · exact ⟨[], .refl _⟩

theorem Device.receive_target (board : Board σ) (byteRead : Byte) (device : Device σ) :
    (device.receive board byteRead).target = device.target := by
  unfold Device.receive
  split_ifs
  · rfl
  · rfl
  · rfl

/-- Whatever bytes the program reads, it reaches the target through a sequence of operations. -/
theorem reachable_operations {board : Board σ} {target : σ} {bytes : List Byte}
    {prog : Programmer σ}
    (run : (Programmer.lts board).Trace (Programmer.boot target) bytes prog) :
    ∃ labels, (operations board.driver).Trace target labels prog.target := by
  obtain ⟨device, run', related⟩ := reachable_refines run
  rw [related.data.target]
  have keeps (one : Device σ) (label : Option Byte) (two : Device σ)
      (before : ∃ labels, (operations board.driver).Trace target labels one.target)
      (step : (Device.lts board).step one label two) :
      ∃ labels, (operations board.driver).Trace target labels two.target := by
    obtain ⟨labels, first⟩ := before
    rcases Device.step_cases step with ⟨byteRead, -, -, rfl⟩ | ⟨packet, -, -, rfl⟩
    · refine ⟨labels, ?_⟩
      rwa [Device.receive_target]
    · obtain ⟨labels', behind⟩ := Device.round_operations board packet one
      exact ⟨labels ++ labels', first.trans behind⟩
  exact Lts.Trace.invariant keeps run' ⟨[], .refl _⟩

end Packets

/-- Accesses have been added, each of which reaches one of the addresses. -/
def AddsReaching (addresses : List Word) (before after : List Access) : Prop :=
  ∃ added, after = before ++ added ∧ ∀ access ∈ added, ∃ address ∈ addresses, access.Reaches address

variable {σ : Type} (port : SwdPort σ) (connected : σ → Word)

/-- The operation issues its AP transactions while SELECT fits their addresses. -/
def Coherent (operation : Operation) (state : MidLevel (Tracked σ)) : Prop :=
  AddsReaching operation.addresses state.target.accesses
    (operation.run (arduinoSWDInterface (port.tracked connected)) state).target.accesses

/-- A raw `WRITE DP` puts a word into SELECT that a valid cache does not show. -/
def Misleads (state : MidLevel (Tracked σ)) : Operation → Prop
  | .writeDP address data =>
      a23 address = 2 ∧ port.Acknowledges 2 data driverRetries state.target.target ∧
        state.apCache ≠ invalidCache ∧ data &&& apMask ≠ state.apCache
  | _ => False

/-- The cache is invalid, or shows what SELECT holds. -/
def Shadows (state : MidLevel (Tracked σ)) : Prop :=
  state.apCache = invalidCache ∨ state.target.select &&& apMask = state.apCache

/-! ### Retry loops -/

theorem statusOfAck_ok_iff (ack : Byte) :
    MidLevel.statusOfAck ack = Status.ok.code ↔ ack = swdOk := by
  unfold MidLevel.statusOfAck
  by_cases ok : ack = swdOk
  · rw [if_pos ok]
    exact ⟨fun _ => ok, fun _ => rfl⟩
  · rw [if_neg ok]
    exact ⟨fun same => absurd same (by decide), fun same => absurd same ok⟩

theorem tracked_write {apNotDp : Bool} {bits ack : Byte} {data : Word} {state : Tracked σ}
    {target : σ}
    (response : port.doWriteTransaction apNotDp bits data state.target = (ack, target)) :
    (port.tracked connected).doWriteTransaction apNotDp bits data state = (ack, {
      target
      select := if apNotDp = false ∧ bits = 2 ∧ ack = swdOk then data else state.select
      accesses := state.note apNotDp bits }) := by
  rw [SwdPort.tracked]
  simp only [response]

theorem tracked_read {apNotDp : Bool} {bits ack : Byte} {data : Word} {state : Tracked σ}
    {target : σ}
    (response : port.doReadTransaction apNotDp bits state.target = (ack, data, target)) :
    (port.tracked connected).doReadTransaction apNotDp bits state =
      (ack, data, { state with target, accesses := state.note apNotDp bits }) := by
  rw [SwdPort.tracked]
  simp only [response]

/-- A DP write issues no AP transaction, leaves the cache, and changes SELECT if that is what it
addresses and it is acknowledged. -/
theorem retryWrite_dp (address data : Word) (retries : Nat) (state : MidLevel (Tracked σ)) :
    let result := MidLevel.retryWrite (port.tracked connected) false address data retries state
    result.2.apCache = state.apCache ∧ result.2.target.accesses = state.target.accesses ∧
      result.2.target.select =
        if a23 address = 2 ∧ result.1 = Status.ok.code then data else state.target.select := by
  induction retries generalizing state with
  | zero =>
      have timeout : ¬ (a23 address = 2 ∧ Status.timeout.code = Status.ok.code) :=
        fun both => absurd both.2 (by decide)
      exact ⟨rfl, rfl, (if_neg timeout).symm⟩
  | succ retries ih =>
      rcases response : port.doWriteTransaction false (a23 address) data state.target.target with
        ⟨ack, target⟩
      rw [MidLevel.retryWrite, tracked_write port connected response]
      by_cases wait : ack = swdWait
      · have other : ¬ (a23 address = 2 ∧ ack = swdOk) :=
          fun both => absurd (wait.symm.trans both.2) (by decide)
        simp only [if_pos wait, true_and, if_neg other]
        exact ih { state with target := { state.target with target } }
      · simp only [if_neg wait, statusOfAck_ok_iff, true_and]
        exact ⟨rfl, trivial⟩

/-- A DP write is OK when the target acknowledges it within the retries. -/
theorem retryWrite_ok_iff (address data : Word) (retries : Nat) (state : MidLevel (Tracked σ)) :
    (MidLevel.retryWrite (port.tracked connected) false address data retries state).1 =
        Status.ok.code ↔
      port.Acknowledges (a23 address) data retries state.target.target := by
  induction retries generalizing state with
  | zero =>
      have timeout : Status.timeout.code ≠ Status.ok.code := by decide
      exact ⟨fun same => timeout same, False.elim⟩
  | succ retries ih =>
      rcases response : port.doWriteTransaction false (a23 address) data state.target.target with
        ⟨ack, target⟩
      rw [MidLevel.retryWrite, tracked_write port connected response, SwdPort.Acknowledges,
        response]
      by_cases wait : ack = swdWait
      · have other : ack ≠ swdOk := fun ok => absurd (wait.symm.trans ok) (by decide)
        simp only [if_pos wait, other, false_or]
        exact (ih _).trans (and_iff_right wait).symm
      · simp only [wait, if_false, statusOfAck_ok_iff, false_and, or_false]

/-- A DP read leaves the cache and SELECT, and issues no AP transaction. -/
theorem retryRead_dp (address : Word) (retries : Nat) (state : MidLevel (Tracked σ)) :
    let result := MidLevel.retryRead (port.tracked connected) false address retries state
    result.2.2.apCache = state.apCache ∧ result.2.2.target.select = state.target.select ∧
      result.2.2.target.accesses = state.target.accesses := by
  induction retries generalizing state with
  | zero => exact ⟨rfl, rfl, rfl⟩
  | succ retries ih =>
      rcases response : port.doReadTransaction false (a23 address) state.target.target with
        ⟨ack, data, target⟩
      rw [MidLevel.retryRead, tracked_read port connected response]
      by_cases wait : ack = swdWait
      · simp only [if_pos wait]
        exact ih { state with target := { state.target with target } }
      · simp only [if_neg wait]
        exact ⟨trivial, trivial, rfl⟩

/-- What a retry loop of AP transactions does to the tracked state: one transaction or more, all of
them with the same address bits and SELECT. -/
structure Repeats (bits : Byte) (retries : Nat) (before after : MidLevel (Tracked σ)) : Prop where
  apCache : after.apCache = before.apCache
  select : after.target.select = before.target.select
  accesses : ∃ count, (0 < retries → 0 < count) ∧ after.target.accesses =
    before.target.accesses ++ List.replicate count { bits, select := before.target.select }

theorem Repeats.one_more {bits : Byte} {retries : Nat} {before after : MidLevel (Tracked σ)}
    {target : σ}
    (rest : Repeats bits retries { before with target := {
      target, select := before.target.select, accesses := before.target.note true bits } } after) :
    Repeats bits (retries + 1) before after := by
  obtain ⟨count, -, accesses⟩ := rest.accesses
  refine ⟨rest.apCache, rest.select, count + 1, fun _ => Nat.succ_pos count, ?_⟩
  rw [accesses, Tracked.note, if_pos rfl, List.append_assoc, List.replicate_succ]
  rfl

theorem Repeats.none {bits : Byte} {state : MidLevel (Tracked σ)} : Repeats bits 0 state state :=
  ⟨rfl, rfl, 0, id, (List.append_nil _).symm⟩

theorem retryWrite_ap (address data : Word) (retries : Nat) (state : MidLevel (Tracked σ)) :
    Repeats (a23 address) retries state
      (MidLevel.retryWrite (port.tracked connected) true address data retries state).2 := by
  induction retries generalizing state with
  | zero => exact .none
  | succ retries ih =>
      rcases response : port.doWriteTransaction true (a23 address) data state.target.target with
        ⟨ack, target⟩
      rw [MidLevel.retryWrite, tracked_write port connected response]
      simp only [Bool.true_eq_false, false_and, if_false]
      by_cases wait : ack = swdWait
      · simp only [if_pos wait]
        exact Repeats.one_more (ih _)
      · simp only [if_neg wait]
        exact ⟨rfl, rfl, 1, fun _ => Nat.one_pos, rfl⟩

theorem retryRead_ap (address : Word) (retries : Nat) (state : MidLevel (Tracked σ)) :
    Repeats (a23 address) retries state
      (MidLevel.retryRead (port.tracked connected) true address retries state).2.2 := by
  induction retries generalizing state with
  | zero => exact .none
  | succ retries ih =>
      rcases response : port.doReadTransaction true (a23 address) state.target.target with
        ⟨ack, data, target⟩
      rw [MidLevel.retryRead, tracked_read port connected response]
      by_cases wait : ack = swdWait
      · simp only [if_pos wait]
        exact Repeats.one_more (ih _)
      · simp only [if_neg wait]
        exact ⟨rfl, rfl, 1, fun _ => Nat.one_pos, rfl⟩

/-! ### The operations -/

/-- What the operations on AP addresses do, if nothing has misled the cache: they issue transactions
that reach their addresses, and the cache goes on to show SELECT. -/
structure Keeps (addresses : List Word) (before after : MidLevel (Tracked σ)) : Prop where
  shadows : Shadows before → Shadows after
  reaching : Shadows before →
    AddsReaching addresses before.target.accesses after.target.accesses

theorem AddsReaching.none (addresses : List Word) (accesses : List Access) :
    AddsReaching addresses accesses accesses :=
  ⟨[], (List.append_nil accesses).symm, fun _ none => nomatch none⟩

theorem Keeps.refl (addresses : List Word) (state : MidLevel (Tracked σ)) :
    Keeps addresses state state :=
  ⟨id, fun _ => .none addresses _⟩

/-- One after the other; for the second, the cache has shown SELECT before the first. -/
theorem Keeps.andThen {addresses : List Word} {first second third : MidLevel (Tracked σ)}
    (one : Keeps addresses first second)
    (two : Shadows first → Keeps addresses second third) : Keeps addresses first third where
  shadows before := (two before).shadows (one.shadows before)
  reaching before := by
    obtain ⟨added, accesses, reach⟩ := one.reaching before
    obtain ⟨added', accesses', reach'⟩ := (two before).reaching (one.shadows before)
    refine ⟨added ++ added', by rw [accesses', accesses, List.append_assoc],
      fun access member => ?_⟩
    rcases List.mem_append.mp member with here | there
    · exact reach access here
    · exact reach' access there

theorem Keeps.trans {addresses : List Word} {first second third : MidLevel (Tracked σ)}
    (one : Keeps addresses first second) (two : Keeps addresses second third) :
    Keeps addresses first third := one.andThen fun _ => two

theorem Keeps.mono {addresses more : List Word} {before after : MidLevel (Tracked σ)}
    (keeps : Keeps addresses before after) (subset : addresses ⊆ more) :
    Keeps more before after where
  shadows := keeps.shadows
  reaching shadows := by
    obtain ⟨added, accesses, reach⟩ := keeps.reaching shadows
    refine ⟨added, accesses, fun access member => ?_⟩
    obtain ⟨address, listed, reaches⟩ := reach access member
    exact ⟨address, subset listed, reaches⟩

/-- What keeps cache and SELECT and issues nothing keeps everything. -/
theorem Keeps.of_same {before after : MidLevel (Tracked σ)} (addresses : List Word)
    (apCache : after.apCache = before.apCache)
    (select : after.target.select = before.target.select)
    (accesses : after.target.accesses = before.target.accesses) : Keeps addresses before after where
  shadows shadows := by rwa [Shadows, apCache, select]
  reaching _ := by
    rw [accesses]
    exact .none addresses _

/-- Transactions with the bits of an address, while SELECT fits it. -/
theorem Repeats.keeps {address : Word} {retries : Nat} {before after : MidLevel (Tracked σ)}
    (repeats : Repeats (a23 address) retries before after)
    (selected : before.target.select &&& apMask = address &&& apMask) :
    Keeps [address] before after where
  shadows shadows := by rwa [Shadows, repeats.apCache, repeats.select]
  reaching _ := by
    obtain ⟨count, -, accesses⟩ := repeats.accesses
    refine ⟨_, accesses, fun access member => ⟨address, List.mem_singleton.mpr rfl, ?_⟩⟩
    rw [List.eq_of_mem_replicate member]
    exact ⟨rfl, selected⟩

/-- No masked address is the value of the invalid cache. -/
theorem masked_ne_invalidCache (address : Word) : address &&& apMask ≠ invalidCache := by
  intro same
  have lowest := congrArg (fun word : Word => word.getLsbD 0) same
  simp [apMask, invalidCache] at lowest

/-- `selectAP` keeps everything, and when it is OK, SELECT fits the address. -/
theorem selectAP_spec (address : Word) (state : MidLevel (Tracked σ)) :
    let result := MidLevel.selectAP (port.tracked connected) address state
    Keeps [] state result.2 ∧
      (result.1 = Status.ok.code → Shadows state →
        result.2.target.select &&& apMask = address &&& apMask) := by
  rw [MidLevel.selectAP]
  by_cases hit : address &&& apMask = state.apCache
  · simp only [if_pos hit]
    refine ⟨.refl _ _, fun _ shadows => ?_⟩
    rcases shadows with invalid | shown
    · exact absurd (hit.trans invalid) (masked_ne_invalidCache address)
    · rw [shown, hit]
  · obtain ⟨apCache, accesses, select⟩ :=
      retryWrite_dp port connected dpSelect (address &&& apMask) driverRetries state
    unfold MidLevel.writeDP
    rcases written : MidLevel.retryWrite (port.tracked connected) false dpSelect
      (address &&& apMask) driverRetries state with ⟨retval, after⟩
    rw [written] at apCache accesses select
    have addressed : a23 dpSelect = 2 := by decide
    simp only [addressed, true_and] at select
    by_cases ok : retval = Status.ok.code
    · rw [if_pos ok] at select
      have masked : after.target.select &&& apMask = address &&& apMask := by
        rw [select, BitVec.and_assoc, BitVec.and_self]
      simp only [if_neg hit, if_pos ok]
      refine ⟨⟨fun _ => .inr masked, fun _ => ?_⟩, fun _ _ => masked⟩
      rw [accesses]
      exact .none _ _
    · rw [if_neg ok] at select
      simp only [if_neg hit, if_neg ok]
      exact ⟨.of_same [] apCache select accesses, fun same => absurd same ok⟩

/-- A DP read keeps everything. -/
theorem readDP_keeps (addresses : List Word) (address : Word) (state : MidLevel (Tracked σ)) :
    Keeps addresses state (MidLevel.readDP (port.tracked connected) address state).2.2 := by
  obtain ⟨apCache, select, accesses⟩ := retryRead_dp port connected address driverRetries state
  exact .of_same addresses apCache select accesses

theorem writeAP_keeps (address data : Word) (state : MidLevel (Tracked σ)) :
    Keeps [address] state (MidLevel.writeAP (port.tracked connected) address data state).2 := by
  obtain ⟨kept, selected⟩ := selectAP_spec port connected address state
  unfold MidLevel.writeAP
  rcases chosen : MidLevel.selectAP (port.tracked connected) address state with ⟨retval, after⟩
  rw [chosen] at kept selected
  have start : Keeps [address] state after := kept.mono (List.nil_subset _)
  by_cases ok : retval = Status.ok.code
  · simp only [if_neg (not_not.mpr ok)]
    have repeats := retryWrite_ap port connected address data driverRetries after
    exact start.andThen fun shadows => repeats.keeps (selected ok shadows)
  · simp only [if_pos ok]
    exact start

theorem readAP_keeps (address : Word) (state : MidLevel (Tracked σ)) :
    Keeps [address] state (MidLevel.readAP (port.tracked connected) address state).2.2 := by
  obtain ⟨kept, selected⟩ := selectAP_spec port connected address state
  unfold MidLevel.readAP
  rcases chosen : MidLevel.selectAP (port.tracked connected) address state with ⟨retval, after⟩
  rw [chosen] at kept selected
  have start : Keeps [address] state after := kept.mono (List.nil_subset _)
  by_cases ok : retval = Status.ok.code
  · simp only [if_neg (not_not.mpr ok)]
    have repeats := retryRead_ap port connected address driverRetries after
    generalize MidLevel.retryRead (port.tracked connected) true address driverRetries after =
      result at repeats ⊢
    obtain ⟨retval', data, posted⟩ := result
    have through : Keeps [address] state posted :=
      start.andThen fun shadows => repeats.keeps (selected ok shadows)
    by_cases ok' : retval' = Status.ok.code
    · simp only [if_neg (not_not.mpr ok')]
      exact through.trans (readDP_keeps port connected [address] dpRdbuff posted)
    · simp only [if_pos ok']
      exact through
  · simp only [if_pos ok]
    exact start

/-! ### Memory accesses -/

/-- A wait is a sequence of polls of CSW. -/
theorem waitLoop_frame {R : MidLevel σ → MidLevel σ → Prop}
    (trans : ∀ {one two three}, R one two → R two three → R one three)
    (poll : ∀ state, R state (MidLevel.readAP port ahbApCsw state).2.2) (retries : Nat)
    (state : MidLevel σ) : R state (MidLevel.waitLoop port retries state).2 := by
  induction retries generalizing state with
  | zero =>
      have polled := poll state
      rw [MidLevel.waitLoop_zero]
      generalize MidLevel.readAP port ahbApCsw state = result at polled ⊢
      simp only
      split_ifs
      · exact polled
      · exact polled
      · exact polled
  | succ retries ih =>
      have polled := poll state
      rw [MidLevel.waitLoop_succ]
      generalize MidLevel.readAP port ahbApCsw state = result at polled ⊢
      simp only
      split_ifs
      · exact polled
      · exact polled
      · exact trans polled (ih _)

/-- What a memory access keeps: a relation of states that composes, and that the AP accesses to the
registers for memory accesses keep. -/
structure MemoryFrame (port : SwdPort σ) (R : MidLevel σ → MidLevel σ → Prop) : Prop where
  trans : ∀ {one two three}, R one two → R two three → R one three
  readAP : ∀ address ∈ memoryAddresses, ∀ state, R state (MidLevel.readAP port address state).2.2
  writeAP : ∀ address ∈ memoryAddresses, ∀ data state,
    R state (MidLevel.writeAP port address data state).2

namespace MemoryFrame

variable {port} {R : MidLevel σ → MidLevel σ → Prop} (frame : MemoryFrame port R)

include frame

theorem setUpAccess (address : Word) (state : MidLevel σ) :
    R state (MidLevel.setUpAccess port address state).2 := by
  have csw := frame.writeAP ahbApCsw (by decide) 0x22000012 state
  have waits (state : MidLevel σ) : R state (MidLevel.waitLoop port driverRetries state).2 :=
    @waitLoop_frame σ port R frame.trans (frame.readAP ahbApCsw (by decide)) driverRetries state
  unfold MidLevel.setUpAccess MidLevel.waitForMemory
  generalize MidLevel.writeAP port ahbApCsw 0x22000012 state = first at csw ⊢
  have waited := frame.trans csw (waits first.2)
  simp only
  generalize MidLevel.waitLoop port driverRetries first.2 = second at waited ⊢
  split_ifs
  · exact csw
  · exact waited
  · exact frame.trans waited (frame.writeAP ahbApTar (by decide) address second.2)

theorem readMemory (address : Word) (state : MidLevel σ) :
    R state (MidLevel.readMemory port address state).2.2 := by
  have ready := frame.setUpAccess address state
  unfold MidLevel.readMemory
  generalize MidLevel.setUpAccess port address state = result at ready ⊢
  simp only
  split_ifs
  · exact ready
  · exact frame.trans ready (frame.readAP ahbApData (by decide) result.2)

theorem writeMemory (address data : Word) (state : MidLevel σ) :
    R state (MidLevel.writeMemory port address data state).2 := by
  have ready := frame.setUpAccess address state
  unfold MidLevel.writeMemory
  generalize MidLevel.setUpAccess port address state = result at ready ⊢
  simp only
  split_ifs
  · exact ready
  · exact frame.trans ready (frame.writeAP ahbApData (by decide) data result.2)

end MemoryFrame

theorem memory_keeps : MemoryFrame (port.tracked connected) (Keeps memoryAddresses) where
  trans := Keeps.trans
  readAP address listed state :=
    (readAP_keeps port connected address state).mono
      (List.cons_subset.mpr ⟨listed, List.nil_subset _⟩)
  writeAP address listed data state :=
    (writeAP_keeps port connected address data state).mono
      (List.cons_subset.mpr ⟨listed, List.nil_subset _⟩)

/-! ### Runs -/

/-- Every operation issues its AP transactions while SELECT fits their addresses, if the cache shows
SELECT. -/
theorem Shadows.coherent {state : MidLevel (Tracked σ)} (shadows : Shadows state)
    (operation : Operation) : Coherent port connected operation state := by
  cases operation with
  | tryConnect => exact .none _ _
  | setReset value => exact .none _ _
  | readDP address => exact (readDP_keeps port connected [] address state).reaching shadows
  | writeDP address data =>
      obtain ⟨-, accesses, -⟩ := retryWrite_dp port connected address data driverRetries state
      refine ⟨[], ?_, fun _ none => nomatch none⟩
      rw [List.append_nil]
      exact accesses
  | readAP address => exact (readAP_keeps port connected address state).reaching shadows
  | writeAP address data => exact (writeAP_keeps port connected address data state).reaching shadows
  | readMemory address =>
      simp only [Coherent, Operation.run, arduinoSWDInterface]
      exact ((memory_keeps port connected).readMemory address state).reaching shadows
  | writeMemory address data =>
      simp only [Coherent, Operation.run, arduinoSWDInterface]
      exact ((memory_keeps port connected).writeMemory address data state).reaching shadows

/-- Every operation keeps the cache in step with SELECT, if it does not mislead it. -/
theorem Shadows.run {state : MidLevel (Tracked σ)} (shadows : Shadows state)
    {operation : Operation} (kept : ¬ Misleads port state operation) :
    Shadows (operation.run (arduinoSWDInterface (port.tracked connected)) state) := by
  cases operation with
  | tryConnect => exact .inl rfl
  | setReset value => exact shadows
  | readDP address => exact (readDP_keeps port connected [] address state).shadows shadows
  | writeDP address data =>
      obtain ⟨apCache, -, select⟩ := retryWrite_dp port connected address data driverRetries state
      have acknowledged := retryWrite_ok_iff port connected address data driverRetries state
      unfold Misleads at kept
      show Shadows (MidLevel.retryWrite (port.tracked connected) false address data driverRetries
        state).2
      rw [Shadows, apCache]
      split_ifs at select with written
      · rw [select]
        by_contra neither
        rw [not_or] at neither
        exact kept ⟨written.1, written.1 ▸ acknowledged.mp written.2, neither⟩
      · rw [select]
        exact shadows
  | readAP address => exact (readAP_keeps port connected address state).shadows shadows
  | writeAP address data => exact (writeAP_keeps port connected address data state).shadows shadows
  | readMemory address =>
      simp only [Operation.run, arduinoSWDInterface]
      exact ((memory_keeps port connected).readMemory address state).shadows shadows
  | writeMemory address data =>
      simp only [Operation.run, arduinoSWDInterface]
      exact ((memory_keeps port connected).writeMemory address data state).shadows shadows

/-- The runs in which no raw `WRITE DP` misleads the cache. -/
def careful : Lts (MidLevel (Tracked σ)) Operation :=
  (operations (arduinoSWDInterface (port.tracked connected))).guard fun state label =>
    ∀ operation ∈ label, ¬ Misleads port state operation

theorem shadows_of_careful {target : Tracked σ} {labels : List Operation}
    {state : MidLevel (Tracked σ)}
    (run : (careful port connected).Trace (MidLevel.boot target) labels state) : Shadows state := by
  refine Lts.Trace.invariant ?_ run (.inl rfl)
  rintro one label two shadows ⟨kept, step⟩
  cases label with
  | none => exact step.elim
  | some operation =>
      rw [show two = _ from step]
      exact shadows.run port connected (kept operation rfl)

/-- In every run without a raw `WRITE DP` that misleads the cache, every AP transaction takes place
while SELECT fits the address it is for. -/
theorem select_coherent (target : Tracked σ) (labels : List Operation)
    (state : MidLevel (Tracked σ))
    (run : (careful port connected).Trace (MidLevel.boot target) labels state)
    (operation : Operation) : Coherent port connected operation state :=
  (shadows_of_careful port connected run).coherent port connected operation

/-- A target that acknowledges everything and reads 0. -/
def steadyPort : SwdPort Unit where
  setReset _ target := target
  doConnect target := (swdOk, 0x2BA01477, target)
  doReadTransaction _ _ target := (swdOk, 0, target)
  doWriteTransaction _ _ _ target := (swdOk, target)

/-- The class at a target, on a board with its buffers at these addresses. -/
def classBoard {σ : Type} (port : SwdPort σ) : Board (MidLevel σ) where
  driver := arduinoSWDInterface port
  locals _ _ := 0
  decodebuffer := 0x800
  above := Nat.le_of_ble_eq_true rfl
  below := Nat.le_of_ble_eq_true rfl

/-- Behind a raw `WRITE DP` that selects the bank the cache shows, a read of another bank. -/
theorem select_coherent_steady :
    Coherent steadyPort (fun _ => 0) (.readAP 0xF0)
      (Operation.run (arduinoSWDInterface (steadyPort.tracked fun _ => 0)) (.writeDP 8 0x0100000F)
        (Operation.run (arduinoSWDInterface (steadyPort.tracked fun _ => 0)) (.readAP 0x0100000C)
          (MidLevel.boot { target := (), select := 0, accesses := [] }))) := by
  refine select_coherent steadyPort (fun _ => 0) { target := (), select := 0, accesses := [] }
    [.readAP 0x0100000C, .writeDP 8 0x0100000F] _
    (.visible ⟨?_, rfl⟩ (.visible ⟨?_, rfl⟩ (.refl _))) (.readAP 0xF0)
  · rintro operation ⟨rfl⟩
    exact id
  · rintro operation ⟨rfl⟩ ⟨-, -, -, other⟩
    exact other (by decide)

/-! ### The write that is not noticed -/

/-- With a valid cache that shows the address, a read issues its transactions at once. -/
theorem readAP_hit {address : Word} {state : MidLevel (Tracked σ)}
    (hit : address &&& apMask = state.apCache) :
    ∃ count, 0 < count ∧
      (MidLevel.readAP (port.tracked connected) address state).2.2.target.accesses =
        state.target.accesses ++
          List.replicate count { bits := a23 address, select := state.target.select } := by
  obtain ⟨count, some, accesses⟩ :=
    (retryRead_ap port connected address driverRetries state).accesses
  refine ⟨count, some (by decide), ?_⟩
  unfold MidLevel.readAP MidLevel.selectAP
  simp only [if_pos hit, ne_eq, not_true_eq_false, if_false]
  generalize MidLevel.retryRead (port.tracked connected) true address driverRetries state =
    result at accesses ⊢
  obtain ⟨retval, data, posted⟩ := result
  obtain ⟨-, -, same⟩ := retryRead_dp port connected dpRdbuff driverRetries posted
  split_ifs
  · exact same.trans accesses
  · exact accesses

/-- Behind a raw `WRITE DP` that misleads the cache, the next read of the cached address takes place
while SELECT does not fit it. -/
theorem misled {state : MidLevel (Tracked σ)} (shadows : Shadows state) {operation : Operation}
    (misleads : Misleads port state operation) :
    ¬ Coherent port connected (.readAP state.apCache)
      (operation.run (arduinoSWDInterface (port.tracked connected)) state) := by
  cases operation with
  | writeDP address data =>
      obtain ⟨selects, acknowledged, valid, other⟩ := misleads
      have shown : state.target.select &&& apMask = state.apCache := shadows.resolve_left valid
      have masked : state.apCache &&& apMask = state.apCache := by
        rw [← shown, BitVec.and_assoc, BitVec.and_self]
      obtain ⟨apCache, -, select⟩ := retryWrite_dp port connected address data driverRetries state
      rw [if_pos ⟨selects, (retryWrite_ok_iff port connected address data driverRetries state).mpr
        (selects.symm ▸ acknowledged)⟩] at select
      rintro ⟨added, accesses, reach⟩
      obtain ⟨count, some, issued⟩ := readAP_hit port connected (masked.trans apCache.symm)
      rw [select] at issued
      have first : { bits := a23 state.apCache, select := data } ∈ added := by
        rw [List.append_cancel_left (accesses.symm.trans issued)]
        exact List.mem_replicate.mpr ⟨some.ne', rfl⟩
      obtain ⟨address', listed, -, fits⟩ := reach _ first
      rw [List.mem_singleton.mp listed, masked] at fits
      exact other fits
  | _ => exact misleads.elim

/-- After a read of port 0 the host selects port 1 itself; the next read of port 0 goes to
port 1. -/
theorem select_coherent_fails :
    ¬ ∀ (port : SwdPort Unit) (connected : Unit → Word) (target : Tracked Unit)
      (labels : List Operation) (state : MidLevel (Tracked Unit)),
      (operations (arduinoSWDInterface (port.tracked connected))).Trace (MidLevel.boot target)
        labels state → ∀ operation, Coherent port connected operation state := by
  intro claimed
  let before := Operation.run (arduinoSWDInterface (steadyPort.tracked fun _ => 0)) (.readAP 0)
    (MidLevel.boot { target := (), select := 0, accesses := [] })
  have shadows : Shadows before := .inr (by decide)
  have misleads : Misleads steadyPort before (.writeDP 8 0x01000000) :=
    ⟨by decide, .inl rfl, by decide, by decide⟩
  have coherent := claimed steadyPort (fun _ => 0) { target := (), select := 0, accesses := [] }
    [.readAP 0, .writeDP 8 0x01000000]
    (Operation.run (arduinoSWDInterface (steadyPort.tracked fun _ => 0)) (.writeDP 8 0x01000000)
      before) (.visible rfl (.visible rfl (.refl _))) (.readAP before.apCache)
  exact misled steadyPort (fun _ => 0) shadows misleads coherent

end Swagger.Firmware
