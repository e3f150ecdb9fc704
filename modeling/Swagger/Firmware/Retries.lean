/-
**The retry law of the mid-level driver.**

The port answers its transactions from an arbitrary sequence of outcomes, and keeps a list of them
(`SwdPort.answering`). A stage repeats one transaction while the answer is WAIT, ten times at most
(`Stage`); its status is that of the first other answer, or TIMEOUT. `writeDP` and `readDP` are one
stage each. An AP access has up to three, and each of them is reached only behind an OK of the one
before: SELECT unless the cache shows it already (`Selects`), the AP transaction (`WritesAP`), and
for a read the fetch of its word from RDBUFF (`ReadsAP`).
-/

import Swagger.Firmware.Transactions
import Swagger.Library.Attempts

namespace Swagger.Firmware

open Library

/-! ### Transactions with given answers -/

/-- A port that answers with the next of these outcomes, whatever the transaction is. Its state is
the list of the transactions so far. -/
def SwdPort.answering (outcomes : Nat → Byte × Word) : SwdPort (List Transaction) where
  setReset value log := log ++ [.setReset value]
  doConnect log :=
    let (ack, idcode) := outcomes log.length
    (ack, idcode, log ++ [.connect])
  doReadTransaction apNotDp bits log :=
    let (ack, data) := outcomes log.length
    (ack, data, log ++ [.read apNotDp bits])
  doWriteTransaction apNotDp bits data log :=
    ((outcomes log.length).1, log ++ [.write apNotDp bits data])

/-! ### One stage -/

/-- The status of a stage: that of its last answer, or TIMEOUT if all were WAIT. -/
def stageStatus : Option (Byte × Word) → Byte
  | some (ack, _) => if ack = swdOk then Status.ok.code else Status.swdFault.code
  | none => Status.timeout.code

/-- A transaction is repeated while it is answered with WAIT, up to `retries` times in all. -/
def Stage (outcomes : Nat → Byte × Word) (transaction : Transaction) (retries : Nat)
    (log log' : List Transaction) (result : Option (Byte × Word)) : Prop :=
  ∃ count,
    Attempts (fun answer => answer.1 = swdWait) (fun index => outcomes (log.length + index))
      retries count result ∧
    log' = log ++ List.replicate count transaction

section Stage

variable {outcomes : Nat → Byte × Word} {transaction : Transaction} {log log' : List Transaction}
  {retries : Nat} {result : Option (Byte × Word)}

theorem Stage.none_left (outcomes : Nat → Byte × Word) (transaction : Transaction)
    (log : List Transaction) : Stage outcomes transaction 0 log log none :=
  ⟨0, .zero _ _, (List.append_nil log).symm⟩

/-- The answer to the next transaction ends the stage. -/
theorem Stage.answered (settles : (outcomes log.length).1 ≠ swdWait) :
    Stage outcomes transaction (retries + 1) log (log ++ [transaction])
      (some (outcomes log.length)) :=
  ⟨1, .first retries settles, rfl⟩

/-- The answer to the next transaction is WAIT, and the stage goes on. -/
theorem Stage.waits (waits : (outcomes log.length).1 = swdWait)
    (rest : Stage outcomes transaction retries (log ++ [transaction]) log' result) :
    Stage outcomes transaction (retries + 1) log log' result := by
  obtain ⟨count, attempts, same⟩ := rest
  have later : (fun index => outcomes ((log ++ [transaction]).length + index)) =
      fun index => outcomes (log.length + (index + 1)) := by
    funext index
    rw [List.length_append, List.length_singleton, Nat.add_assoc, Nat.add_comm 1 index]
  rw [later] at attempts
  refine ⟨count + 1, .again waits attempts, ?_⟩
  rw [same, List.replicate_succ, List.append_assoc, List.singleton_append]

end Stage

section Loops

open MidLevel

variable (outcomes : Nat → Byte × Word)

/-- The retry loop of a write is a stage. -/
theorem retryWrite_stage (apNotDp : Bool) (address data : Word) (retries : Nat)
    (state : MidLevel (List Transaction)) :
    ∃ log result,
      Stage outcomes (.write apNotDp (Firmware.a23 address) data) retries state.target log result ∧
      retryWrite (.answering outcomes) apNotDp address data retries state =
        (stageStatus result, { state with target := log }) := by
  induction retries generalizing state with
  | zero => exact ⟨state.target, none, .none_left _ _ _, rfl⟩
  | succ retries ih =>
      let next : MidLevel (List Transaction) :=
        { state with target := state.target ++ [.write apNotDp (Firmware.a23 address) data] }
      have step : retryWrite (.answering outcomes) apNotDp address data (retries + 1) state =
          if (outcomes state.target.length).1 = swdWait then
            retryWrite (.answering outcomes) apNotDp address data retries next
          else (statusOfAck (outcomes state.target.length).1, next) := rfl
      rw [step]
      by_cases waits : (outcomes state.target.length).1 = swdWait
      · obtain ⟨log, result, stage, run⟩ := ih next
        rw [if_pos waits]
        exact ⟨log, result, .waits waits stage, run⟩
      · rw [if_neg waits]
        exact ⟨_, _, .answered waits, rfl⟩

/-- The retry loop of a read is a stage as well, and its word is that of the last answer. -/
theorem retryRead_stage (apNotDp : Bool) (address : Word) (retries : Nat)
    (state : MidLevel (List Transaction)) :
    ∃ log result data,
      Stage outcomes (.read apNotDp (Firmware.a23 address)) retries state.target log result ∧
      retryRead (.answering outcomes) apNotDp address retries state =
        (stageStatus result, data, { state with target := log }) ∧
      ∀ answer ∈ result, data = answer.2 := by
  induction retries generalizing state with
  | zero => exact ⟨state.target, none, 0, .none_left _ _ _, rfl, fun _ none => nomatch none⟩
  | succ retries ih =>
      let next : MidLevel (List Transaction) :=
        { state with target := state.target ++ [.read apNotDp (Firmware.a23 address)] }
      have step : retryRead (.answering outcomes) apNotDp address (retries + 1) state =
          if (outcomes state.target.length).1 = swdWait then
            retryRead (.answering outcomes) apNotDp address retries next
          else (statusOfAck (outcomes state.target.length).1, (outcomes state.target.length).2,
            next) := rfl
      rw [step]
      by_cases waits : (outcomes state.target.length).1 = swdWait
      · obtain ⟨log, result, data, stage, run⟩ := ih next
        rw [if_pos waits]
        exact ⟨log, result, data, .waits waits stage, run⟩
      · rw [if_neg waits]
        exact ⟨_, _, _, .answered waits, rfl, fun _ same => congrArg _ (Option.some.inj same)⟩

end Loops

/-! ### The laws -/

section Laws

open MidLevel

variable (outcomes : Nat → Byte × Word) (address data : Word) (state : MidLevel (List Transaction))

/-- `writeDP` is one stage. -/
inductive WritesDP : Byte → MidLevel (List Transaction) → Prop
  | written {log : List Transaction} {result : Option (Byte × Word)}
      (stage : Stage outcomes (.write false (Firmware.a23 address) data) driverRetries state.target
        log result) :
      WritesDP (stageStatus result) { state with target := log }

/-- `readDP` is one stage; the word that comes with OK is that of its last answer. -/
inductive ReadsDP : Byte → Word → MidLevel (List Transaction) → Prop
  | read {log : List Transaction} {result : Option (Byte × Word)} {word : Word}
      (stage : Stage outcomes (.read false (Firmware.a23 address)) driverRetries state.target
        log result)
      (answered : ∀ answer ∈ result, word = answer.2) :
      ReadsDP (stageStatus result) word { state with target := log }

/-- `selectAP` is a stage on a cache miss and nothing on a hit. The cache changes behind an OK. -/
inductive Selects : Byte → MidLevel (List Transaction) → Prop
  | hit (cached : address &&& apMask = state.apCache) : Selects Status.ok.code state
  | selected {state' : MidLevel (List Transaction)} (missed : address &&& apMask ≠ state.apCache)
      (write : WritesDP outcomes dpSelect (address &&& apMask) state Status.ok.code state') :
      Selects Status.ok.code { state' with apCache := address &&& apMask }
  | failed {status : Byte} {state' : MidLevel (List Transaction)}
      (missed : address &&& apMask ≠ state.apCache)
      (write : WritesDP outcomes dpSelect (address &&& apMask) state status state')
      (notOk : status ≠ Status.ok.code) : Selects status state'

/-- `writeAP` selects, and writes if that was OK. -/
inductive WritesAP : Byte → MidLevel (List Transaction) → Prop
  | unselected {status : Byte} {state' : MidLevel (List Transaction)}
      (select : Selects outcomes address state status state') (notOk : status ≠ Status.ok.code) :
      WritesAP status state'
  | written {state' : MidLevel (List Transaction)} {log : List Transaction}
      {result : Option (Byte × Word)}
      (select : Selects outcomes address state Status.ok.code state')
      (stage : Stage outcomes (.write true (Firmware.a23 address) data) driverRetries
        state'.target log result) :
      WritesAP (stageStatus result) { state' with target := log }

/-- `readAP` selects, posts the read if that was OK, and reads RDBUFF if that was OK as well. -/
inductive ReadsAP : Byte → Word → MidLevel (List Transaction) → Prop
  | unselected {status : Byte} {word : Word} {state' : MidLevel (List Transaction)}
      (select : Selects outcomes address state status state') (notOk : status ≠ Status.ok.code) :
      ReadsAP status word state'
  | unread {word : Word} {state' : MidLevel (List Transaction)} {log : List Transaction}
      {result : Option (Byte × Word)}
      (select : Selects outcomes address state Status.ok.code state')
      (stage : Stage outcomes (.read true (Firmware.a23 address)) driverRetries state'.target
        log result)
      (notOk : stageStatus result ≠ Status.ok.code) :
      ReadsAP (stageStatus result) word { state' with target := log }
  | fetched {status : Byte} {word : Word} {state' state'' : MidLevel (List Transaction)}
      {log : List Transaction} {result : Option (Byte × Word)}
      (select : Selects outcomes address state Status.ok.code state')
      (stage : Stage outcomes (.read true (Firmware.a23 address)) driverRetries state'.target
        log result)
      (posted : stageStatus result = Status.ok.code)
      (fetch : ReadsDP outcomes dpRdbuff { state' with target := log } status word state'') :
      ReadsAP status word state''

theorem writeDP_law :
    WritesDP outcomes address data state (writeDP (.answering outcomes) address data state).1
      (writeDP (.answering outcomes) address data state).2 := by
  obtain ⟨log, result, stage, run⟩ :=
    retryWrite_stage outcomes false address data driverRetries state
  rw [writeDP, run]
  exact .written stage

theorem readDP_law :
    ReadsDP outcomes address state (readDP (.answering outcomes) address state).1
      (readDP (.answering outcomes) address state).2.1
      (readDP (.answering outcomes) address state).2.2 := by
  obtain ⟨log, result, word, stage, run, answered⟩ :=
    retryRead_stage outcomes false address driverRetries state
  rw [readDP, run]
  exact .read stage answered

theorem selectAP_law :
    Selects outcomes address state (selectAP (.answering outcomes) address state).1
      (selectAP (.answering outcomes) address state).2 := by
  have write := writeDP_law outcomes dpSelect (address &&& apMask) state
  unfold selectAP
  simp only
  split_ifs with cached ok
  · exact .hit cached
  · rw [ok] at write ⊢
    exact .selected cached write
  · exact .failed cached write ok

theorem writeAP_law :
    WritesAP outcomes address data state (writeAP (.answering outcomes) address data state).1
      (writeAP (.answering outcomes) address data state).2 := by
  have select := selectAP_law outcomes address state
  unfold writeAP
  generalize selectAP (.answering outcomes) address state = selected at select ⊢
  obtain ⟨retval, state'⟩ := selected
  simp only at select ⊢
  by_cases ok : retval = Status.ok.code
  · subst ok
    obtain ⟨log, result, stage, run⟩ :=
      retryWrite_stage outcomes true address data driverRetries state'
    rw [if_neg (not_not.mpr rfl), run]
    exact .written select stage
  · rw [if_pos ok]
    exact .unselected select ok

theorem readAP_law :
    ReadsAP outcomes address state (readAP (.answering outcomes) address state).1
      (readAP (.answering outcomes) address state).2.1
      (readAP (.answering outcomes) address state).2.2 := by
  have select := selectAP_law outcomes address state
  unfold readAP
  generalize selectAP (.answering outcomes) address state = selected at select ⊢
  obtain ⟨retval, state'⟩ := selected
  simp only at select ⊢
  by_cases ok : retval = Status.ok.code
  · subst ok
    obtain ⟨log, result, word, stage, run, -⟩ :=
      retryRead_stage outcomes true address driverRetries state'
    rw [if_neg (not_not.mpr rfl), run]
    simp only
    by_cases posted : stageStatus result = Status.ok.code
    · rw [if_neg (not_not.mpr posted)]
      exact .fetched select stage posted
        (readDP_law outcomes dpRdbuff { state' with target := log })
    · rw [if_pos posted]
      exact .unread select stage posted
  · rw [if_pos ok]
    exact .unselected select ok

/-- The retry law, for every sequence of outcomes: `writeDP` and `readDP` are one stage, an AP
access reaches each stage only behind an OK of the one before. -/
theorem retry_law :
    let port := SwdPort.answering outcomes
    WritesDP outcomes address data state (writeDP port address data state).1
        (writeDP port address data state).2 ∧
      ReadsDP outcomes address state (readDP port address state).1
        (readDP port address state).2.1 (readDP port address state).2.2 ∧
      Selects outcomes address state (selectAP port address state).1
        (selectAP port address state).2 ∧
      WritesAP outcomes address data state (writeAP port address data state).1
        (writeAP port address data state).2 ∧
      ReadsAP outcomes address state (readAP port address state).1
        (readAP port address state).2.1 (readAP port address state).2.2 :=
  ⟨writeDP_law outcomes address data state, readDP_law outcomes address state,
    selectAP_law outcomes address state, writeAP_law outcomes address data state,
    readAP_law outcomes address state⟩

end Laws

end Swagger.Firmware
