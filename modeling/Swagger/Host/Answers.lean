/-
**No success without an answer.**

A function that reports success has been answered when the reply its last `executeCmdQueue`
received has the status byte OK and all the result words it pops (`Answered`). `executeCmdQueue`
returns 0 also when nothing was received, an empty result queue pops the status 0, which is OK,
and a queue with too few bytes pops the word 0. So what is needed of the transport is
`Complete words`: a packet arrived, it has a status byte, and if that is OK, `words` result words.

* For the functions with one packet (`writeStat`, `writeAP`, `writeMemory`, `readMemoryWords`,
  `kinetis_flash_longword`) success implies an answer exactly when the reply is complete.
* For a loop, the replies are those to the same packet sent again and again (`Link.answer`), and
  the first one that does not make the loop go on has to be complete.
* `pollAP` with a mask that has a bit set, and `pollAP_not` without one, need nothing: the word 0
  does not end them.
-/

import Swagger.Host.Kinetis

namespace Swagger.Host

/-- A reply that answers a function popping `words` words: status OK and all the words. -/
def Answered (words : Nat) (answer : Option (List Byte)) : Prop :=
  ∃ results, answer = some (0 :: results) ∧ 4 * words ≤ results.length

/-- A reply with a status byte, and with `words` words if the status is OK. -/
def Complete (words : Nat) (answer : Option (List Byte)) : Prop :=
  ∃ status results, answer = some (status :: results) ∧ (status = 0 → 4 * words ≤ results.length)

/-- A reply with a status other than OK. -/
def Refused (answer : Option (List Byte)) : Prop :=
  ∃ status results, answer = some (status :: results) ∧ status ≠ 0

/-- An OK reply whose first word does not pass the test. -/
def Missed (hit : SQInteger → Bool) (answer : Option (List Byte)) : Prop :=
  ∃ b0 b1 b2 b3 results,
    answer = some (0 :: b0 :: b1 :: b2 :: b3 :: results) ∧ hit (wordOfBytes b0 b1 b2 b3) = false

section Logged

variable {σ : Type} (link : Link σ)

/-- The answer to the packet when it has been sent `count` times before. -/
def Link.answer (packet : List Byte) : Nat → σ → Option (List Byte)
  | 0, state => (link.exchange packet state).1
  | count + 1, state => answer packet count (link.exchange packet state).2

/-- The queues with the record of a logged link, empty at the start of a function. -/
def Queues.fresh (queues : Queues σ) : Queues (σ × List (Option (List Byte))) :=
  { cmdQueue := queues.cmdQueue, resultQueue := queues.resultQueue, state := (queues.state, []) }

/-- The last reply on record answers a function that pops `words` words. -/
def LastAnswered (words : Nat) (queues : Queues (σ × List (Option (List Byte)))) : Prop :=
  ∃ answer ∈ queues.state.2.getLast?, Answered words answer

/-- The pops leave the record alone, so it says the same about the state after them. -/
theorem lastAnswered_iff {words : Nat} {queues : Queues (σ × List (Option (List Byte)))}
    {state : σ} {log : List (Option (List Byte))} {answer : Option (List Byte)}
    (last : queues.state = (state, log ++ [answer])) :
    LastAnswered words queues ↔ Answered words answer := by
  simp [LastAnswered, last]

/-! ### What is popped from a reply -/

/-- The status that is popped from a reply, received or not. -/
def statusOf (answer : Option (List Byte)) : SQInteger :=
  match answer.getD [] with
  | status :: _ => status.setWidth 32
  | [] => 0

/-- The result bytes behind the status. -/
def resultsOf (answer : Option (List Byte)) : List Byte := (answer.getD []).tail

/-- The word that is popped from the result bytes. -/
def firstWord : List Byte → SQInteger
  | b0 :: b1 :: b2 :: b3 :: _ => wordOfBytes b0 b1 b2 b3
  | _ => 0

theorem popUInt32_fst (queues : Queues σ) :
    (popUInt32 queues).1 = firstWord queues.resultQueue := by
  rcases queues with ⟨_, _ | ⟨b0, _ | ⟨b1, _ | ⟨b2, _ | ⟨b3, rest⟩⟩⟩⟩, _⟩ <;> rfl

theorem firstWord_short {results : List Byte} (short : results.length < 4) :
    firstWord results = 0 := by
  have popped := popUInt32_short
    ({ cmdQueue := [], resultQueue := results, state := () } : Queues Unit) short
  rw [← popUInt32_fst ({ cmdQueue := [], resultQueue := results, state := () } : Queues Unit),
    popped]

/-- The status byte as a script integer is OK only when it is 0. -/
theorem setWidth_eq_ok (status : Byte) : status.setWidth 32 = cmdStatusOk ↔ status = 0 := by
  constructor
  · intro same
    have value := congrArg BitVec.toNat same
    have small := status.isLt
    apply BitVec.eq_of_toNat_eq
    rw [BitVec.toNat_setWidth, Nat.mod_eq_of_lt (by omega)] at value
    exact value
  · rintro rfl
    rfl

/-- The popped status is OK unless a reply says otherwise: also when there is none. -/
theorem statusOf_eq_ok (answer : Option (List Byte)) :
    statusOf answer = cmdStatusOk ↔ ¬ Refused answer := by
  rcases answer with _ | _ | ⟨status, results⟩
  · exact ⟨fun _ ⟨_, _, same, _⟩ => (nomatch same), fun _ => rfl⟩
  · exact ⟨fun _ ⟨_, _, same, _⟩ => (nomatch same), fun _ => rfl⟩
  · rw [statusOf, Option.getD_some, setWidth_eq_ok]
    constructor
    · rintro zero ⟨status', results', same, nonzero⟩
      cases same
      exact nonzero zero
    · exact fun accepted => by_contra fun nonzero => accepted ⟨status, results, rfl, nonzero⟩

theorem not_ok {answer : Option (List Byte)} (refused : Refused answer) :
    ¬ statusOf answer = cmdStatusOk :=
  fun ok => (statusOf_eq_ok answer).mp ok refused

/-- A refusal is a complete reply. -/
theorem Refused.complete {words : Nat} {answer : Option (List Byte)} (refused : Refused answer) :
    Complete words answer := by
  obtain ⟨status, results, same, nonzero⟩ := refused
  exact ⟨status, results, same, fun zero => absurd zero nonzero⟩

/-- A reply that is not a refusal is complete when it is an answer. -/
theorem complete_iff_answered {words : Nat} {answer : Option (List Byte)}
    (accepted : ¬ Refused answer) : Complete words answer ↔ Answered words answer := by
  constructor
  · rintro ⟨status, results, same, enough⟩
    have zero : status = 0 :=
      by_contra fun nonzero => accepted ⟨status, results, same, nonzero⟩
    subst zero
    exact ⟨results, same, enough rfl⟩
  · rintro ⟨results, same, enough⟩
    exact ⟨0, results, same, fun _ => enough⟩

/-- Without an answer of one word, the word 0 is popped. -/
theorem firstWord_of_not_answered {answer : Option (List Byte)} (accepted : ¬ Refused answer)
    (unanswered : ¬ Answered 1 answer) : firstWord (resultsOf answer) = 0 := by
  apply firstWord_short
  rcases answer with _ | _ | ⟨status, results⟩
  · exact Nat.succ_pos 3
  · exact Nat.succ_pos 3
  · by_contra long
    have zero : status = 0 :=
      by_contra fun nonzero => accepted ⟨status, results, rfl, nonzero⟩
    subst zero
    exact unanswered ⟨results, rfl, by simpa [resultsOf] using long⟩

/-- An answer of one word is a miss when its word fails the test. -/
theorem missed_iff {hit : SQInteger → Bool} {answer : Option (List Byte)}
    (answered : Answered 1 answer) :
    Missed hit answer ↔ hit (firstWord (resultsOf answer)) = false := by
  obtain ⟨results, rfl, enough⟩ := answered
  rcases results with _ | ⟨b0, _ | ⟨b1, _ | ⟨b2, _ | ⟨b3, results⟩⟩⟩⟩
  case cons.cons.cons.cons =>
    constructor
    · rintro ⟨c0, c1, c2, c3, rest, same, fails⟩
      cases same
      exact fails
    · exact fun fails => ⟨b0, b1, b2, b3, results, rfl, fails⟩
  all_goals simp at enough

/-! ### One exchange -/

/-- `executeCmdQueue` and the pop of the status. -/
theorem executeStatus_eq (queues : Queues σ) :
    executeStatus link queues =
      (statusOf (link.exchange queues.cmdQueue queues.state).1,
        { cmdQueue := queues.cmdQueue
          resultQueue := resultsOf (link.exchange queues.cmdQueue queues.state).1
          state := (link.exchange queues.cmdQueue queues.state).2 }) := by
  rw [executeStatus, executeCmdQueue_snd, popUInt8, statusOf, resultsOf]
  simp only
  cases (link.exchange queues.cmdQueue queues.state).1.getD [] <;> rfl

/-- With the reply on record. -/
theorem executeStatus_logged (cmdQueue resultQueue : List Byte) (state : σ)
    (log : List (Option (List Byte))) :
    executeStatus link.logged { cmdQueue, resultQueue, state := (state, log) } =
      (statusOf (link.exchange cmdQueue state).1,
        { cmdQueue
          resultQueue := resultsOf (link.exchange cmdQueue state).1
          state := ((link.exchange cmdQueue state).2,
            log ++ [(link.exchange cmdQueue state).1]) }) := by
  rw [executeStatus_eq]
  simp only [Link.logged_exchange]

/-- The packet that a sequence of queuing functions builds. -/
def packetOf (queue : Queues Unit → Queues Unit) : List Byte :=
  (queue { cmdQueue := [], resultQueue := [], state := () }).cmdQueue

/-- The functions that return the status: success is an answer exactly when the reply is
complete. -/
theorem executeStatus_answered (cmdQueue resultQueue : List Byte) (state : σ) :
    ((executeStatus link.logged { cmdQueue, resultQueue, state := (state, []) }).1 = cmdStatusOk →
        LastAnswered 0
          (executeStatus link.logged { cmdQueue, resultQueue, state := (state, []) }).2) ↔
      Complete 0 (link.exchange cmdQueue state).1 := by
  rw [executeStatus_logged, lastAnswered_iff rfl, statusOf_eq_ok]
  by_cases refused : Refused (link.exchange cmdQueue state).1
  · exact ⟨fun _ => refused.complete, fun _ accepted => absurd refused accepted⟩
  · rw [complete_iff_answered refused]
    exact ⟨fun holds => holds refused, fun answered _ => answered⟩

/-- Queuing reads the command queue alone. -/
theorem queueReadMemoryWords_eq (words : Nat) (address : SQInteger) (queues : Queues σ)
    (cmdQueue : List Byte) :
    queueReadMemoryWords words address { queues with cmdQueue } =
      { queues with
        cmdQueue := (queueReadMemoryWords words address
          ({ cmdQueue, resultQueue := [], state := () } : Queues Unit)).cmdQueue } := by
  induction words generalizing address cmdQueue with
  | zero => rfl
  | succ words ih => exact ih (address + 4) _

theorem popWords_state (words : Nat) (queues : Queues σ) :
    (popWords words queues).2.state = queues.state := by
  induction words generalizing queues with
  | zero => rfl
  | succ words ih => rw [popWords, ih, popUInt32_state]

/-- `readMemoryWords` refuses more than six words and otherwise needs a complete reply. -/
theorem readMemoryWords_answered (address words : SQInteger) (queues : Queues σ) :
    ((∃ values, (readMemoryWords link.logged address words queues.fresh).1 = .array values) →
        LastAnswered words.toInt.toNat
          (readMemoryWords link.logged address words queues.fresh).2) ↔
      (words.toInt > 6 ∨ Complete words.toInt.toNat
        (link.exchange (packetOf (queueReadMemoryWords words.toInt.toNat address))
          queues.state).1) := by
  have queued := queueReadMemoryWords_eq words.toInt.toNat address queues.fresh []
  rw [readMemoryWords, clearCmdQueue, queued]
  by_cases many : words.toInt > 6
  · rw [if_pos many]
    exact ⟨fun _ => .inl many, fun _ ⟨_, same⟩ => SQValue.noConfusion same⟩
  · rw [if_neg many, Queues.fresh, executeStatus_logged, packetOf]
    simp only [many, false_or]
    generalize (link.exchange _ queues.state).1 = answer
    by_cases refused : Refused answer
    · rw [if_neg (not_ok refused)]
      exact ⟨fun _ => refused.complete, fun _ ⟨_, same⟩ => SQValue.noConfusion same⟩
    · rw [if_pos ((statusOf_eq_ok answer).mpr refused), lastAnswered_iff (popWords_state _ _),
        complete_iff_answered refused]
      exact ⟨fun holds => holds ⟨_, rfl⟩, fun answered _ => answered⟩

/-- `kinetis_flash_longword` needs the status and the flash status word. -/
theorem kinetisFlashLongword_answered (address data : SQInteger) (queues : Queues σ) :
    ((kinetisFlashLongword link.logged address data queues.fresh).1 = 0 →
        LastAnswered 1 (kinetisFlashLongword link.logged address data queues.fresh).2) ↔
      Complete 1 (link.exchange (packetOf (queueFlashLongword address data)) queues.state).1 := by
  have run : kinetisFlashLongword link.logged address data queues.fresh =
      let status := executeStatus link.logged
        { queues.fresh with cmdQueue := packetOf (queueFlashLongword address data) }
      if status.1 ≠ cmdStatusOk then (-1, status.2)
      else
        let retval := popUInt32 status.2
        if flashFailed retval.1 then (-1, retval.2) else (0, retval.2) := rfl
  rw [run, Queues.fresh, executeStatus_logged]
  simp only
  generalize (link.exchange _ queues.state).1 = answer
  by_cases refused : Refused answer
  · rw [if_pos (not_ok refused)]
    exact ⟨fun _ => refused.complete, fun _ failed =>
      absurd failed (show ¬ (-1 : SQInteger) = 0 by decide)⟩
  · rw [if_neg (not_not.mpr ((statusOf_eq_ok answer).mpr refused)), complete_iff_answered refused,
      popUInt32_fst]
    by_cases answered : Answered 1 answer
    · refine ⟨fun _ => answered, fun _ _ => ?_⟩
      split <;> exact (lastAnswered_iff (popUInt32_state _)).mpr answered
    · rw [firstWord_of_not_answered refused answered, if_neg (by decide),
        lastAnswered_iff (popUInt32_state _)]
      exact ⟨fun holds => holds rfl, fun done _ => done⟩

/-! ### Loops -/

/-- The first of the replies that does not make a loop of `rounds` rounds go on is enough. -/
def FirstStops (goesOn enough : Option (List Byte) → Prop)
    (answers : Nat → Option (List Byte)) (rounds : Nat) : Prop :=
  ∀ k < rounds, (∀ j < k, goesOn (answers j)) → enough (answers k)

/-- One round of the loop: either it stops at the first reply, or the rest decides. -/
theorem firstStops_succ {goesOn enough : Option (List Byte) → Prop}
    {answers : Nat → Option (List Byte)} {rounds : Nat} :
    FirstStops goesOn enough answers (rounds + 1) ↔
      enough (answers 0) ∧
        (goesOn (answers 0) → FirstStops goesOn enough (fun k => answers (k + 1)) rounds) := by
  constructor
  · intro stops
    refine ⟨stops 0 (Nat.succ_pos _) fun j none => absurd none (Nat.not_lt_zero j), ?_⟩
    intro first k inside before
    refine stops (k + 1) (Nat.succ_lt_succ inside) fun j earlier => ?_
    cases j with
    | zero => exact first
    | succ j => exact before j (Nat.lt_of_succ_lt_succ earlier)
  · rintro ⟨first, rest⟩ k inside before
    cases k with
    | zero => exact first
    | succ k =>
        exact rest (before 0 (Nat.succ_pos k)) k (Nat.lt_of_succ_lt_succ inside)
          fun j earlier => before (j + 1) (Nat.succ_lt_succ earlier)

theorem firstStops_zero {goesOn enough : Option (List Byte) → Prop}
    {answers : Nat → Option (List Byte)} : FirstStops goesOn enough answers 0 :=
  fun _ inside => absurd inside (Nat.not_lt_zero _)

/-- The pops of a record are the record: a queue is given by its three parts. -/
theorem popUInt32_snd (queues : Queues σ) :
    (popUInt32 queues).2 =
      { cmdQueue := (popUInt32 queues).2.cmdQueue
        resultQueue := (popUInt32 queues).2.resultQueue
        state := queues.state } := by
  rw [← popUInt32_state queues]

/-- One round of `connect`. -/
theorem connectLoop_succ (rounds : Nat) (queues : Queues σ) :
    connectLoop link (rounds + 1) queues =
      let exchanged := link.exchange (packetOf queueConnect) queues.state
      let replied := { cmdQueue := packetOf queueConnect, resultQueue := resultsOf exchanged.1,
                       state := exchanged.2 }
      if statusOf exchanged.1 = cmdStatusOk then popUInt32 replied
      else connectLoop link rounds (popUInt32 replied).2 := by
  have queued : queueConnect (clearCmdQueue queues) =
      { queues with cmdQueue := packetOf queueConnect } := rfl
  have executed := executeStatus_eq link { queues with cmdQueue := packetOf queueConnect }
  unfold executeStatus at executed
  rw [connectLoop, queued, executed]

/-- The rounds of `connect`. A refusal starts the next round, any other reply ends the loop. -/
theorem connectLoop_answered (rounds : Nat) (cmdQueue resultQueue : List Byte) (state : σ)
    (log : List (Option (List Byte))) :
    ((connectLoop link.logged rounds { cmdQueue, resultQueue, state := (state, log) }).1 ≠ -1 →
        LastAnswered 1 (connectLoop link.logged rounds
          { cmdQueue, resultQueue, state := (state, log) }).2) ↔
      FirstStops Refused (Complete 1)
        (fun count => link.answer (packetOf queueConnect) count state) rounds := by
  induction rounds generalizing cmdQueue resultQueue state log with
  | zero => exact ⟨fun _ => firstStops_zero, fun _ failed => absurd rfl failed⟩
  | succ rounds ih =>
      rw [connectLoop_succ, Link.logged_exchange, firstStops_succ]
      simp only [Link.answer]
      generalize (link.exchange (packetOf queueConnect) state).1 = answer
      generalize (link.exchange (packetOf queueConnect) state).2 = next
      by_cases refused : Refused answer
      · rw [if_neg (not_ok refused), popUInt32_snd, ih]
        exact ⟨fun rest => ⟨refused.complete, fun _ => rest⟩, fun both => both.2 refused⟩
      · rw [if_pos ((statusOf_eq_ok answer).mpr refused), complete_iff_answered refused,
          lastAnswered_iff (popUInt32_state _)]
        refine ⟨fun holds => ⟨by_contra fun unanswered => unanswered (holds ?_), fun goes =>
          absurd goes refused⟩, fun both _ => both.1⟩
        rw [popUInt32_fst, firstWord_of_not_answered refused unanswered]
        decide

/-- The packet of `queueReadAP`. -/
abbrev readAPPacket (address : SQInteger) : List Byte := packetOf (queueReadAP address)

section Poll

variable (address : SQInteger) (hit : SQInteger → Bool)

/-- One round of a poll. -/
theorem pollWith_succ (rounds : Nat) (queues : Queues σ) :
    pollWith link address hit (rounds + 1) queues =
      let exchanged := link.exchange (readAPPacket address) queues.state
      let replied := { cmdQueue := readAPPacket address, resultQueue := resultsOf exchanged.1,
                       state := exchanged.2 }
      if statusOf exchanged.1 ≠ cmdStatusOk then (statusOf exchanged.1, replied)
      else if hit (firstWord (resultsOf exchanged.1)) then
        (cmdStatusOk, (popUInt32 replied).2)
      else pollWith link address hit rounds (popUInt32 replied).2 := by
  have queued : queueReadAP address (clearCmdQueue queues) =
      { queues with cmdQueue := readAPPacket address } := rfl
  rw [pollWith, queued, executeStatus_eq]
  simp only [popUInt32_fst]

/-- A reply that ends a poll with another status is no miss. -/
theorem Refused.not_missed {answer : Option (List Byte)} (refused : Refused answer) :
    ¬ Missed hit answer := by
  obtain ⟨status, results, rfl, nonzero⟩ := refused
  rintro ⟨b0, b1, b2, b3, rest, same, _⟩
  cases same
  exact nonzero rfl

/-- A poll whose test the word 0 fails succeeds on an answer only. -/
theorem pollWith_zero_misses (zeroMisses : hit 0 = false) (rounds : Nat)
    (cmdQueue resultQueue : List Byte) (state : σ) (log : List (Option (List Byte))) :
    (pollWith link.logged address hit rounds
        { cmdQueue, resultQueue, state := (state, log) }).1 = cmdStatusOk →
      LastAnswered 1 (pollWith link.logged address hit rounds
        { cmdQueue, resultQueue, state := (state, log) }).2 := by
  induction rounds generalizing cmdQueue resultQueue state log with
  | zero => exact fun same => absurd same (show ¬ cmdStatusTimeout = cmdStatusOk by decide)
  | succ rounds ih =>
      rw [pollWith_succ, Link.logged_exchange]
      simp only
      generalize (link.exchange (readAPPacket address) state).1 = answer
      generalize (link.exchange (readAPPacket address) state).2 = next
      by_cases refused : Refused answer
      · rw [if_pos (not_ok refused)]
        exact fun same => absurd same (not_ok refused)
      · rw [if_neg (not_not.mpr ((statusOf_eq_ok answer).mpr refused))]
        by_cases answered : Answered 1 answer
        · split
          · exact fun _ => (lastAnswered_iff (popUInt32_state _)).mpr answered
          · rw [popUInt32_snd]
            exact ih _ _ _ _
        · rw [firstWord_of_not_answered refused answered, if_neg fun hits =>
            Bool.false_ne_true (zeroMisses.symm.trans hits), popUInt32_snd]
          exact ih _ _ _ _

/-- A poll whose test the word 0 passes needs the first reply that is not a miss to be complete. -/
theorem pollWith_zero_hits (zeroHits : hit 0 = true) (rounds : Nat)
    (cmdQueue resultQueue : List Byte) (state : σ) (log : List (Option (List Byte))) :
    ((pollWith link.logged address hit rounds
          { cmdQueue, resultQueue, state := (state, log) }).1 = cmdStatusOk →
        LastAnswered 1 (pollWith link.logged address hit rounds
          { cmdQueue, resultQueue, state := (state, log) }).2) ↔
      FirstStops (Missed hit) (Complete 1)
        (fun count => link.answer (readAPPacket address) count state) rounds := by
  induction rounds generalizing cmdQueue resultQueue state log with
  | zero =>
      exact ⟨fun _ => firstStops_zero, fun _ same =>
        absurd same (show ¬ cmdStatusTimeout = cmdStatusOk by decide)⟩
  | succ rounds ih =>
      rw [pollWith_succ, Link.logged_exchange, firstStops_succ]
      simp only [Link.answer]
      generalize (link.exchange (readAPPacket address) state).1 = answer
      generalize (link.exchange (readAPPacket address) state).2 = next
      by_cases refused : Refused answer
      · rw [if_pos (not_ok refused)]
        exact ⟨fun _ => ⟨refused.complete, fun missed => absurd missed (refused.not_missed hit)⟩,
          fun _ same => absurd same (not_ok refused)⟩
      · rw [if_neg (not_not.mpr ((statusOf_eq_ok answer).mpr refused)),
          complete_iff_answered refused]
        by_cases answered : Answered 1 answer
        · rw [missed_iff answered]
          cases passed : hit (firstWord (resultsOf answer)) with
          | true =>
              rw [if_pos rfl, lastAnswered_iff (popUInt32_state _)]
              exact ⟨fun _ => ⟨answered, fun fails => absurd fails (by decide)⟩,
                fun _ _ => answered⟩
          | false =>
              rw [if_neg (by decide), popUInt32_snd, ih]
              exact ⟨fun rest => ⟨answered, fun _ => rest⟩, fun both => both.2 rfl⟩
        · rw [firstWord_of_not_answered refused answered, zeroHits, if_pos rfl,
            lastAnswered_iff (popUInt32_state _)]
          exact ⟨fun holds => absurd (holds rfl) answered, fun both => absurd both.1 answered⟩

end Poll

/-! ### The functions -/

/-- A function that reports success has been answered with `words` result words. -/
def SuccessAnswered {Value : Type} (words : Nat) (success : Value → Prop)
    (run : Queues (σ × List (Option (List Byte))) → Value × Queues (σ × List (Option (List Byte))))
    (queues : Queues σ) : Prop :=
  success (run queues.fresh).1 → LastAnswered words (run queues.fresh).2

variable (address value mask words : SQInteger) (queues : Queues σ)

theorem writeStat_answered :
    SuccessAnswered 0 (· = cmdStatusOk) (writeStat link.logged value) queues ↔
      Complete 0 (link.answer (packetOf (queueWriteStat value)) 0 queues.state) :=
  executeStatus_answered link (packetOf (queueWriteStat value)) queues.resultQueue queues.state

theorem writeAP_answered :
    SuccessAnswered 0 (· = cmdStatusOk) (writeAP link.logged address value) queues ↔
      Complete 0 (link.answer (packetOf (queueWriteAP address value)) 0 queues.state) :=
  executeStatus_answered link (packetOf (queueWriteAP address value)) queues.resultQueue
    queues.state

theorem writeMemory_answered :
    SuccessAnswered 0 (· = cmdStatusOk) (writeMemory link.logged address value) queues ↔
      Complete 0 (link.answer (packetOf (queueWriteMemory address value)) 0 queues.state) :=
  executeStatus_answered link (packetOf (queueWriteMemory address value)) queues.resultQueue
    queues.state

/-- The word 0 has all bits of a mask only if there are none. -/
theorem pollAP_answered :
    SuccessAnswered 1 (· = cmdStatusOk) (pollAP link.logged address mask) queues ↔
      (mask ≠ 0 ∨ FirstStops (Missed fun v => v &&& mask = mask) (Complete 1)
        (fun count => link.answer (readAPPacket address) count queues.state) maxRetries) := by
  by_cases empty : mask = 0
  · rw [SuccessAnswered, pollAP, Queues.fresh, pollWith_zero_hits _ _ _ (by simp [empty])]
    simp only [empty, ne_eq, not_true, false_or]
  · have zeroMisses : decide ((0 : SQInteger) &&& mask = mask) = false := by
      rw [show (0 : SQInteger) &&& mask = 0 from BitVec.zero_and, decide_eq_false_iff_not]
      exact Ne.symm empty
    exact ⟨fun _ => .inl empty, fun _ => pollWith_zero_misses link address _ zeroMisses _ _ _ _ _⟩

theorem pollAPNot_answered :
    SuccessAnswered 1 (· = cmdStatusOk) (pollAPNot link.logged address mask) queues ↔
      (mask = 0 ∨ FirstStops (Missed fun v => v &&& mask ≠ mask) (Complete 1)
        (fun count => link.answer (readAPPacket address) count queues.state) maxRetries) := by
  by_cases empty : mask = 0
  · have zeroMisses : decide ((0 : SQInteger) &&& mask ≠ mask) = false := by
      rw [show (0 : SQInteger) &&& mask = 0 from BitVec.zero_and, decide_eq_false_iff_not, not_not]
      exact Eq.symm empty
    exact ⟨fun _ => .inl empty, fun _ => pollWith_zero_misses link address _ zeroMisses _ _ _ _ _⟩
  · have zeroHits : decide ((0 : SQInteger) &&& mask ≠ mask) = true := by
      rw [show (0 : SQInteger) &&& mask = 0 from BitVec.zero_and, decide_eq_true_eq]
      exact Ne.symm empty
    rw [SuccessAnswered, pollAPNot, Queues.fresh, pollWith_zero_hits _ _ _ zeroHits,
      or_iff_right empty]

theorem connect_answered :
    SuccessAnswered 1 (· ≠ -1) (connect link.logged) queues ↔
      FirstStops Refused (Complete 1)
        (fun count => link.answer (packetOf queueConnect) count queues.state) 10 :=
  connectLoop_answered link 10 queues.cmdQueue queues.resultQueue queues.state []

end Logged

/-- Success is reported with an answer exactly when the reply is complete: the only reply, or for a
loop the first one that does not start another round. -/
theorem success_answered_iff {σ : Type} (link : Link σ) (address value mask words : SQInteger)
    (queues : Queues σ) :
    let answers packet := fun count => link.answer packet count queues.state
    (SuccessAnswered 0 (· = cmdStatusOk) (writeStat link.logged value) queues ↔
        Complete 0 (answers (packetOf (queueWriteStat value)) 0)) ∧
      (SuccessAnswered 0 (· = cmdStatusOk) (writeAP link.logged address value) queues ↔
        Complete 0 (answers (packetOf (queueWriteAP address value)) 0)) ∧
      (SuccessAnswered 0 (· = cmdStatusOk) (writeMemory link.logged address value) queues ↔
        Complete 0 (answers (packetOf (queueWriteMemory address value)) 0)) ∧
      (SuccessAnswered 1 (· = cmdStatusOk) (pollAP link.logged address mask) queues ↔
        mask ≠ 0 ∨ FirstStops (Missed fun v => v &&& mask = mask) (Complete 1)
          (answers (readAPPacket address)) maxRetries) ∧
      (SuccessAnswered 1 (· = cmdStatusOk) (pollAPNot link.logged address mask) queues ↔
        mask = 0 ∨ FirstStops (Missed fun v => v &&& mask ≠ mask) (Complete 1)
          (answers (readAPPacket address)) maxRetries) ∧
      (SuccessAnswered 1 (· ≠ -1) (connect link.logged) queues ↔
        FirstStops Refused (Complete 1) (answers (packetOf queueConnect)) 10) ∧
      (SuccessAnswered words.toInt.toNat (∃ values, · = .array values)
          (readMemoryWords link.logged address words) queues ↔
        words.toInt > 6 ∨ Complete words.toInt.toNat
          (answers (packetOf (queueReadMemoryWords words.toInt.toNat address)) 0)) ∧
      (SuccessAnswered 1 (· = 0) (kinetisFlashLongword link.logged address value) queues ↔
        Complete 1 (answers (packetOf (queueFlashLongword address value)) 0)) :=
  ⟨writeStat_answered link value queues, writeAP_answered link address value queues,
    writeMemory_answered link address value queues, pollAP_answered link address mask queues,
    pollAPNot_answered link address mask queues, connect_answered link queues,
    readMemoryWords_answered link address words queues,
    kinetisFlashLongword_answered link address value queues⟩

/-! ### A silent port -/

/-- An open port on which nothing ever arrives. -/
def silentPort : HardwareInterface where
  isOpen := true
  incoming := []
  writes := []
  sent := []
  lastError := ""

theorem not_complete_none (words : Nat) : ¬ Complete words none :=
  fun ⟨_, _, same, _⟩ => nomatch same

theorem silentPort_answer (packet : List Byte) :
    HardwareInterface.link.answer packet 0 silentPort = none := by
  have silent := HardwareInterface.readPacket_silent []
    (silentPort.writePacket packet).2 (silentPort.writePacket_incoming packet).1
  exact if_neg (ne_true_of_eq_false silent)

/-- On a silent port the write reports OK, the poll for a clear bit reports OK, connecting gives the
IDCODE 0, a word is read as 0 and a longword is flashed, all without a reply. -/
theorem success_unanswered :
    let link := HardwareInterface.link
    let queues : Queues HardwareInterface :=
      { cmdQueue := [], resultQueue := [], state := silentPort }
    ¬ SuccessAnswered 0 (· = cmdStatusOk) (writeStat link.logged 0x50000000) queues ∧
      ¬ SuccessAnswered 1 (· = cmdStatusOk) (pollAPNot link.logged 0 1) queues ∧
      ¬ SuccessAnswered 1 (· ≠ -1) (connect link.logged) queues ∧
      ¬ SuccessAnswered 1 (∃ values, · = .array values) (readMemoryWords link.logged 0 1) queues ∧
      ¬ SuccessAnswered 1 (· = 0) (kinetisFlashLongword link.logged 0x400 0) queues := by
  intro link queues
  have unanswered (words : Nat) (packet : List Byte) :
      ¬ Complete words (link.answer packet 0 queues.state) := by
    rw [silentPort_answer packet]
    exact not_complete_none words
  refine ⟨fun holds => ?_, fun holds => ?_, fun holds => ?_, fun holds => ?_, fun holds => ?_⟩
  · exact unanswered 0 _ ((writeStat_answered link _ queues).mp holds)
  · rcases (pollAPNot_answered link _ _ queues).mp holds with zero | stops
    · exact absurd zero (by decide)
    · exact unanswered 1 _ (stops 0 (by decide) fun j none => absurd none (Nat.not_lt_zero j))
  · have stops := (connect_answered link queues).mp holds
    exact unanswered 1 _ (stops 0 (by decide) fun j none => absurd none (Nat.not_lt_zero j))
  · rcases (readMemoryWords_answered link 0 1 queues).mp holds with many | complete
    · exact absurd many (by decide)
    · exact unanswered _ _ complete
  · exact unanswered 1 _ ((kinetisFlashLongword_answered link _ _ queues).mp holds)

end Swagger.Host
