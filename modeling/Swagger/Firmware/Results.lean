/-
**Results that do not fit the reply.**

`queueReplyUInt32` refuses a word unless a byte of room is left behind it, `queueReplyUInt8` uses
the last byte too, and the interpreter ignores both refusals. So a packet whose commands all succeed
is answered with OK and all its results exactly when they take at most 63 bytes with the status, or
64 and the last of them are those of `GET INTERFACE INFO` (`Fits`). Otherwise results are missing,
and the status is OK all the same.
-/

import Swagger.Firmware.PacketSemantics

namespace Swagger.Firmware

open Library

variable {σ : Type} {board : Board σ} {prog : Programmer σ}

/-- All commands succeed. -/
def Succeeds (driver : Driver σ) : List Command → σ → Prop
  | [], _ => True
  | command :: rest, target =>
      match runCommand driver command target with
      | (.done _, target) => Succeeds driver rest target
      | _ => False

/-- The first command succeeds, and the others behind it. -/
theorem succeeds_cons {driver : Driver σ} {command : Command} {commands : List Command} {target : σ}
    (succeed : Succeeds driver (command :: commands) target) :
    ∃ results target', runCommand driver command target = (.done results, target') ∧
      Succeeds driver commands target' := by
  unfold Succeeds at succeed
  rcases ended : runCommand driver command target with ⟨outcome, target'⟩
  rw [ended] at succeed
  cases outcome with
  | done results => exact ⟨results, target', rfl, succeed⟩
  | failed status => exact succeed.elim
  | timedOut => exact succeed.elim

theorem Succeeds.inTime {driver : Driver σ} {commands : List Command} {target : σ}
    (succeed : Succeeds driver commands target) : ¬ TimesOut driver commands target := by
  induction commands generalizing target with
  | nil => exact id
  | cons command commands ih =>
      obtain ⟨results, target', ended, rest⟩ := succeeds_cons succeed
      rw [TimesOut, ended]
      exact ih rest

theorem Succeeds.status {driver : Driver σ} {commands : List Command} {target : σ}
    (succeed : Succeeds driver commands target) :
    (execute driver none commands target).status = Status.ok.code := by
  induction commands generalizing target with
  | nil => rfl
  | cons command commands ih =>
      obtain ⟨results, target', ended, rest⟩ := succeeds_cons succeed
      rw [execute, ended]
      exact ih rest

/-- The reply that carries all results has the length that the packet says. -/
theorem Succeeds.length_reply {driver : Driver σ} {commands : List Command} {target : σ}
    (succeed : Succeeds driver commands target) :
    (execute driver none commands target).reply.length = replyLength commands none := by
  induction commands generalizing target with
  | nil => rfl
  | cons command commands ih =>
      obtain ⟨results, target', ended, rest⟩ := succeeds_cons succeed
      have behind := ih rest
      rw [execute, ended]
      rw [Execution.reply, List.length_cons] at behind ⊢
      simp only [List.flatMap_append, List.length_append, length_results ended]
      unfold replyLength at behind ⊢
      rw [List.map_cons, List.sum_cons]
      omega

/-! ### The last result -/

/-- The commands that have results. -/
def producing (commands : List Command) : List Command :=
  commands.filter fun command => resultLength command ≠ 0

/-- The kind of the last result is that of the last command with results. -/
def LastMatches : Option Result → Option Command → Prop
  | none, none => True
  | some (.byte _), some command => command = .getProgId
  | some (.word _), some command => command ≠ .getProgId
  | _, _ => False

/-- A result in front does not change the last one if there is another. -/
theorem LastMatches.cons {last : Option Result} {producer : Option Command}
    (behind : LastMatches last producer) {result : Result} {command : Command}
    (first : LastMatches (some result) (some command)) :
    LastMatches (last.or (some result)) (some (producer.getD command)) := by
  cases last with
  | none =>
      cases producer with
      | none => exact first
      | some command => exact behind.elim
  | some result =>
      cases producer with
      | none => cases result <;> exact behind.elim
      | some command => exact behind

theorem Succeeds.last {driver : Driver σ} {commands : List Command} {target : σ}
    (succeed : Succeeds driver commands target) :
    LastMatches (execute driver none commands target).results.getLast?
      (producing commands).getLast? := by
  induction commands generalizing target with
  | nil => exact trivial
  | cons command commands ih =>
      obtain ⟨results, target', ended, rest⟩ := succeeds_cons succeed
      have behind := ih rest
      rw [execute, ended]
      simp only [List.getLast?_append]
      rw [producing] at behind ⊢
      rcases results_cases ended with ⟨zero, rfl⟩ | ⟨four, other, value, rfl⟩ | ⟨rfl, rfl⟩
      · rw [List.filter_cons_of_neg (by simp [zero]), List.getLast?_nil, Option.or_none]
        exact behind
      · rw [List.filter_cons_of_pos (by simp [four])]
        simp only [List.getLast?_cons, List.getLast?_nil, Option.getD_none]
        exact behind.cons (show LastMatches (some (.word value)) (some command) from other)
      · rw [List.filter_cons_of_pos (by decide)]
        simp only [List.getLast?_cons]
        exact behind.cons (show LastMatches (some (.byte 0)) (some .getProgId) from rfl)

/-! ### The condition -/

/-- All results fit the reply. -/
def Fits (commands : List Command) : Prop :=
  replyLength commands none ≤ 63 ∨
    (replyLength commands none = 64 ∧ (producing commands).getLast? = some .getProgId)

theorem length_queue_le (queued : List Byte) (result : Result) :
    (Result.queue queued result).length ≤ queued.length + result.bytes.length := by
  cases result with
  | word value =>
      rw [Result.queue]
      split_ifs
      · exact Nat.le_add_right _ _
      · exact List.length_append.le
  | byte value =>
      rw [Result.queue]
      split_ifs
      · exact Nat.le_add_right _ _
      · exact List.length_append.le

theorem length_queued_le (results : List Result) (queued : List Byte) :
    (results.foldl Result.queue queued).length ≤
      queued.length + (results.flatMap Result.bytes).length := by
  induction results generalizing queued with
  | nil => exact Nat.le_add_right _ _
  | cons result results ih =>
      have first := length_queue_le queued result
      have rest := ih (Result.queue queued result)
      rw [List.foldl_cons, List.flatMap_cons, List.length_append]
      omega

/-- All results are queued exactly when they take at most 63 bytes with the status, or 64 and the
last one is a byte. -/
theorem queued_all_iff (results : List Result) :
    results.foldl Result.queue [] = results.flatMap Result.bytes ↔
      1 + (results.flatMap Result.bytes).length ≤ 63 ∨
        (1 + (results.flatMap Result.bytes).length = 64 ∧
          ∃ value, results.getLast? = some (.byte value)) := by
  rcases List.eq_nil_or_concat results with rfl | ⟨init, last, rfl⟩
  · exact ⟨fun _ => .inl (by decide), fun _ => rfl⟩
  · have least := length_queued_le init []
    rw [List.concat_eq_append, List.foldl_append, List.foldl_cons, List.foldl_nil,
      List.flatMap_append, List.flatMap_singleton, List.length_append, List.getLast?_concat]
    rw [List.length_nil, Nat.zero_add] at least
    constructor
    · -- the lengths agree, so the last result has been accepted behind all others
      intro all
      have length := congrArg List.length all
      rw [List.length_append] at length
      cases last with
      | word value =>
          rw [Result.queue] at length
          split_ifs at length with full
          · rw [Result.bytes, length_wordBytes] at length
            omega
          · rw [List.length_append] at length
            rw [Result.bytes, length_wordBytes] at length ⊢
            omega
      | byte value =>
          rw [Result.queue] at length
          split_ifs at length with full
          · rw [Result.bytes, List.length_singleton] at length
            omega
          · rw [List.length_append] at length
            rw [Result.bytes, List.length_singleton] at length ⊢
            by_cases small : 1 + ((init.flatMap Result.bytes).length + 1) ≤ 63
            · exact .inl small
            · exact .inr ⟨by omega, value, rfl⟩
    · rintro (small | ⟨full, value, byte⟩)
      · have fits := queue_of_fits (init ++ [last]) [] (by
          rw [List.flatMap_append, List.flatMap_singleton, List.length_append, List.length_nil]
          exact small)
        rw [List.foldl_append, List.foldl_cons, List.foldl_nil, List.flatMap_append,
          List.flatMap_singleton, List.nil_append] at fits
        exact fits
      · cases byte
        rw [Result.bytes, List.length_singleton] at full
        rw [queue_of_fits init [] (by rw [List.length_nil]; omega), List.nil_append, Result.queue,
          if_neg (by omega), Result.bytes]

/-- The queue is complete exactly when the packet says so. -/
theorem Succeeds.queued_all_iff {driver : Driver σ} {commands : List Command} {target : σ}
    (succeed : Succeeds driver commands target) :
    (execute driver none commands target).results.foldl Result.queue [] =
        (execute driver none commands target).results.flatMap Result.bytes ↔ Fits commands := by
  have length := succeed.length_reply
  have last := succeed.last
  rw [Execution.reply, List.length_cons, Nat.add_comm] at length
  rw [Firmware.queued_all_iff, length, Fits]
  refine or_congr_right (and_congr_right fun _ => ?_)
  constructor
  · rintro ⟨value, byte⟩
    rw [byte] at last
    cases producer : (producing commands).getLast? with
    | none =>
        rw [producer] at last
        exact last.elim
    | some command =>
        rw [producer] at last
        exact congrArg some last
  · intro producer
    rw [producer] at last
    cases result : (execute driver none commands target).results.getLast? with
    | none =>
        rw [result] at last
        exact last.elim
    | some result' =>
        rw [result] at last
        cases result' with
        | word value => exact absurd rfl last
        | byte value => exact ⟨value, rfl⟩

/-! ### The packet -/

/-- The reply carries all results, or a status other than OK. -/
def NoSilentDrop (board : Board σ) (prog : Programmer σ) (frame : List Byte)
    (commands : List Command) : Prop :=
  prog.Finishes board (frame ++ [0]) fun _ sent =>
    ∃ reply, sent = prog.sent ++ [frameOf reply] ∧
      (reply = (execute board.driver none commands prog.target).reply ∨
        ∃ status results, reply = status :: results ∧ status ≠ Status.ok.code)

theorem frameOf_injective : Function.Injective frameOf := by
  intro first second same
  have decoded := congrArg cobs.unstuff (List.append_cancel_right same)
  rw [unstuff_stuff, unstuff_stuff] at decoded
  exact List.append_cancel_right decoded

/-- The reply to a packet whose commands all succeed is OK and what has been queued. -/
theorem reply_of_succeeds (board : Board σ) (idle : prog.Idle) {frame : List Byte}
    {commands : List Command} (free : (0 : Byte) ∉ frame) (small : frame.length ≤ 64)
    (decodes : cobs.unstuff frame = packetBytes commands none ++ [0])
    (succeed : Succeeds board.driver commands prog.target) (outcome : List (List Byte) → Prop) :
    (prog.Finishes board (frame ++ [0]) fun _ sent => outcome sent) ↔
      outcome (prog.sent ++ [frameOf (Status.ok.code ::
        (execute board.driver none commands prog.target).results.foldl Result.queue [])]) := by
  obtain ⟨device', run, waiting, -, -, sent⟩ := prog.idleDevice.run_frame board rfl rfl free small
    (by simp) decodes succeed.inTime
  rw [idle.refines.finishes_run_iff run waiting, sent, ← succeed.status]
  rfl

theorem noSilentDrop_of_fits (board : Board σ) (idle : prog.Idle) {frame : List Byte}
    {commands : List Command} (free : (0 : Byte) ∉ frame) (small : frame.length ≤ 64)
    (decodes : cobs.unstuff frame = packetBytes commands none ++ [0])
    (succeed : Succeeds board.driver commands prog.target) (fits : Fits commands) :
    NoSilentDrop board prog frame commands := by
  rw [NoSilentDrop, reply_of_succeeds board idle free small decodes succeed]
  refine ⟨_, rfl, .inl ?_⟩
  rw [succeed.queued_all_iff.mpr fits, Execution.reply, succeed.status]

/-- The status is OK, so a reply from which nothing is dropped carries all results. -/
theorem fits_of_noSilentDrop (idle : prog.Idle) {frame : List Byte}
    {commands : List Command} (free : (0 : Byte) ∉ frame) (small : frame.length ≤ 64)
    (decodes : cobs.unstuff frame = packetBytes commands none ++ [0])
    (succeed : Succeeds board.driver commands prog.target)
    (kept : NoSilentDrop board prog frame commands) : Fits commands := by
  rw [NoSilentDrop, reply_of_succeeds board idle free small decodes succeed] at kept
  obtain ⟨reply, same, complete⟩ := kept
  have one := frameOf_injective (List.singleton_injective (List.append_cancel_left same))
  rcases complete with all | ⟨status, results, other, wrong⟩
  · rw [all, Execution.reply] at one
    exact succeed.queued_all_iff.mp (List.cons.inj one).2
  · rw [other] at one
    exact absurd (List.cons.inj one).1.symm wrong

/-- No result is dropped silently exactly when all results fit. -/
theorem noSilentDrop_iff (board : Board σ) (prog : Programmer σ) (idle : prog.Idle)
    (frame : List Byte) (commands : List Command) (free : (0 : Byte) ∉ frame)
    (small : frame.length ≤ 64) (decodes : cobs.unstuff frame = packetBytes commands none ++ [0])
    (succeed : Succeeds board.driver commands prog.target) :
    NoSilentDrop board prog frame commands ↔ Fits commands :=
  ⟨fits_of_noSilentDrop idle free small decodes succeed,
    noSilentDrop_of_fits board idle free small decodes succeed⟩

/-- Fifteen words and the bytes of `GET INTERFACE INFO` fill the reply to the last byte. -/
theorem noSilentDrop_full :
    NoSilentDrop (steadyBoard 0x2BA01477) (Programmer.boot ())
      (cobs.stuff [] (packetBytes (List.replicate 15 .connect ++ [.getProgId]) none))
      (List.replicate 15 .connect ++ [.getProgId]) :=
  (noSilentDrop_iff (steadyBoard 0x2BA01477) (Programmer.boot ()) (Programmer.boot_idle ()) _
    (List.replicate 15 Command.connect ++ [Command.getProgId]) (zero_notMem_stuff _) (by decide)
    (unstuff_stuff _) trivial).mpr (.inr ⟨by decide, by decide⟩)

/-- Of sixteen words the last one is dropped, and the status is OK. -/
theorem noSilentDrop_fails :
    ¬ ∀ (board : Board Unit) (prog : Programmer Unit) (frame : List Byte)
      (commands : List Command), prog.Idle → (0 : Byte) ∉ frame → frame.length ≤ 64 →
      cobs.unstuff frame = packetBytes commands none ++ [0] →
      Succeeds board.driver commands prog.target → NoSilentDrop board prog frame commands := by
  intro claimed
  have succeed : Succeeds (steadyDriver 0x2BA01477) (List.replicate 16 .connect) () := trivial
  have kept := claimed (steadyBoard 0x2BA01477) (Programmer.boot ())
    (cobs.stuff [] (packetBytes (List.replicate 16 .connect) none)) (List.replicate 16 .connect)
    (Programmer.boot_idle ()) (zero_notMem_stuff _) (by decide) (unstuff_stuff _) succeed
  have fits : Fits (List.replicate 16 .connect) :=
    fits_of_noSilentDrop (Programmer.boot_idle ()) (zero_notMem_stuff _) (by decide)
      (unstuff_stuff _) succeed kept
  rcases fits with small | ⟨full, -⟩
  · exact absurd small (by decide)
  · exact absurd full (by decide)

end Swagger.Firmware
