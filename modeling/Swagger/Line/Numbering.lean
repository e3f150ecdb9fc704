/-
**As long as no read times out.**

The host takes one reply in every call (`InStep`), so a call reads the reply of the same number, as
a whole. What it has read then stays the reply of that number, whatever happens later
(`Numbered`).
-/

import Swagger.Line.Session

namespace Swagger.Line

open Library Firmware Host

variable {σ : Type} {board : Board σ} {target : σ} {session : Session σ}

/-- The number of calls whose read has ended. -/
def Session.finished (session : Session σ) : Nat :=
  match session.reading with
  | none => session.calls
  | some _ => session.calls - 1

/-- The host has taken one reply in every call so far: what it takes now and what is on the line are
the replies behind these. -/
structure InStep (session : Session σ) : Prop where
  taken : session.finished ≤ session.replies.length
  line : (session.replies.drop session.finished).flatMap Reply.bytes =
    session.reading.getD [] ++ session.toHost
  nonzero : ∀ mark ∈ session.reading.getD [], mark.1 ≠ 0

/-- As long as no read has timed out, the host is in step, and an answer is the reply of the same
number. -/
structure Numbered (session : Session σ) : Prop where
  current : session.reading.isSome → 0 < session.calls
  past : ∀ call ∈ session.late, call < session.finished
  inStep : session.late = [] → InStep session
  kept : ∀ answer ∈ session.answers, (∀ call ∈ session.late, answer.call ≤ call) →
    ∃ reply, session.replies[answer.call]? = some reply ∧ reply.call ≤ answer.call ∧
      answer.taken = reply.bytes ∧ reply.frame = encode answer.packet

theorem Numbered.boot : Numbered (Session.boot target) where
  current none := nomatch none
  past _ none := nomatch none
  inStep _ := ⟨le_rfl, rfl, fun _ none => nomatch none⟩
  kept _ none := nomatch none

theorem Numbered.call (numbered : Numbered session) (idle : session.reading = none)
    (packet : List Byte) : Numbered (session.call packet) := by
  have finished : (session.call packet).finished = session.finished := by
    rw [Session.finished, Session.finished, idle]
    rfl
  refine ⟨fun _ => Nat.succ_pos _, fun call member => ?_, fun onTime => ?_, numbered.kept⟩
  · rw [finished]
    exact numbered.past call member
  · obtain ⟨taken, line, -⟩ := numbered.inStep onTime
    rw [idle] at line
    refine ⟨by rw [finished]; exact taken, by rw [finished]; exact line,
      fun _ none => absurd none List.not_mem_nil⟩

/-- The bytes up to the first zero are the next reply. -/
theorem InStep.next (inStep : InStep session)
    (frames : ∀ reply ∈ session.replies, ∃ payload, reply.frame = frameOf payload)
    {taken rest : List Mark} {mark : Mark} (reading : session.reading = some taken)
    (toHost : session.toHost = mark :: rest) (zero : mark.1 = 0) :
    ∃ reply payload, session.replies[session.finished]? = some reply ∧
      reply.frame = frameOf payload ∧ taken ++ [mark] = reply.bytes ∧
      (session.replies.drop (session.finished + 1)).flatMap Reply.bytes = rest := by
  have line := inStep.line
  rw [reading, toHost, Option.getD_some] at line
  rcases behind : session.replies.drop session.finished with _ | ⟨reply, more⟩
  · rw [behind] at line
    simp at line
  · have here : session.replies[session.finished]? = some reply := by
      rw [← List.head?_drop, behind, List.head?_cons]
    obtain ⟨payload, frame⟩ := frames reply (List.mem_of_getElem? here)
    rw [behind, List.flatMap_cons, Reply.bytes, frame, marked_frameOf, List.append_assoc,
      List.singleton_append] at line
    have free := inStep.nonzero
    rw [reading, Option.getD_some] at free
    obtain ⟨bytes, last, others⟩ := split_first_unique (fun mark : Mark => mark.1 = 0)
      (marked_free reply.call payload) free rfl zero line
    refine ⟨reply, payload, here, frame, ?_, ?_⟩
    · rw [Reply.bytes, frame, marked_frameOf, bytes, last]
    · rw [← List.drop_drop, behind, List.drop_one, List.tail_cons, others]

theorem Numbered.take (numbered : Numbered session)
    (frames : ∀ reply ∈ session.replies, ∃ payload, reply.frame = frameOf payload)
    (answered : ∀ reply ∈ session.replies, reply.call < session.calls)
    {taken rest : List Mark} {mark : Mark} (reading : session.reading = some taken)
    (toHost : session.toHost = mark :: rest) : Numbered (session.take taken mark rest) := by
  have current := numbered.current (by rw [reading, Option.isSome_some])
  have finished : session.finished = session.calls - 1 := by rw [Session.finished, reading]
  unfold Session.take
  by_cases zero : mark.1 = 0
  · rw [if_neg (not_not.mpr zero)]
    refine ⟨fun none => absurd none Bool.false_ne_true, fun call member => ?_, fun onTime => ?_,
      fun answer member onTime => ?_⟩
    · have past := numbered.past call member
      show call < session.calls
      omega
    · obtain ⟨reply, payload, here, -, -, behind⟩ :=
        (numbered.inStep onTime).next frames reading toHost zero
      have room := (List.getElem?_eq_some_iff.mp here).1
      rw [finished] at behind room
      have next : session.calls - 1 + 1 = session.calls := by omega
      have count : session.calls ≤ session.replies.length := by omega
      rw [next] at behind
      exact ⟨count, behind, fun _ none => absurd none List.not_mem_nil⟩
    · rcases List.mem_append.mp member with before | new
      · exact numbered.kept answer before onTime
      · -- the answer of this call: no earlier one was late, so the host is in step
        rw [Option.mem_toList, Option.map_eq_some_iff] at new
        obtain ⟨packet, arrived, rfl⟩ := new
        have none : session.late = [] := by
          refine List.eq_nil_iff_forall_not_mem.mpr fun call member => ?_
          have past := numbered.past call member
          have early := onTime call member
          simp only at early
          omega
        obtain ⟨reply, payload, here, frame, bytes, -⟩ :=
          (numbered.inStep none).next frames reading toHost zero
        rw [bytes, Reply.bytes, frame, received_frame] at arrived
        have made := answered reply (List.mem_of_getElem? here)
        rw [finished] at here
        refine ⟨reply, here, Nat.le_sub_one_of_lt made, bytes, ?_⟩
        rw [frame, ← Option.some.inj arrived, encode_frame]
  · rw [if_pos zero]
    have same :
        Session.finished { session with reading := some (taken ++ [mark]), toHost := rest } =
          session.finished := finished.symm
    refine ⟨fun _ => current, fun call member => ?_, fun onTime => ?_, numbered.kept⟩
    · rw [same]
      exact numbered.past call member
    · obtain ⟨count, line, nonzero⟩ := numbered.inStep onTime
      rw [reading, Option.getD_some] at line nonzero
      refine ⟨by rw [same]; exact count, ?_, fun other member => ?_⟩
      · rw [same, line, toHost, Option.getD_some, List.append_assoc]
        rfl
      · rcases List.mem_append.mp member with before | new
        · exact nonzero other before
        · rw [List.mem_singleton.mp new]
          exact zero

theorem Numbered.timeOut (numbered : Numbered session) (reading : session.reading.isSome) :
    Numbered session.timeOut := by
  have current := numbered.current reading
  obtain ⟨taken, here⟩ := Option.isSome_iff_exists.mp reading
  have finished : session.finished = session.calls - 1 := by rw [Session.finished, here]
  refine ⟨fun none => absurd none Bool.false_ne_true, fun call member => ?_, fun onTime => ?_,
    fun answer member onTime => ?_⟩
  · show call < session.calls
    rcases List.mem_append.mp member with before | new
    · have past := numbered.past call before
      omega
    · rw [List.mem_singleton.mp new]
      omega
  · exact absurd onTime (List.append_ne_nil_of_right_ne_nil _ (List.cons_ne_nil _ _))
  · exact numbered.kept answer member fun call before =>
      onTime call (List.mem_append_left _ before)

theorem Numbered.answer (numbered : Numbered session) (call : Nat) (prog' : Programmer σ) :
    Numbered (session.answer call prog') := by
  refine ⟨numbered.current, numbered.past, fun onTime => ?_, fun answer member onTime => ?_⟩
  · obtain ⟨count, line, nonzero⟩ := numbered.inStep onTime
    refine ⟨count.trans ?_, ?_, nonzero⟩
    · rw [Session.answer, List.length_append]
      exact Nat.le_add_right _ _
    show ((session.replies ++ _).drop session.finished).flatMap Reply.bytes =
      session.reading.getD [] ++ (session.toHost ++ _)
    rw [List.drop_append_of_le_length count, List.flatMap_append, line, List.append_assoc]
  · obtain ⟨reply, here, rest⟩ := numbered.kept answer member onTime
    refine ⟨reply, ?_, rest⟩
    show (session.replies ++ _)[answer.call]? = some reply
    rw [List.getElem?_append_left (List.getElem?_eq_some_iff.mp here).1, here]

/-- Every step keeps the numbers. -/
theorem Numbered.step {session' : Session σ} {action : Option Action}
    (numbered : Numbered session) (ordered : Ordered board target session)
    (step : (Session.lts board).step session action session') : Numbered session' := by
  cases ordered.moves step with
  | call packet idle => exact numbered.call idle packet
  | take reading toHost =>
      exact numbered.take ordered.frames (fun reply member => (ordered.answered reply member).2)
        reading toHost
  | timeOut reading => exact numbered.timeOut reading
  | answer rest sent ahead made =>
      have popped : Numbered { session with toProgrammer := rest } :=
        ⟨numbered.current, numbered.past,
          fun onTime => ⟨(numbered.inStep onTime).taken, (numbered.inStep onTime).line,
            (numbered.inStep onTime).nonzero⟩,
          numbered.kept⟩
      exact popped.answer _ _

end Swagger.Line
