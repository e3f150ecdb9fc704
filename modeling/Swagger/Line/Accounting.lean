/-
**Every reply is taken by somebody.**

A call that is over has either read up to a zero, or timed out (`Counted.total`); and before the
programmer answers a call it has answered every earlier one (`Covers`). So if a call reads bytes of
its own, all replies to earlier calls have been taken by these, one by each: none of them timed out,
and none was answered twice (`Accounted`).
-/

import Swagger.Line.Numbering
import Swagger.Library.InOrder

namespace Swagger.Line

open Library Firmware Host

variable {σ : Type} {board : Board σ} {target : σ} {session : Session σ}

/-! ### The programmer answers every call -/

theorem reads_waiting {prog prog' : Programmer σ} {byteRead : Byte}
    (step : (Programmer.lts board).step prog (some byteRead) prog') : prog.Waiting := by
  rcases Programmer.step_cases step with ⟨impossible, -⟩ | ⟨_, -, here, -⟩ | ⟨_, impossible, -⟩
  · cases impossible
  · rw [Programmer.Waiting, here]
    rfl
  · cases impossible

/-- The delimiter of a frame starts the interpreter. -/
theorem delimiter_interprets {prog prog' : Programmer σ}
    (step : (Programmer.lts board).step prog (some 0) prog') : ¬ prog'.Waiting := by
  rcases Programmer.step_cases step with ⟨impossible, -⟩ | ⟨_, delimiter, -, received⟩ |
    ⟨_, impossible, -⟩
  · cases impossible
  · cases delimiter
    simp only [Programmer.receive, ne_eq, not_true_eq_false, if_false] at received
    obtain ⟨result, -, ended⟩ := Option.bind_eq_some_iff.mp received
    cases ended
    intro waiting
    cases waiting
  · cases impossible

/-- The interpreter does not end without a reply. -/
theorem interpreter_replies {prog prog' : Programmer σ} {bytes : List Byte}
    (run : (Programmer.lts board).Trace (Programmer.boot target) bytes prog)
    (step : (Programmer.lts board).step prog none prog') (busy : ¬ prog.Waiting)
    (waiting : prog'.Waiting) : prog.sent.length < prog'.sent.length := by
  obtain ⟨device, -, related⟩ := reachable_refines run
  obtain ⟨device', run', related'⟩ := step_refines _ _ _ _ related step
  have replied := Device.replies run' (fun phase => busy (related.phase.symm.trans phase))
    (related'.phase.trans waiting)
  rwa [related.data.sent, related'.data.sent]

/-- The packets of calls that the programmer has not begun to read. -/
def pending : Nat → List (List Byte) → List Mark
  | _, [] => []
  | call, packet :: packets => marked call (encode packet) ++ pending (call + 1) packets

theorem pending_append (call : Nat) (packets : List (List Byte)) (packet : List Byte) :
    pending call (packets ++ [packet]) =
      pending call packets ++ marked (call + packets.length) (encode packet) := by
  induction packets generalizing call with
  | nil => simp [pending]
  | cons head tail ih =>
      rw [List.cons_append, pending, ih, pending, List.append_assoc, List.length_cons,
        Nat.add_right_comm, Nat.add_assoc]

/-- The end of a frame, or nothing. -/
def IsTail (tail : List Byte) : Prop :=
  tail = [] ∨ ∃ front, tail = front ++ [0] ∧ (0 : Byte) ∉ front

theorem isTail_encode (packet : List Byte) : IsTail (encode packet) :=
  .inr ⟨cobs.stuff [] packet, encode_eq packet, zero_notMem_stuff packet⟩

/-- Behind its last byte, which is the zero, there is nothing left of a frame. -/
theorem isTail_cons {byte : Byte} {tail : List Byte} (shape : IsTail (byte :: tail)) :
    IsTail tail ∧ (tail = [] → byte = 0) := by
  rcases shape with impossible | ⟨front, same, free⟩
  · cases impossible
  · cases front with
    | nil =>
        obtain ⟨rfl, rfl⟩ := List.cons.inj same
        exact ⟨.inl rfl, fun _ => rfl⟩
    | cons head front =>
        obtain ⟨rfl, rfl⟩ := List.cons.inj same
        refine ⟨.inr ⟨front, rfl, fun member => free (List.mem_cons_of_mem _ member)⟩, ?_⟩
        intro none
        exact absurd none (List.append_ne_nil_of_right_ne_nil _ (List.cons_ne_nil _ _))

/-- The call has been answered. -/
def Session.Answered (session : Session σ) (call : Nat) : Prop :=
  call ∈ session.replies.map Reply.call

/-- The programmer has read a part of the packet of `answering`; it has answered that call if it
waits behind the packet, and all calls before. -/
structure Begun (session : Session σ) (tail : List Byte) (packets : List (List Byte)) : Prop where
  queue : session.toProgrammer =
    marked session.answering tail ++ pending (session.answering + 1) packets
  calls : session.calls = session.answering + 1 + packets.length
  shape : IsTail tail
  done : tail = [] → session.programmer.Waiting → session.Answered session.answering
  covered : ∀ call < session.answering, session.Answered call

/-- Either no call has been made, or the programmer has answered all calls before the one it
reads. -/
def Covers (session : Session σ) : Prop :=
  (session.calls = 0 ∧ session.answering = 0 ∧ session.toProgrammer = []) ∨
    ∃ tail packets, Begun session tail packets

theorem Covers.call (covers : Covers session) (packet : List Byte) :
    Covers (session.call packet) := by
  rcases covers with ⟨none, first, empty⟩ | ⟨tail, packets, begun⟩
  · refine .inr ⟨encode packet, [], ?_, ?_, isTail_encode packet, fun ended => ?_, ?_⟩
    · show session.toProgrammer ++ marked session.calls (encode packet) =
        marked session.answering (encode packet) ++ []
      rw [empty, none, first, List.nil_append, List.append_nil]
    · show session.calls + 1 = session.answering + 1
      rw [none, first]
    · rw [encode_eq] at ended
      exact absurd ended (List.append_ne_nil_of_right_ne_nil _ (List.cons_ne_nil _ _))
    · intro call early
      exact absurd early (by show ¬ call < session.answering; omega)
  · refine .inr ⟨tail, packets ++ [packet], ?_, ?_, begun.shape, begun.done, begun.covered⟩
    · show session.toProgrammer ++ _ = _
      rw [begun.queue, begun.calls, pending_append, List.append_assoc]
      rfl
    · show session.calls + 1 = _
      rw [begun.calls, List.length_append, List.length_singleton, Nat.add_assoc]
      rfl

theorem Covers.host (covers : Covers session) (reading : Option (List Mark))
    (toHost : List Mark) (answers : List Answer) (late : List Nat) :
    Covers { session with reading, toHost, answers, late } := by
  rcases covers with fresh | ⟨tail, packets, begun⟩
  · exact .inl fresh
  · exact .inr ⟨tail, packets, begun.queue, begun.calls, begun.shape, begun.done, begun.covered⟩

/-- What has been answered stays so. -/
theorem Session.Answered.answer {call : Nat} (answered : session.Answered call) (answering : Nat)
    (prog' : Programmer σ) : (session.answer answering prog').Answered call := by
  rw [Session.Answered, Session.answer, List.map_append]
  exact List.mem_append_left _ answered

theorem Covers.reads (covers : Covers session) {byte : Byte} {call : Nat} {rest : List Mark}
    {prog' : Programmer σ} (queue : session.toProgrammer = (byte, call) :: rest)
    (step : (Programmer.lts board).step session.programmer (some byte) prog') :
    Covers (Session.answer call prog' { session with toProgrammer := rest }) := by
  rcases covers with ⟨-, -, empty⟩ | ⟨tail, packets, begun⟩
  · rw [empty] at queue
    cases queue
  · -- the byte is the first one of the packet that is being read, or of the next one
    have behind (tail : List Byte) (shape : IsTail (byte :: tail)) (waiting : prog'.Waiting) :
        tail ≠ [] := by
      intro ended
      have delimiter := (isTail_cons shape).2 ended
      rw [delimiter] at step
      exact delimiter_interprets step waiting
    have line := begun.queue
    rw [queue] at line
    cases tail with
    | cons head tail =>
        obtain ⟨same, rest_eq⟩ := List.cons.inj line
        obtain ⟨rfl, rfl⟩ := Prod.mk.inj same
        exact .inr ⟨tail, packets, rest_eq, begun.calls, (isTail_cons begun.shape).1,
          fun ended waiting => absurd ended (behind tail begun.shape waiting),
          fun call early => (begun.covered call early).answer _ _⟩
    | nil =>
        cases packets with
        | nil => cases line
        | cons packet packets =>
            have frame : ∃ tail, encode packet = byte :: tail := by
              rw [pending] at line
              cases bytes : encode packet with
              | nil =>
                  rw [encode_eq] at bytes
                  exact absurd bytes (List.append_ne_nil_of_right_ne_nil _ (List.cons_ne_nil _ _))
              | cons head tail =>
                  rw [bytes] at line
                  obtain ⟨same, -⟩ := List.cons.inj line
                  exact ⟨tail, by rw [(Prod.mk.inj same).1]⟩
            obtain ⟨tail, bytes⟩ := frame
            rw [pending, bytes] at line
            obtain ⟨same, rest_eq⟩ := List.cons.inj line
            obtain ⟨-, rfl⟩ := Prod.mk.inj same
            have shape : IsTail (byte :: tail) := bytes ▸ isTail_encode packet
            have last := begun.done rfl (reads_waiting step)
            refine .inr ⟨tail, packets, rest_eq, ?_, (isTail_cons shape).1,
              fun ended waiting => absurd ended (behind tail shape waiting), fun call early => ?_⟩
            · show session.calls = session.answering + 1 + 1 + packets.length
              rw [begun.calls, List.length_cons]
              omega
            · rcases Nat.lt_succ_iff_lt_or_eq.mp early with before | rfl
              · exact (begun.covered call before).answer _ _
              · exact last.answer _ _

theorem Covers.runs (covers : Covers session) {bytes : List Byte} {prog' : Programmer σ}
    (run : (Programmer.lts board).Trace (Programmer.boot target) bytes session.programmer)
    (step : (Programmer.lts board).step session.programmer none prog') :
    Covers (session.answer session.answering prog') := by
  rcases covers with fresh | ⟨tail, packets, begun⟩
  · exact .inl fresh
  · refine .inr ⟨tail, packets, begun.queue, begun.calls, begun.shape, fun ended waiting => ?_,
      fun call early => (begun.covered call early).answer _ _⟩
    by_cases waited : session.programmer.Waiting
    · exact (begun.done ended waited).answer _ _
    · have replied := interpreter_replies run step waited waiting
      obtain ⟨payloads, sent⟩ := step_sends run step
      rw [sent, List.length_append, List.length_map] at replied
      obtain ⟨payload, member⟩ := List.exists_mem_of_length_pos (show 0 < payloads.length by omega)
      rw [session.answer_eq session.answering sent]
      show session.answering ∈ (session.replies ++ payloads.map _).map Reply.call
      rw [List.map_append, List.map_map]
      exact List.mem_append_right _ (List.mem_map.mpr ⟨payload, member, rfl⟩)

theorem Covers.step {session' : Session σ} {action : Option Action} (covers : Covers session)
    (ordered : Ordered board target session)
    (step : (Session.lts board).step session action session') : Covers session' := by
  obtain ⟨bytes, run⟩ := ordered.reached
  cases action with
  | none => exact step.elim
  | some action =>
      cases action with
      | call packet =>
          obtain ⟨-, rfl⟩ := step
          exact covers.call packet
      | hostReads =>
          obtain ⟨taken, mark, rest, -, -, rfl⟩ := step
          unfold Session.take
          split_ifs
          · exact covers.host _ _ _ _
          · exact covers.host _ _ _ _
      | timesOut =>
          obtain ⟨-, rfl⟩ := step
          exact covers.host _ _ _ _
      | programmerReads =>
          obtain ⟨byte, call, rest, prog', queue, reads, rfl⟩ := step
          exact covers.reads queue reads
      | programmerRuns =>
          obtain ⟨prog', runs, rfl⟩ := step
          exact covers.runs run runs

/-! ### Every reply is on the line or taken -/

/-- The zeros on the line to the host are those of the replies that no call has taken, and those of
the current call are all still there. -/
structure Counted (session : Session σ) : Prop where
  total : session.replies.length + session.late.length =
    session.finished + session.toHost.countP (·.1 = 0)
  fresh : session.reading.isSome →
    (session.replies.map Reply.call).count (session.calls - 1) =
      session.toHost.count (0, session.calls - 1)
  sorted : (session.toHost.map Prod.snd).Pairwise (· ≤ ·)
  early : ∀ mark ∈ session.toHost, mark.2 ≤ session.answering ∧ mark.2 < session.calls

theorem Counted.boot : Counted (Session.boot target) where
  total := rfl
  fresh none := nomatch none
  sorted := .nil
  early _ none := nomatch none

theorem Counted.call (counted : Counted session) (idle : session.reading = none)
    (answered : ∀ reply ∈ session.replies, reply.call < session.calls) (packet : List Byte) :
    Counted (session.call packet) where
  total := by
    have total := counted.total
    rw [Session.finished, idle] at total
    exact total
  fresh _ := by
    have noReply : session.calls ∉ session.replies.map Reply.call := by
      intro member
      obtain ⟨reply, inside, same⟩ := List.mem_map.mp member
      exact absurd same (answered reply inside).ne
    have noMark : ((0, session.calls) : Mark) ∉ session.toHost :=
      fun member => absurd rfl (counted.early _ member).2.ne
    show (session.replies.map Reply.call).count session.calls =
      session.toHost.count (0, session.calls)
    rw [List.count_eq_zero_of_not_mem noReply, List.count_eq_zero_of_not_mem noMark]
  sorted := counted.sorted
  early mark member := by
    obtain ⟨behind, made⟩ := counted.early mark member
    exact ⟨behind, Nat.lt_succ_of_lt made⟩

theorem Counted.take (counted : Counted session) {taken rest : List Mark} {mark : Mark}
    (current : 0 < session.calls) (reading : session.reading = some taken)
    (toHost : session.toHost = mark :: rest) : Counted (session.take taken mark rest) := by
  have total := counted.total
  have sorted := counted.sorted
  rw [Session.finished, reading, toHost, List.countP_cons] at total
  rw [toHost, List.map_cons, List.pairwise_cons] at sorted
  have early (other : Mark) (member : other ∈ rest) :
      other.2 ≤ session.answering ∧ other.2 < session.calls :=
    counted.early other (by rw [toHost]; exact List.mem_cons_of_mem _ member)
  unfold Session.take
  by_cases zero : mark.1 = 0
  · rw [if_neg (not_not.mpr zero)]
    rw [if_pos (decide_eq_true zero)] at total
    refine ⟨?_, fun none => absurd none Bool.false_ne_true, sorted.2, early⟩
    show session.replies.length + session.late.length =
      session.calls + rest.countP (·.1 = 0)
    simp only at total
    omega
  · rw [if_pos zero]
    rw [if_neg (by simpa using zero)] at total
    refine ⟨total, fun _ => ?_, sorted.2, early⟩
    have fresh := counted.fresh (by rw [reading, Option.isSome_some])
    rw [toHost, List.count_cons_of_ne fun same => zero (congrArg Prod.fst same)] at fresh
    exact fresh

theorem Counted.timeOut (counted : Counted session) (current : 0 < session.calls)
    (reading : session.reading.isSome) : Counted session.timeOut where
  total := by
    obtain ⟨taken, here⟩ := Option.isSome_iff_exists.mp reading
    have total := counted.total
    rw [Session.finished, here] at total
    show session.replies.length + (session.late ++ [_]).length =
      session.calls + session.toHost.countP (·.1 = 0)
    rw [List.length_append, List.length_singleton]
    simp only at total
    omega
  fresh none := nomatch none
  sorted := counted.sorted
  early := counted.early

/-- A frame has one zero. -/
theorem countP_marked_frameOf (call : Nat) (payload : List Byte) :
    (marked call (frameOf payload)).countP (·.1 = 0) = 1 := by
  have free : (marked call (cobs.stuff [] payload)).countP (·.1 = 0) = 0 :=
    List.countP_eq_zero.mpr fun mark member => by
      simpa using marked_free call payload mark member
  rw [marked_frameOf, List.countP_append, free]
  rfl

theorem count_marked_frameOf (call other : Nat) (payload : List Byte) :
    (marked call (frameOf payload)).count (0, other) = [call].count other := by
  have free : ((0, other) : Mark) ∉ marked call (cobs.stuff [] payload) :=
    fun member => marked_free call payload _ member rfl
  rw [marked_frameOf, List.count_append, List.count_eq_zero_of_not_mem free, Nat.zero_add]
  by_cases same : call = other
  · rw [same, List.count_singleton_self, List.count_singleton_self]
  · rw [List.count_eq_zero_of_not_mem, List.count_eq_zero_of_not_mem]
    · exact fun member => same (List.mem_singleton.mp member).symm
    · exact fun member => same (congrArg Prod.snd (List.mem_singleton.mp member)).symm

/-- The marks of replies to one call. -/
theorem mem_flatMap_marked {call : Nat} {payloads : List (List Byte)} {mark : Mark}
    (member : mark ∈ payloads.flatMap fun payload => marked call (frameOf payload)) :
    mark.2 = call ∧ payloads ≠ [] := by
  obtain ⟨payload, inside, here⟩ := List.mem_flatMap.mp member
  exact ⟨mem_marked here, List.ne_nil_of_mem inside⟩

theorem countP_flatMap_marked (call : Nat) (payloads : List (List Byte)) :
    (payloads.flatMap fun payload => marked call (frameOf payload)).countP (·.1 = 0) =
      payloads.length := by
  induction payloads with
  | nil => rfl
  | cons payload payloads ih =>
      rw [List.flatMap_cons, List.countP_append, countP_marked_frameOf, ih, List.length_cons,
        Nat.add_comm]

theorem count_flatMap_marked (call other : Nat) (payloads : List (List Byte)) :
    (payloads.flatMap fun payload => marked call (frameOf payload)).count (0, other) =
      (payloads.map fun _ => call).count other := by
  induction payloads with
  | nil => rfl
  | cons payload payloads ih =>
      rw [List.flatMap_cons, List.count_append, count_marked_frameOf, ih, ← List.count_append]
      rfl

theorem Counted.answer (counted : Counted session) {prog' : Programmer σ} {call : Nat}
    {payloads : List (List Byte)}
    (sent : prog'.sent = session.programmer.sent ++ payloads.map frameOf)
    (ahead : session.answering ≤ call) (made : payloads = [] ∨ call < session.calls) :
    Counted (session.answer call prog') := by
  rw [session.answer_eq call sent]
  refine ⟨?_, fun reading => ?_, ?_, fun mark member => ?_⟩
  · have total := counted.total
    show (session.replies ++ payloads.map _).length + session.late.length =
      session.finished + (session.toHost ++ payloads.flatMap _).countP fun mark : Mark => mark.1 = 0
    rw [List.length_append, List.length_map, List.countP_append, countP_flatMap_marked]
    omega
  · show ((session.replies ++ payloads.map _).map Reply.call).count (session.calls - 1) =
      (session.toHost ++ payloads.flatMap _).count (0, session.calls - 1)
    rw [List.map_append, List.map_map, List.count_append, List.count_append, count_flatMap_marked,
      counted.fresh reading]
    rfl
  · show ((session.toHost ++ payloads.flatMap _).map Prod.snd).Pairwise (· ≤ ·)
    rw [List.map_append]
    refine pairwise_append_le call counted.sorted (fun value member => ?_) fun value member => ?_
    · obtain ⟨mark, before, rfl⟩ := List.mem_map.mp member
      exact (counted.early mark before).1.trans ahead
    · obtain ⟨mark, new, rfl⟩ := List.mem_map.mp member
      exact (mem_flatMap_marked new).1
  · rcases List.mem_append.mp member with before | new
    · obtain ⟨early, earlier⟩ := counted.early mark before
      exact ⟨early.trans ahead, earlier⟩
    · obtain ⟨same, some⟩ := mem_flatMap_marked new
      rw [same]
      exact ⟨le_rfl, made.resolve_left some⟩

theorem Counted.step {session' : Session σ} {action : Option Action} (counted : Counted session)
    (ordered : Ordered board target session) (numbered : Numbered session)
    (step : (Session.lts board).step session action session') : Counted session' := by
  cases ordered.moves step with
  | call packet idle =>
      exact counted.call idle (fun reply member => (ordered.answered reply member).2) packet
  | take reading toHost =>
      exact counted.take (numbered.current (by rw [reading, Option.isSome_some])) reading toHost
  | timeOut reading => exact counted.timeOut (numbered.current reading) reading
  | answer rest sent ahead made =>
      have popped : Counted { session with toProgrammer := rest } :=
        ⟨counted.total, counted.fresh, counted.sorted, counted.early⟩
      exact popped.answer sent ahead made

/-! ### A call that reads its own reply -/

/-- A call that has read bytes of its own: no earlier one was late, and none was answered twice. -/
def Accounted (session : Session σ) : Prop :=
  ∀ answer ∈ session.answers, (∀ mark ∈ answer.taken, mark.2 = answer.call) →
    (∀ call ∈ session.late, answer.call ≤ call) ∧
      (∀ call < answer.call, (session.replies.map Reply.call).count call ≤ 1) ∧
      answer.call ≤ session.answering ∧ answer.call < session.calls

/-- When the current call reads a zero of its own, all earlier replies have been taken. -/
theorem Counted.accounts (counted : Counted session) (covers : Covers session) {rest : List Mark}
    {mark : Mark} (current : 0 < session.calls) (finished : session.finished = session.calls - 1)
    (reading : session.reading.isSome) (toHost : session.toHost = mark :: rest)
    (own : mark.2 = session.calls - 1) :
    session.late = [] ∧
      (∀ call < session.calls - 1, (session.replies.map Reply.call).count call ≤ 1) ∧
      session.calls - 1 ≤ session.answering := by
  have begun : session.calls - 1 ≤ session.answering := by
    rw [← own]
    exact (counted.early mark (by rw [toHost]; exact List.mem_cons_self)).1
  -- all that is on the line belongs to the current call
  have last (other : Mark) (member : other ∈ session.toHost) : other.2 = session.calls - 1 := by
    have made := (counted.early other member).2
    have sorted := counted.sorted
    rw [toHost] at member sorted
    rw [List.map_cons, List.pairwise_cons] at sorted
    rcases List.mem_cons.mp member with rfl | behind
    · exact own
    · have ahead := sorted.1 other.2 (List.mem_map_of_mem behind)
      omega
  have zeros : session.toHost.countP (·.1 = 0) = session.toHost.count (0, session.calls - 1) := by
    rw [List.count_eq_countP]
    refine List.countP_congr fun other member => ?_
    have same := last other member
    simp only [decide_eq_true_eq, beq_iff_eq]
    exact ⟨fun zero => Prod.ext zero same, fun equal => congrArg Prod.fst equal⟩
  have covered : ∀ call < session.calls - 1, call ∈ session.replies.map Reply.call := by
    rcases covers with ⟨none, -, -⟩ | ⟨tail, packets, begun'⟩
    · omega
    · exact fun call early => begun'.covered call (by omega)
  have total := counted.total
  rw [finished, zeros, ← counted.fresh reading] at total
  have least := le_length_of_covered covered
  rw [List.length_map] at least
  refine ⟨List.length_eq_zero_iff.mp (by omega), ?_, begun⟩
  exact once_of_covered covered (by rw [List.length_map]; omega)

theorem Accounted.take (accounted : Accounted session) (counted : Counted session)
    (covers : Covers session) {taken rest : List Mark} {mark : Mark} (current : 0 < session.calls)
    (reading : session.reading = some taken) (toHost : session.toHost = mark :: rest) :
    Accounted (session.take taken mark rest) := by
  unfold Session.take
  by_cases zero : mark.1 = 0
  · rw [if_neg (not_not.mpr zero)]
    intro answer member own
    rcases List.mem_append.mp member with before | new
    · exact accounted answer before own
    · rw [Option.mem_toList, Option.map_eq_some_iff] at new
      obtain ⟨packet, -, rfl⟩ := new
      obtain ⟨none, once, begun⟩ := counted.accounts covers current
        (by rw [Session.finished, reading]) (by rw [reading, Option.isSome_some]) toHost
        (own mark (List.mem_append_right _ (List.mem_singleton.mpr rfl)))
      refine ⟨fun call late => ?_, once, begun, by show session.calls - 1 < session.calls; omega⟩
      rw [show session.late = [] from none] at late
      cases late
  · rw [if_pos zero]
    exact accounted

/-- What has been answered before a call is not answered behind it. -/
theorem Accounted.answer (accounted : Accounted session) {prog' : Programmer σ} {call : Nat}
    {payloads : List (List Byte)}
    (sent : prog'.sent = session.programmer.sent ++ payloads.map frameOf)
    (ahead : session.answering ≤ call) : Accounted (session.answer call prog') := by
  rw [session.answer_eq call sent]
  intro answer member own
  obtain ⟨onTime, once, begun, made⟩ := accounted answer member own
  refine ⟨onTime, fun earlier below => ?_, begun.trans ahead, made⟩
  have behind : earlier ∉ payloads.map fun _ => call := by
    intro member
    obtain ⟨payload, -, same⟩ := List.mem_map.mp member
    omega
  show ((session.replies ++ payloads.map _).map Reply.call).count earlier ≤ 1
  rw [List.map_append, List.map_map, List.count_append]
  exact (Nat.add_le_add (once earlier below) (List.count_eq_zero_of_not_mem behind).le)

theorem Accounted.step {session' : Session σ} {action : Option Action}
    (accounted : Accounted session) (ordered : Ordered board target session)
    (numbered : Numbered session) (covers : Covers session) (counted : Counted session)
    (step : (Session.lts board).step session action session') : Accounted session' := by
  cases ordered.moves step with
  | call packet idle =>
      intro answer member own
      obtain ⟨onTime, once, begun, made⟩ := accounted answer member own
      exact ⟨onTime, once, begun, Nat.lt_succ_of_lt made⟩
  | take reading toHost =>
      exact accounted.take counted covers
        (numbered.current (by rw [reading, Option.isSome_some])) reading toHost
  | timeOut reading =>
      intro answer member own
      obtain ⟨onTime, once, begun, made⟩ := accounted answer member own
      refine ⟨fun call late => ?_, once, begun, made⟩
      rcases List.mem_append.mp late with before | new
      · exact onTime call before
      · rw [List.mem_singleton.mp new]
        exact Nat.le_sub_one_of_lt made
  | answer rest sent ahead made =>
      have popped : Accounted { session with toProgrammer := rest } := accounted
      exact popped.answer sent ahead

/-! ### All together -/

/-- What holds in every session. -/
structure Invariant (board : Board σ) (target : σ) (session : Session σ) : Prop where
  ordered : Ordered board target session
  numbered : Numbered session
  covers : Covers session
  counted : Counted session
  accounted : Accounted session

theorem session_invariant {actions : List Action}
    (run : (Session.lts board).Trace (Session.boot target) actions session) :
    Invariant board target session := by
  have keeps (one : Session σ) (action : Option Action) (two : Session σ)
      (before : Invariant board target one) (step : (Session.lts board).step one action two) :
      Invariant board target two :=
    ⟨before.ordered.step step, before.numbered.step before.ordered step,
      before.covers.step before.ordered step,
      before.counted.step before.ordered before.numbered step,
      before.accounted.step before.ordered before.numbered before.covers before.counted step⟩
  exact Lts.Trace.invariant keeps run
    ⟨.boot, .boot, .inl ⟨rfl, rfl, rfl⟩, .boot, fun _ none => nomatch none⟩

end Swagger.Line
