/-
**Whose reply the host reads.**

There is nothing in a packet that says to which call it belongs, so a reply that comes too late is
taken for the answer to the next call (`answers_matched_fails`). A call that succeeds has read a
reply to its own packet exactly when no earlier read has timed out and no earlier call has got two
replies (`answers_matched_iff`): then the host has taken one reply in every call (`Numbered`), and
conversely every earlier call is answered before it, so that a call can only reach its own replies
when the earlier ones have taken all of theirs (`Accounted`).
-/

import Swagger.Firmware.Results
import Swagger.Line.Accounting

namespace Swagger.Line

open Library Firmware Host

variable {σ : Type} {board : Board σ} {target : σ} {session : Session σ}

/-- A call that is in time reads the reply of its number; and the replies are in order, so that is a
reply to it if every earlier call has got one reply at most. -/
theorem matches_of_onTime (ordered : Ordered board target session) (numbered : Numbered session)
    {answer : Answer} (member : answer ∈ session.answers)
    (onTime : ∀ call ∈ session.late, answer.call ≤ call)
    (once : ∀ call < answer.call, (session.replies.map Reply.call).count call ≤ 1) :
    answer.Matches session.replies := by
  obtain ⟨reply, here, early, taken, frame⟩ := numbered.kept answer member onTime
  have owner : (session.replies.map Reply.call)[answer.call]? = some reply.call := by
    rw [List.getElem?_map, here, Option.map_some]
  have late := le_of_sorted_of_once ordered.sorted once le_rfl owner
  exact ⟨reply, List.mem_of_getElem? here, le_antisymm early late, taken, frame⟩

/-- A call that succeeds has read a reply to its own packet exactly when no earlier read has timed
out and no earlier call has got a second reply. -/
theorem answers_matched_iff (board : Board σ) (target : σ) (actions : List Action)
    (session : Session σ)
    (run : (Session.lts board).Trace (Session.boot target) actions session) (answer : Answer)
    (member : answer ∈ session.answers) :
    answer.Matches session.replies ↔
      (∀ call ∈ session.late, answer.call ≤ call) ∧
        ∀ call < answer.call, (session.replies.map Reply.call).count call ≤ 1 := by
  have holds := session_invariant run
  constructor
  · rintro ⟨reply, -, own, taken, -⟩
    have marks (mark : Mark) (inside : mark ∈ answer.taken) : mark.2 = answer.call := by
      rw [taken] at inside
      rw [mem_marked inside, own]
    obtain ⟨onTime, once, -, -⟩ := holds.accounted answer member marks
    exact ⟨onTime, once⟩
  · rintro ⟨onTime, once⟩
    exact matches_of_onTime holds.ordered holds.numbered member onTime once

/-! ### Two calls -/

/-- The session after a call that has been answered in time. -/
def Session.exchanged (prog' : Programmer σ) (answering : Nat) (payload : List Byte)
    (session : Session σ) : Session σ :=
  { session with
    calls := session.calls + 1
    reading := none
    toProgrammer := []
    programmer := prog'
    answering
    toHost := []
    replies := session.replies ++ [{ call := session.calls, frame := frameOf payload }]
    answers := session.answers ++ [{ call := session.calls
                                     taken := marked session.calls (frameOf payload)
                                     packet := payload }] }

/-- A call that is answered in time, from a quiet line to a quiet line. -/
theorem Session.exchange (session : Session σ) {prog' : Programmer σ} {packet payload : List Byte}
    (idle : session.reading = none) (empty : session.toProgrammer = [])
    (quiet : session.toHost = []) (waiting : session.programmer.Waiting)
    (reached : ∃ before,
      (Programmer.lts board).Trace (Programmer.boot target) before session.programmer)
    (run : (Programmer.lts board).Trace session.programmer (encode packet) prog')
    (sent : prog'.sent = session.programmer.sent ++ [frameOf payload]) :
    ∃ actions answering, (Session.lts board).Trace session actions
      (session.exchanged prog' answering payload) := by
  have called : (Session.lts board).step session (some (.call packet)) (session.call packet) :=
    ⟨idle, rfl⟩
  have queue : (session.call packet).toProgrammer = marked session.calls (encode packet) ++ [] := by
    rw [Session.call, empty, List.append_nil, List.nil_append]
  obtain ⟨actions, answering, payloads, sent', answered⟩ :=
    Session.programs run (session.call packet) rfl reached session.calls [] queue (.inl waiting)
  have one : payloads = [payload] :=
    List.map_injective_iff.mpr frameOf_injective (List.append_cancel_left (sent'.symm.trans sent))
  rw [one] at answered
  obtain ⟨actions', read⟩ := Session.reads_frame board session.calls payload []
    ((session.call packet).moved [] prog' answering session.calls [payload]) rfl
    (by
      show session.toHost ++ _ = _
      rw [quiet, List.nil_append, List.flatMap_singleton, List.append_nil])
  exact ⟨_, answering, .visible called (answered.trans read)⟩

/-- The programmer answers a lone CONNECT, and is idle again. -/
theorem connect_answered {prog : Programmer Unit} (idle : prog.Idle) :
    ∃ prog' payload,
      (Programmer.lts (steadyBoard 0x2BA01477)).Trace prog
          (encode (packetBytes [.connect] none)) prog' ∧
        prog'.Idle ∧ prog'.sent = prog.sent ++ [frameOf payload] := by
  obtain ⟨prog', run, idle', sent⟩ := idle.run_packet (steadyBoard 0x2BA01477)
    (zero_notMem_stuff (packetBytes [.connect] none)) (by simp) (unstuff_stuff _) (by decide)
    (by decide) id
  rw [← encode_eq] at run
  exact ⟨prog', _, run, idle', sent⟩

/-- Two calls, each of which connects and reads its own reply. -/
theorem answers_matched_twice :
    ∃ actions session,
      (Session.lts (steadyBoard 0x2BA01477)).Trace (Session.boot ()) actions session ∧
        ∃ answer ∈ session.answers, answer.call = 1 ∧ answer.Matches session.replies := by
  obtain ⟨prog, payload, run, idle, sent⟩ := connect_answered (Programmer.boot_idle ())
  obtain ⟨prog', payload', run', idle', sent'⟩ := connect_answered idle
  obtain ⟨actions, answering, first⟩ :=
    Session.exchange (Session.boot ()) rfl rfl rfl rfl ⟨[], .refl _⟩ run sent
  obtain ⟨actions', answering', second⟩ :=
    Session.exchange ((Session.boot ()).exchanged prog answering payload) rfl rfl rfl idle.waiting
      ⟨_, run⟩ run' sent'
  refine ⟨_, _, first.trans second, _, List.mem_append_right _ (List.mem_singleton.mpr rfl), rfl,
    ?_⟩
  refine (answers_matched_iff (steadyBoard 0x2BA01477) () _ _ (first.trans second) _
    (List.mem_append_right _ (List.mem_singleton.mpr rfl))).mpr
    ⟨fun _ none => (nomatch none), fun call early => ?_⟩
  rw [Nat.lt_one_iff.mp early]
  exact le_rfl

/-- The first call times out before its reply comes; the second call reads that reply. -/
theorem answers_matched_fails :
    ¬ ∀ (board : Board Unit) (target : Unit) (actions : List Action) (session : Session Unit),
      (Session.lts board).Trace (Session.boot target) actions session →
      ∀ answer ∈ session.answers, answer.Matches session.replies := by
  intro claimed
  obtain ⟨prog, payload, run, -, sent⟩ := connect_answered (Programmer.boot_idle ())
  let packet := packetBytes [.connect] none
  let late := ((Session.boot ()).call packet).timeOut
  have called : (Session.lts (steadyBoard 0x2BA01477)).step (Session.boot ()) (some (.call packet))
      ((Session.boot ()).call packet) := ⟨rfl, rfl⟩
  have timedOut : (Session.lts (steadyBoard 0x2BA01477)).step ((Session.boot ()).call packet)
      (some .timesOut) late := ⟨rfl, rfl⟩
  obtain ⟨actions, answering, payloads, sent', answered⟩ :=
    Session.programs run late rfl ⟨[], .refl _⟩ 0 [] (List.append_nil _).symm (.inl rfl)
  have one : payloads = [payload] :=
    List.map_injective_iff.mpr frameOf_injective (List.append_cancel_left (sent'.symm.trans sent))
  rw [one] at answered
  let stale := late.moved [] prog answering 0 [payload]
  have again : (Session.lts (steadyBoard 0x2BA01477)).step stale (some (.call packet))
      (stale.call packet) := ⟨rfl, rfl⟩
  obtain ⟨actions', read⟩ := Session.reads_frame (steadyBoard 0x2BA01477) 0 payload []
    (stale.call packet) rfl
    (by
      show [] ++ List.flatMap _ _ = _
      rw [List.nil_append, List.flatMap_singleton, List.append_nil])
  have whole := Lts.Trace.visible called (.visible timedOut (answered.trans (.visible again read)))
  obtain ⟨reply, -, own, taken, -⟩ := claimed (steadyBoard 0x2BA01477) () _ _ whole _
    (List.mem_append_right _ (List.mem_singleton.mpr rfl))
  -- The zero that ends what the second call has taken is a byte of the first one's reply.
  have last : ((0 : Byte), 0) ∈ reply.bytes := by
    rw [← taken, marked_frameOf]
    exact List.mem_append_right _ (List.mem_singleton.mpr rfl)
  have first : 0 = reply.call := mem_marked last
  rw [own] at first
  exact Nat.zero_ne_one first

end Swagger.Line
