/-
**A session of host and programmer.**

The host and the programmer, with a byte channel in each direction. The host makes one call of
`executeCmdQueue` after the other: it writes a packet, and reads until a zero arrives or the wait
for the next byte times out, which may happen at any point. The programmer reads and runs whenever
it likes. Every byte carries, as ghost state, the call it belongs to; a reply belongs to the call of
the byte the programmer has read last.

The host's steps are the rounds of the loop of `readPacket` (`readPacket_received`,
`readPacket_timesOut`). The programmer answers the calls in order, whatever happens
(`Ordered.step`), so a step of either does one of four things (`Session.Moves`).
-/

import Swagger.Firmware.Safety
import Swagger.Host.CommandQueue

namespace Swagger.Line

open Library Firmware Host

/-! ### Sessions -/

/-- A byte on the line, and the call it belongs to. -/
abbrev Mark := Byte × Nat

/-- The bytes of one call. -/
def marked (call : Nat) (bytes : List Byte) : List Mark := bytes.map fun byte => (byte, call)

/-- A reply of the programmer: the call whose packet it answers, and its frame. -/
structure Reply where
  call : Nat
  frame : List Byte

def Reply.bytes (reply : Reply) : List Mark := marked reply.call reply.frame

/-- A read that has succeeded: the call it is part of, the bytes it has taken off the line, and the
packet it has put into `g_resultQueue`. -/
structure Answer where
  call : Nat
  taken : List Mark
  packet : List Byte

/-- What has been taken is a whole reply to the call. -/
def Answer.Matches (replies : List Reply) (answer : Answer) : Prop :=
  ∃ reply ∈ replies, reply.call = answer.call ∧ answer.taken = reply.bytes ∧
    reply.frame = encode answer.packet

/-- The host, the channels and the programmer. `reading` are the bytes that the current call has
taken, `late` the calls whose read has timed out. -/
structure Session (σ : Type) where
  calls : Nat
  reading : Option (List Mark)
  toProgrammer : List Mark
  programmer : Programmer σ
  answering : Nat
  toHost : List Mark
  replies : List Reply
  answers : List Answer
  late : List Nat

/-- A step of a session. -/
inductive Action
  | call (packet : List Byte)
  | hostReads
  | timesOut
  | programmerReads
  | programmerRuns

/-- What `readPacket` makes of the bytes it has taken. -/
def received (taken : List Mark) : Option (List Byte) :=
  let read := HardwareInterface.readPacket []
    { isOpen := true
      incoming := taken.map fun mark => .byte mark.1
      writes := []
      sent := []
      lastError := "" }
  if read.1 then some read.2.1 else none

namespace Session

variable {σ : Type}

def boot (target : σ) : Session σ where
  calls := 0
  reading := none
  toProgrammer := []
  programmer := Programmer.boot target
  answering := 0
  toHost := []
  replies := []
  answers := []
  late := []

/-- `writePacket`, and the start of `readPacket` with an empty vector. -/
def call (packet : List Byte) (session : Session σ) : Session σ :=
  { session with
    calls := session.calls + 1
    reading := some []
    toProgrammer := session.toProgrammer ++ marked session.calls (encode packet) }

/-- One round of the loop of `readPacket`: it ends with a zero. -/
def take (taken : List Mark) (mark : Mark) (rest : List Mark) (session : Session σ) : Session σ :=
  if mark.1 ≠ 0 then { session with reading := some (taken ++ [mark]), toHost := rest }
  else
    let answer := (received (taken ++ [mark])).map fun packet =>
      { call := session.calls - 1, taken := taken ++ [mark], packet : Answer }
    { session with
      reading := none
      toHost := rest
      answers := session.answers ++ answer.toList }

/-- The read of the current call times out. -/
def timeOut (session : Session σ) : Session σ :=
  { session with reading := none, late := session.late ++ [session.calls - 1] }

/-- The programmer has moved on; what it has sent answers the call. -/
def answer (call : Nat) (prog : Programmer σ) (session : Session σ) : Session σ :=
  let fresh := (prog.sent.drop session.programmer.sent.length).map fun frame =>
    { call, frame : Reply }
  { session with
    programmer := prog
    answering := call
    replies := session.replies ++ fresh
    toHost := session.toHost ++ fresh.flatMap Reply.bytes }

/-- The steps of a session. -/
def lts (board : Board σ) : Lts (Session σ) Action where
  step session action session' :=
    match action with
    | some (.call packet) => session.reading = none ∧ session' = session.call packet
    | some .hostReads =>
        ∃ taken mark rest, session.reading = some taken ∧ session.toHost = mark :: rest ∧
          session' = session.take taken mark rest
    | some .timesOut => session.reading.isSome ∧ session' = session.timeOut
    | some .programmerReads =>
        ∃ byte call rest prog', session.toProgrammer = (byte, call) :: rest ∧
          (Programmer.lts board).step session.programmer (some byte) prog' ∧
          session' = { session with toProgrammer := rest }.answer call prog'
    | some .programmerRuns =>
        ∃ prog', (Programmer.lts board).step session.programmer none prog' ∧
          session' = session.answer session.answering prog'
    | none => False

end Session

section Invariants

variable {σ : Type} {board : Board σ} {target : σ} {session : Session σ}

/-! ### The programmer in a session -/

theorem encode_frame (payload : List Byte) : encode payload = frameOf payload := encode_eq payload

/-- A programmer that can be reached sends frames. -/
theorem step_sends {prog prog' : Programmer σ} {bytes : List Byte} {label : Option Byte}
    (run : (Programmer.lts board).Trace (Programmer.boot target) bytes prog)
    (step : (Programmer.lts board).step prog label prog') :
    ∃ payloads : List (List Byte), prog'.sent = prog.sent ++ payloads.map frameOf := by
  obtain ⟨device, -, related⟩ := reachable_refines run
  obtain ⟨device', run', related'⟩ := step_refines _ _ _ _ related step
  obtain ⟨payloads, sent⟩ := Device.run_sent run'
  exact ⟨payloads, by rw [related'.data.sent, related.data.sent, sent]⟩

/-- A programmer that waits sends nothing on its own, and goes on waiting. -/
theorem waiting_silent {prog prog' : Programmer σ} (waiting : prog.Waiting)
    (step : (Programmer.lts board).step prog none prog') :
    prog'.Waiting ∧ prog'.sent = prog.sent := by
  rcases Programmer.step_cases step with ⟨-, -, control, waiting', rfl⟩ |
    ⟨_, impossible, -, -⟩ | ⟨cursor, -, here, -⟩
  · exact ⟨waiting', rfl⟩
  · cases impossible
  · rw [Programmer.Waiting, here] at waiting
    cases waiting

/-- The session when the programmer has moved on and answered a call with some payloads. -/
def Session.moved (rest : List Mark) (prog' : Programmer σ) (answering call : Nat)
    (payloads : List (List Byte)) (session : Session σ) : Session σ :=
  { session with
    toProgrammer := rest
    programmer := prog'
    answering
    replies := session.replies ++ payloads.map fun payload => { call, frame := frameOf payload }
    toHost := session.toHost ++ payloads.flatMap fun payload => marked call (frameOf payload) }

/-- Whatever has been sent meanwhile are frames that answer the call. -/
theorem Session.answer_eq (session : Session σ) {prog' : Programmer σ}
    {payloads : List (List Byte)} (call : Nat)
    (sent : prog'.sent = session.programmer.sent ++ payloads.map frameOf) :
    session.answer call prog' = session.moved session.toProgrammer prog' call call payloads := by
  rw [Session.answer, sent, List.drop_left, List.map_map, List.flatMap_map]
  rfl

/-! ### The programmer answers in order -/

/-- The calls in the channel to the programmer and those of its replies are in order: it has
answered no call behind the one it reads, and reads no call that has not been made. -/
structure Ordered (board : Board σ) (target : σ) (session : Session σ) : Prop where
  reached : ∃ bytes, (Programmer.lts board).Trace (Programmer.boot target) bytes session.programmer
  started : session.programmer.Waiting ∨ session.answering < session.calls
  behind : session.answering ≤ session.calls
  written : ∀ mark ∈ session.toProgrammer, session.answering ≤ mark.2 ∧ mark.2 < session.calls
  inOrder : (session.toProgrammer.map Prod.snd).Pairwise (· ≤ ·)
  frames : ∀ reply ∈ session.replies, ∃ payload, reply.frame = frameOf payload
  answered : ∀ reply ∈ session.replies,
    reply.call ≤ session.answering ∧ reply.call < session.calls
  sorted : (session.replies.map Reply.call).Pairwise (· ≤ ·)

theorem mem_marked {call : Nat} {bytes : List Byte} {mark : Mark}
    (member : mark ∈ marked call bytes) : mark.2 = call := by
  obtain ⟨byte, -, rfl⟩ := List.mem_map.mp member
  rfl

/-- A list in order stays so when equal values behind all others are added. -/
theorem pairwise_append_le {list more : List Nat} (last : Nat) (sorted : list.Pairwise (· ≤ ·))
    (behind : ∀ value ∈ list, value ≤ last) (same : ∀ value ∈ more, value = last) :
    (list ++ more).Pairwise (· ≤ ·) := by
  refine List.pairwise_append.mpr ⟨sorted, ?_, fun one first two second => ?_⟩
  · exact List.pairwise_of_forall_mem_list fun one first two second => by
      rw [same one first, same two second]
  · rw [same two second]
    exact behind one first

theorem Ordered.boot : Ordered board target (Session.boot target) where
  reached := ⟨[], .refl _⟩
  started := .inl rfl
  behind := le_rfl
  written _ none := nomatch none
  inOrder := .nil
  frames _ none := nomatch none
  answered _ none := nomatch none
  sorted := .nil

theorem Ordered.call (ordered : Ordered board target session) (packet : List Byte) :
    Ordered board target (session.call packet) where
  reached := ordered.reached
  started := ordered.started.imp_right Nat.lt_succ_of_lt
  behind := Nat.le_succ_of_le ordered.behind
  written mark member := by
    rcases List.mem_append.mp member with before | fresh
    · obtain ⟨behind, made⟩ := ordered.written mark before
      exact ⟨behind, Nat.lt_succ_of_lt made⟩
    · rw [mem_marked fresh]
      exact ⟨ordered.behind, Nat.lt_succ_self _⟩
  inOrder := by
    rw [Session.call, List.map_append]
    refine pairwise_append_le session.calls ordered.inOrder (fun value member => ?_)
      fun value member => ?_
    · obtain ⟨mark, before, rfl⟩ := List.mem_map.mp member
      exact (ordered.written mark before).2.le
    · obtain ⟨mark, fresh, rfl⟩ := List.mem_map.mp member
      exact mem_marked fresh
  frames := ordered.frames
  answered reply member := by
    obtain ⟨behind, made⟩ := ordered.answered reply member
    exact ⟨behind, Nat.lt_succ_of_lt made⟩
  sorted := ordered.sorted

/-- What the host reads does not concern the programmer. -/
theorem Ordered.host (ordered : Ordered board target session) (reading : Option (List Mark))
    (toHost : List Mark) (answers : List Answer) (late : List Nat) :
    Ordered board target { session with reading, toHost, answers, late } :=
  ⟨ordered.reached, ordered.started, ordered.behind, ordered.written, ordered.inOrder,
    ordered.frames, ordered.answered, ordered.sorted⟩

/-- The programmer moves on, and answers a call that is not behind. -/
theorem Ordered.answer (ordered : Ordered board target session) {prog' : Programmer σ}
    {bytes : List Byte} {call : Nat} {payloads : List (List Byte)}
    (run : (Programmer.lts board).Trace (Programmer.boot target) bytes prog')
    (sent : prog'.sent = session.programmer.sent ++ payloads.map frameOf)
    (ahead : session.answering ≤ call) (behind : call ≤ session.calls)
    (started : prog'.Waiting ∧ payloads = [] ∨ call < session.calls)
    (left : ∀ mark ∈ session.toProgrammer, call ≤ mark.2) :
    Ordered board target (session.answer call prog') := by
  rw [session.answer_eq call sent]
  have fresh (reply : Reply)
      (member : reply ∈ payloads.map fun payload => { call, frame := frameOf payload }) :
      reply.call = call ∧ ∃ payload, reply.frame = frameOf payload := by
    obtain ⟨payload, -, rfl⟩ := List.mem_map.mp member
    exact ⟨rfl, payload, rfl⟩
  refine ⟨⟨bytes, run⟩, started.imp_left And.left, behind, fun mark member => ?_, ordered.inOrder,
    fun reply member => ?_, fun reply member => ?_, ?_⟩
  · exact ⟨left mark member, (ordered.written mark member).2⟩
  · rcases List.mem_append.mp member with before | new
    · exact ordered.frames reply before
    · exact (fresh reply new).2
  · rcases List.mem_append.mp member with before | new
    · obtain ⟨early, made⟩ := ordered.answered reply before
      exact ⟨early.trans ahead, made⟩
    · rcases started with ⟨-, rfl⟩ | made
      · cases new
      · rw [(fresh reply new).1]
        exact ⟨le_rfl, made⟩
  · rw [Session.moved, List.map_append]
    refine pairwise_append_le call ordered.sorted (fun value member => ?_) fun value member => ?_
    · obtain ⟨reply, before, rfl⟩ := List.mem_map.mp member
      exact (ordered.answered reply before).1.trans ahead
    · obtain ⟨reply, new, rfl⟩ := List.mem_map.mp member
      exact (fresh reply new).1

/-- Every step keeps the order. -/
theorem Ordered.step {session' : Session σ} {action : Option Action}
    (ordered : Ordered board target session)
    (step : (Session.lts board).step session action session') : Ordered board target session' := by
  obtain ⟨bytes, run⟩ := ordered.reached
  cases action with
  | none => exact step.elim
  | some action =>
      cases action with
      | call packet =>
          obtain ⟨-, rfl⟩ := step
          exact ordered.call packet
      | hostReads =>
          obtain ⟨taken, mark, rest, -, -, rfl⟩ := step
          unfold Session.take
          split_ifs
          · exact ordered.host _ _ _ _
          · exact ordered.host _ _ _ _
      | timesOut =>
          obtain ⟨-, rfl⟩ := step
          exact ordered.host _ _ _ _
      | programmerReads =>
          obtain ⟨byte, call, rest, prog', queue, reads, rfl⟩ := step
          obtain ⟨payloads, sent⟩ := step_sends run reads
          obtain ⟨ahead, made⟩ :=
            ordered.written (byte, call) (by rw [queue]; exact List.mem_cons_self)
          have inOrder := ordered.inOrder
          rw [queue, List.map_cons, List.pairwise_cons] at inOrder
          have popped : Ordered board target { session with toProgrammer := rest } :=
            ⟨ordered.reached, ordered.started, ordered.behind,
              fun mark member => ordered.written mark (by rw [queue]; exact .tail _ member),
              inOrder.2, ordered.frames, ordered.answered, ordered.sorted⟩
          exact popped.answer (run.trans (Lts.Trace.single reads)) sent ahead made.le (.inr made)
            fun mark member => inOrder.1 mark.2 (List.mem_map_of_mem member)
      | programmerRuns =>
          obtain ⟨prog', runs, rfl⟩ := step
          obtain ⟨payloads, sent⟩ := step_sends run runs
          refine ordered.answer (run.trans (Lts.Trace.single runs)) sent le_rfl ordered.behind ?_
            fun mark member => (ordered.written mark member).1
          rcases ordered.started with waiting | made
          · obtain ⟨waiting', same⟩ := waiting_silent waiting runs
            refine .inl ⟨waiting', ?_⟩
            rw [same, List.self_eq_append_right] at sent
            exact List.map_eq_nil_iff.mp sent
          · exact .inr made

/-- What a step does to a session. A step of the programmer, whether it reads a byte or not, answers
a call that is not behind. -/
inductive Session.Moves (session : Session σ) : Session σ → Prop
  | call (packet : List Byte) (idle : session.reading = none) : Moves session (session.call packet)
  | take {taken rest : List Mark} {mark : Mark} (reading : session.reading = some taken)
      (toHost : session.toHost = mark :: rest) : Moves session (session.take taken mark rest)
  | timeOut (reading : session.reading.isSome) : Moves session session.timeOut
  | answer (rest : List Mark) {call : Nat} {prog' : Programmer σ} {payloads : List (List Byte)}
      (sent : prog'.sent = session.programmer.sent ++ payloads.map frameOf)
      (ahead : session.answering ≤ call) (made : payloads = [] ∨ call < session.calls) :
      Moves session (Session.answer call prog' { session with toProgrammer := rest })

theorem Ordered.moves {session' : Session σ} {action : Option Action}
    (ordered : Ordered board target session)
    (step : (Session.lts board).step session action session') : session.Moves session' := by
  obtain ⟨bytes, run⟩ := ordered.reached
  cases action with
  | none => exact step.elim
  | some action =>
      cases action with
      | call packet =>
          obtain ⟨idle, rfl⟩ := step
          exact .call packet idle
      | hostReads =>
          obtain ⟨taken, mark, rest, reading, toHost, rfl⟩ := step
          exact .take reading toHost
      | timesOut =>
          obtain ⟨reading, rfl⟩ := step
          exact .timeOut reading
      | programmerReads =>
          obtain ⟨byte, call, rest, prog', queue, reads, rfl⟩ := step
          obtain ⟨payloads, sent⟩ := step_sends run reads
          obtain ⟨ahead, made⟩ :=
            ordered.written (byte, call) (by rw [queue]; exact List.mem_cons_self)
          exact .answer rest sent ahead (.inr made)
      | programmerRuns =>
          obtain ⟨prog', runs, rfl⟩ := step
          obtain ⟨payloads, sent⟩ := step_sends run runs
          refine .answer session.toProgrammer sent le_rfl ?_
          rcases ordered.started with waiting | made
          · obtain ⟨-, same⟩ := waiting_silent waiting runs
            rw [same, List.self_eq_append_right] at sent
            exact .inl (List.map_eq_nil_iff.mp sent)
          · exact .inr made

/-! ### The bytes of a reply -/

/-- The bytes of a reply are those of its payload, and a zero. -/
theorem marked_frameOf (call : Nat) (payload : List Byte) :
    marked call (frameOf payload) = marked call (cobs.stuff [] payload) ++ [(0, call)] := by
  rw [marked, frameOf, List.map_append]
  rfl

theorem marked_free (call : Nat) (payload : List Byte) :
    ∀ mark ∈ marked call (cobs.stuff [] payload), ¬ mark.1 = 0 := by
  intro mark member zero
  obtain ⟨byte, inside, rfl⟩ := List.mem_map.mp member
  exact zero_notMem_stuff payload (zero ▸ inside)

/-- A whole reply is received as its payload. -/
theorem received_frame (call : Nat) (payload : List Byte) :
    received (marked call (frameOf payload)) = some payload := by
  have read := HardwareInterface.readPacket_encode payload [] []
    { isOpen := true, incoming := [], writes := [], sent := [], lastError := "" }
  rw [encode_frame, List.append_nil] at read
  rw [received, marked, List.map_map]
  have bytes : ((fun mark : Mark => RxEvent.byte mark.1) ∘ fun byte => (byte, call)) = .byte := rfl
  simp only [bytes, read]
  rfl

/-! ### The host's read -/

theorem zero_notMem_bytes {marks : List Mark} (free : ∀ mark ∈ marks, ¬ mark.1 = 0) :
    (0 : Byte) ∉ marks.map Prod.fst := by
  intro member
  obtain ⟨mark, inside, zero⟩ := List.mem_map.mp member
  exact free mark inside zero

/-- On a port that delivers the line up to a zero, `readPacket` takes that much, and returns what
the session has received. -/
theorem readPacket_received {hw : HardwareInterface} (isOpen : hw.isOpen = true)
    {front : List Mark} {mark : Mark} (free : ∀ mark ∈ front, ¬ mark.1 = 0) (zero : mark.1 = 0)
    (later : List RxEvent)
    (incoming : hw.incoming = ((front ++ [mark]).map Prod.fst).map .byte ++ later) :
    (hw.readPacket []).2.2.incoming = later ∧
      received (front ++ [mark]) =
        if (hw.readPacket []).1 then some (hw.readPacket []).2.1 else none := by
  have taken (rest : List RxEvent) :
      HardwareInterface.receive (((front ++ [mark]).map Prod.fst).map .byte ++ rest) [] =
        (some (front.map Prod.fst ++ [0]), rest) := by
    rw [List.map_append, List.map_singleton, zero]
    exact HardwareInterface.receive_frame _ [] rest (zero_notMem_bytes free)
  have alone := taken []
  rw [List.append_nil] at alone
  have bytes : (front ++ [mark]).map (fun mark => RxEvent.byte mark.1) =
      ((front ++ [mark]).map Prod.fst).map .byte := List.map_map.symm
  rw [received, HardwareInterface.readPacket, HardwareInterface.readPacket, isOpen, incoming]
  simp only [bytes, alone, taken, Bool.true_eq_false, if_false]
  by_cases decodes : (decode (front.map Prod.fst ++ [0]).dropLast).length > 0
  · simp only [if_pos decodes]
    exact ⟨trivial, trivial⟩
  · simp only [if_neg decodes]
    exact ⟨trivial, trivial⟩

/-- On a port that times out in front of a zero, `readPacket` fails, and what it has taken is
gone. -/
theorem readPacket_timesOut {hw : HardwareInterface} (isOpen : hw.isOpen = true)
    {taken : List Mark} (free : ∀ mark ∈ taken, ¬ mark.1 = 0) (later : List RxEvent)
    (incoming : hw.incoming = (taken.map Prod.fst).map .byte ++ .timeout :: later) :
    (hw.readPacket []).1 = false ∧ (hw.readPacket []).2.2.incoming = later := by
  have lost := HardwareInterface.receive_timeout _ [] later (zero_notMem_bytes free)
  rw [HardwareInterface.readPacket, isOpen, incoming, lost]
  exact ⟨rfl, rfl⟩

/-! ### Runs of a session -/

theorem Session.moved_moved (session : Session σ) {rest rest' : List Mark}
    {prog prog' : Programmer σ} {answering answering' call : Nat}
    {payloads payloads' : List (List Byte)} :
    (session.moved rest prog answering call payloads).moved rest' prog' answering' call payloads' =
      session.moved rest' prog' answering' call (payloads ++ payloads') := by
  simp [Session.moved]

/-- A run of the programmer over the bytes of a call, in a session. -/
theorem Session.programs {prog prog' : Programmer σ} {bytes : List Byte}
    (run : (Programmer.lts board).Trace prog bytes prog') (session : Session σ)
    (programmer : session.programmer = prog)
    (reached : ∃ before, (Programmer.lts board).Trace (Programmer.boot target) before prog)
    (call : Nat) (rest : List Mark) (queue : session.toProgrammer = marked call bytes ++ rest)
    (answers : prog.Waiting ∨ session.answering = call) :
    ∃ actions answering payloads, prog'.sent = prog.sent ++ payloads.map frameOf ∧
      (Session.lts board).Trace session actions
        (session.moved rest prog' answering call payloads) := by
  induction run generalizing session with
  | refl prog =>
      refine ⟨[], session.answering, [], (List.append_nil _).symm, ?_⟩
      rw [marked, List.map_nil, List.nil_append] at queue
      simp only [Session.moved, List.map_nil, List.flatMap_nil, List.append_nil, ← queue,
        ← programmer]
      exact .refl session
  | @silent prog middle last labels step _ ih =>
      subst programmer
      obtain ⟨before, reach⟩ := reached
      -- a programmer that waits sends nothing, and one that interprets answers the call
      have sends : ∃ payloads : List (List Byte),
          middle.sent = session.programmer.sent ++ payloads.map frameOf ∧
            (middle.Waiting ∧ payloads = [] ∨ session.answering = call) := by
        rcases answers with waiting | same
        · obtain ⟨waiting', sent⟩ := waiting_silent waiting step
          exact ⟨[], by rw [sent]; exact (List.append_nil _).symm, .inl ⟨waiting', rfl⟩⟩
        · obtain ⟨payloads, sent⟩ := step_sends reach step
          exact ⟨payloads, sent, .inr same⟩
      obtain ⟨payloads, sent, answers'⟩ := sends
      have first : (Session.lts board).step session (some .programmerRuns)
          (session.answer session.answering middle) := ⟨middle, step, rfl⟩
      have moved : session.answer session.answering middle =
          session.moved session.toProgrammer middle session.answering call payloads := by
        rw [session.answer_eq session.answering sent]
        rcases answers' with ⟨-, rfl⟩ | rfl
        · rfl
        · rfl
      rw [moved] at first
      obtain ⟨actions, answering, payloads', sent', behind⟩ :=
        ih (session.moved session.toProgrammer middle session.answering call payloads) rfl
          ⟨_, reach.trans (Lts.Trace.single step)⟩ queue (answers'.imp_left And.left)
      rw [Session.moved_moved] at behind
      exact ⟨_ :: actions, answering, payloads ++ payloads',
        by rw [sent', sent, List.map_append, List.append_assoc], .visible first behind⟩
  | @visible prog middle last label labels step _ ih =>
      subst programmer
      obtain ⟨before, reach⟩ := reached
      obtain ⟨payloads, sent⟩ := step_sends reach step
      have first : (Session.lts board).step session (some .programmerReads)
          (session.moved (marked call labels ++ rest) middle call call payloads) :=
        ⟨label, call, _, middle, queue, step,
          (Session.answer_eq { session with toProgrammer := marked call labels ++ rest } call
            sent).symm⟩
      obtain ⟨actions, answering, payloads', sent', behind⟩ :=
        ih (session.moved (marked call labels ++ rest) middle call call payloads) rfl
          ⟨_, reach.trans (Lts.Trace.single step)⟩ rfl (.inr rfl)
      rw [Session.moved_moved] at behind
      exact ⟨_ :: actions, answering, payloads ++ payloads',
        by rw [sent', sent, List.map_append, List.append_assoc], .visible first behind⟩

/-- The host reads up to a zero. -/
theorem Session.reads (board : Board σ) (front taken : List Mark) (mark : Mark) (rest : List Mark)
    (session : Session σ) (reading : session.reading = some taken)
    (toHost : session.toHost = front ++ mark :: rest) (free : ∀ mark ∈ front, ¬ mark.1 = 0)
    (zero : mark.1 = 0) :
    ∃ actions, (Session.lts board).Trace session actions
      { session with
        reading := none
        toHost := rest
        answers := session.answers ++ ((received (taken ++ front ++ [mark])).map fun packet =>
          { call := session.calls - 1, taken := taken ++ front ++ [mark],
            packet : Answer }).toList } := by
  induction front generalizing taken session with
  | nil =>
      have step : (Session.lts board).step session (some .hostReads)
          (session.take taken mark rest) := ⟨taken, mark, rest, reading, toHost, rfl⟩
      rw [Session.take, if_neg (not_not.mpr zero)] at step
      rw [List.append_nil]
      exact ⟨[.hostReads], Lts.Trace.single step⟩
  | cons head front ih =>
      have nonzero := free head List.mem_cons_self
      have step : (Session.lts board).step session (some .hostReads)
          { session with reading := some (taken ++ [head]), toHost := front ++ mark :: rest } :=
        ⟨taken, head, _, reading, toHost, by rw [Session.take, if_pos nonzero]; rfl⟩
      have free' (mark : Mark) (member : mark ∈ front) : ¬ mark.1 = 0 :=
        free mark (List.mem_cons_of_mem _ member)
      obtain ⟨actions, behind⟩ := ih (taken ++ [head])
        { session with reading := some (taken ++ [head]), toHost := front ++ mark :: rest } rfl rfl
        free'
      rw [← List.append_cons] at behind
      exact ⟨_ :: actions, .visible step behind⟩

/-- The host reads a whole reply. -/
theorem Session.reads_frame (board : Board σ) (call : Nat) (payload : List Byte) (rest : List Mark)
    (session : Session σ) (reading : session.reading = some [])
    (toHost : session.toHost = marked call (frameOf payload) ++ rest) :
    ∃ actions, (Session.lts board).Trace session actions
      { session with
        reading := none
        toHost := rest
        answers := session.answers ++ [{ call := session.calls - 1,
                                         taken := marked call (frameOf payload)
                                         packet := payload }] } := by
  rw [marked_frameOf, List.append_assoc, List.singleton_append] at toHost
  obtain ⟨actions, run⟩ := session.reads board _ [] (0, call) rest reading toHost
    (marked_free call payload) rfl
  rw [List.nil_append, ← marked_frameOf, received_frame] at run
  exact ⟨actions, run⟩

end Invariants

end Swagger.Line
