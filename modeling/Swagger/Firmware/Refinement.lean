/-
**The program refines the device.**

`Data` relates the arrays of the program to the lists of the device, `Refines` adds where the
program is. Every function of the program that writes succeeds on related states and leads to
related states, so no write is ever out of bounds, and a step of the program is a step of the
device (`step_refines`) and the other way round (`step_matched`).

The bounds are those of the arrays: `g_rxidx` counts the received bytes, `g_txidx` is one more than
the number of queued bytes, a decoded packet is at most as long as its frame, and a frame of at most
64 bytes needs 66 bytes of `encodebuffer`.
-/

import Swagger.Firmware.Device

namespace Swagger.Firmware

open Library

variable {σ : Type} {board : Board σ} {prog : Programmer σ} {device : Device σ}

/-! ### The relation -/

/-- The arrays hold the lists. -/
structure Data (prog : Programmer σ) (device : Device σ) : Prop where
  received : prog.rxbuffer.firstBytes prog.rxidx = device.received
  rxidx : prog.rxidx ≤ 64
  queued : ∃ place, prog.txbuffer.firstBytes prog.txidx = place :: device.queued
  txidx : prog.txidx ≤ 64
  target : prog.target = device.target
  sent : prog.sent = device.sent
  events : prog.events = device.events
  arrays : prog.arrays = device.arrays

/-- The packet under a cursor. -/
def Cursor.packet (cursor : Cursor) : Packet where
  memory := cursor.decodebuffer.cell
  decoded := cursor.decoded
  index := cursor.ptr

/-- `endptr` is computed from the decoded length, which fits `decodebuffer`. -/
structure Cursor.Bounded (board : Board σ) (cursor : Cursor) : Prop where
  decoded : cursor.decoded ≤ 64
  endptr : cursor.endptr =
    (board.decodebuffer + (BitVec.ofNat 32 cursor.decoded - 1).toNat) % 2 ^ 16

def Control.phase : Control → Phase
  | .outside | .receiving => .waiting
  | .interpreting cursor => .interpreting cursor.packet

/-- The program stands where the device does. A waiting device has queued nothing, an interpreting
one has received nothing of the next packet. -/
structure Refines (board : Board σ) (prog : Programmer σ) (device : Device σ) : Prop where
  data : Data prog device
  phase : device.phase = prog.control.phase
  idle : device.phase = .waiting → device.queued = []
  busy : ∀ cursor, prog.control = .interpreting cursor →
    device.received = [] ∧ cursor.Bounded board

theorem Data.txidx_eq (data : Data prog device) : prog.txidx = device.queued.length + 1 := by
  obtain ⟨place, queued⟩ := data.queued
  have length := congrArg List.length queued
  rwa [Buffer.length_firstBytes, List.length_cons] at length

theorem Data.rxidx_eq (data : Data prog device) : prog.rxidx = device.received.length := by
  rw [← data.received, Buffer.length_firstBytes]

/-- The data do not depend on where the two stand. -/
theorem Data.move (data : Data prog device) (control : Control) (phase : Phase) :
    Data { prog with control } { device with phase } :=
  ⟨data.received, data.rxidx, data.queued, data.txidx, data.target, data.sent, data.events,
    data.arrays⟩

theorem Data.access (data : Data prog device) (target : σ) :
    Data { prog with target } { device with target } :=
  ⟨data.received, data.rxidx, data.queued, data.txidx, rfl, data.sent, data.events, data.arrays⟩

theorem Data.fetch (data : Data prog device) {events : List Event} {packet : Packet} {count : Nat}
    (noted : events = prog.events ++ packet.fetches count) :
    Data { prog with events } (device.fetch packet count) :=
  ⟨data.received, data.rxidx, data.queued, data.txidx, data.target, data.sent,
    by rw [noted, data.events]; rfl, data.arrays⟩

/-! ### Where the two stand -/

theorem Refines.waits (related : Refines board prog device) (waiting : device.phase = .waiting) :
    prog.control = .outside ∨ prog.control = .receiving := by
  have phase := related.phase
  rw [waiting] at phase
  cases here : prog.control with
  | outside => exact .inl rfl
  | receiving => exact .inr rfl
  | interpreting cursor =>
      rw [here] at phase
      cases phase

theorem Refines.interprets (related : Refines board prog device) {packet : Packet}
    (interpreting : device.phase = .interpreting packet) :
    ∃ cursor : Cursor, prog.control = .interpreting cursor ∧ packet = cursor.packet := by
  have phase := related.phase
  rw [interpreting] at phase
  cases here : prog.control with
  | outside =>
      rw [here] at phase
      cases phase
  | receiving =>
      rw [here] at phase
      cases phase
  | interpreting cursor =>
      rw [here] at phase
      exact ⟨cursor, rfl, Phase.interpreting.inj phase⟩

/-- While the device waits, the program may be in `loop()` or not. -/
theorem Refines.turn (related : Refines board prog device) (waiting : device.phase = .waiting)
    {control : Control} (waits : control.phase = .waiting) :
    Refines board { prog with control } device := by
  refine ⟨related.data.move control device.phase, waiting.trans waits.symm, related.idle, ?_⟩
  intro cursor same
  rw [show control = _ from same] at waits
  cases waits

/-! ### Replying -/

theorem queueReplyUInt8_refines (data : Data prog device) (b : Byte) :
    ∃ queued prog', prog.queueReplyUInt8 b = some (queued, prog') ∧
      Data prog' (device.queue [.byte b]) := by
  have txidx := data.txidx_eq
  rw [Programmer.queueReplyUInt8, txidx]
  by_cases full : device.queued.length + 1 ≥ 64
  · refine ⟨false, prog, if_pos full, ?_⟩
    have dropped : device.queue [.byte b] = device := by
      rw [Device.queue, List.foldl_cons, List.foldl_nil, Result.queue, if_pos full]
    rwa [dropped]
  · obtain ⟨place, queued⟩ := data.queued
    obtain ⟨txbuffer, wrote, all, _⟩ := prog.txbuffer.firstBytes_write_end b
      (show device.queued.length + 1 < 64 by omega)
    refine ⟨true, { prog with txbuffer, txidx := prog.txidx + 1 }, ?_, ?_⟩
    · rw [if_neg full, wrote, txidx]
      rfl
    · refine ⟨data.received, data.rxidx, ⟨place, ?_⟩, by simp only; omega, data.target, data.sent,
        data.events, data.arrays⟩
      rw [Device.queue, List.foldl_cons, List.foldl_nil, Result.queue, if_neg full]
      simp only
      rw [txidx, all, ← txidx, queued, List.cons_append]

theorem queueReplyUInt32_refines (data : Data prog device) (w : Word) :
    ∃ queued prog', prog.queueReplyUInt32 w = some (queued, prog') ∧
      Data prog' (device.queue [.word w]) := by
  have txidx := data.txidx_eq
  rw [Programmer.queueReplyUInt32, txidx]
  by_cases full : device.queued.length + 5 ≥ 64
  · refine ⟨false, prog, if_pos full, ?_⟩
    have dropped : device.queue [.word w] = device := by
      rw [Device.queue, List.foldl_cons, List.foldl_nil, Result.queue, if_pos full]
    rwa [dropped]
  · obtain ⟨place, queued⟩ := data.queued
    obtain ⟨buffer0, wrote0, all0, _⟩ := prog.txbuffer.firstBytes_write_end (byteOfWord w 0)
      (show device.queued.length + 1 < 64 by omega)
    obtain ⟨buffer1, wrote1, all1, _⟩ := buffer0.firstBytes_write_end (byteOfWord w 1)
      (show device.queued.length + 1 + 1 < 64 by omega)
    obtain ⟨buffer2, wrote2, all2, _⟩ := buffer1.firstBytes_write_end (byteOfWord w 2)
      (show device.queued.length + 1 + 2 < 64 by omega)
    obtain ⟨txbuffer, wrote3, all3, _⟩ := buffer2.firstBytes_write_end (byteOfWord w 3)
      (show device.queued.length + 1 + 3 < 64 by omega)
    refine ⟨true, { prog with txbuffer, txidx := prog.txidx + 4 }, ?_, ?_⟩
    · rw [if_neg full, txidx]
      simp only [Option.bind_eq_bind, wrote0, wrote1, wrote2, wrote3, Option.bind_some]
      rfl
    · refine ⟨data.received, data.rxidx, ⟨place, ?_⟩, by simp only; omega, data.target, data.sent,
        data.events, data.arrays⟩
      rw [Device.queue, List.foldl_cons, List.foldl_nil, Result.queue, if_neg full]
      simp only
      rw [txidx, all3, all2, all1, all0, ← txidx, queued]
      simp [wordBytes]

/-- The frame of at most 64 bytes and its terminator fit 66 bytes. -/
theorem length_frameOf_le (payload : List Byte) (small : payload.length ≤ 64) :
    (cobs.stuff [] payload).length + 1 ≤ 66 := by
  have overhead := length_cobs_stuff_le payload
  have none : payload.length / 254 = 0 := Nat.div_eq_of_lt (by omega)
  omega

theorem sendReply_refines (board : Board σ) (data : Data prog device) (replyStatus : Byte) :
    ∃ prog', prog.sendReply board replyStatus = some prog' ∧
      Data prog' (device.reply replyStatus) := by
  obtain ⟨place, queued⟩ := data.queued
  have txidx := data.txidx_eq
  have txroom := data.txidx
  obtain ⟨txbuffer, wrote, first⟩ :=
    prog.txbuffer.firstBytes_write_inside prog.txidx replyStatus (show 0 < 64 by omega)
  rw [queued, List.set_cons_zero] at first
  have room := length_frameOf_le (replyStatus :: device.queued)
    (by rw [List.length_cons]; omega)
  obtain ⟨encodebuffer, stuffed, frame⟩ := stuffData_eq (replyStatus :: device.queued)
    ({ cell := board.locals prog.arrays } : Buffer 66) room
  have length := strlen_eq (replyStatus :: device.queued) encodebuffer room frame
  refine ⟨{ prog with
    txbuffer
    txidx := 1
    sent := prog.sent ++
      [encodebuffer.firstBytes ((cobs.stuff [] (replyStatus :: device.queued)).length + 1)]
    events := prog.events ++
      [.stuffed ((cobs.stuff [] (replyStatus :: device.queued)).length + 1)
        ((cobs.stuff [] (replyStatus :: device.queued)).length + 1)]
    arrays := prog.arrays + 1 }, ?_, ?_⟩
  · unfold Programmer.sendReply
    simp only [Option.bind_eq_bind, wrote, first, stuffed, length, Option.bind_some]
    rfl
  · have one : ∃ place, txbuffer.firstBytes 1 = place :: [] :=
      ⟨txbuffer.cell 0, Buffer.firstBytes_succ txbuffer 0⟩
    refine ⟨data.received, data.rxidx, one, by simp, data.target, ?_, ?_, ?_⟩
    · rw [frame, data.sent]
      rfl
    · rw [data.events, Device.reply, frameOf, List.length_append, List.length_singleton]
    · rw [data.arrays]
      rfl

theorem abort_refines (board : Board σ) (data : Data prog device) (replyStatus : Byte) :
    ∃ prog', prog.abort board replyStatus = some prog' ∧
      Refines board prog' (device.finish replyStatus) := by
  obtain ⟨sent, replied, data'⟩ := sendReply_refines board data replyStatus
  refine ⟨{ sent with control := .outside }, ?_, data'.move _ _, rfl, fun _ => rfl, ?_⟩
  · rw [Programmer.abort, replied]
    rfl
  · intro cursor same
    cases same

/-! ### The commands -/

/-- A cursor that has moved on is as bounded as before, and its packet has moved on. -/
theorem advance_refines {cursor : Cursor} (bounded : cursor.Bounded board)
    (data : Data prog device) (received : device.received = []) (count : Nat) :
    Refines board (prog.advance cursor count)
      { device with phase := .interpreting (cursor.packet.advance count) } where
  data := data.move _ _
  phase := rfl
  idle waiting := nomatch waiting
  busy other same := by
    cases same
    exact ⟨received, bounded.decoded, bounded.endptr⟩

/-- The end of a case that answers with a word. -/
theorem answerWord_refines {cursor : Cursor} (bounded : cursor.Bounded board)
    (data : Data prog device) (received : device.received = []) (count : Nat)
    (response : Byte × Word × σ) :
    ∃ prog', prog.answerWord board cursor count response = some prog' ∧
      Refines board prog' (device.conclude cursor.packet count (Outcome.ofRead response)) := by
  obtain ⟨stat, data32, target⟩ := response
  unfold Programmer.answerWord Device.conclude Outcome.ofRead
  by_cases ok : stat = Status.ok.code
  · obtain ⟨_, prog', replied, data'⟩ := queueReplyUInt32_refines (data.access target) data32
    refine ⟨prog'.advance cursor count, ?_, ?_⟩
    · simp only [if_pos ok, replied]
      rfl
    · simp only [if_pos ok]
      exact advance_refines bounded data' received count
  · simp only [if_neg ok]
    exact abort_refines board (data.access target) stat

/-- The end of a case that answers with its status alone. -/
theorem acknowledge_refines {cursor : Cursor} (bounded : cursor.Bounded board)
    (data : Data prog device) (received : device.received = []) (count : Nat)
    (response : Byte × σ) :
    ∃ prog', prog.acknowledge board cursor count response = some prog' ∧
      Refines board prog' (device.conclude cursor.packet count (Outcome.ofWrite response)) := by
  obtain ⟨stat, target⟩ := response
  unfold Programmer.acknowledge Device.conclude Outcome.ofWrite
  by_cases ok : stat = Status.ok.code
  · simp only [if_pos ok]
    exact ⟨_, rfl, advance_refines bounded (data.access target) received count⟩
  · simp only [if_neg ok]
    exact abort_refines board (data.access target) stat

/-- The end of `WRITE MEMORY` is as the others: when it sets `g_rxidx`, that is 0 already. -/
theorem endWriteMem_refines {cursor : Cursor} (bounded : cursor.Bounded board)
    (data : Data prog device) (received : device.received = []) (count : Nat)
    (response : Byte × σ) :
    ∃ prog', prog.endWriteMem board cursor count response = some prog' ∧
      Refines board prog' (device.conclude cursor.packet count (Outcome.ofWrite response)) := by
  obtain ⟨prog', ended, related⟩ := acknowledge_refines bounded data received count response
  obtain ⟨stat, target⟩ := response
  unfold Programmer.acknowledge at ended
  unfold Programmer.endWriteMem
  by_cases ok : stat = Status.ok.code
  · simp only [if_pos ok] at ended ⊢
    exact ⟨prog', ended, related⟩
  · simp only [if_neg ok] at ended ⊢
    have empty : prog'.rxidx = 0 := by
      rw [related.data.rxidx_eq]
      simp only [Device.conclude, Outcome.ofWrite, if_neg ok]
      rw [Device.finish, Device.reply, received, List.length_nil]
    refine ⟨{ prog' with rxidx := 0 }, Option.bind_eq_some_iff.mpr ⟨prog', ended, rfl⟩, ?_⟩
    rwa [← empty]

/-- A wait that timed out replies, and stays at the same command. -/
theorem endWait_refines {cursor : Cursor} (bounded : cursor.Bounded board)
    (data : Data prog device) (received : device.received = []) (count : Nat)
    (result : Programmer.Waited × σ) :
    ∃ prog', prog.endWait board cursor count result = some prog' ∧
      Refines board prog' (device.conclude cursor.packet count (Outcome.ofWait result)) := by
  obtain ⟨waited, target⟩ := result
  cases waited with
  | matched => exact ⟨_, rfl, advance_refines bounded (data.access target) received count⟩
  | failed stat => exact abort_refines board (data.access target) stat
  | timedOut =>
      obtain ⟨prog', replied, data'⟩ :=
        sendReply_refines board (data.access target) Status.timeout.code
      exact ⟨prog'.advance cursor 0, Option.bind_eq_some_iff.mpr ⟨prog', replied, rfl⟩,
        advance_refines bounded data' received 0⟩

/-- The reads of a case, one after the other, are the reads of its bytes. -/
theorem fetches_refines (data : Data prog device) (cursor : Cursor) {events : List Event}
    (count : Nat) (noted : events = cursor.packet.fetches count) :
    Data { prog with events := prog.events ++ events } (device.fetch cursor.packet count) :=
  data.fetch (by rw [noted])

/-- The `switch`: every case does what the command that lies at the index means. -/
theorem command_refines {cursor : Cursor} (bounded : cursor.Bounded board)
    (data : Data prog device) (received : device.received = []) :
    ∃ prog', prog.command board cursor = some prog' ∧
      Refines board prog' (device.command board cursor.packet) := by
  unfold Programmer.command Device.command
  simp only [Programmer.fetch, Programmer.getUInt32, List.append_assoc, List.cons_append,
    List.nil_append, data.target]
  have opcode : cursor.packet.memory cursor.packet.index =
    cursor.decodebuffer.cell (cursor.ptr + 0) := rfl
  rw [opcode]
  cases known : Opcode.ofCode? (cursor.decodebuffer.cell (cursor.ptr + 0)) with
  | none =>
      have fetched := fetches_refines data cursor 1 rfl
      obtain ⟨_, prog1, wrote, data'⟩ :=
        queueReplyUInt32_refines (fetched.access device.target) 0xDEADBEEF
      obtain ⟨prog', aborted, related⟩ :=
        abort_refines board data' Status.unknownCmd.code
      exact ⟨prog', Option.bind_eq_some_iff.mpr ⟨_, wrote, aborted⟩, related⟩
  | some opcode =>
      have fetched := fetches_refines data cursor (opcode.arity + 1) rfl
      cases opcode with
      | connect => exact answerWord_refines bounded fetched received 1 _
      | reset => exact ⟨_, rfl, advance_refines bounded (fetched.access _) received 2⟩
      | readAP => exact answerWord_refines bounded fetched received 5 _
      | writeAP => exact acknowledge_refines bounded fetched received 9 _
      | readDP => exact answerWord_refines bounded fetched received 2 _
      | writeDP => exact acknowledge_refines bounded fetched received 6 _
      | readMem => exact answerWord_refines bounded fetched received 5 _
      | writeMem =>
          exact endWriteMem_refines bounded fetched received 9 _
      | waitMemTrue => exact endWait_refines bounded fetched received 9 _
      | getProgId =>
          obtain ⟨_, prog1, wrote1, data1⟩ :=
            queueReplyUInt8_refines (fetched.access device.target) 0x01
          obtain ⟨_, prog2, wrote2, data2⟩ := queueReplyUInt8_refines data1 64
          obtain ⟨queued, prog3, wrote3, data3⟩ := queueReplyUInt8_refines data2 0
          refine ⟨prog3.advance cursor 1, ?_, advance_refines bounded data3 received 1⟩
          exact Option.bind_eq_some_iff.mpr ⟨_, wrote1, Option.bind_eq_some_iff.mpr
            ⟨_, wrote2, Option.bind_eq_some_iff.mpr ⟨(queued, prog3), wrote3, rfl⟩⟩⟩

/-! ### The steps -/

/-- The comparison of the pointers, also when `bytes--` has wrapped: then `endptr` lies in front of
`decodebuffer`, and no command is interpreted. -/
theorem inside_iff {cursor : Cursor} (bounded : cursor.Bounded board) :
    board.decodebuffer + cursor.ptr < cursor.endptr ↔ cursor.ptr + 1 < cursor.decoded := by
  have above := board.above
  have below := board.below
  have decoded := bounded.decoded
  rw [bounded.endptr]
  by_cases empty : cursor.decoded = 0
  · rw [empty, show (BitVec.ofNat 32 0 - 1).toNat = 2 ^ 32 - 1 from rfl]
    omega
  · have count : (BitVec.ofNat 32 cursor.decoded - 1).toNat = cursor.decoded - 1 := by
      rw [BitVec.toNat_sub, BitVec.toNat_ofNat, show (1 : BitVec 32).toNat = 1 from rfl]
      omega
    rw [count, Nat.mod_eq_of_lt (by omega)]
    omega

/-- One round of the loop over the packet. -/
theorem interpret_refines {cursor : Cursor} (related : Refines board prog device)
    (here : prog.control = .interpreting cursor) :
    ∃ prog', prog.interpret board cursor = some prog' ∧
      Refines board prog' (device.round board cursor.packet) := by
  obtain ⟨received, bounded⟩ := related.busy cursor here
  unfold Programmer.interpret Device.round
  by_cases inside : cursor.ptr + 1 < cursor.decoded
  · rw [if_pos ((inside_iff bounded).mpr inside),
      if_pos (show cursor.packet.index + 1 < cursor.packet.decoded from inside)]
    exact command_refines bounded related.data received
  · rw [if_neg fun less => inside ((inside_iff bounded).mp less),
      if_neg (show ¬ cursor.packet.index + 1 < cursor.packet.decoded from inside)]
    obtain ⟨prog', replied, data⟩ := sendReply_refines board related.data Status.ok.code
    refine ⟨{ prog' with control := .receiving }, Option.bind_eq_some_iff.mpr ⟨prog', replied, rfl⟩,
      data.move _ _, rfl, fun _ => rfl, ?_⟩
    intro other same
    cases same

/-- What `UnStuffData` leaves in the local array. -/
theorem unStuffData_overlay (src : List Byte) (locals : Nat → Byte) (small : src.length ≤ 64) :
    unStuffData src ({ cell := locals } : Buffer 64) =
      some ((cobs.unstuff src).length, { cell := overlay (cobs.unstuff src) locals }) := by
  have room := (cobs.length_unstuff_le src).trans small
  obtain ⟨decodebuffer, decoded, first, behind⟩ := unStuffData_eq src { cell := locals } room
  have cells : decodebuffer.cell = overlay (cobs.unstuff src) locals := by
    funext index
    rw [overlay]
    by_cases inside : index < (cobs.unstuff src).length
    · have cell := Buffer.getElem?_firstBytes decodebuffer inside
      rw [first] at cell
      rw [cell, Option.getD_some]
    · rw [List.getElem?_eq_none (Nat.le_of_not_lt inside), Option.getD_none,
        behind index (Nat.le_of_not_lt inside)]
  rw [decoded, ← cells]

/-- One byte from the line. -/
theorem receive_refines (related : Refines board prog device) (waiting : device.phase = .waiting)
    (here : prog.control = .receiving) (byteRead : Byte) :
    ∃ prog', prog.receive board byteRead = some prog' ∧
      Refines board prog' (device.receive board byteRead) := by
  have data := related.data
  have rxidx := data.rxidx_eq
  have queued := related.idle waiting
  unfold Programmer.receive Device.receive
  by_cases nonzero : byteRead ≠ 0
  · rw [if_pos nonzero, if_pos nonzero, rxidx]
    by_cases full : device.received.length ≥ 64
    · have one : ∃ place, prog.txbuffer.firstBytes 1 = place :: [] :=
        ⟨prog.txbuffer.cell 0, Buffer.firstBytes_succ prog.txbuffer 0⟩
      have discarded : Data { prog with txidx := 1, rxidx := 0 }
          { device with received := [], queued := [] } :=
        ⟨rfl, Nat.zero_le _, one, by simp, data.target, data.sent, data.events, data.arrays⟩
      rw [if_pos full, if_pos full]
      exact abort_refines board discarded Status.rxOverflow.code
    · rw [if_neg full, if_neg full]
      obtain ⟨rxbuffer, wrote, all, _⟩ := prog.rxbuffer.firstBytes_write_end byteRead
        (show device.received.length < 64 by omega)
      refine ⟨{ prog with rxbuffer, rxidx := device.received.length + 1 },
        Option.bind_eq_some_iff.mpr ⟨rxbuffer, wrote, rfl⟩, ?_⟩
      refine ⟨⟨?_, by simp only; omega, data.queued, data.txidx, data.target, data.sent,
        data.events, data.arrays⟩, by rw [waiting, here]; rfl, fun _ => queued, ?_⟩
      · rw [all, ← rxidx, data.received]
      · intro cursor same
        rw [here] at same
        cases same
  · rw [if_neg nonzero, if_neg nonzero]
    have small : device.received.length ≤ 64 := rxidx ▸ data.rxidx
    have decoded := unStuffData_overlay device.received (board.locals device.arrays) small
    refine ⟨_, Option.bind_eq_some_iff.mpr
        ⟨_, by rw [data.received, data.arrays]; exact decoded, rfl⟩,
      ⟨rfl, Nat.zero_le _, data.queued, data.txidx, data.target, data.sent, ?_, ?_⟩, rfl, ?_, ?_⟩
    · simp only [data.events]
    · simp only [data.arrays]
    · exact fun impossible => nomatch impossible
    · intro cursor same
      cases same
      exact ⟨rfl, (cobs.length_unstuff_le _).trans small, rfl⟩

/-- What a step of the program is: a call or a return of `loop()`, a byte, or a round. -/
theorem Programmer.step_cases {prog' : Programmer σ} {label : Option Byte}
    (step : (Programmer.lts board).step prog label prog') :
    (label = none ∧ prog.control.phase = .waiting ∧
        ∃ control, control.phase = .waiting ∧ prog' = { prog with control }) ∨
      (∃ byteRead, label = some byteRead ∧ prog.control = .receiving ∧
        prog.receive board byteRead = some prog') ∨
      ∃ cursor, label = none ∧ prog.control = .interpreting cursor ∧
        prog.interpret board cursor = some prog' := by
  simp only [Programmer.lts] at step
  cases here : prog.control <;> cases label <;> rw [here] at step
  · exact .inl ⟨rfl, rfl, .receiving, rfl, step⟩
  · exact step.elim
  · exact .inl ⟨rfl, rfl, .outside, rfl, step⟩
  · exact .inr (.inl ⟨_, rfl, rfl, step⟩)
  · exact .inr (.inr ⟨_, rfl, rfl, step⟩)
  · exact step.elim

/-- A step of the program is a step of the device, or a call or a return of `loop()`. -/
theorem step_refines :
    Lts.Simulates (Programmer.lts board) (Device.lts board) (Refines board) := by
  intro prog device label prog' related step
  rcases Programmer.step_cases step with ⟨rfl, waiting, control, waiting', rfl⟩ |
    ⟨byteRead, rfl, here, received⟩ | ⟨cursor, rfl, here, interpreted⟩
  · exact ⟨device, .refl device, related.turn (related.phase.trans waiting) waiting'⟩
  · have phase : device.phase = .waiting := related.phase.trans (by rw [here]; rfl)
    obtain ⟨prog'', received', related'⟩ := receive_refines related phase here byteRead
    have same : prog'' = prog' := Option.some.inj (received'.symm.trans received)
    refine ⟨device.receive board byteRead, Lts.Trace.single ?_, same ▸ related'⟩
    simp only [Device.lts, phase]
  · have phase : device.phase = .interpreting cursor.packet :=
      related.phase.trans (by rw [here]; rfl)
    obtain ⟨prog'', interpreted', related'⟩ := interpret_refines related here
    have same : prog'' = prog' := Option.some.inj (interpreted'.symm.trans interpreted)
    refine ⟨device.round board cursor.packet, Lts.Trace.single ?_, same ▸ related'⟩
    simp only [Device.lts, phase]

/-- A step of the device is a step of the program, behind a call of `loop()` if there has to be
one. -/
theorem step_matched :
    Lts.Simulates (Device.lts board) (Programmer.lts board) fun device prog =>
      Refines board prog device := by
  intro device prog label device' related step
  rcases Device.step_cases step with ⟨byteRead, rfl, waiting, rfl⟩ | ⟨packet, rfl, phase, rfl⟩
  · -- in `loop()` the byte is read
    have reads {prog : Programmer σ} (related : Refines board prog device)
        (here : prog.control = .receiving) :
        ∃ prog', (Programmer.lts board).Trace prog [byteRead] prog' ∧
          Refines board prog' (device.receive board byteRead) := by
      obtain ⟨prog', received, related'⟩ := receive_refines related waiting here byteRead
      refine ⟨prog', .visible ?_ (.refl _), related'⟩
      simp only [Programmer.lts, here]
      exact received
    rcases related.waits waiting with here | here
    · obtain ⟨prog', run, related'⟩ := reads (related.turn waiting rfl) rfl
      refine ⟨prog', .silent ?_ run, related'⟩
      simp only [Programmer.lts, here]
    · exact reads related here
  · obtain ⟨cursor, here, rfl⟩ := related.interprets phase
    obtain ⟨prog', interpreted, related'⟩ := interpret_refines related here
    refine ⟨prog', Lts.Trace.single ?_, related'⟩
    simp only [Programmer.lts, here]
    exact interpreted

/-! ### Runs -/

/-- The program waits for a byte, in or outside `loop()`. -/
def Programmer.Waiting (prog : Programmer σ) : Prop := prog.control.phase = .waiting

/-- The program waits for the first byte of a packet. -/
structure Programmer.Idle (prog : Programmer σ) : Prop where
  waiting : prog.Waiting
  rxidx : prog.rxidx = 0
  txidx : prog.txidx = 1

theorem Programmer.boot_idle (target : σ) : (Programmer.boot target).Idle := ⟨rfl, rfl, rfl⟩

/-- The device that an idle program stands for. -/
def Programmer.idleDevice (prog : Programmer σ) : Device σ where
  received := []
  queued := []
  target := prog.target
  phase := .waiting
  sent := prog.sent
  events := prog.events
  arrays := prog.arrays

theorem Programmer.Idle.refines (idle : prog.Idle) : Refines board prog prog.idleDevice where
  data := by
    refine ⟨?_, ?_, ⟨prog.txbuffer.cell 0, ?_⟩, ?_, rfl, rfl, rfl, rfl⟩
    · rw [idle.rxidx]
      rfl
    · rw [idle.rxidx]
      exact Nat.zero_le _
    · rw [idle.txidx]
      exact Buffer.firstBytes_succ prog.txbuffer 0
    · rw [idle.txidx]
      exact Nat.le_of_ble_eq_true rfl
  phase := idle.waiting.symm
  idle _ := rfl
  busy cursor here := by
    have waiting := idle.waiting
    rw [Programmer.Waiting, here] at waiting
    cases waiting

/-- The program reads the bytes, waits for the next one in the end, and whenever it does, the
target and the replies are as said. -/
def Programmer.Finishes (board : Board σ) (prog : Programmer σ) (bytes : List Byte)
    (outcome : σ → List (List Byte) → Prop) : Prop :=
  (∃ prog', (Programmer.lts board).Trace prog bytes prog' ∧ prog'.Waiting) ∧
    ∀ prog', (Programmer.lts board).Trace prog bytes prog' → prog'.Waiting →
      outcome prog'.target prog'.sent

theorem Device.deterministic : (Device.lts board).Deterministic where
  functional := by
    intro device label device' device'' one two
    simp only [Device.lts] at one two
    cases phase : device.phase <;> cases label <;> rw [phase] at one two
    · exact one.elim
    · exact one.trans two.symm
    · exact one.trans two.symm
    · exact one.elim
  exclusive := by
    intro device label device' device'' one two
    simp only [Device.lts] at one two
    cases phase : device.phase <;> rw [phase] at one two
    · exact one
    · exact two

theorem Device.quiet (waiting : device.phase = .waiting) : (Device.lts board).Quiet device := by
  intro next step
  simp only [Device.lts, waiting] at step

/-- The runs of the program are those of the device: what holds of the one run of the device holds
of all runs of the program. -/
theorem Refines.finishes_iff (related : Refines board prog device) (bytes : List Byte)
    (outcome : σ → List (List Byte) → Prop) :
    prog.Finishes board bytes outcome ↔
      ∃ device', (Device.lts board).Trace device bytes device' ∧ device'.phase = .waiting ∧
        outcome device'.target device'.sent := by
  constructor
  · rintro ⟨⟨prog', run, waiting⟩, all⟩
    obtain ⟨device', run', related'⟩ := step_refines.trace run related
    refine ⟨device', run', related'.phase.trans waiting, ?_⟩
    rw [← related'.data.target, ← related'.data.sent]
    exact all prog' run waiting
  · rintro ⟨device', run, waiting, holds⟩
    obtain ⟨prog', run', related'⟩ := step_matched.trace run related
    refine ⟨⟨prog', run', related'.phase.symm.trans waiting⟩, fun prog'' run'' waiting'' => ?_⟩
    obtain ⟨device'', other, related''⟩ := step_refines.trace run'' related
    have same := Device.deterministic.unique run other (Device.quiet waiting)
      (Device.quiet (related''.phase.trans waiting''))
    rw [related''.data.target, related''.data.sent, ← same]
    exact holds

/-- One run of the device to a state in which it waits decides what the program does. -/
theorem Refines.finishes_run_iff (related : Refines board prog device) {bytes : List Byte}
    {device' : Device σ} (run : (Device.lts board).Trace device bytes device')
    (waiting : device'.phase = .waiting) (outcome : σ → List (List Byte) → Prop) :
    prog.Finishes board bytes outcome ↔ outcome device'.target device'.sent := by
  rw [related.finishes_iff]
  constructor
  · rintro ⟨other, run', waiting', holds⟩
    rwa [Device.deterministic.unique run run' (Device.quiet waiting) (Device.quiet waiting')]
  · exact fun holds => ⟨device', run, waiting, holds⟩

end Swagger.Firmware
