/-
**Bursts of bytes.**

`Programmer.serial` is the program behind the receive buffer of the serial port: bytes arrive in
bursts at any moment, `loop()` goes on while a byte is available, and what it leaves behind when it
returns early is there in the next call. A call that sees a burst is one in front of which the burst
arrives.

The program does what the device does behind a queue (`serial_refines`), and takes everything from
its buffer that the device takes from its queue (`Refines.drains`). The device is deterministic, so
how a stream is cut into bursts has no effect (`Programmer.Idle.bursts_agree`), not even when the
local arrays hold something else in the other run, as long as the packets are complete. With a
record of the operations on the target this is `burst_independent`.
-/

import Swagger.Library.Arrivals
import Swagger.Firmware.ApSelect
import Swagger.Firmware.Locals

namespace Swagger.Firmware

open Library

variable {σ : Type} {board board' : Board σ}

/-! ### The serial port -/

/-- The program and the bytes that are available. A burst arrives at any moment; the other steps are
those of `Programmer.lts`, with `Serial.available()` and `Serial.read()` on these bytes. -/
def Programmer.serial (board : Board σ) : Lts (Queued (Programmer σ) Byte) (List Byte) where
  step first label last :=
    match label with
    | some burst => last = { first with queue := first.queue ++ burst }
    | none =>
        match first.state.control, first.queue with
        | .outside, queue => last = { state := { first.state with control := .receiving }, queue }
        | .receiving, [] =>
            last = { state := { first.state with control := .outside }, queue := [] }
        | .receiving, byteRead :: queue =>
            first.state.receive board byteRead = some last.state ∧ last.queue = queue
        | .interpreting cursor, queue =>
            first.state.interpret board cursor = some last.state ∧ last.queue = queue

/-- Outside `loop()`, with nothing available. -/
structure AtRest (port : Queued (Programmer σ) Byte) : Prop where
  outside : port.state.control = .outside
  empty : port.queue = []

theorem AtRest.waiting {port : Queued (Programmer σ) Byte} (rest : AtRest port)
    {device : Device σ} (related : Refines board port.state device) :
    device.phase = .waiting := by
  rw [related.phase, rest.outside]
  rfl

/-- A silent step reads a byte that is available, or none. -/
theorem Programmer.serial_reads {first last : Queued (Programmer σ) Byte}
    (step : (Programmer.serial board).step first none last) :
    ∃ read : Option Byte, (Programmer.lts board).step first.state read last.state ∧
      first.queue = read.toList ++ last.queue := by
  simp only [Programmer.serial] at step
  unfold Programmer.lts
  cases here : first.state.control with
  | outside =>
      rw [here] at step
      exact ⟨none, by simp only [here, step], by rw [step]; rfl⟩
  | interpreting cursor =>
      rw [here] at step
      exact ⟨none, by simp only [here, step.1], step.2.symm⟩
  | receiving =>
      rw [here] at step
      cases waiting : first.queue with
      | nil =>
          rw [waiting] at step
          exact ⟨none, by simp only [here, step], by rw [step]; rfl⟩
      | cons byteRead queue =>
          rw [waiting] at step
          exact ⟨some byteRead, by simp only [here, step.1], by rw [step.2]; rfl⟩

/-- The program stands where the device does, and they have the same bytes to read. -/
structure RefinesQueued (board : Board σ) (port : Queued (Programmer σ) Byte)
    (device : Queued (Device σ) Byte) : Prop where
  state : Refines board port.state device.state
  queue : device.queue = port.queue

/-- The program behind its buffer is the device behind a queue. -/
theorem serial_refines :
    Lts.Simulates (Programmer.serial board) (Device.lts board).queued (RefinesQueued board) := by
  rintro first device label last ⟨related, queue⟩ step
  cases label with
  | some burst =>
      refine ⟨{ device with queue := device.queue ++ burst }, Lts.Trace.single rfl, ?_⟩
      rw [show last = _ from step, queue]
      exact ⟨related, rfl⟩
  | none =>
      obtain ⟨read, moved, taken⟩ := Programmer.serial_reads step
      obtain ⟨device', run, related'⟩ := step_refines _ _ _ _ related moved
      refine ⟨{ state := device', queue := last.queue }, ?_, related', rfl⟩
      have behind := run.queued last.queue
      rw [← taken, ← queue] at behind
      exact behind

/-! ### The rest of a run -/

/-- A call of `loop()`. -/
theorem Programmer.serial_call {prog : Programmer σ} {queue : List Byte}
    {last : Queued (Programmer σ) Byte} (here : prog.control = .outside)
    (run : (Programmer.serial board).Trace
      { state := { prog with control := .receiving }, queue } [] last) :
    (Programmer.serial board).Trace { state := prog, queue } [] last := by
  refine .silent ?_ run
  simp only [Programmer.serial, here]

/-- What the device takes from its queue up to a state in which it waits, the program takes from the
buffer, and returns from `loop()`. -/
theorem Refines.drains {device last : Device σ} {available : List Byte}
    (run : (Device.lts board).Trace device available last) (waiting : last.phase = .waiting)
    {prog : Programmer σ} (related : Refines board prog device) :
    ∃ prog', (Programmer.serial board).Trace { state := prog, queue := available } []
        { state := prog', queue := [] } ∧
      prog'.control = .outside ∧ Refines board prog' last := by
  induction run generalizing prog with
  | refl device =>
      rcases related.waits waiting with here | here
      · exact ⟨prog, .refl _, here, related⟩
      · refine ⟨{ prog with control := .outside }, .silent ?_ (.refl _), rfl,
          related.turn waiting rfl⟩
        simp only [Programmer.serial, here]
  | silent step _ ih =>
      rcases Device.step_cases step with ⟨_, impossible, -, -⟩ | ⟨packet, -, phase, rfl⟩
      · cases impossible
      · obtain ⟨cursor, here, rfl⟩ := related.interprets phase
        obtain ⟨prog', interpreted, related'⟩ := interpret_refines related here
        obtain ⟨prog'', run, ended⟩ := ih waiting related'
        refine ⟨prog'', .silent ?_ run, ended⟩
        simp only [Programmer.serial, here, interpreted, and_self]
  | @visible first _ last byteRead available step _ ih =>
      rcases Device.step_cases step with ⟨_, same, idle, rfl⟩ | ⟨_, impossible, -, -⟩
      · cases same
        -- in `loop()` the byte is read
        have reads {prog : Programmer σ} (related : Refines board prog first)
            (here : prog.control = .receiving) :
            ∃ prog', (Programmer.serial board).Trace
                { state := prog, queue := byteRead :: available } []
                { state := prog', queue := [] } ∧
              prog'.control = .outside ∧ Refines board prog' last := by
          obtain ⟨prog', received, related'⟩ := receive_refines related idle here byteRead
          obtain ⟨prog'', run, ended⟩ := ih waiting related'
          refine ⟨prog'', .silent ?_ run, ended⟩
          simp only [Programmer.serial, here, received, and_self]
        rcases related.waits idle with here | here
        · obtain ⟨prog', run, ended⟩ := reads (related.turn idle rfl) rfl
          exact ⟨prog', Programmer.serial_call here run, ended⟩
        · exact reads related here
      · cases impossible

/-! ### Two runs -/

/-- Two boards on which the interpreter finds the same: the same one, or two with the same driver,
whatever their memory holds, when the packets are complete commands. -/
def FindsSame (board board' : Board σ) (stream : List Byte) : Prop :=
  board' = board ∨ board'.driver = board.driver ∧ CompletePackets [] stream

/-- What two runs agree in: the target, the replies, the indices, and the bytes received so far. -/
structure Agree (prog prog' : Programmer σ) : Prop where
  target : prog'.target = prog.target
  sent : prog'.sent = prog.sent
  rxidx : prog'.rxidx = prog.rxidx
  txidx : prog'.txidx = prog.txidx
  received : prog'.rxbuffer.firstBytes prog'.rxidx = prog.rxbuffer.firstBytes prog.rxidx

theorem Alike.of_waiting {device : Device σ} (waiting : device.phase = .waiting) :
    Alike device device := by
  refine ⟨rfl, rfl, rfl, rfl, ?_⟩
  rw [waiting]
  trivial

theorem Alike.agree {prog prog' : Programmer σ} {device device' : Device σ}
    (alike : Alike device device') (data : Data prog device) (data' : Data prog' device') :
    Agree prog prog' where
  target := by rw [data'.target, alike.target, data.target]
  sent := by rw [data'.sent, alike.sent, data.sent]
  rxidx := by rw [data'.rxidx_eq, alike.received, data.rxidx_eq]
  txidx := by rw [data'.txidx_eq, alike.queued, data.txidx_eq]
  received := by rw [data'.received, alike.received, data.received]

/-- A run of the device has a counterpart on the other board. -/
theorem FindsSame.run {stream : List Byte} (finds : FindsSame board board' stream)
    {device last : Device σ} (fresh : device.received = []) (idle : device.phase = .waiting)
    (run : (Device.lts board).Trace device stream last) (waiting : last.phase = .waiting) :
    ∃ last', (Device.lts board').Trace device stream last' ∧ Alike last last' := by
  rcases finds with rfl | ⟨driver, complete⟩
  · exact ⟨last, run, .of_waiting waiting⟩
  · rw [← fresh] at complete
    exact run_alike driver run complete (.of_waiting idle)

/-- When a run over a stream has come to rest, every other run over the stream can do so, and agrees
with it when it does. -/
theorem Programmer.Idle.bursts_agree {prog : Programmer σ} (idle : prog.Idle)
    {bursts bursts' : List (List Byte)} (same : bursts'.flatten = bursts.flatten)
    (finds : FindsSame board board' bursts.flatten) {last other : Queued (Programmer σ) Byte}
    (run : (Programmer.serial board).Trace { state := prog, queue := [] } bursts last)
    (rest : AtRest last)
    (run' : (Programmer.serial board').Trace { state := prog, queue := [] } bursts' other) :
    (∃ last', (Programmer.serial board').Trace other [] last' ∧ AtRest last' ∧
        Agree last.state last'.state) ∧
      (AtRest other → Agree last.state other.state) := by
  have start (board : Board σ) : RefinesQueued board { state := prog, queue := [] }
      { state := prog.idleDevice, queue := [] } := ⟨idle.refines, rfl⟩
  -- the run of the device over the whole stream
  obtain ⟨ended, run, related, queue⟩ := serial_refines.trace run (start board)
  obtain ⟨stream, whole, arrived⟩ := run.of_queued
  rw [queue, rest.empty, List.append_nil, List.nil_append] at arrived
  rw [← arrived] at whole
  have waiting := rest.waiting related
  obtain ⟨last', whole', alike⟩ := finds.run rfl rfl whole waiting
  have waiting' := alike.waits waiting
  -- what is left of it for the other run
  obtain ⟨middle, run', related', queue'⟩ := serial_refines.trace run' (start board')
  have left := Device.deterministic.goes_on whole' (Device.quiet waiting') run' same
  constructor
  · obtain ⟨prog', drained, outside, related''⟩ := Refines.drains left waiting' related'
    rw [queue'] at drained
    exact ⟨_, drained, ⟨outside, rfl⟩, alike.agree related.data related''.data⟩
  · intro rest'
    rw [queue', rest'.empty] at left
    rw [← (Device.quiet (rest'.waiting related')).stays left] at alike
    exact alike.agree related.data related'.data

/-! ### The operations on the target -/

/-- A target and the operations on it so far. -/
structure Recorded (σ : Type) where
  target : σ
  operations : List Operation

/-- A driver that keeps a record. -/
def Driver.recorded (driver : Driver σ) : Driver (Recorded σ) where
  setReset value state :=
    { target := driver.setReset value state.target
      operations := state.operations ++ [.setReset value] }
  tryConnect state :=
    let (status, idcode, target) := driver.tryConnect state.target
    (status, idcode, { target, operations := state.operations ++ [.tryConnect] })
  readDP address state :=
    let (status, data, target) := driver.readDP address state.target
    (status, data, { target, operations := state.operations ++ [.readDP address] })
  writeDP address data state :=
    let (status, target) := driver.writeDP address data state.target
    (status, { target, operations := state.operations ++ [.writeDP address data] })
  readAP address state :=
    let (status, data, target) := driver.readAP address state.target
    (status, data, { target, operations := state.operations ++ [.readAP address] })
  writeAP address data state :=
    let (status, target) := driver.writeAP address data state.target
    (status, { target, operations := state.operations ++ [.writeAP address data] })
  readMemory address state :=
    let (status, data, target) := driver.readMemory address state.target
    (status, data, { target, operations := state.operations ++ [.readMemory address] })
  writeMemory address data state :=
    let (status, target) := driver.writeMemory address data state.target
    (status, { target, operations := state.operations ++ [.writeMemory address data] })

def Board.recorded (board : Board σ) : Board (Recorded σ) where
  driver := board.driver.recorded
  locals := board.locals
  decodebuffer := board.decodebuffer
  above := board.above
  below := board.below

theorem FindsSame.recorded {stream : List Byte} (finds : FindsSame board board' stream) :
    FindsSame board.recorded board'.recorded stream := by
  rcases finds with rfl | ⟨driver, complete⟩
  · exact .inl rfl
  · exact .inr ⟨congrArg Driver.recorded driver, complete⟩

/-- The bursts in which a stream arrives have no effect: if the program comes to rest over the
stream, it does so however the stream is cut into bursts and whenever these arrive, with the same
operations on the target, the same replies, and the same indices and bytes in its buffers. -/
theorem burst_independent (board board' : Board σ) (prog : Programmer (Recorded σ))
    (idle : prog.Idle) (bursts bursts' : List (List Byte))
    (same : bursts'.flatten = bursts.flatten) (finds : FindsSame board board' bursts.flatten)
    (last other : Queued (Programmer (Recorded σ)) Byte)
    (run : (Programmer.serial board.recorded).Trace { state := prog, queue := [] } bursts last)
    (rest : AtRest last)
    (run' : (Programmer.serial board'.recorded).Trace { state := prog, queue := [] } bursts'
      other) :
    (∃ last', (Programmer.serial board'.recorded).Trace other [] last' ∧ AtRest last' ∧
        Agree last.state last'.state) ∧
      (AtRest other → Agree last.state other.state) :=
  idle.bursts_agree same finds.recorded run rest run'

/-- The frame of a `CONNECT`. -/
def connectFrame : List Byte := cobs.stuff [] (packetBytes [.connect] none)

/-- A board whose arrays hold something else. -/
def noisyBoard (word : Word) : Board Unit where
  driver := steadyDriver word
  locals array index := BitVec.ofNat 8 (array + index + 1)
  decodebuffer := 0x700
  above := by norm_num
  below := by norm_num

theorem connectFrame_complete : CompletePackets [] [connectFrame ++ [0]].flatten := by
  have packets : packetsOf [] [connectFrame ++ [0]].flatten = [connectFrame] :=
    packetsOf_frames [connectFrame] fun frame member => by
      rw [List.mem_singleton.mp member]
      exact ⟨zero_notMem_stuff _, by decide⟩
  rw [CompletePackets, packets, List.forall_mem_singleton, connectFrame, unstuff_stuff,
    List.dropLast_concat]
  exact completeCommands_packetBytes _ fun _ none => nomatch none

/-- The frame comes to rest in one burst, and also in two, the second of which is its delimiter. -/
theorem burst_independent_split :
    ∃ last other : Queued (Programmer (Recorded Unit)) Byte,
      (Programmer.serial (steadyBoard 0x2BA01477).recorded).Trace
          { state := Programmer.boot { target := (), operations := [] }, queue := [] }
          [connectFrame ++ [0]] last ∧
        (Programmer.serial (noisyBoard 0x2BA01477).recorded).Trace
          { state := Programmer.boot { target := (), operations := [] }, queue := [] }
          [connectFrame, [0]] other ∧
        AtRest last ∧ AtRest other ∧ Agree last.state other.state := by
  let prog : Programmer (Recorded Unit) := Programmer.boot { target := (), operations := [] }
  have idle : prog.Idle := Programmer.boot_idle _
  have free : (0 : Byte) ∉ connectFrame := zero_notMem_stuff _
  have decodes : cobs.unstuff connectFrame = packetBytes [.connect] none ++ [0] := unstuff_stuff _
  have known : ∀ byte ∈ (none : Option Byte), Opcode.ofCode? byte = none := nofun
  obtain ⟨device, run, waiting, -⟩ := Device.run_frame (steadyBoard 0x2BA01477).recorded
    prog.idleDevice rfl rfl free (by decide) known decodes fun late => late
  obtain ⟨prog', drained, outside, -⟩ := Refines.drains run waiting idle.refines
  obtain ⟨⟨last', more, rest, agree⟩, -⟩ := burst_independent (steadyBoard 0x2BA01477)
    (noisyBoard 0x2BA01477) prog idle [connectFrame ++ [0]] [connectFrame, [0]] rfl
    (.inr ⟨rfl, connectFrame_complete⟩) _ _ (.visible rfl drained) ⟨outside, rfl⟩
    (.visible rfl (.visible rfl (.refl _)))
  exact ⟨_, last', .visible rfl drained, .visible rfl (.visible rfl more), ⟨outside, rfl⟩, rest,
    agree⟩

end Swagger.Firmware
