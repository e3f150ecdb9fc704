/-
**A packet of commands on the device.**

`execute` says what a list of commands does: in order, up to the first that fails, with the results
of those that succeeded. The device gets there in one run (`run_commands`): the rounds of its loop
stand at the command boundaries (`Packet.remaining`), and each round takes one command off
(`round_command`), finds the end (`round_end`) or an opcode without a case (`round_unknown`).

The exception is a wait that times out (`TimesOut`): the device replies, and stands at the same
command again (`run_timesOut`).
-/

import Swagger.Firmware.Refinement

namespace Swagger.Firmware

open Library

variable {σ : Type} {board : Board σ} {device : Device σ} {packet : Packet}

/-! ### What is left of a packet -/

/-- The bytes from the index up to the last decoded byte, which is left out. -/
def Packet.remaining (packet : Packet) : List Byte :=
  (List.range (packet.decoded - 1 - packet.index)).map fun offset =>
    packet.memory (packet.index + offset)

theorem Packet.length_remaining (packet : Packet) :
    packet.remaining.length = packet.decoded - 1 - packet.index := by
  rw [Packet.remaining, List.length_map, List.length_range]

theorem Packet.getElem?_remaining {offset : Nat} {byte : Byte}
    (here : packet.remaining[offset]? = some byte) :
    packet.memory (packet.index + offset) = byte := by
  rw [Packet.remaining, List.getElem?_map, Option.map_eq_some_iff] at here
  obtain ⟨place, found, same⟩ := here
  obtain ⟨inside, at_place⟩ := List.getElem?_eq_some_iff.mp found
  rw [List.getElem_range] at at_place
  rw [at_place]
  exact same

theorem Packet.remaining_advance (count : Nat) :
    (packet.advance count).remaining = packet.remaining.drop count := by
  refine List.ext_getElem? fun offset => ?_
  rw [List.getElem?_drop, Packet.remaining, Packet.remaining, Packet.advance, List.getElem?_map,
    List.getElem?_map]
  by_cases inside : offset < packet.decoded - 1 - (packet.index + count)
  · rw [List.getElem?_range inside, List.getElem?_range (by omega), Option.map_some,
      Option.map_some, Nat.add_assoc]
  · rw [List.getElem?_eq_none (by simpa using inside), List.getElem?_eq_none (by simp; omega)]
    rfl

/-- A fresh packet is the decoded frame without its last byte. -/
theorem remaining_overlay (payload : List Byte) (locals : Nat → Byte) :
    Packet.remaining { memory := overlay payload locals, decoded := payload.length, index := 0 } =
      payload.dropLast := by
  refine List.ext_getElem? fun offset => ?_
  rw [Packet.remaining, List.getElem?_map, List.getElem?_dropLast]
  simp only [Nat.sub_zero, Nat.zero_add]
  by_cases inside : offset < payload.length - 1
  · have present : offset < payload.length := by omega
    rw [List.getElem?_range inside, if_pos inside, Option.map_some, overlay,
      List.getElem?_eq_getElem present, Option.getD_some]
  · rw [List.getElem?_eq_none (by simpa using inside), if_neg inside, Option.map_none]

theorem inside_of_remaining {byte : Byte} {rest : List Byte}
    (left : packet.remaining = byte :: rest) : packet.index + 1 < packet.decoded := by
  have length := packet.length_remaining
  rw [left, List.length_cons] at length
  omega

/-- A word among the bytes that are left is read as the word. -/
theorem wordAt_of_remaining (front : List Byte) (word : Word) (back : List Byte)
    (left : packet.remaining = front ++ (wordBytes word ++ back)) :
    wordAt packet.memory (packet.index + front.length) = word := by
  have cell (offset : Nat) (byte : Byte) (here : (wordBytes word)[offset]? = some byte) :
      packet.memory (packet.index + front.length + offset) = byte := by
    have inside : offset < (wordBytes word).length := (List.getElem?_eq_some_iff.mp here).1
    rw [Nat.add_assoc]
    apply Packet.getElem?_remaining
    rw [left, List.getElem?_append_right (Nat.le_add_right _ _), Nat.add_sub_cancel_left,
      List.getElem?_append_left inside, here]
  have first : packet.memory (packet.index + front.length) = byteOfWord word 0 := cell 0 _ rfl
  rw [wordAt, first, cell 1 _ rfl, cell 2 _ rfl, cell 3 _ rfl, wordOfBytes_byteOfWord]

/-- The command that lies at the index is the one the packet goes on with. -/
theorem commandAt_of_remaining {command : Command} {rest : List Byte}
    (left : packet.remaining = command.bytes ++ rest) :
    commandAt packet.memory packet.index command.opcode = command := by
  have argument (byte : Byte) (here : packet.remaining[1]? = some byte) :
      packet.memory (packet.index + 1) = byte := Packet.getElem?_remaining here
  cases command with
  | connect => rfl
  | reset state => exact congrArg Command.reset (argument state (by rw [left]; rfl))
  | readAP address =>
      exact congrArg Command.readAP (wordAt_of_remaining [Opcode.readAP.code] address rest left)
  | writeAP address data =>
      exact congrArg₂ Command.writeAP
        (wordAt_of_remaining [Opcode.writeAP.code] address (wordBytes data ++ rest) left)
        (wordAt_of_remaining (Opcode.writeAP.code :: wordBytes address) data rest left)
  | readDP address => exact congrArg Command.readDP (argument address (by rw [left]; rfl))
  | writeDP address data =>
      exact congrArg₂ Command.writeDP (argument address (by rw [left]; rfl))
        (wordAt_of_remaining [Opcode.writeDP.code, address] data rest left)
  | readMem address =>
      exact congrArg Command.readMem (wordAt_of_remaining [Opcode.readMem.code] address rest left)
  | writeMem address data =>
      exact congrArg₂ Command.writeMem
        (wordAt_of_remaining [Opcode.writeMem.code] address (wordBytes data ++ rest) left)
        (wordAt_of_remaining (Opcode.writeMem.code :: wordBytes address) data rest left)
  | waitMemTrue address mask =>
      exact congrArg₂ Command.waitMemTrue
        (wordAt_of_remaining [Opcode.waitMemTrue.code] address (wordBytes mask ++ rest) left)
        (wordAt_of_remaining (Opcode.waitMemTrue.code :: wordBytes address) mask rest left)
  | getProgId => rfl

/-! ### Rounds -/

/-- The opcode at the index. -/
theorem opcode_of_remaining {byte : Byte} {rest : List Byte}
    (left : packet.remaining = byte :: rest) : packet.memory packet.index = byte :=
  Packet.getElem?_remaining (by rw [left]; exact List.getElem?_cons_zero)

/-- A round at an opcode with a case runs the command that lies there. -/
theorem round_known {byte : Byte} {rest : List Byte} {opcode : Opcode}
    (left : packet.remaining = byte :: rest) (known : Opcode.ofCode? byte = some opcode) :
    device.round board packet =
      (device.fetch packet (opcode.arity + 1)).conclude packet (opcode.arity + 1)
        (runCommand board.driver (commandAt packet.memory packet.index opcode) device.target) := by
  rw [Device.round, if_pos (inside_of_remaining left), Device.command, opcode_of_remaining left,
    known]

/-- A round at a complete command runs it. -/
theorem round_command (board : Board σ) (device : Device σ) {command : Command} {rest : List Byte}
    (left : packet.remaining = command.bytes ++ rest) :
    device.round board packet =
      (device.fetch packet command.bytes.length).conclude packet command.bytes.length
        (runCommand board.driver command device.target) := by
  rw [round_known left (Opcode.ofCode?_code _), commandAt_of_remaining left, Command.length_bytes]

/-- A round at an opcode without a case ends the packet. -/
theorem round_unknown {byte : Byte} {rest : List Byte} (left : packet.remaining = byte :: rest)
    (unknown : Opcode.ofCode? byte = none) :
    device.round board packet =
      ((device.fetch packet 1).queue [.word 0xDEADBEEF]).finish Status.unknownCmd.code := by
  rw [Device.round, if_pos (inside_of_remaining left), Device.command, opcode_of_remaining left,
    unknown]

/-- A round behind the last command ends the packet. -/
theorem round_end (left : packet.remaining = []) :
    device.round board packet = device.finish Status.ok.code := by
  have length := packet.length_remaining
  rw [left, List.length_nil] at length
  rw [Device.round, if_neg (by omega)]

/-! ### What a packet does -/

/-- What a packet has done: the results of the commands that succeeded, the status of the reply, and
the target. -/
structure Execution (σ : Type) where
  results : List Result
  status : Byte
  target : σ

/-- The payload of the reply, if it fits. -/
def Execution.reply (execution : Execution σ) : List Byte :=
  execution.status :: execution.results.flatMap Result.bytes

/-- Commands, and behind them at most one opcode without a case: in order, up to the first that
fails. -/
def execute (driver : Driver σ) (unknown : Option Byte) : List Command → σ → Execution σ
  | [], target =>
      match unknown with
      | none => { results := [], status := Status.ok.code, target }
      | some _ => { results := [.word 0xDEADBEEF], status := Status.unknownCmd.code, target }
  | command :: rest, target =>
      match runCommand driver command target with
      | (.done results, target) =>
          let execution := execute driver unknown rest target
          { execution with results := results ++ execution.results }
      | (.failed status, target) => { results := [], status, target }
      | (.timedOut, target) => { results := [], status := Status.timeout.code, target }

/-- A wait that is reached times out: each of its reads succeeds, and none matches. -/
def TimesOut (driver : Driver σ) : List Command → σ → Prop
  | [], _ => False
  | command :: rest, target =>
      match runCommand driver command target with
      | (.done _, target) => TimesOut driver rest target
      | (.failed _, _) => False
      | (.timedOut, _) => True

/-- A device in a packet takes one round. -/
theorem Device.interprets {device' : Device σ} {labels : List Byte}
    (phase : device.phase = .interpreting packet)
    (run : (Device.lts board).Trace (device.round board packet) labels device') :
    (Device.lts board).Trace device labels device' := by
  refine .silent ?_ run
  simp only [Device.lts, phase]

theorem packetBytes_cons (command : Command) (commands : List Command) (unknown : Option Byte) :
    packetBytes (command :: commands) unknown =
      command.bytes ++ packetBytes commands unknown := by
  rw [packetBytes, List.flatMap_cons, List.append_assoc, packetBytes]

/-- The rest of a packet behind its first command. -/
theorem remaining_behind {command : Command} {rest : List Byte}
    (left : packet.remaining = command.bytes ++ rest) :
    (packet.advance command.bytes.length).remaining = rest := by
  rw [Packet.remaining_advance, left, List.drop_left]

/-- The run of the device through a packet, when no wait times out. -/
theorem run_commands (commands : List Command) (unknown : Option Byte)
    (isUnknown : ∀ byte ∈ unknown, Opcode.ofCode? byte = none) (packet : Packet)
    (device : Device σ) (phase : device.phase = .interpreting packet)
    (left : packet.remaining = packetBytes commands unknown)
    (inTime : ¬ TimesOut board.driver commands device.target) :
    ∃ device', (Device.lts board).Trace device [] device' ∧ device'.phase = .waiting ∧
      device'.received = device.received ∧
      device'.target = (execute board.driver unknown commands device.target).target ∧
      device'.sent = device.sent ++
        [frameOf ((execute board.driver unknown commands device.target).status ::
          (execute board.driver unknown commands device.target).results.foldl Result.queue
            device.queued)] := by
  induction commands generalizing packet device with
  | nil =>
      cases unknown with
      | none =>
          refine ⟨_, device.interprets phase (.refl _), ?_⟩
          rw [round_end left]
          exact ⟨rfl, rfl, rfl, rfl⟩
      | some byte =>
          refine ⟨_, device.interprets phase (.refl _), ?_⟩
          rw [round_unknown left (isUnknown byte rfl)]
          exact ⟨rfl, rfl, rfl, rfl⟩
  | cons command commands ih =>
      rw [packetBytes_cons] at left
      have here := round_command board device left
      unfold execute
      rw [TimesOut] at inTime
      rcases ended : runCommand board.driver command device.target with ⟨outcome, target⟩
      rw [ended] at here inTime
      cases outcome with
      | done results =>
          unfold Device.conclude at here
          obtain ⟨device', run, waiting, received, target', sent⟩ := ih _ _
            (congrArg Device.phase here) (remaining_behind left) (by rw [here]; exact inTime)
          rw [here] at received target' sent
          refine ⟨device', device.interprets phase run, waiting, received, target', ?_⟩
          rw [List.foldl_append]
          exact sent
      | failed status =>
          refine ⟨_, device.interprets phase (.refl _), ?_⟩
          rw [here]
          exact ⟨rfl, rfl, rfl, rfl⟩
      | timedOut => exact absurd trivial inTime

/-- The run of the device to a wait that times out: one reply, and the packet goes on. -/
theorem run_timesOut (commands : List Command) (unknown : Option Byte) (packet : Packet)
    (device : Device σ) (phase : device.phase = .interpreting packet)
    (left : packet.remaining = packetBytes commands unknown)
    (late : TimesOut board.driver commands device.target) :
    ∃ device' packet', (Device.lts board).Trace device [] device' ∧
      device'.phase = .interpreting packet' ∧
      device'.sent.length = device.sent.length + 1 := by
  induction commands generalizing packet device with
  | nil => exact late.elim
  | cons command commands ih =>
      rw [packetBytes_cons] at left
      have here := round_command board device left
      unfold TimesOut at late
      rcases ended : runCommand board.driver command device.target with ⟨outcome, target⟩
      rw [ended] at here late
      cases outcome with
      | done results =>
          unfold Device.conclude at here
          obtain ⟨device', packet', run, phase', sent⟩ := ih _ _
            (congrArg Device.phase here) (remaining_behind left) (by rw [here]; exact late)
          rw [here] at sent
          exact ⟨device', packet', device.interprets phase run, phase', sent⟩
      | failed status => exact late.elim
      | timedOut =>
          refine ⟨_, packet, device.interprets phase (.refl _), ?_⟩
          rw [here]
          exact ⟨rfl, List.length_append⟩

/-! ### Receiving a packet -/

/-- A waiting device takes one byte. -/
theorem Device.reads {device' : Device σ} {labels : List Byte} (byteRead : Byte)
    (waiting : device.phase = .waiting)
    (run : (Device.lts board).Trace (device.receive board byteRead) labels device') :
    (Device.lts board).Trace device (byteRead :: labels) device' := by
  refine .visible ?_ run
  simp only [Device.lts, waiting]

/-- The bytes of a packet are received as long as there is room. -/
theorem Device.receives (board : Board σ) (bytes : List Byte) (device : Device σ)
    (waiting : device.phase = .waiting) (free : (0 : Byte) ∉ bytes)
    (room : device.received.length + bytes.length ≤ 64) :
    (Device.lts board).Trace device bytes { device with received := device.received ++ bytes } := by
  induction bytes generalizing device with
  | nil =>
      rw [List.append_nil]
      exact .refl device
  | cons byte bytes ih =>
      rw [List.mem_cons, not_or] at free
      rw [List.length_cons] at room
      have stored : device.receive board byte =
          { device with received := device.received ++ [byte] } := by
        rw [Device.receive, if_pos (Ne.symm free.1), if_neg (by omega)]
      have joined : device.received ++ byte :: bytes = device.received ++ [byte] ++ bytes := by simp
      refine Device.reads byte waiting ?_
      rw [stored, joined]
      refine ih { device with received := device.received ++ [byte] } waiting free.2 ?_
      rw [List.length_append, List.length_singleton]
      omega

/-- The packet that a decoded frame opens. -/
def Device.opened (board : Board σ) (payload : List Byte) (device : Device σ) : Packet where
  memory := overlay payload (board.locals device.arrays)
  decoded := payload.length
  index := 0

/-- The device when the delimiter of a frame has arrived. -/
def Device.openFrame (board : Board σ) (frame : List Byte) (device : Device σ) : Device σ :=
  { device with
    received := []
    phase := .interpreting (device.opened board (cobs.unstuff frame))
    events := device.events ++ [.decoded (cobs.unstuff frame).length]
    arrays := device.arrays + 1 }

/-- A frame that fits is decoded when its delimiter arrives. -/
theorem Device.opens (board : Board σ) (device : Device σ) {frame : List Byte}
    (waiting : device.phase = .waiting) (fresh : device.received = []) (free : (0 : Byte) ∉ frame)
    (small : frame.length ≤ 64) :
    (Device.lts board).Trace device (frame ++ [0]) (device.openFrame board frame) := by
  have received := device.receives board frame waiting free
    (by rw [fresh, List.length_nil]; omega)
  refine received.trans (Device.reads 0 waiting ?_)
  rw [Device.receive, if_neg (not_not.mpr rfl)]
  simp only [fresh, List.nil_append]
  exact .refl _

theorem Device.remaining_opened (payload : List Byte) :
    (device.opened board payload).remaining = payload.dropLast :=
  remaining_overlay payload (board.locals device.arrays)

/-- A frame that decodes to a packet of commands opens that packet. -/
theorem Device.remaining_of_decodes {frame : List Byte} {commands : List Command}
    {unknown : Option Byte}
    (decodes : cobs.unstuff frame = packetBytes commands unknown ++ [0]) :
    (device.opened board (cobs.unstuff frame)).remaining = packetBytes commands unknown := by
  rw [Device.remaining_opened, decodes, List.dropLast_concat]

/-- The run of the device over a frame of commands none of whose waits times out. -/
theorem Device.run_frame (board : Board σ) (device : Device σ) {frame : List Byte}
    {commands : List Command} {unknown : Option Byte} (waiting : device.phase = .waiting)
    (fresh : device.received = []) (free : (0 : Byte) ∉ frame) (small : frame.length ≤ 64)
    (isUnknown : ∀ byte ∈ unknown, Opcode.ofCode? byte = none)
    (decodes : cobs.unstuff frame = packetBytes commands unknown ++ [0])
    (inTime : ¬ TimesOut board.driver commands device.target) :
    ∃ device', (Device.lts board).Trace device (frame ++ [0]) device' ∧
      device'.phase = .waiting ∧ device'.received = [] ∧
      device'.target = (execute board.driver unknown commands device.target).target ∧
      device'.sent = device.sent ++
        [frameOf ((execute board.driver unknown commands device.target).status ::
          (execute board.driver unknown commands device.target).results.foldl Result.queue
            device.queued)] := by
  have opened := device.opens board waiting fresh free small
  obtain ⟨device', run, waiting', received, target, sent⟩ :=
    run_commands commands unknown isUnknown _ (device.openFrame board frame) rfl
      (Device.remaining_of_decodes decodes) inTime
  have joined := opened.trans run
  rw [List.append_nil] at joined
  exact ⟨device', joined, waiting', received, target, sent⟩

/-! ### Replies are never taken back -/

/-- A round goes on in the packet, or sends a reply and waits; all it sends are frames. -/
theorem round_cases (board : Board σ) (packet : Packet) (device : Device σ) :
    ∃ payloads : List (List Byte),
      (device.round board packet).sent = device.sent ++ payloads.map frameOf ∧
        ((∃ packet', (device.round board packet).phase = .interpreting packet') ∨
          ((device.round board packet).phase = .waiting ∧ payloads ≠ [])) := by
  have replied {state : Device σ} {payload : List Byte}
      (waiting : state.phase = .waiting) (sent : state.sent = device.sent ++ [frameOf payload]) :
      ∃ payloads : List (List Byte), state.sent = device.sent ++ payloads.map frameOf ∧
        ((∃ packet', state.phase = .interpreting packet') ∨
          (state.phase = .waiting ∧ payloads ≠ [])) :=
    ⟨[payload], sent, .inr ⟨waiting, List.cons_ne_nil _ _⟩⟩
  unfold Device.round
  split
  · unfold Device.command
    split
    · exact replied rfl rfl
    · rename_i opcode _
      generalize runCommand board.driver _ device.target = result
      obtain ⟨outcome, target⟩ := result
      cases outcome with
      | done results => exact ⟨[], (List.append_nil _).symm, .inl ⟨_, rfl⟩⟩
      | failed status => exact replied rfl rfl
      | timedOut => exact ⟨[_], rfl, .inl ⟨_, rfl⟩⟩
  · exact replied rfl rfl

theorem receive_sent (byteRead : Byte) (device : Device σ) :
    ∃ payloads : List (List Byte),
      (device.receive board byteRead).sent = device.sent ++ payloads.map frameOf := by
  unfold Device.receive
  split_ifs
  · exact ⟨[_], rfl⟩
  · exact ⟨[], (List.append_nil _).symm⟩
  · exact ⟨[], (List.append_nil _).symm⟩

/-- A run adds replies at the end, each of them a frame. -/
theorem Device.run_sent {device' : Device σ} {labels : List Byte}
    (run : (Device.lts board).Trace device labels device') :
    ∃ payloads : List (List Byte), device'.sent = device.sent ++ payloads.map frameOf := by
  have keeps (one : Device σ) (label : Option Byte) (two : Device σ)
      (before : ∃ payloads : List (List Byte), one.sent = device.sent ++ payloads.map frameOf)
      (step : (Device.lts board).step one label two) :
      ∃ payloads : List (List Byte), two.sent = device.sent ++ payloads.map frameOf := by
    obtain ⟨payloads, sent⟩ := before
    have more : ∃ payloads : List (List Byte), two.sent = one.sent ++ payloads.map frameOf := by
      rcases Device.step_cases step with ⟨byteRead, -, -, rfl⟩ | ⟨packet, -, -, rfl⟩
      · exact receive_sent byteRead one
      · obtain ⟨payloads, sent, -⟩ := round_cases board packet one
        exact ⟨payloads, sent⟩
    obtain ⟨payloads', sent'⟩ := more
    exact ⟨payloads ++ payloads', by rw [sent', sent, List.map_append, List.append_assoc]⟩
  exact Lts.Trace.invariant keeps run ⟨[], (List.append_nil _).symm⟩

theorem Device.sent_prefix {device' : Device σ} {labels : List Byte}
    (run : (Device.lts board).Trace device labels device') : device.sent <+: device'.sent := by
  obtain ⟨payloads, sent⟩ := Device.run_sent run
  exact ⟨_, sent.symm⟩

/-- Before a device that interprets waits again, it has sent a reply. -/
theorem Device.replies {device' : Device σ} {labels : List Byte}
    (run : (Device.lts board).Trace device labels device') (phase : device.phase ≠ .waiting)
    (waiting : device'.phase = .waiting) : device.sent.length < device'.sent.length := by
  induction run with
  | refl => exact absurd waiting phase
  | silent step rest ih =>
      rcases Device.step_cases step with ⟨_, impossible, -, -⟩ | ⟨packet, -, -, rfl⟩
      · cases impossible
      · obtain ⟨payloads, sent, ⟨packet', phase'⟩ | ⟨-, replied⟩⟩ := round_cases board packet _
        · have later := ih (by rw [phase']; exact fun same => nomatch same) waiting
          rw [sent, List.length_append] at later
          omega
        · have later := (Device.sent_prefix rest).length_le
          have some := List.length_pos_iff.mpr replied
          rw [sent, List.length_append, List.length_map] at later
          omega
  | visible step rest ih =>
      rcases Device.step_cases step with ⟨_, -, here, -⟩ | ⟨packet, impossible, -, -⟩
      · exact absurd here phase
      · cases impossible

/-- The delimiter is answered. -/
theorem Device.answers_delimiter {device' : Device σ}
    (run : (Device.lts board).Trace device [0] device') (waiting : device'.phase = .waiting) :
    device.sent.length < device'.sent.length := by
  generalize delimiter : [(0 : Byte)] = labels at run
  induction run with
  | refl => cases delimiter
  | silent step rest ih =>
      have first := (Device.sent_prefix (Lts.Trace.single step)).length_le
      exact lt_of_le_of_lt first (ih waiting delimiter)
  | visible step rest ih =>
      rcases Device.step_cases step with ⟨byteRead, same, -, rfl⟩ | ⟨_, impossible, -, -⟩
      · cases same
        cases delimiter
        have later := Device.replies rest (Phase.noConfusion ·) waiting
        exact later
      · cases impossible

/-- A packet is answered: a run that ends behind a delimiter has sent a reply. -/
theorem Device.answers {device' : Device σ} {bytes : List Byte}
    (run : (Device.lts board).Trace device (bytes ++ [0]) device')
    (waiting : device'.phase = .waiting) : device.sent.length < device'.sent.length := by
  obtain ⟨middle, before, last⟩ := run.split
  exact lt_of_le_of_lt (Device.sent_prefix before).length_le
    (Device.answers_delimiter last waiting)

/-! ### A target that never changes -/

/-- A target that acknowledges everything and reads as one word everywhere. -/
def steadyDriver (word : Word) : Driver Unit where
  setReset _ target := target
  tryConnect target := (Status.ok.code, word, target)
  readDP _ target := (Status.ok.code, word, target)
  writeDP _ _ target := (Status.ok.code, target)
  readAP _ target := (Status.ok.code, word, target)
  writeAP _ _ target := (Status.ok.code, target)
  readMemory _ target := (Status.ok.code, word, target)
  writeMemory _ _ target := (Status.ok.code, target)

def steadyBoard (word : Word) : Board Unit where
  driver := steadyDriver word
  locals _ _ := 0
  decodebuffer := 0x800
  above := by norm_num
  below := by norm_num

end Swagger.Firmware
