/-
**What a run asks of the programmer.**

The packets of a run are packets of commands, of four kinds (`Asked`): one command on its own, the
request of the erase, the seven commands that program a longword, and up to six reads of memory.

So a run speaks the protocol, whatever is answered (`asks_within`): the programmer has a case for
every opcode that it is sent, finds all the bytes of its commands, has room for every frame, and has
room for the reply even if every command succeeds. RX OVERFLOW and UNKNOWN COMMAND are answers to
none of its packets.
-/

import Swagger.Firmware.PacketSemantics
import Swagger.Host.Flashing
import Swagger.Line.RoundTrip

namespace Swagger.Line

open Library Firmware Host

/-! ### Packets of commands -/

/-- The calls with which a longword is programmed. -/
def longwordRequests (address data : Word) : List Call :=
  [.writeMemory ftfaFstat (0xFFFE0000 ||| fstatRdcolerr ||| fstatAccerr ||| fstatFpviol),
    .pollMemory ftfaFstat fstatCcif,
    .writeMemory ftfaFccobBase (0x06000000 ||| (address &&& 0x00FFFFFF)),
    .writeMemory (ftfaFccobBase + 4) data,
    .writeMemory ftfaFstat (0xFFFE0000 ||| fstatCcif),
    .pollMemory ftfaFstat fstatCcif,
    .readMemory ftfaFstat]

/-- The commands of a packet that programs a longword. -/
def longwordCommands (address data : Word) : List Command :=
  (longwordRequests address data).map Call.command

/-- The command that requests the erase. -/
def eraseCommand : Command := .writeAP mdmApCtrl (mdmCtrlSysResetReq ||| mdmCtrlFlashErase)

/-- The commands of a packet of a run. -/
inductive Asked : List Command → Prop
  | single {command : Command} (prompt : Prompt command) : Asked [command]
  | erase : Asked [eraseCommand]
  | longword (address data : Word) : Asked (longwordCommands address data)
  | reads {addresses : List Word} (few : addresses.length ≤ 6) :
      Asked (addresses.map Command.readMem)

def Asks (packet : List Byte) : Prop :=
  ∃ commands, Asked commands ∧ packet = packetBytes commands none

theorem packetBytes_single (command : Command) : packetBytes [command] none = command.bytes := by
  rw [packetBytes_cons]
  exact List.append_nil _

theorem longwordCommands_packet (address data : Word) :
    packetOf (queueFlashLongword address data) =
      packetBytes (longwordCommands address data) none := by
  have queued := queueAll_eq (longwordRequests address data)
    { cmdQueue := [], resultQueue := [], state := () }
  exact congrArg Queues.cmdQueue queued

theorem erasePacket_bytes : erasePacket = eraseCommand.bytes :=
  congrArg Queues.cmdQueue (queueWriteAP_bytes { cmdQueue := [], resultQueue := [], state := () } _ _)

theorem asks_singles : AdmitsSingles Asks := by
  intro command prompt
  exact ⟨[command], .single prompt, (packetBytes_single command).symm⟩

theorem asks_erase : Asks erasePacket :=
  ⟨[eraseCommand], .erase, erasePacket_bytes.trans (packetBytes_single eraseCommand).symm⟩

theorem asks_longwords : AdmitsLongwords Asks := by
  intro address data
  exact ⟨_, .longword address data, longwordCommands_packet address data⟩

theorem asks_reads (limit : Nat) : AdmitsReads Asks limit := by
  intro address count _ few _ _
  refine ⟨_, .reads ?_, rfl⟩
  rw [length_addressesAt]
  exact few

/-! ### They fit the buffers -/

theorem resultLength_le (command : Command) : resultLength command ≤ 4 := by
  cases command <;> exact Nat.le_of_ble_eq_true rfl

theorem sum_resultLength_reads (addresses : List Word) :
    ((addresses.map Command.readMem).map resultLength).sum = 4 * addresses.length := by
  induction addresses with
  | nil => rfl
  | cons address addresses ih =>
      rw [List.map_cons, List.map_cons, List.sum_cons, ih, List.length_cons, resultLength]
      omega

namespace Asked

variable {commands : List Command}

/-- With all their results, the reply fits the transmit buffer. -/
theorem replyLength_le (asked : Asked commands) : replyLength commands none ≤ 25 := by
  cases asked with
  | @single command prompt =>
      have few := resultLength_le command
      simp only [replyLength, List.map_cons, List.map_nil, List.sum_cons, List.sum_nil,
        Option.toList_none, List.length_nil]
      omega
  | erase => exact Nat.le_of_ble_eq_true rfl
  | longword address data => exact Nat.le_of_ble_eq_true rfl
  | reads few =>
      rw [replyLength, sum_resultLength_reads, Option.toList_none, List.length_nil]
      omega

/-- The packet is at most that of a longword. -/
theorem length_le (asked : Asked commands) : (packetBytes commands none).length ≤ 59 := by
  cases asked with
  | @single command prompt =>
      rw [packetBytes_single, Command.length_bytes]
      cases command <;> exact Nat.le_of_ble_eq_true rfl
  | erase => exact Nat.le_of_ble_eq_true rfl
  | longword address data => exact Nat.le_of_ble_eq_true rfl
  | @reads addresses few =>
      have length := length_readPacketOf addresses
      rw [readPacketOf] at length
      omega

/-- And its frame fits the receive buffer. -/
theorem frame_le (asked : Asked commands) :
    (cobs.stuff [] (packetBytes commands none)).length ≤ 60 := by
  have short := asked.length_le
  have framed := length_cobs_stuff_le (packetBytes commands none)
  omega

end Asked

/-! ### One command -/

section One

variable {σ : Type} {driver : Driver σ} {command : Command} {target : σ}

/-- A command that answers with a word, in a packet of its own. -/
theorem execute_read {response : Byte × Word × σ}
    (run : runCommand driver command target = Outcome.ofRead response) :
    execute driver none [command] target =
      { results := if response.1 = Status.ok.code then [.word response.2.1] else []
        status := response.1
        target := response.2.2 } := by
  obtain ⟨status, value, target'⟩ := response
  rw [execute, run, Outcome.ofRead]
  by_cases ok : status = Status.ok.code
  · simp only [if_pos ok, execute, List.append_nil]
    rw [ok]
  · simp only [if_neg ok]

/-- A command that answers with its status. -/
theorem execute_write {response : Byte × σ}
    (run : runCommand driver command target = Outcome.ofWrite response) :
    execute driver none [command] target =
      { results := [], status := response.1, target := response.2 } := by
  obtain ⟨status, target'⟩ := response
  rw [execute, run, Outcome.ofWrite]
  by_cases ok : status = Status.ok.code
  · simp only [if_pos ok, execute, List.append_nil]
    rw [ok]
  · simp only [if_neg ok]

/-- There is room for any packet of one command, and for the reply to it. -/
theorem roomy_single (command : Command) :
    (cobs.stuff [] (packetBytes [command] none)).length ≤ 11 ∧
      replyLength [command] none ≤ 5 := by
  constructor
  · have framed := length_cobs_stuff_le (packetBytes [command] none)
    have short : command.bytes.length ≤ 9 := by
      rw [Command.length_bytes]
      cases command <;> exact Nat.le_of_ble_eq_true rfl
    rw [packetBytes_single] at framed ⊢
    omega
  · have few := resultLength_le command
    simp only [replyLength, List.map_cons, List.map_nil, List.sum_cons, List.sum_nil,
      Option.toList_none, List.length_nil]
    omega

end One

/-! ### All packets of a run -/

theorem asks_single {packet : List Byte} (single : Single packet) : Asks packet := by
  rcases single with rfl | ⟨command, prompt, rfl⟩
  · exact asks_erase
  · exact asks_singles command prompt

theorem asks_call {file : BinaryFile} {call : FlashCall}
    (member : call ∈ longwordCalls 0 (wordsOf file.bytes)) : Asks call.packet := by
  obtain ⟨place, -, rfl⟩ := List.mem_map.mp member
  exact asks_longwords _ _

theorem asks_chunk {address : Word} {words : List Word} {chunk : Chunk}
    (member : chunk ∈ chunksOf address words) : Asks chunk.packet := by
  refine ⟨_, .reads ?_, rfl⟩
  rw [length_addressesAt]
  exact chunksOf_few address words chunk member

section Course

variable {binFile : Option BinaryFile} {ending : Ending} {startup : Startup} {log : List Exchange}

theorem asks_programming (programmed : Programming binFile ending log) :
    ∀ exchange ∈ log, Asks exchange.packet := by
  intro exchange member
  have sent : exchange.packet ∈ log.map (·.packet) := List.mem_map_of_mem member
  have among {calls : List FlashCall} (all : ∀ call ∈ calls, Asks call.packet)
      (sent : exchange.packet ∈ calls.map FlashCall.packet) : Asks exchange.packet := by
    obtain ⟨call, inside, same⟩ := List.mem_map.mp sent
    rw [← same]
    exact all call inside
  cases programmed with
  | unopened => exact absurd member List.not_mem_nil
  | empty => exact absurd member List.not_mem_nil
  | stopped stopped =>
      exact among (fun _ => asks_call) ((stopped.alike programmed_alike).subset sent)
  | part part through =>
      rw [programmed_packets through] at sent
      exact among (fun _ => asks_call) sent
  | whole nonempty whole through pulsed =>
      rw [List.map_append, programmed_packets through, pulsed] at sent
      rcases List.mem_append.mp sent with inside | pulse
      · exact among (fun _ => asks_call) inside
      · rcases List.mem_pair.mp pulse with same | same
        · rw [same]
          exact asks_singles (.reset 1) trivial
        · rw [same]
          exact asks_singles (.reset 0) trivial

theorem asks_verifying (verified : Verifying binFile ending log) :
    ∀ exchange ∈ log, Asks exchange.packet := by
  intro exchange member
  have sent : exchange.packet ∈ log.map (·.packet) := List.mem_map_of_mem member
  have among {chunks : List Chunk} (all : ∀ chunk ∈ chunks, Asks chunk.packet)
      (sent : exchange.packet ∈ chunks.map Chunk.packet) : Asks exchange.packet := by
    obtain ⟨chunk, inside, same⟩ := List.mem_map.mp sent
    rw [← same]
    exact all chunk inside
  cases verified with
  | unopened => exact absurd member List.not_mem_nil
  | empty => exact absurd member List.not_mem_nil
  | denied denied =>
      exact among (fun _ => asks_chunk) ((denied.alike confirmed_alike).subset sent)
  | confirmed through =>
      rw [confirmed_packets through] at sent
      exact among (fun _ => asks_chunk) sent

theorem asks_course (course : Course binFile startup log) :
    ∀ exchange ∈ log, Asks exchange.packet := by
  intro exchange member
  cases course with
  | unerased single => exact asks_single (single exchange member)
  | unprogrammed erased programmed failed =>
      rcases List.mem_append.mp member with early | late
      · exact asks_single (erased.single exchange early)
      · exact asks_programming programmed exchange late
  | programmed erased programmed verified =>
      rcases List.mem_append.mp member with before | late
      · rcases List.mem_append.mp before with early | inside
        · exact asks_single (erased.single exchange early)
        · exact asks_programming programmed exchange inside
      · exact asks_verifying verified exchange late

end Course

theorem asks_run {σ : Type} (link : Link σ) (interactive : Bool) (binFile : Option BinaryFile)
    (queues : Queues σ) :
    ∀ exchange ∈ (initSystem link.transcript interactive binFile queues.unwritten).2.state.log,
      Asks exchange.packet := by
  cases interactive with
  | false => exact asks_course (initSystem_course link binFile queues)
  | true =>
      intro exchange member
      rw [(interactive_connects link binFile queues).2 exchange member]
      exact asks_singles .connect trivial

/-- **A run speaks the protocol.** Over any transport, whatever it replies: each packet is a packet
of commands that the programmer has a case for, its frame leaves room in the receive buffer of 64
bytes, and its reply leaves room in the transmit buffer even if all commands succeed. -/
theorem asks_within {σ : Type} (link : Link σ) (interactive : Bool) (binFile : Option BinaryFile)
    (queues : Queues σ) :
    ∀ exchange ∈ (initSystem link.transcript interactive binFile queues.unwritten).2.state.log,
      ∃ commands, exchange.packet = packetBytes commands none ∧
        (cobs.stuff [] exchange.packet).length ≤ 60 ∧ replyLength commands none ≤ 25 := by
  intro exchange member
  obtain ⟨commands, asked, sent⟩ := asks_run link interactive binFile queues exchange member
  refine ⟨commands, sent, ?_, asked.replyLength_le⟩
  rw [sent]
  exact asked.frame_le

/-- Of two words one is blank, and the other is programmed in a run on a part. -/
theorem asks_within_longword :
    ∃ commands, packetOf (queueFlashLongword 0 0x84030201) = packetBytes commands none ∧
      (cobs.stuff [] (packetOf (queueFlashLongword 0 0x84030201))).length ≤ 60 ∧
        replyLength commands none ≤ 25 := by
  obtain ⟨file, same, -, programming, verifying, log, programmed, -⟩ :=
    (initSystem_course partLink (some twoWords) usedPart).shown usedPart_finished
  cases same
  have only : programmedWords twoWords = [(0, 0x84030201)] := by decide +kernel
  have listed : ((0, 0x84030201) : Word × Word) ∈ longwordsOf programming := by
    rw [programmed, only]
    exact List.mem_singleton.mpr rfl
  obtain ⟨exchange, inside, found⟩ := List.mem_filterMap.mp listed
  have member : exchange ∈
      (initSystem partLink.transcript false (some twoWords) usedPart.unwritten).2.state.log := by
    rw [log]
    exact List.mem_append_left _ inside
  have within := asks_within partLink false (some twoWords) usedPart exchange member
  rw [packet_of_longwordOf found] at within
  exact within

end Swagger.Line
