/-
**Host and programmer agree on the packet format.**

The calls of the script queue one command each (`queueAll_eq`), so `writePacket` sends the encoding
of a packet of commands. If it arrives, and the commands succeed, the programmer executes them and
sends one reply with the results (`Firmware.packetSemantics_of_inTime`); if that arrives,
`readPacket` decodes it (`Host.HardwareInterface.readPacket_encode`), and the script pops the status
and one word for each result (`Host.popWords_words`).

`host_firmware_agree` composes these: opcodes, field widths, byte order, the advances of the
interpreter and the limits of the buffers are those of `Command.bytes` and `Execution.reply` on
both sides.
-/

import Swagger.Firmware.Results
import Swagger.Host.TargetFuncs

namespace Swagger.Line

open Library Firmware Host

/-! ### What the script queues -/

/-- A call of a script function that queues a command. -/
inductive Call
  | readDP (address : SQInteger)
  | writeDP (address value : SQInteger)
  | readAP (address : SQInteger)
  | writeAP (address value : SQInteger)
  | readMemory (address : SQInteger)
  | writeMemory (address value : SQInteger)
  | pollMemory (address mask : SQInteger)
  | connect
  | reset (state : SQInteger)
  deriving DecidableEq, Repr

namespace Call

def queue {σ : Type} : Call → Queues σ → Queues σ
  | .readDP address => queueReadDP address
  | .writeDP address value => queueWriteDP address value
  | .readAP address => queueReadAP address
  | .writeAP address value => queueWriteAP address value
  | .readMemory address => queueReadMemory address
  | .writeMemory address value => queueWriteMemory address value
  | .pollMemory address mask => queuePollMemory address mask
  | .connect => queueConnect
  | .reset state => queueReset state

/-- The command that a call means: DP ports and the reset state have one byte. -/
def command : Call → Command
  | .readDP address => .readDP (address.setWidth 8)
  | .writeDP address value => .writeDP (address.setWidth 8) value
  | .readAP address => .readAP address
  | .writeAP address value => .writeAP address value
  | .readMemory address => .readMem address
  | .writeMemory address value => .writeMem address value
  | .pollMemory address mask => .waitMemTrue address mask
  | .connect => .connect
  | .reset state => .reset (state.setWidth 8)

end Call

/-- The command queue is cleared, and the calls are made one after the other. -/
def queueAll {σ : Type} (calls : List Call) (queues : Queues σ) : Queues σ :=
  calls.foldl (fun queues call => call.queue queues) (clearCmdQueue queues)

section Queues

variable {σ : Type}

/-- A call queues the bytes of its command. -/
theorem Call.queue_eq (call : Call) (queues : Queues σ) :
    call.queue queues =
      { queues with cmdQueue := queues.cmdQueue ++ call.command.bytes } := by
  cases call <;>
    simp only [Call.queue, queueReadDP, queueWriteDP, queueReadAP, queueWriteAP, queueReadMemory,
      queueWriteMemory, queuePollMemory, queueConnect, queueReset, queueUInt32_eq, queueUInt8,
      setWidth_cmdType, Call.command, Command.bytes, Command.opcode, Command.arguments,
      List.append_assoc, List.cons_append, List.nil_append]

/-- The calls queue a packet of their commands. -/
theorem queueAll_eq (calls : List Call) (queues : Queues σ) :
    queueAll calls queues =
      { queues with cmdQueue := packetBytes (calls.map Call.command) none } := by
  have behind (calls : List Call) (queues : Queues σ) :
      calls.foldl (fun queues call => call.queue queues) queues =
        { queues with
          cmdQueue := queues.cmdQueue ++ packetBytes (calls.map Call.command) none } := by
    induction calls generalizing queues with
    | nil => simp [packetBytes]
    | cons call calls ih =>
        rw [List.foldl_cons, ih, Call.queue_eq, List.map_cons, packetBytes_cons,
          List.append_assoc]
  rw [queueAll, behind, clearCmdQueue, List.nil_append]

end Queues

/-! ### What the programmer answers -/

section Answers

variable {σ : Type} {driver : Driver σ} {commands : List Command} {target : σ}

/-- When all commands succeed, each of them has reached the target, in order. -/
theorem target_of_succeeds (succeed : Succeeds driver commands target) :
    (execute driver none commands target).target =
      commands.foldl (fun target command => (runCommand driver command target).2) target := by
  induction commands generalizing target with
  | nil => rfl
  | cons command commands ih =>
      obtain ⟨results, target', ended, rest⟩ := succeeds_cons succeed
      rw [execute, ended, List.foldl_cons, ended]
      exact ih rest

/-- All results but those of `GET INTERFACE INFO` are words. -/
theorem results_words (succeed : Succeeds driver commands target)
    (noInfo : Command.getProgId ∉ commands) :
    ∃ words : List Word,
      (execute driver none commands target).results = words.map Result.word := by
  induction commands generalizing target with
  | nil => exact ⟨[], rfl⟩
  | cons command commands ih =>
      obtain ⟨results, target', ended, rest⟩ := succeeds_cons succeed
      rw [List.mem_cons, not_or] at noInfo
      obtain ⟨words, behind⟩ := ih rest noInfo.2
      rw [execute, ended]
      simp only [behind]
      rcases results_cases ended with ⟨-, rfl⟩ | ⟨-, -, value, rfl⟩ | ⟨info, -⟩
      · exact ⟨words, rfl⟩
      · exact ⟨value :: words, rfl⟩
      · exact absurd info.symm noInfo.1

theorem flatMap_word (words : List Word) :
    (words.map Result.word).flatMap Result.bytes = words.flatMap wordBytes := by
  rw [List.flatMap_map]
  rfl

end Answers

/-! ### The line -/

/-- The port takes the whole packet, the programmer reads what the port has taken and then waits,
and what the programmer has sent is what the host comes to read first. -/
structure Delivers {σ : Type} (board : Board σ) (hw : HardwareInterface) (packet : List Byte)
    (prog prog' : Programmer σ) : Prop where
  isOpen : hw.isOpen = true
  write : hw.nextWrite (encode packet).length =
    { accepted := (encode packet).length, flushed := true }
  run : (Programmer.lts board).Trace prog
    ((hw.writePacket packet).2.sent.drop hw.sent.length) prog'
  waiting : prog'.Waiting
  incoming : ∃ later, hw.incoming =
    (prog'.sent.drop prog.sent.length).flatten.map .byte ++ later

section Delivery

variable {σ : Type} {board : Board σ} {hw : HardwareInterface} {packet : List Byte}
  {prog prog' : Programmer σ}

/-- A write that the port takes as a whole. -/
theorem writePacket_taken (isOpen : hw.isOpen = true)
    (write : hw.nextWrite (encode packet).length =
      { accepted := (encode packet).length, flushed := true }) :
    hw.writePacket packet =
      (true, { hw with writes := hw.writes.tail, sent := hw.sent ++ encode packet }) := by
  rw [HardwareInterface.writePacket, isOpen, if_neg (by decide)]
  simp only [write, Int.toNat_natCast, List.take_length, ne_eq, not_true_eq_false, if_false,
    Bool.true_eq_false]

/-- The programmer reads the encoding of the packet. -/
theorem Delivers.reads (delivers : Delivers board hw packet prog prog') :
    (Programmer.lts board).Trace prog (cobs.stuff [] packet ++ [0]) prog' := by
  have run := delivers.run
  rwa [writePacket_taken delivers.isOpen delivers.write, List.drop_left, encode_eq] at run

/-- The host reads the reply. -/
theorem Delivers.exchange (delivers : Delivers board hw packet prog prog') {reply : List Byte}
    (sent : prog'.sent = prog.sent ++ [frameOf reply]) :
    (HardwareInterface.link.exchange packet hw).1 = some reply := by
  obtain ⟨later, incoming⟩ := delivers.incoming
  rw [sent, List.drop_left, List.flatten_singleton, frameOf, ← encode_eq] at incoming
  have read := HardwareInterface.readPacket_encode reply [] later
    { hw with writes := hw.writes.tail, sent := hw.sent ++ encode packet }
  have state : (hw.writePacket packet).2 =
      { hw with
        isOpen := true
        incoming := (encode reply).map .byte ++ later
        writes := hw.writes.tail
        sent := hw.sent ++ encode packet } := by
    rw [writePacket_taken delivers.isOpen delivers.write, ← delivers.isOpen, ← incoming]
  unfold Link.exchange
  simp only [HardwareInterface.link, state]
  rw [read]
  rfl

end Delivery

/-! ### The round trip -/

/-- What the script and the target see of an exchange in which everything arrives and succeeds. -/
theorem host_firmware_agree {σ : Type} (board : Board σ) (prog : Programmer σ) (idle : prog.Idle)
    (calls : List Call) (queues : Queues HardwareInterface)
    (small : (queueAll calls queues).cmdQueue.length ≤ 63)
    (fits : replyLength (calls.map Call.command) none ≤ 63)
    (succeed : Succeeds board.driver (calls.map Call.command) prog.target) :
    (∃ prog', (Programmer.lts board).Trace prog (encode (queueAll calls queues).cmdQueue) prog' ∧
        prog'.Waiting) ∧
      ∀ prog', Delivers board queues.state (queueAll calls queues).cmdQueue prog prog' →
        prog'.target = (calls.map Call.command).foldl
          (fun target command => (runCommand board.driver command target).2) prog.target ∧
        ∃ words : List Word,
          (execute board.driver none (calls.map Call.command) prog.target).results =
            words.map Result.word ∧
          let executed := (executeCmdQueue HardwareInterface.link (queueAll calls queues)).2
          (popUInt8 executed).1 = 0 ∧
            (popWords words.length (popUInt8 executed).2).1 = words ∧
            (popWords words.length (popUInt8 executed).2).2.resultQueue = [] := by
  have queued := queueAll_eq calls queues
  have noInfo : Command.getProgId ∉ calls.map Call.command := by
    intro member
    obtain ⟨call, -, same⟩ := List.mem_map.mp member
    cases call <;> cases same
  have short := length_cobs_stuff_le (queueAll calls queues).cmdQueue
  have semantics := packetSemantics_of_inTime board idle
    (zero_notMem_stuff (queueAll calls queues).cmdQueue) (by simp)
    (by rw [unstuff_stuff, queued]) fits (by omega) succeed.inTime
  refine ⟨?_, fun prog' delivers => ?_⟩
  · rw [encode_eq]
    exact semantics.1
  · obtain ⟨words, results⟩ := results_words succeed noInfo
    obtain ⟨target, sent⟩ := semantics.2 prog' delivers.reads delivers.waiting
    refine ⟨target.trans (target_of_succeeds succeed), words, results, ?_⟩
    have arrives := delivers.exchange sent
    rw [Execution.reply, succeed.status, results, flatMap_word] at arrives
    rw [executeCmdQueue_snd]
    simp only [queued] at arrives ⊢
    rw [arrives]
    have pops := popWords_words words []
      (packetBytes (calls.map Call.command) none)
      (HardwareInterface.link.exchange (packetBytes (calls.map Call.command) none) queues.state).2
    rw [List.append_nil] at pops
    simp only [Option.getD_some, popUInt8]
    exact ⟨rfl, by rw [pops], by rw [pops]⟩

/-- The reply to a packet with two results on a target that reads as one word everywhere. -/
def steadyReply (word : Word) : List Byte := Status.ok.code :: (wordBytes word ++ wordBytes word)

/-- An open port on which a reply will arrive. -/
def answeredPort (reply : List Byte) : HardwareInterface where
  isOpen := true
  incoming := (frameOf reply).map .byte
  writes := []
  sent := []
  lastError := ""

/-- A connect, a read at a negative address and a reset, to which the target answers. -/
theorem host_firmware_agree_steady :
    (popWords 2 (popUInt8 (executeCmdQueue HardwareInterface.link
      (queueAll [.connect, .readMemory (-16), .reset 0x101]
        { cmdQueue := []
          resultQueue := []
          state := answeredPort (steadyReply 0x2BA01477) })).2).2).1 =
      [0x2BA01477, 0x2BA01477] := by
  have commands := packetSemantics_of_inTime (steadyBoard 0x2BA01477) (Programmer.boot_idle ())
    (zero_notMem_stuff (packetBytes [.connect, .readMem (-16), .reset 1] none)) (by simp)
    (unstuff_stuff _) (by decide) (by decide) id
  obtain ⟨⟨prog', run, waiting⟩, agree⟩ := host_firmware_agree (steadyBoard 0x2BA01477)
    (Programmer.boot ()) (Programmer.boot_idle ()) [.connect, .readMemory (-16), .reset 0x101]
    { cmdQueue := [], resultQueue := [], state := answeredPort (steadyReply 0x2BA01477) }
    (by decide) (by decide) trivial
  rw [encode_eq] at run
  obtain ⟨-, sent⟩ := commands.2 prog' run waiting
  obtain ⟨-, words, results, -, popped, -⟩ := agree prog'
    { isOpen := rfl
      write := rfl
      run := by
        rw [writePacket_taken rfl rfl, List.drop_left, encode_eq]
        exact run
      waiting
      incoming := ⟨[], by rw [sent]; rfl⟩ }
  have two : words = [0x2BA01477, 0x2BA01477] :=
    List.map_injective_iff.mpr (fun _ _ => Result.word.inj) results.symm
  rwa [two] at popped

end Swagger.Line
