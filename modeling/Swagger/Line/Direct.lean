/-
**The target on its own.**

`Direct` is a transport without a line: a packet is taken apart into its commands, they are executed
at the target, and the reply is what `execute` says. It is what the whole stack is compared with,
and where what a target does to the packets of a run is worked out.

A packet of a run is answered in time where the waits for the flash controller end (`Settles`).
-/

import Swagger.Firmware.Termination
import Swagger.Line.Requests

namespace Swagger.Line

open Library Firmware Host

/-! ### The target on its own -/

/-- The commands of a packet, up to an opcode without a case, by a bound on its bytes. -/
def commandsWithin : Nat → List Byte → List Command
  | 0, _ | _ + 1, [] => []
  | fuel + 1, byte :: rest =>
      match Opcode.ofCode? byte with
      | none => []
      | some opcode =>
          commandAt (overlay (byte :: rest ++ [0]) fun _ => 0) 0 opcode ::
            commandsWithin fuel (rest.drop opcode.arity)

def commandsOf (packet : List Byte) : List Command := commandsWithin packet.length packet

theorem commandsWithin_packetBytes (commands : List Command) (fuel : Nat)
    (enough : (packetBytes commands none).length ≤ fuel) :
    commandsWithin fuel (packetBytes commands none) = commands := by
  induction commands generalizing fuel with
  | nil => cases fuel <;> rfl
  | cons command commands ih =>
      rw [packetBytes_cons] at enough ⊢
      rw [Command.bytes, List.cons_append] at enough ⊢
      obtain ⟨fuel, rfl⟩ := Nat.exists_eq_succ_of_ne_zero (Nat.ne_of_gt (Nat.zero_lt_of_lt enough))
      have left : Packet.remaining
          { memory := overlay (command.bytes ++ packetBytes commands none ++ [0]) fun _ => 0
            decoded := (command.bytes ++ packetBytes commands none ++ [0]).length
            index := 0 } = command.bytes ++ packetBytes commands none := by
        rw [remaining_overlay, List.dropLast_concat]
      have first := commandAt_of_remaining left
      rw [Command.bytes, List.cons_append] at first
      rw [List.length_cons, List.length_append] at enough
      rw [commandsWithin, Opcode.ofCode?_code]
      simp only
      rw [first, ← Command.length_arguments, List.drop_left, ih fuel (by omega)]

/-- A packet of commands is taken apart into them. -/
theorem commandsOf_packetBytes (commands : List Command) :
    commandsOf (packetBytes commands none) = commands :=
  commandsWithin_packetBytes commands _ le_rfl

/-- A target, and the reply that is on its way. -/
structure Direct (σ : Type) where
  target : σ
  reply : Option (List Byte)

namespace Direct

variable {σ : Type}

/-- Each packet is executed at the target. -/
def link (driver : Driver σ) : Link (Direct σ) where
  writePacket packet direct :=
    let execution := execute driver none (commandsOf packet) direct.target
    (true, { target := execution.target, reply := some execution.reply })
  readPacket data direct :=
    match direct.reply with
    | some reply => (true, reply, { direct with reply := none })
    | none => (false, data, direct)
  failed_empty direct failed := by
    cases reply : direct.reply with
    | some _ => simp only [reply, Bool.true_eq_false] at failed
    | none => rfl

theorem exchange (driver : Driver σ) (commands : List Command) (direct : Direct σ) :
    (link driver).exchange (packetBytes commands none) direct =
      let execution := execute driver none commands direct.target
      (some execution.reply, { target := execution.target, reply := none }) := by
  unfold Link.exchange
  simp only [link, commandsOf_packetBytes, if_true]

end Direct

/-- The queues at the start of a run. -/
def fresh {τ : Type} (state : τ) : Queues τ := { cmdQueue := [], resultQueue := [], state }

/-! ### Packets in time -/

section Settled

variable {σ : Type}

/-- Packets of a run keep the target where the waits for the flash controller end. -/
structure Settles (driver : Driver σ) (settled : σ → Prop) : Prop where
  keeps : ∀ commands target, Asked commands → settled target →
    settled (execute driver none commands target).target
  inTime : ∀ address data target, settled target →
    ¬ TimesOut driver (longwordCommands address data) target

variable {driver : Driver σ} {settled : σ → Prop} {commands : List Command} {target : σ}

/-- The target behind a command, and behind the others if it succeeds. -/
theorem execute_cons_target (driver : Driver σ) (command : Command) (commands : List Command)
    (target : σ) :
    (execute driver none (command :: commands) target).target =
        (runCommand driver command target).2 ∨
      (execute driver none (command :: commands) target).target =
        (execute driver none commands (runCommand driver command target).2).target := by
  rw [execute]
  rcases runCommand driver command target with ⟨outcome, target'⟩
  cases outcome with
  | done results => exact .inr rfl
  | failed status => exact .inl rfl
  | timedOut => exact .inl rfl

/-- What each command keeps, a packet of them keeps. -/
theorem execute_keeps (keeps : ∀ command ∈ commands, ∀ target, settled target →
      settled (runCommand driver command target).2) (here : settled target) :
    settled (execute driver none commands target).target := by
  induction commands generalizing target with
  | nil => exact here
  | cons command commands ih =>
      obtain ⟨first, others⟩ := List.forall_mem_cons.mp keeps
      have next := first target here
      rcases execute_cons_target driver command commands target with stops | goes
      · rw [stops]
        exact next
      · rw [goes]
        exact ih others next

/-- What times out is a wait among the commands, in a state that those in front of it keep. -/
theorem timesOut_settled (keeps : ∀ command ∈ commands, ∀ target, settled target →
      settled (runCommand driver command target).2) (here : settled target)
    (late : TimesOut driver commands target) :
    ∃ address mask target', Command.waitMemTrue address mask ∈ commands ∧ settled target' ∧
      (Programmer.waitLoop driver address mask Firmware.maxRetries target').1 = .timedOut := by
  induction commands generalizing target with
  | nil => exact late.elim
  | cons command commands ih =>
      obtain ⟨first, others⟩ := List.forall_mem_cons.mp keeps
      have next := first target here
      unfold TimesOut at late
      rcases ended : runCommand driver command target with ⟨outcome, target'⟩
      rw [ended] at late next
      cases outcome with
      | done results =>
          obtain ⟨address, mask, target'', member, still, timedOut⟩ := ih others next late
          exact ⟨address, mask, target'', List.mem_cons_of_mem _ member, still, timedOut⟩
      | failed status => exact late.elim
      | timedOut =>
          have timedOut : (runCommand driver command target).1 = .timedOut := by rw [ended]
          obtain ⟨address, mask, rfl, misses⟩ := timedOut_wait timedOut
          exact ⟨address, mask, target, List.mem_cons_self, here,
            (waitLoop_timedOut_iff driver address mask _ target).mpr misses⟩

theorem timesOut_wait (late : TimesOut driver commands target) :
    ∃ address mask, Command.waitMemTrue address mask ∈ commands := by
  let anywhere (_ : σ) : Prop := True
  have kept : ∀ command ∈ commands, ∀ target, anywhere target →
      anywhere (runCommand driver command target).2 := fun _ _ _ _ => trivial
  obtain ⟨address, mask, -, member, -⟩ := timesOut_settled kept trivial late
  exact ⟨address, mask, member⟩

/-- The registers that are written to program a longword. -/
def FlashRegister (register : Word) : Prop :=
  register = ftfaFstat ∨ register = ftfaFccobBase ∨ register = ftfaFccobBase + 4

instance (register : Word) : Decidable (FlashRegister register) :=
  inferInstanceAs (Decidable (_ ∨ _))

/-- The commands in the packets of a run. -/
inductive Sent : Command → Prop
  | prompt {command : Command} (prompt : Prompt command) : Sent command
  | erase : Sent eraseCommand
  | write {register : Word} (value : Word) (is : FlashRegister register) :
      Sent (.writeMem register value)
  | wait : Sent (.waitMemTrue ftfaFstat fstatCcif)

theorem Sent.read (address : Word) : Sent (.readMem address) :=
  .prompt (show Prompt (.readMem address) from trivial)

theorem Asked.sent (asked : Asked commands) : ∀ command ∈ commands, Sent command := by
  intro command member
  cases asked with
  | single prompt =>
      rw [List.mem_singleton.mp member]
      exact .prompt prompt
  | erase =>
      rw [List.mem_singleton.mp member]
      exact .erase
  | longword address data =>
      simp only [longwordCommands, longwordRequests, List.map_cons, List.map_nil, Call.command,
        List.mem_cons, List.not_mem_nil, or_false] at member
      rcases member with rfl | rfl | rfl | rfl | rfl | rfl | rfl
      · exact .write _ (.inl rfl)
      · exact .wait
      · exact .write _ (.inr (.inl rfl))
      · exact .write _ (.inr (.inr rfl))
      · exact .write _ (.inl rfl)
      · exact .wait
      · exact .read _
  | reads few =>
      obtain ⟨place, -, rfl⟩ := List.mem_map.mp member
      exact .read place

/-- So it is enough to look at these commands, and at the wait among them. -/
theorem Settles.of_sent (keeps : ∀ command, Sent command → ∀ target, settled target →
      settled (runCommand driver command target).2)
    (inTime : ∀ target, settled target →
      (Programmer.waitLoop driver ftfaFstat fstatCcif Firmware.maxRetries target).1 ≠ .timedOut) :
    Settles driver settled where
  keeps commands target asked here :=
    execute_keeps (fun command member => keeps command (asked.sent command member)) here
  inTime address data target here late := by
    have sent := (Asked.longword address data).sent
    obtain ⟨register, mask, target', member, here', timedOut⟩ :=
      timesOut_settled (fun command member => keeps command (sent command member)) here late
    cases sent _ member with
    | prompt prompt => exact prompt
    | wait => exact inTime target' here' timedOut

theorem Asked.inTime (settles : Settles driver settled) (asked : Asked commands)
    (here : settled target) : ¬ TimesOut driver commands target := by
  intro late
  obtain ⟨address, mask, member⟩ := timesOut_wait late
  cases asked with
  | single prompt =>
      rw [← List.mem_singleton.mp member] at prompt
      exact prompt
  | erase => exact Command.noConfusion (List.mem_singleton.mp member)
  | longword address data => exact settles.inTime address data target here late
  | reads few =>
      obtain ⟨place, -, same⟩ := List.mem_map.mp member
      exact Command.noConfusion same

end Settled

/-! ### One command, and more -/

section Execution

variable {σ : Type} {driver : Driver σ}

/-- A command that succeeds in front of others. -/
theorem execute_done {command : Command} {commands : List Command} {results : List Result}
    {target target' : σ} (done : runCommand driver command target = (.done results, target')) :
    execute driver none (command :: commands) target =
      { execute driver none commands target' with
        results := results ++ (execute driver none commands target').results } := by
  rw [execute, done]

theorem write_done {address data : Word} {target target' : σ}
    (written : driver.writeMemory address data target = (Status.ok.code, target')) :
    runCommand driver (.writeMem address data) target = (.done [], target') := by
  rw [runCommand, written]
  rfl

theorem read_done {address value : Word} {target target' : σ}
    (read : driver.readMemory address target = (Status.ok.code, value, target')) :
    runCommand driver (.readMem address) target = (.done [.word value], target') := by
  rw [runCommand, read]
  rfl

theorem wait_done {address mask : Word} {target target' : σ}
    (waited : Programmer.waitLoop driver address mask Firmware.maxRetries target =
      (.matched, target')) :
    runCommand driver (.waitMemTrue address mask) target = (.done [], target') := by
  rw [runCommand, waited]
  rfl

end Execution

section Direct

variable {σ : Type} {driver : Driver σ} {command : Command} {direct : Direct σ}

theorem exchange_single (driver : Driver σ) (command : Command) (direct : Direct σ) :
    (Direct.link driver).exchange command.bytes direct =
      let execution := execute driver none [command] direct.target
      (some execution.reply, { target := execution.target, reply := none }) := by
  rw [← packetBytes_single, Direct.exchange]

/-- A packet of one command leaves the target as the command does. -/
theorem exchange_target :
    ((Direct.link driver).exchange command.bytes direct).2.target =
      (runCommand driver command direct.target).2 := by
  rw [exchange_single]
  rcases ended : runCommand driver command direct.target with ⟨outcome, target⟩
  cases outcome <;> simp only [execute, ended]

/-- The reply to a command that answers with a word. -/
theorem exchange_read {response : Byte × Word × σ}
    (run : runCommand driver command direct.target = Outcome.ofRead response) :
    (Direct.link driver).exchange command.bytes direct =
      (some (if response.1 = Status.ok.code then 0 :: wordBytes response.2.1 else [response.1]),
        { target := response.2.2, reply := none }) := by
  rw [exchange_single, execute_read run]
  dsimp only [Execution.reply]
  by_cases ok : response.1 = Status.ok.code
  · rw [if_pos ok, if_pos ok, ok]
    rfl
  · rw [if_neg ok, if_neg ok]
    rfl

/-- The reply to a command that answers with its status. -/
theorem exchange_write {response : Byte × σ}
    (run : runCommand driver command direct.target = Outcome.ofWrite response) :
    (Direct.link driver).exchange command.bytes direct =
      (some [response.1], { target := response.2, reply := none }) := by
  rw [exchange_single, execute_write run]
  rfl

end Direct

end Swagger.Line
