/-
**The scripts see the memory of the target.**

The rig has the driver of the firmware (`arduinoSWDInterface`) over a target with a MEM-AP, which
may answer any transaction with WAIT or FAULT. What the scripts read and write over it, through
packets, frames, the interpreter and the SELECT cache, is the memory behind the MEM-AP: a rig that
`Holds` a memory (it is ready, and the cache shows SELECT) goes on holding it behind every packet
that writes none (`Holds.exchange`), a word that is read is the word of the memory, and what is not
read is reported as 0.

* `script_memory`: the calls of `readMemory` and `writeMemory` are the reads and writes of a store.
* `verified_memory`: `verifyFlash` returns 0 for no file but the one that the memory holds.
-/

import Swagger.Firmware.WordMemory
import Swagger.Line.Rig

namespace Swagger.Line

open Library Firmware Host

/-! ### Commands that leave the memory -/

section Driver

variable {ε : Type} (around : Surroundings ε)

/-- A read, a connect, an access to a port that is not AP 0, or a DP write off SELECT. -/
def LeavesMemory : Command → Prop
  | .readMem _ | .readDP _ | .connect | .getProgId => True
  | .readAP address | .writeAP address _ => apSel address ≠ 0
  | .writeDP address _ => a23 (address.setWidth 32) ≠ 2
  | .reset _ | .writeMem _ _ | .waitMemTrue _ _ => False

variable {state : MidLevel (MemTarget ε)}

theorem runCommand_leaves {command : Command} (leaves : LeavesMemory command)
    (shows : Shows state) :
    let after := (runCommand (arduinoSWDInterface around.port) command state).2
    Shows after ∧ after.target.memAp.memory = state.target.memAp.memory := by
  cases command with
  | readMem address =>
      obtain ⟨shows', same, -⟩ := readMemory_word around shows
        (show MidLevel.readMemory around.port address state = (_, _, _) from rfl)
      exact ⟨shows', same⟩
  | readDP address =>
      obtain ⟨rest, -, -, left⟩ := readDP_effect around
        (show MidLevel.readDP around.port (address.setWidth 32) state = (_, _, _) from rfl)
      refine ⟨?_, congrArg (fun after => after.target.memAp.memory) left⟩
      exact (congrArg Shows left).mpr shows
  | writeDP address data =>
      obtain ⟨rest, left⟩ := writeDP_leaves around leaves
        (show MidLevel.writeDP around.port (address.setWidth 32) data state = (_, _) from rfl)
      refine ⟨?_, congrArg (fun after => after.target.memAp.memory) left⟩
      exact (congrArg Shows left).mpr shows
  | connect => exact ⟨.inl rfl, rfl⟩
  | getProgId => exact ⟨shows, rfl⟩
  | readAP address =>
      obtain ⟨shows', same⟩ := readAP_other around shows leaves rfl
      exact ⟨shows', congrArg MemAp.memory same⟩
  | writeAP address data =>
      obtain ⟨shows', same⟩ := writeAP_other around shows leaves
        (show MidLevel.writeAP around.port address data state = (_, _) from rfl)
      exact ⟨shows', congrArg MemAp.memory same⟩
  | _ => exact leaves.elim

theorem execute_leaves {commands : List Command}
    (leaves : ∀ command ∈ commands, LeavesMemory command) (shows : Shows state) :
    let after := (execute (arduinoSWDInterface around.port) none commands state).target
    Shows after ∧ after.target.memAp.memory = state.target.memAp.memory := by
  let holds (after : MidLevel (MemTarget ε)) : Prop :=
    Shows after ∧ after.target.memAp.memory = state.target.memAp.memory
  refine @execute_keeps _ (arduinoSWDInterface around.port) holds commands state
    (fun command member after here => ?_) ⟨shows, rfl⟩
  obtain ⟨shows', same⟩ := runCommand_leaves around (leaves command member) here.1
  exact ⟨shows', same.trans here.2⟩

/-- The words at these addresses. -/
def wordsAt (memory : Word → Word) (addresses : List Word) : List Word :=
  addresses.map fun address => memory (wordAddress address)

/-- Reads that all succeed have the words of the memory as results. -/
theorem execute_words (addresses : List Word) (shows : Shows state)
    (ok : (execute (arduinoSWDInterface around.port) none (addresses.map Command.readMem)
      state).status = Status.ok.code) :
    (execute (arduinoSWDInterface around.port) none (addresses.map Command.readMem) state).results =
      (wordsAt state.target.memAp.memory addresses).map Result.word := by
  induction addresses generalizing state with
  | nil => rfl
  | cons address addresses ih =>
      rcases read : MidLevel.readMemory around.port address state with ⟨status, data, after⟩
      obtain ⟨shows', same, word⟩ := readMemory_word around shows read
      have ran : runCommand (arduinoSWDInterface around.port) (.readMem address) state =
          Outcome.ofRead (status, data, after) := congrArg Outcome.ofRead read
      rw [List.map_cons, execute, ran, Outcome.ofRead] at ok ⊢
      by_cases good : status = Status.ok.code
      · simp only [if_pos good] at ok ⊢
        rw [ih shows' ok, word good, same]
        rfl
      · simp only [if_neg good] at ok
        exact absurd ok good

end Driver

/-! ### A rig that holds a memory -/

section Rigs

variable {ε : Type} {around : Surroundings ε} {board : Board (MidLevel (MemTarget ε))}
  {patience : Nat} {memory : Word → Word} {rig : Rig (MidLevel (MemTarget ε))}

structure Holds (memory : Word → Word) (rig : Rig (MidLevel (MemTarget ε))) : Prop where
  ready : rig.Ready
  shows : Shows rig.programmer.target
  memory : rig.programmer.target.target.memAp.memory = memory

/-- A packet for which there is room in the buffers. -/
def Roomy (commands : List Command) : Prop :=
  (cobs.stuff [] (packetBytes commands none)).length ≤ 64 ∧ replyLength commands none ≤ 63

/-- A packet that leaves the memory. -/
def Leaves (packet : List Byte) : Prop :=
  ∃ commands, Roomy commands ∧ (∀ command ∈ commands, LeavesMemory command) ∧
    packet = packetBytes commands none

/-- A few reads do. -/
theorem reads_leave {addresses : List Word} (few : addresses.length ≤ 6) :
    Roomy (addresses.map Command.readMem) ∧
      ∀ command ∈ addresses.map Command.readMem, LeavesMemory command := by
  have asked : Asked (addresses.map Command.readMem) := .reads few
  refine ⟨⟨asked.frame_le.trans (by norm_num), asked.replyLength_le.trans (by norm_num)⟩, ?_⟩
  intro command member
  obtain ⟨address, -, rfl⟩ := List.mem_map.mp member
  trivial

/-- Such a command does, in a packet of its own. -/
theorem single_leaves {command : Command} (leaves : LeavesMemory command) :
    Leaves command.bytes := by
  obtain ⟨framed, fits⟩ := roomy_single command
  refine ⟨[command], ⟨by omega, by omega⟩, fun other member => ?_, (packetBytes_single _).symm⟩
  rw [List.mem_singleton.mp member]
  exact leaves

/-- `writeStat` and `readStat` behind it. -/
theorem stat_scripted (value : SQInteger) :
    Scripted Leaves fun _ link queues =>
      ((), (readStat link (writeStat link value queues).2).2) := by
  intro σ τ link link' related corresponds queues queues' same
  have requested := writeStat_matches corresponds same
    (single_leaves (show LeavesMemory (.writeDP 4 value) from (by decide : a23 4 ≠ 2)))
  have shown := readStat_matches corresponds requested.2
    (single_leaves (show LeavesMemory (.readDP 4) from trivial))
  exact ⟨rfl, shown.2⟩

/-- The programmer has the driver of the firmware, and is given enough steps for a reply. -/
structure Driven (around : Surroundings ε) (board : Board (MidLevel (MemTarget ε)))
    (patience : Nat) : Prop where
  driver : board.driver = arduinoSWDInterface around.port
  enough : 4621 ≤ patience

variable (driven : Driven around board patience)

include driven

theorem Holds.exchange (holds : Holds memory rig) {commands : List Command}
    (roomy : Roomy commands) (leaves : ∀ command ∈ commands, LeavesMemory command) :
    let execution :=
      execute (arduinoSWDInterface around.port) none commands rig.programmer.target
    let exchanged := (Rig.link board patience).exchange (packetBytes commands none) rig
    exchanged.1 = some execution.reply ∧ exchanged.2.programmer.target = execution.target ∧
      Holds memory exchanged.2 := by
  have inTime : ¬ TimesOut board.driver commands rig.programmer.target := by
    intro late
    obtain ⟨address, mask, member⟩ := timesOut_wait late
    exact leaves _ member
  obtain ⟨reply, ready, target⟩ := holds.ready.exchange roomy.1 roomy.2 inTime driven.enough
  rw [driven.driver] at reply target
  obtain ⟨shows, same⟩ := execute_leaves around leaves holds.shows
  refine ⟨reply, target, ready, ?_, ?_⟩
  · rw [target]
    exact shows
  · rw [target, same]
    exact holds.memory

/-- On such packets the rig does not differ from the driver, reached directly. -/
theorem holds_corresponds :
    (Rig.link board patience).Corresponds Leaves
      (fun rig direct => Holds memory rig ∧ direct = rig.direct)
      (Direct.link (arduinoSWDInterface around.port)) := by
  rintro packet rig direct ⟨commands, roomy, leaves, rfl⟩ ⟨holds, rfl⟩
  obtain ⟨reply, target, holds'⟩ := holds.exchange driven roomy leaves
  rw [Direct.exchange]
  refine ⟨reply, holds', ?_⟩
  exact congrArg (fun target => Direct.mk target none) target.symm

/-- A function of the scripts that sends such packets leaves the memory. -/
theorem Holds.scripted {α : Type} {run : ∀ σ : Type, Link σ → Queues σ → α × Queues σ}
    (scripted : Scripted Leaves run) {queues : Queues (Rig (MidLevel (MemTarget ε)))}
    (holds : Holds memory queues.state) :
    Holds memory (run _ (Rig.link board patience) queues).2.state := by
  refine scripted.keeps (Holds memory) ?_ holds
  rintro packet rig ⟨commands, roomy, leaves, rfl⟩ here
  exact (here.exchange driven roomy leaves).2.2

/-! ### What is read and written -/

/-- A packet of reads is refused, or answered with the words of the memory. -/
theorem Holds.reads (holds : Holds memory rig) {addresses : List Word}
    (few : addresses.length ≤ 6) :
    let exchanged := (Rig.link board patience).exchange (readPacketOf addresses) rig
    (Refused exchanged.1 ∨
        exchanged.1 = some (0 :: (wordsAt memory addresses).flatMap wordBytes)) ∧
      Holds memory exchanged.2 := by
  intro exchanged
  obtain ⟨roomy, leaves⟩ := reads_leave few
  obtain ⟨reply, -, holds'⟩ := holds.exchange driven roomy leaves
  refine ⟨?_, holds'⟩
  have words := execute_words around addresses holds.shows
  rw [holds.memory] at words
  by_cases ok : (execute (arduinoSWDInterface around.port) none (addresses.map Command.readMem)
      rig.programmer.target).status = Status.ok.code
  · refine .inr (reply.trans ?_)
    rw [Execution.reply, words ok, ok, flatMap_word]
    rfl
  · exact .inl ⟨_, _, reply, ok⟩

/-- `readMemory` returns the word of the memory, or 0. -/
theorem Holds.readMemory {queues : Queues (Rig (MidLevel (MemTarget ε)))}
    (holds : Holds memory queues.state) (address : SQInteger) :
    let read := Host.readMemory (Rig.link board patience) address queues
    (read.1 = memory (wordAddress address) ∨ read.1 = 0) ∧ Holds memory read.2.state := by
  have sent : (Command.readMem address).bytes = readPacketOf [address] :=
    (packetBytes_single _).symm
  obtain ⟨reply, holds'⟩ := holds.reads driven (Nat.le_of_ble_eq_true rfl : [address].length ≤ 6)
  rw [Host.readMemory, queueReadMemory_bytes, executeRead, executeStatus_eq, sent]
  simp only
  rcases reply with refused | answered
  · rw [if_neg (not_ok refused)]
    exact ⟨.inr rfl, holds'⟩
  · have accepted : statusOf (some (0 :: (wordsAt memory [address]).flatMap wordBytes)) =
        cmdStatusOk := rfl
    rw [answered, if_pos accepted, popUInt32_state, popUInt32_fst]
    exact ⟨.inl (wordOfBytes_byteOfWord _), holds'⟩

/-- `writeMemory` returns the status of the driver. It writes the word if that is 0, and else
nothing. -/
theorem Holds.writeMemory {queues : Queues (Rig (MidLevel (MemTarget ε)))}
    (holds : Holds memory queues.state) (address value : SQInteger) :
    let written := Host.writeMemory (Rig.link board patience) address value queues
    written.1 = ((MidLevel.writeMemory around.port address value
        queues.state.programmer.target).1).setWidth 32 ∧
      Holds (if written.1 = 0 then Function.update memory (wordAddress address) value else memory)
        written.2.state := by
  obtain ⟨framed, fits⟩ := roomy_single (.writeMem address value)
  have inTime : ¬ TimesOut board.driver [.writeMem address value]
      queues.state.programmer.target := by
    intro late
    obtain ⟨register, mask, member⟩ := timesOut_wait late
    exact Command.noConfusion (List.mem_singleton.mp member)
  obtain ⟨reply, ready, target⟩ := holds.ready.exchange (by omega) (by omega) inTime driven.enough
  rcases run : MidLevel.writeMemory around.port address value queues.state.programmer.target with
    ⟨status, after⟩
  obtain ⟨shows, effect⟩ := writeMemory_word around holds.shows run
  have ran : runCommand board.driver (.writeMem address value) queues.state.programmer.target =
      Outcome.ofWrite (status, after) := by
    rw [driven.driver]
    exact congrArg Outcome.ofWrite run
  rw [execute_write ran, packetBytes_single] at reply target
  rw [Host.writeMemory, queueWriteMemory_bytes, executeStatus_eq, reply]
  have same : statusOf (some (Execution.reply { results := [], status, target := after })) = 0 ↔
      status = Status.ok.code := setWidth_eq_ok status
  simp only [same]
  rw [holds.memory] at effect
  refine ⟨rfl, ready, ?_, ?_⟩
  · rw [target]
    exact shows
  · rw [target, effect]

end Rigs

/-! ### Runs of a script -/

section Runs

variable {ε : Type} {around : Surroundings ε} {board : Board (MidLevel (MemTarget ε))}
  {patience : Nat} {memory : Word → Word}

/-- A call of one of the two functions, with the value that it returned. -/
inductive Accessed
  | read (address value : SQInteger)
  | written (address value status : SQInteger)

/-- The runs of a script: calls of the two functions, and between them any function that sends
packets which leave the memory. -/
def accesses {σ : Type} (link : Link σ) : Lts (Queues σ) Accessed where
  step queues label queues' :=
    match label with
    | some (.read address value) => Host.readMemory link address queues = (value, queues')
    | some (.written address value status) =>
        Host.writeMemory link address value queues = (status, queues')
    | none => ∃ run : ∀ τ : Type, Link τ → Queues τ → Unit × Queues τ,
        Scripted Leaves run ∧ run σ link queues = ((), queues')

/-- What a call is to the store of words: a read that returned 0 may have failed. -/
def Accessed.storeEvent : Accessed → StoreEvent Word Word
  | .read address value => if value = 0 then .other else .read (wordAddress address) value
  | .written address value status =>
      if status = 0 then .write (wordAddress address) value else .other

theorem accesses_store (driven : Driven around board patience) :
    Lts.Simulates (accesses (Rig.link board patience)) (stores.relabel Accessed.storeEvent)
      fun queues memory => Holds memory queues.state := by
  intro queues memory label queues' holds step
  cases label with
  | none =>
      obtain ⟨run, scripted, same⟩ := step
      have kept := holds.scripted driven scripted
      rw [same] at kept
      exact ⟨memory, .refl memory, kept⟩
  | some event =>
      cases event with
      | read address value =>
          have read : Host.readMemory (Rig.link board patience) address queues =
              (value, queues') := step
          obtain ⟨returned, kept⟩ := holds.readMemory driven address
          rw [read] at returned kept
          refine ⟨memory, .visible ?_ (.refl memory), kept⟩
          show stores.step memory (some (Accessed.storeEvent _)) memory
          rw [Accessed.storeEvent]
          split_ifs with zero
          · rfl
          · exact ⟨returned.resolve_right zero, rfl⟩
      | written address value status =>
          have written : Host.writeMemory (Rig.link board patience) address value queues =
              (status, queues') := step
          obtain ⟨-, kept⟩ := holds.writeMemory driven address value
          rw [written] at kept
          refine ⟨_, .visible ?_ (.refl _), kept⟩
          show stores.step memory (some (Accessed.storeEvent _)) _
          rw [Accessed.storeEvent]
          simp only
          split_ifs with ok
          · rfl
          · rfl

/-- **The scripts see the memory.** In every run of a script over the whole stack, from a rig that
is ready and whose cache shows SELECT, on a target that may refuse any transaction: behind the run
the target holds the words that were written last, where a `writeMemory` that did not return 0 has
written nothing, and `readMemory` returns this word, or 0. -/
theorem script_memory (driven : Driven around board patience)
    {queues queues' : Queues (Rig (MidLevel (MemTarget ε)))} {events : List Accessed}
    (holds : Holds memory queues.state)
    (run : (accesses (Rig.link board patience)).Trace queues events queues') :
    let left := lastWritten memory (events.map Accessed.storeEvent)
    Holds left queues'.state ∧ ∀ address,
      (Host.readMemory (Rig.link board patience) address queues').1 ∈
        [left (wordAddress address), 0] := by
  intro left
  obtain ⟨memory', stored, holds'⟩ := (accesses_store driven).trace run holds
  have same : memory' = left := store_lastWritten (Lts.Trace.of_relabel stored)
  rw [same] at holds'
  refine ⟨holds', fun address => ?_⟩
  obtain ⟨returned, -⟩ := holds'.readMemory driven address
  exact List.mem_pair.mpr returned

/-- The board of the programmer, and a target that answers WAIT to every other transaction. -/
def flakyBoard : Board (MidLevel (MemTarget Bool)) :=
  { steadyBoard 0 with driver := arduinoSWDInterface flaky.port }

theorem flaky_driven : Driven flaky flakyBoard 4621 := ⟨rfl, le_rfl⟩

/-- A started programmer with this target and a memory. -/
def flakyRig (memory : Word → Word) : Rig (MidLevel (MemTarget Bool)) :=
  Rig.boot (MidLevel.boot { blankTarget with memAp := { csw := 0, tar := 0, memory } })

theorem flakyRig_holds (memory : Word → Word) : Holds memory (flakyRig memory) :=
  ⟨Rig.boot_ready _, .inl rfl, rfl⟩

theorem accesses_written {σ : Type} (link : Link σ) {address value status : SQInteger}
    {queues : Queues σ} (returned : (Host.writeMemory link address value queues).1 = status) :
    (accesses link).Trace queues [.written address value status]
      (readStat link
        (writeStat link 0x50000000 (Host.writeMemory link address value queues).2).2).2 :=
  .visible (Prod.ext returned rfl) (.silent ⟨_, stat_scripted 0x50000000, rfl⟩ (.refl _))

/-- A word is written, and read back behind a request for the debug power. -/
theorem script_memory_flaky :
    let link := Rig.link flakyBoard 4621
    let written := Host.writeMemory link 0x20000000 0xDEADBEEF (fresh (flakyRig fun _ => 0))
    let powered := readStat link (writeStat link 0x50000000 written.2).2
    (Host.readMemory link 0x20000000 powered.2).1 ∈ [0xDEADBEEF, 0] := by
  have holds : Holds (fun _ => 0) (fresh (flakyRig fun _ => 0)).state := flakyRig_holds _
  have status := (holds.writeMemory flaky_driven 0x20000000 0xDEADBEEF).1
  have accepted : ((MidLevel.writeMemory flaky.port 0x20000000 0xDEADBEEF
      (flakyRig fun _ => 0).programmer.target).1).setWidth 32 = (0 : Word) := by
    decide +kernel
  have run := accesses_written (Rig.link flakyBoard 4621) (status.trans accepted)
  have returns := (script_memory flaky_driven holds run).2 0x20000000
  have left : lastWritten (fun _ => 0)
      ([Accessed.written 0x20000000 0xDEADBEEF 0].map Accessed.storeEvent)
      (wordAddress 0x20000000) = 0xDEADBEEF := by
    decide +kernel
  rw [left] at returns
  exact returns

end Runs

/-! ### A file that has been verified -/

section Verified

variable {ε : Type} {around : Surroundings ε} {board : Board (MidLevel (MemTarget ε))}
  {patience : Nat} {memory : Word → Word}

/-- A packet of a few reads. -/
def ReadsFew (packet : List Byte) : Prop :=
  ∃ addresses : List Word, addresses.length ≤ 6 ∧ packet = readPacketOf addresses

/-- A read that was not refused has told what the memory holds. -/
def Genuine (memory : Word → Word) (exchange : Exchange) : Prop :=
  ∀ addresses, exchange.packet = readPacketOf addresses →
    Refused exchange.reply ∨
      exchange.reply = some (0 :: (wordsAt memory addresses).flatMap wordBytes)

theorem readPacketOf_injective : Function.Injective readPacketOf := by
  intro addresses addresses' same
  have commands := congrArg commandsOf same
  rw [readPacketOf, readPacketOf, commandsOf_packetBytes, commandsOf_packetBytes] at commands
  exact List.map_injective_iff.mpr (fun _ _ => Command.readMem.inj) commands

theorem poppedWords_words (words : List Word) :
    poppedWords words.length (words.flatMap wordBytes) = words := by
  induction words with
  | nil => rfl
  | cons word words ih =>
      have first : firstWord ((word :: words).flatMap wordBytes) = word :=
        wordOfBytes_byteOfWord word
      rw [List.length_cons, poppedWords, first]
      exact congrArg (word :: ·) ih

/-- The addresses of words are multiples of 4. -/
theorem wordAddress_word (index : Nat) :
    wordAddress (BitVec.ofNat 32 (4 * index)) = BitVec.ofNat 32 (4 * index) := by
  have low : BitVec.ofNat 32 (4 * index) &&& 3 = 0 := by
    apply BitVec.eq_of_toNat_eq
    rw [BitVec.toNat_and, show (3 : Word).toNat = 2 ^ 2 - 1 from rfl,
      Nat.and_two_pow_sub_one_eq_mod, BitVec.toNat_ofNat, show (0 : Word).toNat = 0 from rfl]
    omega
  have split : wordAddress (BitVec.ofNat 32 (4 * index)) ||| (BitVec.ofNat 32 (4 * index) &&& 3) =
      BitVec.ofNat 32 (4 * index) := by
    rw [wordAddress, ← BitVec.and_or_distrib_left]
    exact BitVec.and_allOnes
  rw [low] at split
  exact BitVec.or_zero.symm.trans split

theorem verifyFlash_scripted (file : BinaryFile) :
    Scripted ReadsFew fun _ link queues => verifyFlash link (some file) queues := by
  have admits : AdmitsReads ReadsFew (2 ^ 32) := by
    intro address count _ few _ _
    refine ⟨addressesAt address count, ?_, rfl⟩
    rw [length_addressesAt]
    exact few
  have inside : ∀ other ∈ some file, other.bytes.length ≤ 2 ^ 32 := by
    intro other _
    have small := other.fits
    omega
  intro σ τ link link' related corresponds queues queues' same
  exact verifyFlash_matches admits le_rfl corresponds (some file) inside same

/-- All that is read is genuine. -/
theorem Holds.genuine (driven : Driven around board patience)
    {queues : Queues (Rig (MidLevel (MemTarget ε)))} (holds : Holds memory queues.state)
    (file : BinaryFile) :
    ∀ exchange ∈ (verifyFlash (Rig.link board patience).transcript (some file)
      queues.unwritten).2.state.log, Genuine memory exchange := by
  let told (transcript : Transcript (Rig (MidLevel (MemTarget ε)))) : Prop :=
    Holds memory transcript.state ∧ ∀ exchange ∈ transcript.log, Genuine memory exchange
  have kept (packet : List Byte) (transcript : Transcript (Rig (MidLevel (MemTarget ε))))
      (sends : ReadsFew packet) (here : told transcript) :
      told ((Rig.link board patience).transcript.exchange packet transcript).2 := by
    obtain ⟨addresses, few, rfl⟩ := sends
    obtain ⟨reply, holds'⟩ := here.1.reads driven few
    refine ⟨holds', fun exchange member => ?_⟩
    rcases List.mem_append.mp member with before | last
    · exact here.2 exchange before
    · rw [List.mem_singleton.mp last]
      intro addresses' same
      rw [← readPacketOf_injective same]
      exact reply
  have start : told queues.unwritten.state :=
    ⟨holds, fun _ member => absurd member List.not_mem_nil⟩
  exact (Scripted.keeps (verifyFlash_scripted file) told kept start).2

/-- **What is verified is in the memory.** Over the whole stack, from a rig that is ready and whose
cache shows SELECT, on a target that may refuse any transaction: when `verifyFlash` returns 0, the
words of the file are what the target holds from address 0 on. -/
theorem verified_memory (driven : Driven around board patience)
    {queues : Queues (Rig (MidLevel (MemTarget ε)))} (holds : Holds memory queues.state)
    (file : BinaryFile)
    (done : (verifyFlash (Rig.link board patience) (some file) queues).1 = .returned 0)
    (index : Nat) (word : Word) (here : (wordsOf file.bytes)[index]? = some word) :
    memory (BitVec.ofNat 32 (4 * index)) = word := by
  have same : (verifyFlash (Rig.link board patience).transcript (some file) queues.unwritten).1 =
      .returned 0 := by
    have corresponds : (Rig.link board patience).transcript.Corresponds ReadsFew
        (fun transcript state => transcript.state = state) (Rig.link board patience) := by
      rintro packet transcript state _ rfl
      exact ⟨rfl, rfl⟩
    exact (verifyFlash_scripted file corresponds ⟨rfl, rfl, rfl⟩).1.trans done
  obtain ⟨events, log, verified⟩ :=
    verifyFlash_course (Rig.link board patience) (some file) queues.unwritten
  have genuine := holds.genuine driven file
  rw [log] at genuine
  rw [same] at verified
  generalize ends : Ending.returned 0 = ending at verified
  cases verified with
  | empty => cases ends
  | denied => exact absurd (Ending.returned.inj ends) (by decide)
  | confirmed through =>
      obtain ⟨chunk, member, place, found, addressed⟩ := chunksOf_place 0 _ here
      obtain ⟨exchange, inside, sent, accepted, popped⟩ := through_item through chunk member
      have told := genuine exchange (List.mem_append_right _ inside) _ sent
      rw [told.resolve_left accepted] at popped
      have words : chunk.words = wordsAt memory (addressesAt chunk.address chunk.words.length) := by
        have all := poppedWords_words
          (wordsAt memory (addressesAt chunk.address chunk.words.length))
        rw [wordsAt, List.length_map, length_addressesAt] at all
        exact popped.symm.trans all
      rw [words, wordsAt, List.getElem?_map, addressed, Option.map_some] at found
      have absolute : (0 : Word) + BitVec.ofNat 32 (4 * index) = BitVec.ofNat 32 (4 * index) :=
        BitVec.zero_add _
      rw [absolute, wordAddress_word] at found
      exact Option.some.inj found

/-- A file of two words is verified with one call of `readMemoryWords`. -/
theorem verifyFlash_twoWords {σ : Type} (link : Link σ) (queues : Queues σ)
    (read : (readMemoryWords link 0 2 queues).1 = .array [0x84030201, 0xFFFFFFFF]) :
    (verifyFlash link (some twoWords) queues).1 = .returned 0 := by
  have blob : twoWords.readblob twoWords.len = some { size := 8, rest := twoWords.bytes } := rfl
  have compared : compareLoop [0x84030201, 0xFFFFFFFF] (2 : SQInteger).toInt.toNat 0
      { size := 8, rest := twoWords.bytes } = .ok { size := 8, rest := [] } := rfl
  have count : wordCount ((8 : SQInteger).sdiv 4) = 2 := by decide
  rw [verifyFlash]
  simp only [blob]
  rw [verifyLoop, if_pos (by decide), count]
  simp only [read, compared]
  rw [verifyLoop, if_neg (by decide)]

/-- The memory holds a word and a blank word, and is verified. -/
theorem verified_memory_words :
    let memory := Function.update (fun _ => 0xFFFFFFFF) 0 0x84030201
    (verifyFlash (Rig.link flakyBoard 4621) (some twoWords) (fresh (flakyRig memory))).1 =
        .returned 0 ∧ memory (BitVec.ofNat 32 (4 * 0)) = 0x84030201 := by
  intro memory
  have corresponds : (Rig.link flakyBoard 4621).Corresponds ReadsFew
      (fun rig direct => Holds memory rig ∧ direct = rig.direct)
      (Direct.link (arduinoSWDInterface flaky.port)) := by
    intro packet rig direct sends stands
    obtain ⟨addresses, few, rfl⟩ := sends
    obtain ⟨roomy, leaves⟩ := reads_leave few
    exact holds_corresponds flaky_driven _ _ _ ⟨_, roomy, leaves, rfl⟩ stands
  have done : (verifyFlash (Rig.link flakyBoard 4621) (some twoWords)
      (fresh (flakyRig memory))).1 = .returned 0 := by
    have same : (fresh (flakyRig memory)).Same (fun rig direct => Holds memory rig ∧
        direct = rig.direct) (fresh (flakyRig memory).direct) :=
      ⟨rfl, rfl, flakyRig_holds memory, rfl⟩
    refine (verifyFlash_scripted twoWords corresponds same).1.trans ?_
    exact verifyFlash_twoWords _ _ (by decide +kernel)
  exact ⟨done, verified_memory flaky_driven (flakyRig_holds memory) twoWords done 0 0x84030201 rfl⟩

end Verified

end Swagger.Line
