/-
**A run over the whole stack is a run on the target.**

A rig is the host's port, the serial line, and the programmer behind it (`Rig`). The bytes that the
port takes lie on the line; while the host waits for a reply the programmer works on them, and what
it sends comes in at the port.

The rig and its target on its own correspond on the packets of a run (`rig_corresponds`), as long as
the waits for the flash controller end: an exchange over a rig that is ready leaves it ready
(`Rig.Ready.exchange`). So the framing, the buffers and the interpreter change nothing of a run,
from its first command to its end (`stack_transparent`).

What is known of a chip on its own then holds of it behind the stack: its words are what reads
deliver and what `verifyFlash` compares the file with (`rig_reads`, `rig_verifies`), and a run
leaves the file in its flash (`flashes_chip`; with the driver of the firmware, `flashes_device`).
-/

import Swagger.Firmware.Response
import Swagger.Line.FlashDevice

namespace Swagger.Line

open Library Firmware Host

/-! ### The rig -/

/-- The host's port, the bytes on the line to the programmer, and the programmer. -/
structure Rig (σ : Type) where
  port : HardwareInterface
  serial : List Byte
  programmer : Programmer σ

namespace Rig

variable {σ : Type} (board : Board σ) (patience : Nat)

/-- What the port takes lies on the line. -/
def writePacket (data : List Byte) (rig : Rig σ) : Bool × Rig σ :=
  let (written, port) := rig.port.writePacket data
  (written, { rig with port, serial := rig.serial ++ port.sent.drop rig.port.sent.length })

/-- The programmer takes so many steps at most, and what it sends comes in at the port. -/
def work (rig : Rig σ) : Rig σ :=
  let (programmer, serial) := rig.programmer.work board patience rig.serial
  let replies := (programmer.sent.drop rig.programmer.sent.length).flatten
  { port := { rig.port with incoming := rig.port.incoming ++ replies.map .byte }
    serial
    programmer }

/-- The programmer works while the host waits. -/
def readPacket (data : List Byte) (rig : Rig σ) : Bool × List Byte × Rig σ :=
  let rig := rig.work board patience
  let (read, data, port) := rig.port.readPacket data
  (read, data, { rig with port })

/-- The transport of the host, with the programmer behind it. -/
def link : Link (Rig σ) where
  writePacket := writePacket
  readPacket := readPacket board patience
  failed_empty rig := (rig.work board patience).port.readPacket_failed

/-- Between two exchanges in which everything arrived. -/
structure Ready (rig : Rig σ) : Prop where
  isOpen : rig.port.isOpen = true
  incoming : rig.port.incoming = []
  writes : rig.port.writes = []
  serial : rig.serial = []
  idle : rig.programmer.Idle

variable {board patience} {rig : Rig σ}

/-- A packet of commands is executed, the host reads the reply, and the rig is ready again. -/
theorem Ready.exchange (ready : rig.Ready) {commands : List Command}
    (small : (cobs.stuff [] (packetBytes commands none)).length ≤ 64)
    (fits : replyLength commands none ≤ 63)
    (inTime : ¬ TimesOut board.driver commands rig.programmer.target)
    (enough : 4621 ≤ patience) :
    let execution := execute board.driver none commands rig.programmer.target
    let exchanged := (link board patience).exchange (packetBytes commands none) rig
    exchanged.1 = some execution.reply ∧ exchanged.2.Ready ∧
      exchanged.2.programmer.target = execution.target := by
  intro execution exchanged
  obtain ⟨port, serial, programmer⟩ := rig
  obtain ⟨isOpen, incoming, writes, bytesSent, lastError⟩ := port
  obtain ⟨rfl, rfl, rfl, rfl, idle⟩ := ready
  have taken := @writePacket_taken
    { isOpen := true, incoming := [], writes := [], sent := bytesSent, lastError }
    (packetBytes commands none) rfl rfl
  obtain ⟨programmer', worked, idle', target, sent⟩ := idle.works board
    (zero_notMem_stuff (packetBytes commands none))
    (show ∀ byte ∈ (none : Option Byte), Opcode.ofCode? byte = none from nofun)
    (unstuff_stuff _) fits small inTime (show _ ≤ patience by omega)
  have replied := HardwareInterface.readPacket_encode
    (execute board.driver none commands programmer.target).reply [] []
    { isOpen := true
      incoming := []
      writes := []
      sent := bytesSent ++ encode (packetBytes commands none)
      lastError }
  rw [List.append_nil] at replied
  have read : exchanged = (some execution.reply,
      { port :=
          { isOpen := true
            incoming := []
            writes := []
            sent := bytesSent ++ encode (packetBytes commands none)
            lastError }
        serial := []
        programmer := programmer' }) := by
    unfold exchanged Link.exchange
    simp only [link, writePacket, readPacket, work, taken, List.drop_left, List.nil_append,
      List.tail_nil]
    simp only [encode_eq] at replied ⊢
    simp only [worked, sent, List.drop_left, List.flatten_singleton, frameOf, replied]
    rfl
  rw [read]
  exact ⟨rfl, ⟨rfl, rfl, rfl, rfl, idle'⟩, target⟩

end Rig

/-! ### They correspond -/

section Stack

variable {σ : Type}

variable {board : Board σ} {settled : σ → Prop} {patience : Nat}

/-- A rig that is ready, and its target on its own. -/
structure Stands (settled : σ → Prop) (rig : Rig σ) (direct : Direct σ) : Prop where
  ready : rig.Ready
  target : direct = { target := rig.programmer.target, reply := none }
  settled : settled rig.programmer.target

theorem rig_corresponds (settles : Settles board.driver settled) (enough : 4621 ≤ patience) :
    (Rig.link board patience).Corresponds Asks (Stands settled) (Direct.link board.driver) := by
  rintro packet rig direct ⟨commands, asked, rfl⟩ ⟨ready, rfl, here⟩
  have framed := asked.frame_le
  have fits := asked.replyLength_le
  obtain ⟨reply, ready', target⟩ := ready.exchange (by omega) (by omega)
    (asked.inTime settles here) enough
  rw [Direct.exchange]
  refine ⟨reply, ready', ?_, ?_⟩
  · rw [target]
  · rw [target]
    exact settles.keeps commands _ asked here

/-- The target of a rig on its own. -/
def Rig.direct (rig : Rig σ) : Direct σ := { target := rig.programmer.target, reply := none }

/-- The runs on both. -/
theorem run_matches (settles : Settles board.driver settled) (enough : 4621 ≤ patience)
    {rig : Rig σ} (ready : rig.Ready) (here : settled rig.programmer.target) (interactive : Bool)
    (binFile : Option BinaryFile) :
    Matches (Stands settled) (initSystem (Rig.link board patience) interactive binFile (fresh rig))
      (initSystem (Direct.link board.driver) interactive binFile (fresh rig.direct)) := by
  have inside : ∀ file ∈ binFile, file.bytes.length ≤ 2 ^ 32 := by
    intro file _
    have small := file.fits
    omega
  have start : (fresh rig).Same (Stands settled) (fresh rig.direct) :=
    ⟨rfl, rfl, ready, rfl, here⟩
  exact initSystem_matches asks_singles asks_erase (rig_corresponds settles enough) asks_longwords
    (asks_reads (2 ^ 32)) le_rfl interactive binFile inside start

/-- **The stack is transparent.** On a rig that is ready, with a programmer that is given enough
steps for a reply and a target on which the waits for the flash controller end: a run ends as the
run does that reaches the target directly, leaves the target as that one does, and leaves the rig
ready. -/
theorem stack_transparent (settles : Settles board.driver settled) (enough : 4621 ≤ patience)
    {rig : Rig σ} (ready : rig.Ready) (here : settled rig.programmer.target) (interactive : Bool)
    (binFile : Option BinaryFile) :
    let run := initSystem (Rig.link board patience) interactive binFile (fresh rig)
    let direct := initSystem (Direct.link board.driver) interactive binFile (fresh rig.direct)
    run.1 = direct.1 ∧ run.2.state.programmer.target = direct.2.state.target ∧
      run.2.state.Ready := by
  intro run direct
  obtain ⟨ended, same⟩ := run_matches settles enough ready here interactive binFile
  refine ⟨ended, ?_, same.state.ready⟩
  rw [same.state.target]

/-- A programmer that has been started, at an open port. -/
def Rig.boot (target : σ) : Rig σ where
  port := { isOpen := true, incoming := [], writes := [], sent := [], lastError := "" }
  serial := []
  programmer := Programmer.boot target

theorem Rig.boot_ready (target : σ) : (Rig.boot target).Ready :=
  ⟨rfl, rfl, rfl, rfl, Programmer.boot_idle target⟩

/-- A programmer with the part of 32 KB. -/
def kv10zBoard : Board (MidLevel (BusTarget Kv10z)) := { steadyBoard 0 with driver := kv10zDriver }

/-- Two words are programmed over the stack as they are on the part itself. -/
theorem stack_transparent_words :
    (initSystem (Rig.link kv10zBoard 4621) false (some twoWords)
      (fresh (Rig.boot usedKv10z))).1 = .finished := by
  have settles : Settles kv10zBoard.driver (Behind (Kv10z.Sound 2)) := kv10z_chip.settles
  obtain ⟨ended, -, -⟩ := @stack_transparent _ kv10zBoard (Behind (Kv10z.Sound 2)) 4621 settles
    le_rfl (Rig.boot usedKv10z) (Rig.boot_ready usedKv10z) usedKv10z_behind false (some twoWords)
  exact ended.trans usedKv10z_finishes

end Stack

/-! ### A chip behind the stack -/

section Chips

variable {σ : Type} {board : Board σ} {view : σ → Controller} {sound ready : σ → Prop}
  {limit : Nat} (chip : Chip board.driver view sound ready limit) {patience : Nat}
  (enough : 4621 ≤ patience)

include chip enough

/-- Reads over the stack are answered with the words of the flash. -/
theorem rig_reads (contents : Flash) :
    ReadsMemory (Rig.link board patience)
      (fun rig => rig.Ready ∧ sound rig.programmer.target ∧
        (view rig.programmer.target).flash = contents ∧ ready rig.programmer.target)
      (fun place => place.toNat % 4 = 0 ∧ place.toNat + 4 ≤ limit)
      (Host.wordAt contents) := by
  intro address count rig ⟨isReady, here⟩ some few inside
  have asks : Asks (readPacketOf (addressesAt address count)) :=
    ⟨_, .reads ((length_addressesAt address count).trans_le few), rfl⟩
  obtain ⟨reply, stands⟩ := rig_corresponds chip.settles enough _ rig rig.direct asks
    ⟨isReady, rfl, here.1⟩
  obtain ⟨words, here'⟩ := chip.part.reads contents address count rig.direct here some few inside
  rw [stands.target] at here'
  exact ⟨reply.trans words, stands.ready, here'⟩

/-- `verifyFlash` over the stack compares the file with the flash. -/
theorem rig_verifies (file : BinaryFile) (nonempty : file.bytes ≠ [])
    (fits : file.bytes.length ≤ limit) {rig : Rig σ} (isReady : rig.Ready)
    (here : sound rig.programmer.target) (accessible : ready rig.programmer.target) :
    (verifyFlash (Rig.link board patience) (some file) (fresh rig)).1 = .returned 0 ↔
      ∀ i < file.bytes.length / 4, (wordsOf file.bytes)[i]? =
        some (Host.wordAt (view rig.programmer.target).flash (BitVec.ofNat 32 (4 * i))) :=
  (verifyFlash_compares file ((rig_reads chip enough _).within (placesOf_inside fits)) nonempty
    ⟨isReady, here, rfl, accessible⟩).1

end Chips

end Swagger.Line
