/-
**A chip behind the driver.**

A chip is what the driver of the programmer reaches: a flash controller with its registers
(`Controller`), behind a debug port and the MDM-AP that erases it (`Chip`). What the packets of a
run come to is worked out command by command: the seven commands of a longword clear the error bits,
fill in the command registers and launch the command (`Chip.execute_longword`), and reads are
answered with the words of the flash (`Chip.execute_reads`). So the chip, reached directly, is a
part (`Chip.part`), and the waits for its flash controller end (`Chip.settles`).
-/

import Swagger.Host.Part
import Swagger.Line.Direct

namespace Swagger.Line

open Library Firmware Host

/-! ### The flash controller -/

/-- The flash, the two words of the command registers that are used, and whether an error bit is
set. -/
structure Controller where
  flash : Flash
  command : Word
  data : Word
  failed : Bool

namespace Controller

/-- The error bits of `FSTAT`. -/
def errors : Word := fstatRdcolerr ||| fstatAccerr ||| fstatFpviol

/-- The command in the registers is carried out: it programs a longword, or is an error. -/
def launch (limit : Nat) (controller : Controller) : Controller :=
  let address := controller.command &&& 0x00FFFFFF
  if controller.failed = false ∧ controller.command &&& 0xFF000000 = 0x06000000 ∧
      address.toNat % 4 = 0 ∧ address.toNat < limit then
    { controller with flash := programLongword controller.flash address controller.data }
  else { controller with failed := true }

/-- A write to one of its registers. In `FSTAT`, ones clear the error bits and launch a command. -/
def write (limit : Nat) (register value : Word) (controller : Controller) : Controller :=
  if register = ftfaFccobBase then { controller with command := value }
  else if register = ftfaFccobBase + 4 then { controller with data := value }
  else
    let cleared :=
      if value &&& errors = errors then { controller with failed := false } else controller
    if value &&& fstatCcif ≠ 0 then cleared.launch limit else cleared

end Controller

/-- What the driver reaches, in the states that are `sound`: `view` is the flash controller of the
target, and a target that is `ready` has its memory accessible. -/
structure Chip {σ : Type} (driver : Driver σ) (view : σ → Controller) (sound ready : σ → Prop)
    (limit : Nat) : Prop where
  addressable : limit ≤ 2 ^ 24
  keeps : ∀ command, Sent command → ∀ target, sound target →
    sound (runCommand driver command target).2
  /-- The request of the erase is granted or refused. -/
  erase : ∀ target, sound target →
    let erased := driver.writeAP mdmApCtrl (mdmCtrlSysResetReq ||| mdmCtrlFlashErase) target
    (erased.1 = Status.ok.code ∧ (view erased.2).flash = blank) ∨
      (erased.1 ≠ Status.ok.code ∧ (view erased.2).flash = (view target).flash)
  /-- When the erase is seen to be over, the chip is ready. -/
  poll : ∀ target, sound target → let polled := driver.readAP mdmApCtrl target
    polled.1 = Status.ok.code → polled.2.1 &&& mdmCtrlFlashErase = 0 → ready polled.2.2
  prompt : ∀ command target, Prompt command → sound target →
    let next := (runCommand driver command target).2
    (view next).flash = (view target).flash ∧ (ready target → ready next)
  write : ∀ register value target, FlashRegister register → sound target → ready target →
    ∃ target', driver.writeMemory register value target = (Status.ok.code, target') ∧
      ready target' ∧ view target' = (view target).write limit register value
  /-- A command of the controller is over within the reads of a wait. -/
  wait : ∀ target, sound target → ready target →
    ∃ target', Programmer.waitLoop driver ftfaFstat fstatCcif Firmware.maxRetries target =
        (.matched, target') ∧ ready target' ∧ view target' = view target
  inTime : ∀ target, sound target →
    (Programmer.waitLoop driver ftfaFstat fstatCcif Firmware.maxRetries target).1 ≠ .timedOut
  status : ∀ target, sound target → ready target →
    ∃ value target', driver.readMemory ftfaFstat target = (Status.ok.code, value, target') ∧
      flashFailed value = (view target).failed ∧ ready target' ∧ view target' = view target
  read : ∀ address target, sound target → ready target → address.toNat % 4 = 0 →
    address.toNat + 4 ≤ limit →
    ∃ target', driver.readMemory address target =
        (Status.ok.code, Host.wordAt (view target).flash address, target') ∧
      ready target' ∧ view target' = view target

/-! ### The registers -/

namespace Controller

variable (limit : Nat) (controller : Controller)

theorem write_clear :
    controller.write limit ftfaFstat
        (0xFFFE0000 ||| fstatRdcolerr ||| fstatAccerr ||| fstatFpviol) =
      { controller with failed := false } := by
  rw [write, if_neg (by decide), if_neg (by decide), if_neg (by decide)]
  exact if_pos (by decide)

theorem write_command (value : Word) :
    controller.write limit ftfaFccobBase value = { controller with command := value } :=
  if_pos rfl

theorem write_data (value : Word) :
    controller.write limit (ftfaFccobBase + 4) value = { controller with data := value } := by
  rw [write, if_neg (by decide)]
  exact if_pos rfl

theorem write_launch :
    controller.write limit ftfaFstat (0xFFFE0000 ||| fstatCcif) = controller.launch limit := by
  rw [write, if_neg (by decide), if_neg (by decide), if_pos (by decide)]
  exact congrArg (launch limit) (if_neg (by decide))

/-- The writes that program a longword, one behind the other. -/
def programmed (address data : Word) : Controller :=
  { controller with
    command := 0x06000000 ||| (address &&& 0x00FFFFFF)
    data
    failed := false }.launch limit

/-- They program it, if it is one of the flash. -/
theorem programmed_inside {limit : Nat} (addressable : limit ≤ 2 ^ 24) {address : Word}
    (aligned : address.toNat % 4 = 0) (inside : address.toNat < limit) (data : Word) :
    (controller.programmed limit address data).flash =
        programLongword controller.flash address data ∧
      (controller.programmed limit address data).failed = false := by
  have whole : address &&& 0x00FFFFFF = address := by
    apply BitVec.eq_of_toNat_eq
    rw [toNat_masked, Nat.mod_eq_of_lt (by omega)]
  have place : (0x06000000 ||| (address &&& 0x00FFFFFF)) &&& 0x00FFFFFF = address := by
    rw [BitVec.and_or_distrib_right, BitVec.and_assoc, BitVec.and_self, whole]
    exact BitVec.zero_or
  have opcode : (0x06000000 ||| (address &&& 0x00FFFFFF)) &&& 0xFF000000 = 0x06000000 := by
    rw [BitVec.and_or_distrib_right, BitVec.and_assoc]
    exact congrArg (0x06000000 ||| ·) BitVec.and_zero
  rw [programmed, launch]
  simp only [place]
  rw [if_pos ⟨trivial, opcode, aligned, inside⟩]
  exact ⟨rfl, rfl⟩

end Controller

/-! ### The packets of a run on a chip -/

namespace Chip

variable {σ : Type} {driver : Driver σ} {view : σ → Controller} {sound ready : σ → Prop}
  {limit : Nat} (chip : Chip driver view sound ready limit)

include chip

theorem sound_of_run {command : Command} (sent : Sent command) {outcome : Outcome}
    {target target' : σ} (run : runCommand driver command target = (outcome, target'))
    (isSound : sound target) : sound target' := by
  have kept := chip.keeps command sent target isSound
  rwa [run] at kept

/-- The seven commands of a longword. -/
theorem execute_longword (address data : Word) {target : σ} (isSound : sound target)
    (isReady : ready target) :
    ∃ value target', execute driver none (longwordCommands address data) target =
        { results := [.word value], status := Status.ok.code, target := target' } ∧
      sound target' ∧ ready target' ∧ view target' = (view target).programmed limit address data ∧
      flashFailed value = (view target').failed := by
  have status : FlashRegister ftfaFstat := .inl rfl
  have first : FlashRegister ftfaFccobBase := .inr (.inl rfl)
  have second : FlashRegister (ftfaFccobBase + 4) := .inr (.inr rfl)
  obtain ⟨t₁, cleared, ready₁, view₁⟩ := chip.write ftfaFstat
    (0xFFFE0000 ||| fstatRdcolerr ||| fstatAccerr ||| fstatFpviol) target status isSound isReady
  have sound₁ := chip.sound_of_run (.write _ status) (write_done cleared) isSound
  obtain ⟨t₂, waited, ready₂, view₂⟩ := chip.wait t₁ sound₁ ready₁
  have sound₂ := chip.sound_of_run .wait (wait_done waited) sound₁
  obtain ⟨t₃, command, ready₃, view₃⟩ := chip.write ftfaFccobBase
    (0x06000000 ||| (address &&& 0x00FFFFFF)) t₂ first sound₂ ready₂
  have sound₃ := chip.sound_of_run (.write _ first) (write_done command) sound₂
  obtain ⟨t₄, filled, ready₄, view₄⟩ := chip.write (ftfaFccobBase + 4) data t₃ second sound₃ ready₃
  have sound₄ := chip.sound_of_run (.write _ second) (write_done filled) sound₃
  obtain ⟨t₅, launched, ready₅, view₅⟩ := chip.write ftfaFstat (0xFFFE0000 ||| fstatCcif) t₄
    status sound₄ ready₄
  have sound₅ := chip.sound_of_run (.write _ status) (write_done launched) sound₄
  obtain ⟨t₆, waited', ready₆, view₆⟩ := chip.wait t₅ sound₅ ready₅
  have sound₆ := chip.sound_of_run .wait (wait_done waited') sound₅
  obtain ⟨value, t₇, read, shows, ready₇, view₇⟩ := chip.status t₆ sound₆ ready₆
  have sound₇ := chip.sound_of_run (.read _) (read_done read) sound₆
  refine ⟨value, t₇, ?_, sound₇, ready₇, ?_, by rw [view₇, shows]⟩
  · simp only [longwordCommands, longwordRequests, List.map_cons, List.map_nil, Call.command]
    rw [execute_done (write_done cleared), execute_done (wait_done waited),
      execute_done (write_done command), execute_done (write_done filled),
      execute_done (write_done launched), execute_done (wait_done waited'),
      execute_done (read_done read), execute]
    rfl
  · rw [view₇, view₆, view₅, view₄, view₃, view₂, view₁, Controller.write_clear,
      Controller.write_command, Controller.write_data, Controller.write_launch]
    rfl

/-- Reads of words of the flash. -/
theorem execute_reads (addresses : List Word)
    (inside : ∀ address ∈ addresses, address.toNat % 4 = 0 ∧ address.toNat + 4 ≤ limit)
    {target : σ} (isSound : sound target) (isReady : ready target) :
    ∃ target', execute driver none (addresses.map Command.readMem) target =
        { results := (addresses.map (Host.wordAt (view target).flash)).map Result.word
          status := Status.ok.code
          target := target' } ∧
      sound target' ∧ ready target' ∧ view target' = view target := by
  induction addresses generalizing target with
  | nil => exact ⟨target, rfl, isSound, isReady, rfl⟩
  | cons address addresses ih =>
      obtain ⟨⟨aligned, below⟩, others⟩ := List.forall_mem_cons.mp inside
      obtain ⟨target₁, read, ready₁, view₁⟩ :=
        chip.read address target isSound isReady aligned below
      have sound₁ := chip.sound_of_run (.read _) (read_done read) isSound
      obtain ⟨target₂, executed, sound₂, ready₂, view₂⟩ := ih others sound₁ ready₁
      refine ⟨target₂, ?_, sound₂, ready₂, view₂.trans view₁⟩
      rw [List.map_cons, execute_done (read_done read), executed, view₁]
      rfl

/-- No packet of a run times out. -/
theorem settles : Settles driver sound := Settles.of_sent chip.keeps chip.inTime

end Chip

/-! ### The chip as a part -/

theorem okWord_word (test : SQInteger → Bool) (value : Word) :
    okWord test (some (0 :: wordBytes value)) = test value := by
  change ((0 : Byte) == 0 && test (wordOfBytes (byteOfWord value 0) (byteOfWord value 1)
    (byteOfWord value 2) (byteOfWord value 3))) = test value
  rw [wordOfBytes_byteOfWord]
  rfl

/-- The chip, reached directly, is a part. -/
theorem Chip.part {σ : Type} {driver : Driver σ} {view : σ → Controller} {sound ready : σ → Prop}
    {limit : Nat} (chip : Chip driver view sound ready limit) :
    Host.Part (Direct.link driver) (fun direct => (view direct.target).flash)
      (fun direct => sound direct.target) (fun direct => ready direct.target) limit where
  erase direct isSound := by
    have run : runCommand driver eraseCommand direct.target = Outcome.ofWrite _ := rfl
    have kept := chip.keeps eraseCommand .erase direct.target isSound
    rw [← @exchange_target σ driver eraseCommand direct, exchange_write run] at kept
    rw [erasePacket_bytes, exchange_write run]
    refine ⟨kept, ?_⟩
    rcases chip.erase direct.target isSound with ⟨granted, erased⟩ | ⟨refused, same⟩
    · exact .inl ⟨⟨[], congrArg (fun status => some [status]) granted, le_rfl⟩, erased⟩
    · exact .inr ⟨⟨_, [], rfl, refused⟩, same⟩
  poll direct isSound := by
    have run : runCommand driver (.readAP mdmApCtrl) direct.target = Outcome.ofRead _ := rfl
    have sent : ctrlPacket = (Command.readAP mdmApCtrl).bytes := rfl
    rw [sent, exchange_read run]
    have polled := chip.poll direct.target isSound
    by_cases ok : (driver.readAP mdmApCtrl direct.target).1 = Status.ok.code
    · rw [if_pos ok]
      dsimp only
      rw [okWord_word]
      refine ⟨⟨0, _, rfl, fun _ => (length_wordBytes _).ge⟩, fun clear => ?_⟩
      exact polled ok (of_decide_eq_true clear)
    · rw [if_neg ok]
      refine ⟨⟨_, [], rfl, fun same => absurd same ok⟩, fun shown => ?_⟩
      cases shown
  prompt command direct prompt isSound := by
    dsimp only
    rw [exchange_target]
    exact ⟨chip.keeps command (.prompt prompt) direct.target isSound,
      chip.prompt command direct.target prompt isSound⟩
  longword address data direct isSound isReady := by
    obtain ⟨value, target', executed, sound', ready', programmed, shows⟩ :=
      chip.execute_longword address data isSound isReady
    rw [longwordCommands_packet, Direct.exchange, executed]
    refine ⟨sound', ready', fun aligned inside => ?_⟩
    obtain ⟨flash, fine⟩ := (view direct.target).programmed_inside chip.addressable aligned inside
      data
    have word : firstWord (resultsOf (some (0 :: wordBytes value))) = value :=
      wordOfBytes_byteOfWord value
    simp only [Execution.reply, List.flatMap_singleton]
    refine ⟨fun stops => stops.elim ?_ fun failed => ?_, ?_⟩
    · rintro ⟨status, results, same, nonzero⟩
      cases same
      exact nonzero rfl
    · rw [programmed, fine] at shows
      exact Bool.false_ne_true (shows.symm.trans (word ▸ failed))
    · rw [programmed, flash]
  reads contents address count direct here some few within := by
    obtain ⟨isSound, rfl, isReady⟩ := here
    obtain ⟨target', executed, sound', ready', same⟩ :=
      chip.execute_reads _ within isSound isReady
    rw [readPacketOf, Direct.exchange, executed]
    dsimp only
    refine ⟨?_, sound', congrArg Controller.flash same, ready'⟩
    rw [Execution.reply, flatMap_word]
    rfl

end Swagger.Line
