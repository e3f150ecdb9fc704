/-
**Programming a file, `targets/nxp/mkv10z.nut`.**

`flash_program` reads the file word by word, has every word programmed that is not blank, and pulses
the reset. The loop is bounded in bytes and reads words, so in a file that is not a whole number of
words the last `readn` throws, with the part of a word not programmed and no reset.

The method and the function it calls are a parameter (`FlashTarget`); for the KV10Z they are
`kinetis_flash_longword` and `setReset`. What they do is recorded as calls, and seen in a flash that
programming can only clear bits of (`Programs`).
-/

import Swagger.Host.Kinetis
import Swagger.Host.Blob

namespace Swagger.Host

/-! ### The function -/

/-- What `flash_program` calls. -/
structure FlashTarget (σ : Type) where
  flashProgramLongword : (address data : SQInteger) → σ → SQInteger × σ
  setReset : (value : SQInteger) → σ → σ

/-- A target of the class `TargetKV10Z`. -/
def targetKV10Z {σ : Type} (link : Link σ) : FlashTarget (Queues σ) where
  flashProgramLongword := kinetisFlashLongword link
  setReset := setReset link

namespace FlashTarget

variable {σ : Type} (target : FlashTarget σ)

/-- The loop over the blob. It falls through at its end, and is left by `return -1` and by the error
of `readn`. -/
def flashLoop (blob : Blob) (idx : SQInteger) (state : σ) : Option Ending × σ :=
  if idx.slt blob.size then
    match read : blob.readn with
    | none => (some .thrown, state)
    | some (word, blob') =>
        if word ≠ 0xFFFFFFFF then
          let programmed := target.flashProgramLongword idx word state
          if programmed.1 ≠ 0 then (some (.returned (-1)), programmed.2)
          else flashLoop blob' (idx + 4) programmed.2
        else flashLoop blob' (idx + 4) state
  else (none, state)
termination_by blob.rest.length
decreasing_by all_goals exact Blob.readn_shorter read

/-- `flash_program`; there is no file if it cannot be opened. -/
def flashProgram (binFile : Option BinaryFile) (state : σ) : Ending × σ :=
  match binFile with
  | none => (.returned (-1), state)
  | some file =>
      match file.readblob file.len with
      | none => (.thrown, state)
      | some blob =>
          match target.flashLoop blob 0 state with
          | (some ending, state) => (ending, state)
          | (none, state) =>
              let state := target.setReset 1 state
              let state := target.setReset 0 state
              (.returned 0, state)

end FlashTarget

/-! ### Calls -/

inductive FlashCall
  | longword (address data : SQInteger)
  | setReset (value : SQInteger)
  deriving DecidableEq, Repr

/-- The target with a record of the calls. -/
def FlashTarget.recorded {σ : Type} (target : FlashTarget σ) :
    FlashTarget (σ × List FlashCall) where
  flashProgramLongword address data state :=
    let result := target.flashProgramLongword address data state.1
    (result.1, result.2, state.2 ++ [.longword address data])
  setReset value state := (target.setReset value state.1, state.2 ++ [.setReset value])

/-- The calls for the words of a file, which begin at a word position: one for each word that is not
blank, in order, at the byte offset of the word. -/
def longwordCalls (start : Nat) (words : List Word) : List FlashCall :=
  ((words.zipIdx start).filter fun word => word.1 ≠ 0xFFFFFFFF).map fun word =>
    .longword (BitVec.ofNat 32 (4 * word.2)) word.1

/-! ### Flash memory -/

abbrev Flash := Word → Byte

/-- Programming a longword clears bits of the four bytes from its address on. -/
def programLongword (flash : Flash) (address data : Word) : Flash := fun location =>
  if (location - address).toNat < 4
  then flash location &&& byteOfWord data (location - address).toNat
  else flash location

/-- Every longword operation on a word below the limit succeeds, and a reset leaves the flash. -/
structure Programs {σ : Type} (target : FlashTarget σ) (flash : σ → Flash) (limit : Nat) :
    Prop where
  longword : ∀ address data state, address.toNat % 4 = 0 → address.toNat < limit →
    (target.flashProgramLongword address data state).1 = 0 ∧
      flash (target.flashProgramLongword address data state).2 =
        programLongword (flash state) address data
  setReset : ∀ value state, flash (target.setReset value state) = flash state

/-- Flash that holds these bytes from a position on, and is erased behind them. -/
def burnt (flash : Flash) (position : Nat) (bytes : List Byte) : Flash := fun location =>
  if location.toNat < position then flash location
  else (bytes[location.toNat - position]?).getD 0xFF

def ErasedFrom (flash : Flash) (position : Nat) : Prop :=
  ∀ location : Word, position ≤ location.toNat → flash location = 0xFF

theorem burnt_nil {flash : Flash} {position : Nat} (erased : ErasedFrom flash position) :
    burnt flash position [] = flash := by
  funext location
  unfold burnt
  split_ifs with below
  · rfl
  · rw [erased location (not_lt.mp below)]
    rfl

theorem burnt_append (flash : Flash) (position : Nat) (bytes more : List Byte) :
    burnt (burnt flash position bytes) (position + bytes.length) more =
      burnt flash position (bytes ++ more) := by
  funext location
  unfold burnt
  by_cases below : location.toNat < position
  · rw [if_pos (by omega), if_pos below, if_pos below]
  · rw [if_neg below, if_neg below]
    by_cases inside : location.toNat < position + bytes.length
    · rw [if_pos inside, List.getElem?_append_left (by omega)]
    · rw [if_neg inside, List.getElem?_append_right (by omega), Nat.sub_sub]

theorem erasedFrom_burnt (flash : Flash) (position : Nat) (bytes : List Byte) :
    ErasedFrom (burnt flash position bytes) (position + bytes.length) := by
  intro location behind
  unfold burnt
  rw [if_neg (by omega), List.getElem?_eq_none (by omega)]
  rfl

/-- Programming a word of erased flash leaves its bytes there. -/
theorem programLongword_burnt {flash : Flash} {position : Nat} (erased : ErasedFrom flash position)
    (inside : position + 4 ≤ 2 ^ 32) (word : Word) :
    programLongword flash (BitVec.ofNat 32 position) word =
      burnt flash position (wordBytes word) := by
  funext location
  have small := location.isLt
  have distance : (location - BitVec.ofNat 32 position).toNat =
      if location.toNat < position then 2 ^ 32 + location.toNat - position
      else location.toNat - position := by
    rw [BitVec.toNat_sub, BitVec.toNat_ofNat, Nat.mod_eq_of_lt (show position < 2 ^ 32 by omega)]
    split_ifs <;> omega
  unfold programLongword burnt
  rw [distance]
  by_cases below : location.toNat < position
  · rw [if_pos below, if_pos below, if_neg (by omega)]
  · rw [if_neg below, if_neg below, erased location (not_lt.mp below)]
    generalize location.toNat - position = offset
    by_cases within : offset < 4
    · rw [if_pos within, show (0xFF : Byte) = BitVec.allOnes 8 from rfl, BitVec.allOnes_and]
      interval_cases offset <;> rfl
    · rw [if_neg within, List.getElem?_eq_none (by rw [length_wordBytes]; omega)]
      rfl

/-- A blank word is there already. -/
theorem blank_burnt {flash : Flash} {position : Nat} (erased : ErasedFrom flash position) :
    burnt flash position (wordBytes 0xFFFFFFFF) = flash := by
  funext location
  unfold burnt
  by_cases below : location.toNat < position
  · rw [if_pos below]
  · rw [if_neg below, erased location (not_lt.mp below)]
    generalize location.toNat - position = offset
    by_cases within : offset < 4
    · interval_cases offset <;> rfl
    · rw [List.getElem?_eq_none (by rw [length_wordBytes]; omega)]
      rfl

/-! ### The loop -/

section Loop

variable {σ : Type} (target : FlashTarget σ) {size idx word : SQInteger} {rest : List Byte}
  {blob' : Blob} {state : σ}

theorem flashLoop_end (behind : idx.slt size = false) :
    target.flashLoop { size, rest } idx state = (none, state) := by
  rw [FlashTarget.flashLoop, if_neg (by rw [behind]; exact Bool.false_ne_true)]

theorem flashLoop_thrown (inside : idx.slt size = true)
    (short : Blob.readn { size, rest } = none) :
    target.flashLoop { size, rest } idx state = (some .thrown, state) := by
  rw [FlashTarget.flashLoop, if_pos inside]
  split
  · rfl
  · rename_i read
    rw [short] at read
    exact nomatch read

theorem flashLoop_word (inside : idx.slt size = true)
    (read : Blob.readn { size, rest } = some (word, blob')) :
    target.flashLoop { size, rest } idx state =
      if word ≠ 0xFFFFFFFF then
        let programmed := target.flashProgramLongword idx word state
        if programmed.1 ≠ 0 then (some (.returned (-1)), programmed.2)
        else target.flashLoop blob' (idx + 4) programmed.2
      else target.flashLoop blob' (idx + 4) state := by
  rw [FlashTarget.flashLoop, if_pos inside]
  split
  · rename_i short
    rw [read] at short
    exact nomatch short
  · rename_i read'
    rw [read] at read'
    cases read'
    rfl

/-- The round for a word of a file. -/
theorem flashLoop_next {start size : Nat} (inside : 4 * start < size) (small : size < 2 ^ 31)
    (word : Word) (behind : List Byte) (state : σ) :
    target.flashLoop { size := BitVec.ofNat 32 size, rest := wordBytes word ++ behind }
        (BitVec.ofNat 32 (4 * start)) state =
      if word ≠ 0xFFFFFFFF then
        let programmed := target.flashProgramLongword (BitVec.ofNat 32 (4 * start)) word state
        if programmed.1 ≠ 0 then (some (.returned (-1)), programmed.2)
        else target.flashLoop { size := BitVec.ofNat 32 size, rest := behind }
          (BitVec.ofNat 32 (4 * (start + 1))) programmed.2
      else target.flashLoop { size := BitVec.ofNat 32 size, rest := behind }
        (BitVec.ofNat 32 (4 * (start + 1))) state := by
  have before : (BitVec.ofNat 32 (4 * start)).slt (BitVec.ofNat 32 size) = true := by
    rw [slt_ofNat (by omega) small, decide_eq_true_iff]
    exact inside
  have next : BitVec.ofNat 32 (4 * start) + 4 = BitVec.ofNat 32 (4 * (start + 1)) := by
    rw [Nat.mul_add, BitVec.ofNat_add]
    rfl
  rw [flashLoop_word target before (Blob.readn_word _ _ _), next]

/-- Behind the words of a file the loop falls through, or throws if a part of a word is left. -/
theorem flashLoop_part {tail : List Byte} (short : tail.length < 4) {start size : Nat}
    (sized : size = 4 * start + tail.length) (small : size < 2 ^ 31) (state : σ) :
    target.flashLoop { size := BitVec.ofNat 32 size, rest := tail } (BitVec.ofNat 32 (4 * start))
        state =
      (if tail = [] then none else some .thrown, state) := by
  have compare := slt_ofNat (show 4 * start < 2 ^ 31 by omega) small
  by_cases none : tail = []
  · have behind : decide (4 * start < size) = false := by
      rw [decide_eq_false_iff_not, sized, none, List.length_nil]
      omega
    rw [if_pos none, flashLoop_end target (compare.trans behind)]
  · have some : 0 < tail.length := List.length_pos_iff.mpr none
    have inside : decide (4 * start < size) = true := by
      rw [decide_eq_true_iff]
      omega
    rw [if_neg none, flashLoop_thrown target (compare.trans inside) (Blob.readn_short _ short)]

theorem longwordCalls_cons (start : Nat) (word : Word) (words : List Word) :
    longwordCalls start (word :: words) =
      (if word ≠ 0xFFFFFFFF then [.longword (BitVec.ofNat 32 (4 * start)) word] else []) ++
        longwordCalls (start + 1) words := by
  unfold longwordCalls
  rw [List.zipIdx_cons, List.filter_cons]
  by_cases blank : word = 0xFFFFFFFF
  · have skipped : ¬ decide ((word, start).1 ≠ 0xFFFFFFFF) = true := by
      rw [decide_eq_true_iff]
      exact not_not.mpr blank
    rw [if_neg skipped, if_neg (not_not.mpr blank), List.nil_append]
  · have kept : decide ((word, start).1 ≠ 0xFFFFFFFF) = true := decide_eq_true blank
    rw [if_pos kept, if_pos blank]
    rfl

/-- The loop over words and less than a word more: it makes the calls for the words and leaves their
bytes in flash; then it falls through if nothing more is left, and else throws. -/
theorem flashLoop_words {flash : σ → Flash} {limit : Nat} (programs : Programs target flash limit)
    (words : List Word) {tail : List Byte} (short : tail.length < 4) (start : Nat)
    {size : Nat} (sized : size = 4 * (start + words.length) + tail.length) (small : size < 2 ^ 31)
    (within : size ≤ limit) (state : σ) (log : List FlashCall)
    (erased : ErasedFrom (flash state) (4 * start)) :
    ∃ state',
      target.recorded.flashLoop
          { size := BitVec.ofNat 32 size, rest := words.flatMap wordBytes ++ tail }
          (BitVec.ofNat 32 (4 * start)) (state, log) =
        (if tail = [] then none else some .thrown, state', log ++ longwordCalls start words) ∧
      flash state' = burnt (flash state) (4 * start) (words.flatMap wordBytes) := by
  induction words generalizing start state log with
  | nil =>
      rw [List.length_nil, Nat.add_zero] at sized
      rw [List.flatMap_nil, List.nil_append, burnt_nil erased, flashLoop_part _ short sized small]
      refine ⟨state, ?_, rfl⟩
      exact congrArg (fun calls => (_, state, calls)) (List.append_nil log).symm
  | cons word words ih =>
      rw [List.length_cons] at sized
      have sized' : size = 4 * (start + 1 + words.length) + tail.length := by omega
      have position : 4 * start + (wordBytes word).length = 4 * (start + 1) := by
        rw [length_wordBytes]
        omega
      rw [List.flatMap_cons, List.append_assoc, flashLoop_next _ (by omega) small,
        longwordCalls_cons, ← burnt_append, position]
      by_cases blank : word = 0xFFFFFFFF
      · have there : burnt (flash state) (4 * start) (wordBytes word) = flash state := by
          rw [blank]
          exact blank_burnt erased
        rw [if_neg (not_not.mpr blank), if_neg (not_not.mpr blank), List.nil_append, there]
        refine ih (start + 1) sized' state log fun location behind => erased location ?_
        omega
      · have address : (BitVec.ofNat 32 (4 * start)).toNat = 4 * start := by
          rw [BitVec.toNat_ofNat, Nat.mod_eq_of_lt (by omega)]
        obtain ⟨succeeds, programmed⟩ := programs.longword (BitVec.ofNat 32 (4 * start)) word state
          (by rw [address]; omega) (by rw [address]; omega)
        rw [programLongword_burnt erased (by omega)] at programmed
        have erased' := erasedFrom_burnt (flash state) (4 * start) (wordBytes word)
        rw [position, ← programmed] at erased'
        obtain ⟨state', run, left⟩ := ih (start + 1) sized' _
          (log ++ [.longword (BitVec.ofNat 32 (4 * start)) word]) erased'
        refine ⟨state', ?_, by rw [left, programmed]⟩
        rw [if_pos blank, if_pos blank, ← List.append_assoc, ← run]
        exact if_neg (not_not.mpr succeeds)

/-- On erased flash, `flash_program` makes the calls for the words of the file and leaves their
bytes in flash. Behind whole words it pulses the reset and returns 0, else it throws. -/
theorem flashProgram_result {flash : σ → Flash} (file : BinaryFile) (nonempty : file.bytes ≠ [])
    (programs : Programs target flash file.bytes.length) (state : σ)
    (erased : ∀ location, flash state location = 0xFF) :
    ∃ state',
      target.recorded.flashProgram (some file) (state, []) =
        (if partOf file.bytes = [] then
          (.returned 0, target.setReset 0 (target.setReset 1 state'),
            longwordCalls 0 (wordsOf file.bytes) ++ [.setReset 1, .setReset 0])
        else (.thrown, state', longwordCalls 0 (wordsOf file.bytes))) ∧
      flash state' = burnt (flash state) 0 ((wordsOf file.bytes).flatMap wordBytes) := by
  obtain ⟨split, short⟩ := wordsOf_split file.bytes
  have sized : file.bytes.length =
      4 * (0 + (wordsOf file.bytes).length) + (partOf file.bytes).length := by
    rw [Nat.zero_add, ← length_flatMap_wordBytes, ← List.length_append, ← split]
  obtain ⟨state', run, left⟩ := flashLoop_words target programs (wordsOf file.bytes) short 0 sized
    file.fits le_rfl state [] fun location _ => erased location
  refine ⟨state', ?_, left⟩
  rw [← split, List.nil_append] at run
  unfold FlashTarget.flashProgram
  simp only [readblob_len nonempty]
  rw [show target.recorded.flashLoop { size := file.len, rest := file.bytes } 0 (state, []) = _
    from run]
  by_cases whole : partOf file.bytes = []
  · rw [if_pos whole, if_pos whole]
    refine congrArg (fun calls => (Ending.returned 0, _, calls)) ?_
    exact List.append_assoc _ _ _
  · rw [if_neg whole, if_neg whole]

/-- What is said of a run: it returns 0 behind the calls for the words of the file, of which the
last may be padded, and a pulse of the reset, and leaves the file in flash. -/
structure CoversFile (flash : σ → Flash) (file : BinaryFile)
    (result : Ending × σ × List FlashCall) : Prop where
  returns : result.1 = .returned 0
  calls : ∃ padding : List Byte, padding.length < 4 ∧ 4 ∣ (file.bytes ++ padding).length ∧
    result.2.2 = longwordCalls 0 (wordsOf (file.bytes ++ padding)) ++ [.setReset 1, .setReset 0]
  stored : ∀ offset (inside : offset < file.bytes.length),
    flash result.2.1 (BitVec.ofNat 32 offset) = file.bytes[offset]

theorem partOf_eq_nil_iff (bytes : List Byte) : partOf bytes = [] ↔ 4 ∣ bytes.length := by
  obtain ⟨split, short⟩ := wordsOf_split bytes
  have length := congrArg List.length split
  rw [List.length_append, length_flatMap_wordBytes] at length
  rw [← List.length_eq_zero_iff]
  omega

/-- With every longword operation succeeding on erased flash, `flash_program` covers a file exactly
when it is a whole number of words. -/
theorem flash_program_iff {flash : σ → Flash} (file : BinaryFile) (nonempty : file.bytes ≠ [])
    (programs : Programs target flash file.bytes.length) (state : σ)
    (erased : ∀ location, flash state location = 0xFF) :
    CoversFile flash file (target.recorded.flashProgram (some file) (state, [])) ↔
      4 ∣ file.bytes.length := by
  obtain ⟨state', run, left⟩ := flashProgram_result target file nonempty programs state erased
  rw [run, ← partOf_eq_nil_iff]
  constructor
  · intro covers
    by_contra part
    have returns := covers.returns
    rw [if_neg part] at returns
    exact nomatch returns
  · intro whole
    obtain ⟨split, -⟩ := wordsOf_split file.bytes
    rw [whole, List.append_nil] at split
    rw [if_pos whole]
    refine ⟨rfl, ⟨[], Nat.succ_pos 3, ?_, ?_⟩, fun offset inside => ?_⟩
    · rw [List.append_nil]
      exact (partOf_eq_nil_iff _).mp whole
    · rw [List.append_nil]
    · have small := file.fits
      have address : (BitVec.ofNat 32 offset).toNat = offset := by
        rw [BitVec.toNat_ofNat, Nat.mod_eq_of_lt (by omega)]
      simp only [programs.setReset, left, ← split]
      unfold burnt
      rw [address, if_neg (Nat.not_lt_zero _), Nat.sub_zero, List.getElem?_eq_getElem inside,
        Option.getD_some]

end Loop

/-! ### A chip -/

/-- A chip carries out the longword that a packet of `kinetis_flash_longword` has in its third and
fourth command. -/
def chipFlash (packet : List Byte) (flash : Flash) : Flash :=
  match packet.drop 23 with
  | a0 :: a1 :: a2 :: _ :: _ :: _ :: _ :: _ :: _ :: d0 :: d1 :: d2 :: d3 :: _ =>
      programLongword flash (wordOfBytes a0 a1 a2 0) (wordOfBytes d0 d1 d2 d3)
  | _ => flash

/-- A programmer with the chip answers every packet with OK and a flash status without errors. -/
def chip : Link Flash where
  writePacket packet flash := (true, chipFlash packet flash)
  readPacket _ flash := (true, [0, 0x80, 0, 0, 0], flash)
  failed_empty _ failed := nomatch failed

/-- The third and the fourth command of the packet carry the address and the data. -/
theorem flashLongword_packet (address data : SQInteger) (queues : Queues Flash) :
    ∃ back, (queueFlashLongword address data (clearCmdQueue queues)).cmdQueue.drop 23 =
      wordBytes (0x06000000 ||| (address &&& 0x00FFFFFF)) ++
        ([(cmdType .writeMem).setWidth 8] ++ (wordBytes (ftfaFccobBase + 4) ++
          (wordBytes data ++ back))) := by
  simp only [queueFlashLongword, queueWriteMemory, queuePollMemory, queueReadMemory,
    queueUInt32_eq, queueUInt8, clearCmdQueue, List.nil_append, List.append_assoc]
  exact ⟨_, rfl⟩

theorem chipFlash_longword (address data : SQInteger) (queues : Queues Flash) (flash : Flash)
    (place : address = 0 ∨ address = 4) :
    chipFlash (queueFlashLongword address data (clearCmdQueue queues)).cmdQueue flash =
      programLongword flash address data := by
  obtain ⟨back, packet⟩ := flashLongword_packet address data queues
  unfold chipFlash
  rw [packet]
  simp only [wordBytes, List.cons_append, List.nil_append, wordOfBytes_byteOfWord]
  rcases place with rfl | rfl
  · rfl
  · rfl

/-- The reply of the chip ends `kinetis_flash_longword` with 0. -/
theorem chip_longword (address data : SQInteger) (queues : Queues Flash) :
    (kinetisFlashLongword chip address data queues).1 = 0 ∧
      (kinetisFlashLongword chip address data queues).2.state =
        chipFlash (queueFlashLongword address data (clearCmdQueue queues)).cmdQueue
          queues.state := by
  have state : (queueFlashLongword address data (clearCmdQueue queues)).state = queues.state := by
    simp only [queueFlashLongword, queueWriteMemory, queuePollMemory, queueReadMemory, queueUInt32,
      queueUInt8, clearCmdQueue]
  unfold kinetisFlashLongword
  generalize queueFlashLongword address data (clearCmdQueue queues) = queued at state ⊢
  obtain ⟨cmdQueue, resultQueue, flash⟩ := queued
  have executed : executeCmdQueue chip { cmdQueue, resultQueue, state := flash } =
      (0, { cmdQueue, resultQueue := [0, 0x80, 0, 0, 0], state := chipFlash cmdQueue flash }) := rfl
  have fine : flashFailed (wordOfBytes 0x80 0 0 0) = false := by decide
  have ok : BitVec.setWidth 32 (0 : Byte) = cmdStatusOk := rfl
  rw [executed, ← state]
  simp only [popUInt8, popUInt32, fine, ok, ne_eq, not_true_eq_false, if_false, Bool.false_eq_true,
    and_self]

theorem chip_programs {limit : Nat} (small : limit ≤ 8) :
    Programs (targetKV10Z chip) (fun queues => queues.state) limit where
  longword address data queues aligned inside := by
    have place : address = 0 ∨ address = 4 := by
      have values : address.toNat = (0 : Word).toNat ∨ address.toNat = (4 : Word).toNat := by
        rw [show (0 : Word).toNat = 0 from rfl, show (4 : Word).toNat = 4 from rfl]
        omega
      exact values.imp BitVec.eq_of_toNat_eq BitVec.eq_of_toNat_eq
    obtain ⟨succeeds, flashed⟩ := chip_longword address data queues
    exact ⟨succeeds, flashed.trans (chipFlash_longword address data queues queues.state place)⟩
  setReset value queues := by
    show chipFlash [(cmdType .reset).setWidth 8, value.setWidth 8] queues.state = queues.state
    rfl

/-- The programmer with the erased chip. -/
def erasedChip : Queues Flash where
  cmdQueue := []
  resultQueue := []
  state := fun _ => 0xFF

/-- A word with the top bit set, and a blank word. -/
def twoWords : BinaryFile where
  bytes := [0x01, 0x02, 0x03, 0x84, 0xFF, 0xFF, 0xFF, 0xFF]
  fits := Nat.le_of_ble_eq_true rfl

/-- A word and a byte. -/
def fiveBytes : BinaryFile where
  bytes := [0x01, 0x02, 0x03, 0x04, 0x05]
  fits := Nat.le_of_ble_eq_true rfl

theorem flash_program_chip :
    CoversFile (fun queues => queues.state) twoWords
      ((targetKV10Z chip).recorded.flashProgram (some twoWords) (erasedChip, [])) :=
  (flash_program_iff (targetKV10Z chip) twoWords (List.cons_ne_nil _ _) (chip_programs le_rfl)
    erasedChip fun _ => rfl).mpr (by decide)

/-- The last byte of five is not programmed: `flash_program` throws in front of it. -/
theorem flash_program_fails :
    ¬ ∀ (target : FlashTarget (Queues Flash)) (flash : Queues Flash → Flash) (file : BinaryFile),
      file.bytes ≠ [] → Programs target flash file.bytes.length →
      ∀ state, (∀ location, flash state location = 0xFF) →
        CoversFile flash file (target.recorded.flashProgram (some file) (state, [])) := by
  intro claimed
  have nonempty : fiveBytes.bytes ≠ [] := List.cons_ne_nil _ _
  have programs := chip_programs (show fiveBytes.bytes.length ≤ 8 by decide)
  have covers := claimed (targetKV10Z chip) _ fiveBytes nonempty programs erasedChip fun _ => rfl
  obtain ⟨state', run, -⟩ :=
    flashProgram_result (targetKV10Z chip) fiveBytes nonempty programs erasedChip fun _ => rfl
  have returns := covers.returns
  rw [run, if_neg (show partOf fiveBytes.bytes ≠ [] by decide)] at returns
  exact nomatch returns

end Swagger.Host
