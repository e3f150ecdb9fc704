/-
**Verifying a file, `verifyFlash` of `targets/targetfuncs.nut`.**

`verifyFlash` reads the target in chunks of at most six words and compares each word with the next
one of the blob. Two cursors advance through the chunks: the read position of the blob and the
address. `verifyLoop_result` is the invariant of the loop: with the words of the file from a start
on, it returns 0 if the target has these words and has then read their addresses in order, and -1 if
not.

The transport and the target are reliable when the reads of the file's words are answered with the
words of the target's memory, from the state that the run finds them in and wherever these reads
lead (`ReadsMemory`). `Link.recorded` keeps a record of the packets that are sent.
-/

import Swagger.Host.TargetFuncs
import Swagger.Host.Blob

namespace Swagger.Host

/-! ### The function -/

/-- The loop over the words of a chunk, by the rounds that are left, from an index on. -/
def compareLoop (targetContents : List SQInteger) : Nat → Nat → Blob → Except Ending Blob
  | 0, _, blob => .ok blob
  | rounds + 1, i, blob =>
      match blob.readn with
      | none => .error .thrown
      | some (word, blob) =>
          match targetContents[i]? with
          | none => .error .thrown
          | some value =>
              if word ≠ value then .error (.returned (-1))
              else compareLoop targetContents rounds (i + 1) blob

/-- The number of words to read in one go. -/
def wordCount (wordsLeft : SQInteger) : SQInteger :=
  if (6 : SQInteger).slt wordsLeft then 6 else wordsLeft

/-- As long as words are left, a chunk is not empty and no more than what is left. -/
theorem toInt_wordCount {wordsLeft : SQInteger} (more : (0 : SQInteger).slt wordsLeft = true) :
    0 < (wordCount wordsLeft).toInt ∧ (wordCount wordsLeft).toInt ≤ wordsLeft.toInt ∧
      (wordsLeft - wordCount wordsLeft).toInt =
        wordsLeft.toInt - (wordCount wordsLeft).toInt := by
  rw [BitVec.slt_iff_toInt_lt] at more
  have zero : (0 : SQInteger).toInt = 0 := rfl
  have six : (6 : SQInteger).toInt = 6 := rfl
  have bound := @BitVec.toInt_lt 32 wordsLeft
  have count : 0 < (wordCount wordsLeft).toInt ∧
      (wordCount wordsLeft).toInt ≤ wordsLeft.toInt := by
    unfold wordCount
    by_cases many : (6 : SQInteger).slt wordsLeft = true
    · rw [if_pos many]
      rw [BitVec.slt_iff_toInt_lt] at many
      omega
    · rw [if_neg many]
      rw [BitVec.slt_iff_toInt_lt] at many
      omega
  refine ⟨count.1, count.2, ?_⟩
  rw [BitVec.toInt_sub, Int.bmod_eq_of_le]
  · omega
  · omega

section Functions

variable {σ : Type} (link : Link σ)

/-- The loop over the chunks. -/
def verifyLoop (blob : Blob) (wordsLeft address : SQInteger) (queues : Queues σ) :
    Ending × Queues σ :=
  if (0 : SQInteger).slt wordsLeft = true then
    let count := wordCount wordsLeft
    let read := readMemoryWords link address count queues
    match read.1 with
    | .integer _ => (.returned (-1), read.2)
    | .array targetContents =>
        match compareLoop targetContents count.toInt.toNat 0 blob with
        | .error ending => (ending, read.2)
        | .ok blob => verifyLoop blob (wordsLeft - count) (address + count * 4) read.2
  else (.returned 0, queues)
termination_by wordsLeft.toInt.toNat
decreasing_by
  obtain ⟨some, few, left⟩ := @toInt_wordCount wordsLeft (by assumption)
  rw [left]
  omega

/-- `verifyFlash`; there is no file if it cannot be opened. A file that is not a whole number of
words is only warned about. -/
def verifyFlash (binFile : Option BinaryFile) (queues : Queues σ) : Ending × Queues σ :=
  match binFile with
  | none => (.returned (-1), queues)
  | some file =>
      match file.readblob file.len with
      | none => (.thrown, queues)
      | some blob => verifyLoop link blob (blob.size.sdiv 4) 0 queues

end Functions

/-! ### A reliable target -/

/-- The addresses of words, one behind the other. -/
def addressesAt (address : Word) (count : Nat) : List Word :=
  (List.range count).map fun i => address + BitVec.ofNat 32 (4 * i)

/-- The packet that reads these addresses. -/
def readPacketOf (addresses : List Word) : List Byte :=
  packetBytes (addresses.map Command.readMem) none

/-- In the states `here`, a read of at most six words at addresses of a range is answered with OK
and these words, and leads to such a state again. -/
def ReadsMemory {σ : Type} (link : Link σ) (here : σ → Prop) (inside : Word → Prop)
    (memory : Word → Word) : Prop :=
  ∀ address count state, here state → 0 < count → count ≤ 6 →
    (∀ place ∈ addressesAt address count, inside place) →
      let read := link.exchange (readPacketOf (addressesAt address count)) state
      read.1 = some (0 :: ((addressesAt address count).map memory).flatMap wordBytes) ∧ here read.2

theorem ReadsMemory.within {σ : Type} {link : Link σ} {here : σ → Prop}
    {inside inside' : Word → Prop} {memory : Word → Word}
    (reads : ReadsMemory link here inside memory)
    (fewer : ∀ place, inside' place → inside place) : ReadsMemory link here inside' memory :=
  fun address count state start some few places =>
    reads address count state start some few fun place member => fewer place (places place member)

/-- The addresses of the words of a file. -/
def placesOf (file : BinaryFile) : List Word :=
  (List.range (file.bytes.length / 4)).map fun i => BitVec.ofNat 32 (4 * i)

/-- The transport with a record of the packets that are sent. -/
def Link.recorded {σ : Type} (link : Link σ) : Link (σ × List (List Byte)) where
  writePacket packet state :=
    let written := link.writePacket packet state.1
    (written.1, written.2, state.2 ++ [packet])
  readPacket data state :=
    let read := link.readPacket data state.1
    (read.1, read.2.1, read.2.2, state.2)
  failed_empty state failed := link.failed_empty state.1 failed

theorem length_addressesAt (address : Word) (count : Nat) :
    (addressesAt address count).length = count := by
  rw [addressesAt, List.length_map, List.length_range]

/-- Addresses fall into a first part and the rest. -/
theorem addressesAt_add (address : Word) (count more : Nat) :
    addressesAt address (count + more) =
      addressesAt address count ++ addressesAt (address + BitVec.ofNat 32 (4 * count)) more := by
  unfold addressesAt
  rw [List.range_add, List.map_append, List.map_map]
  refine congrArg (_ ++ ·) (List.map_congr_left fun i _ => ?_)
  rw [Function.comp_apply, Nat.mul_add, BitVec.ofNat_add, BitVec.add_assoc]

/-! ### Words in chunks -/

/-- The comparison goes on behind equal words, and ends with -1 at a difference. -/
theorem compareLoop_words (size : SQInteger) (words contents : List Word) (tail : List Byte)
    (i : Nat) (fits : contents.length = i + words.length) :
    compareLoop contents words.length i { size, rest := words.flatMap wordBytes ++ tail } =
      if words = contents.drop i then .ok { size, rest := tail }
      else .error (.returned (-1)) := by
  induction words generalizing i with
  | nil =>
      rw [List.length_nil, Nat.add_zero] at fits
      rw [List.drop_eq_nil_of_le (by omega), if_pos rfl]
      rfl
  | cons word words ih =>
      rw [List.length_cons] at fits
      have inside : i < contents.length := by omega
      rw [List.length_cons, List.flatMap_cons, List.append_assoc, compareLoop, Blob.readn_word,
        List.drop_eq_getElem_cons inside]
      simp only [List.getElem?_eq_getElem inside]
      by_cases same : word = contents[i]
      · rw [if_neg (not_not.mpr same), ih (i + 1) (by omega), same]
        simp only [List.cons.injEq, true_and]
      · rw [if_pos same, if_neg fun both => same (List.cons.inj both).1]

/-- The first chunk of the words that are left. -/
theorem wordCount_ofNat {count left : Nat} (few : count ≤ 6) (all : left ≠ 0 → count = 6)
    (small : count + left < 2 ^ 31) :
    wordCount (BitVec.ofNat 32 (count + left)) = BitVec.ofNat 32 count := by
  have compare : (6 : SQInteger).slt (BitVec.ofNat 32 (count + left)) = decide (6 < count + left) :=
    slt_ofNat (show 6 < 2 ^ 31 by norm_num) small
  unfold wordCount
  rw [compare]
  by_cases none : left = 0
  · rw [if_neg (by rw [decide_eq_true_iff]; omega), none, Nat.add_zero]
  · rw [if_pos (by rw [decide_eq_true_iff]; have := all none; omega), all none]
    rfl

/-- The words that are left begin with a chunk. -/
theorem chunk_of_words {words : List Word} (left : words ≠ []) :
    ∃ first rest, words = first ++ rest ∧ first.length ≤ 6 ∧
      (rest.length ≠ 0 → first.length = 6) ∧ 0 < first.length := by
  have length := List.length_pos_iff.mpr left
  refine ⟨words.take 6, words.drop 6, (List.take_append_drop 6 words).symm, ?_, ?_, ?_⟩
  · rw [List.length_take]
    omega
  · rw [List.length_take, List.length_drop]
    omega
  · rw [List.length_take]
    omega

/-- The number of words is the length by four. -/
theorem sdiv_len (file : BinaryFile) :
    file.len.sdiv 4 = BitVec.ofNat 32 (wordsOf file.bytes).length := by
  have small := file.fits
  have size : file.len.toNat = file.bytes.length := by
    rw [BinaryFile.len, BitVec.toNat_ofNat, Nat.mod_eq_of_lt (by omega)]
  have positive : file.len.msb = false := by
    rw [BitVec.msb_eq_false_iff_two_mul_lt, size]
    omega
  have four : (4 : SQInteger).msb = false := rfl
  rw [BitVec.sdiv_eq, positive, four]
  apply BitVec.eq_of_toNat_eq
  rw [BitVec.udiv_eq, BitVec.toNat_udiv, size, length_wordsOf, BitVec.toNat_ofNat,
    Nat.mod_eq_of_lt (by omega)]
  rfl

/-- The words of a file agree with a memory when each of them does. -/
theorem wordsOf_eq_iff (bytes : List Byte) (memory : Word → Word) :
    wordsOf bytes = (addressesAt 0 (wordsOf bytes).length).map memory ↔
      ∀ i < bytes.length / 4, (wordsOf bytes)[i]? = some (memory (BitVec.ofNat 32 (4 * i))) := by
  have stored (i : Nat) (inside : i < bytes.length / 4) :
      ((addressesAt 0 (wordsOf bytes).length).map memory)[i]? =
        some (memory (BitVec.ofNat 32 (4 * i))) := by
    rw [length_wordsOf, addressesAt, List.map_map, List.getElem?_map,
      List.getElem?_range inside, Option.map_some, Function.comp_apply]
    exact congrArg (fun place => some (memory place)) (BitVec.zero_add _)
  constructor
  · intro same i inside
    rw [← stored i inside, ← same]
  · intro each
    apply List.ext_getElem?
    intro i
    by_cases inside : i < bytes.length / 4
    · rw [each i inside, stored i inside]
    · rw [List.getElem?_eq_none (by rw [length_wordsOf]; omega),
        List.getElem?_eq_none (by rw [List.length_map, length_addressesAt, length_wordsOf]; omega)]

theorem addressesAt_places (file : BinaryFile) :
    addressesAt 0 (wordsOf file.bytes).length = placesOf file := by
  rw [length_wordsOf]
  exact List.map_congr_left fun i _ => BitVec.zero_add _

section Reads

variable {σ : Type} (link : Link σ)

/-- The loop of `readMemoryWords` queues the packet that reads the addresses. -/
theorem queueReadMemoryWords_packet (words : Nat) (address : SQInteger) (queues : Queues σ) :
    queueReadMemoryWords words address queues =
      { queues with
        cmdQueue := queues.cmdQueue ++ readPacketOf (addressesAt address words) } := by
  induction words generalizing address queues with
  | zero =>
      refine congrArg (fun cmdQueue => { queues with cmdQueue }) ?_
      exact (List.append_nil _).symm
  | succ words ih =>
      have queued : queueReadMemory address queues =
          { queues with cmdQueue := queues.cmdQueue ++ readPacketOf [address] } := by
        simp only [queueReadMemory, queueUInt32_eq, queueUInt8, setWidth_cmdType, readPacketOf,
          packetBytes, List.map_cons, List.map_nil, List.flatMap_cons, List.flatMap_nil,
          Command.bytes, Command.opcode, Command.arguments, Option.toList_none, List.append_nil,
          List.append_assoc, List.cons_append, List.nil_append]
      have split : addressesAt address (words + 1) =
          [address] ++ addressesAt (address + 4) words := by
        rw [Nat.add_comm, addressesAt_add]
        refine congrArg (· ++ addressesAt (address + 4) words) ?_
        exact congrArg (fun first => [first]) (BitVec.add_zero address)
      have joined : readPacketOf (addressesAt address (words + 1)) =
          readPacketOf [address] ++ readPacketOf (addressesAt (address + 4) words) := by
        rw [split]
        simp only [readPacketOf, packetBytes, List.map_append, List.flatMap_append,
          Option.toList_none, List.append_nil]
      rw [queueReadMemoryWords, ih, queued, joined, List.append_assoc]

variable {here : σ → Prop} {inside : Word → Prop} {memory : Word → Word}
  (reads : ReadsMemory link here inside memory)

include reads

/-- `readMemoryWords` returns the words of the memory, and has sent one packet that reads them. -/
theorem readMemoryWords_reads (address : SQInteger) {words : Nat} (some : 0 < words)
    (few : words ≤ 6) (within : ∀ place ∈ addressesAt address words, inside place)
    (cmdQueue resultQueue : List Byte) {state : σ} (start : here state) (log : List (List Byte)) :
    ∃ cmdQueue' resultQueue' state',
      readMemoryWords link.recorded address (BitVec.ofNat 32 words)
          { cmdQueue, resultQueue, state := (state, log) } =
        (.array ((addressesAt address words).map memory),
          { cmdQueue := cmdQueue', resultQueue := resultQueue',
            state := (state', log ++ [readPacketOf (addressesAt address words)]) }) ∧
      here state' := by
  have count : (BitVec.ofNat 32 words : SQInteger).toInt = words := toInt_ofNat_small (by omega)
  obtain ⟨answer, still⟩ := reads address words state start some few within
  have recorded : link.recorded.exchange (readPacketOf (addressesAt address words)) (state, log) =
      ((link.exchange (readPacketOf (addressesAt address words)) state).1,
        ((link.exchange (readPacketOf (addressesAt address words)) state).2,
          log ++ [readPacketOf (addressesAt address words)])) := rfl
  have pops := popWords_words ((addressesAt address words).map memory) []
    (readPacketOf (addressesAt address words))
    ((link.exchange (readPacketOf (addressesAt address words)) state).2,
      log ++ [readPacketOf (addressesAt address words)])
  rw [List.length_map, length_addressesAt, List.append_nil] at pops
  unfold readMemoryWords executeStatus
  rw [count, if_neg (by omega), Int.toNat_natCast, queueReadMemoryWords_packet,
    executeCmdQueue_snd]
  simp only [clearCmdQueue, List.nil_append, recorded, answer, Option.getD_some, popUInt8]
  rw [if_pos (show BitVec.setWidth 32 (0 : Byte) = cmdStatusOk from rfl), pops]
  exact ⟨_, _, _, rfl, still⟩

/-! ### The loop -/

/-- One round: a chunk is read and compared with the next words of the file. -/
theorem verifyLoop_round (size : SQInteger) (tail : List Byte) {first rest : List Word}
    (few : first.length ≤ 6) (all : rest.length ≠ 0 → first.length = 6) (some : 0 < first.length)
    (small : first.length + rest.length < 2 ^ 31) (address : SQInteger)
    (within : ∀ place ∈ addressesAt address first.length, inside place)
    (cmdQueue resultQueue : List Byte) {state : σ} (start : here state) (log : List (List Byte)) :
    ∃ (cmdQueue' resultQueue' : List Byte) (state' : σ), here state' ∧
      verifyLoop link.recorded { size, rest := (first ++ rest).flatMap wordBytes ++ tail }
          (BitVec.ofNat 32 (first ++ rest).length) address
          { cmdQueue, resultQueue, state := (state, log) } =
        let queues : Queues (σ × List (List Byte)) :=
          { cmdQueue := cmdQueue'
            resultQueue := resultQueue'
            state := (state', log ++ [readPacketOf (addressesAt address first.length)]) }
        if first = (addressesAt address first.length).map memory then
          verifyLoop link.recorded { size, rest := rest.flatMap wordBytes ++ tail }
            (BitVec.ofNat 32 rest.length) (address + BitVec.ofNat 32 (4 * first.length)) queues
        else (.returned (-1), queues) := by
  have more : (0 : SQInteger).slt (BitVec.ofNat 32 (first.length + rest.length)) = true := by
    rw [show (0 : SQInteger) = BitVec.ofNat 32 0 from rfl, slt_ofNat (by norm_num) small,
      decide_eq_true_iff]
    omega
  have count := wordCount_ofNat few all small
  have rounds : (BitVec.ofNat 32 first.length : SQInteger).toInt.toNat = first.length := by
    rw [toInt_ofNat_small (by omega), Int.toNat_natCast]
  have left : BitVec.ofNat 32 (first.length + rest.length) - BitVec.ofNat 32 first.length =
      BitVec.ofNat 32 rest.length := by
    rw [BitVec.ofNat_add, BitVec.add_comm, BitVec.add_sub_cancel]
  have next : address + BitVec.ofNat 32 first.length * 4 =
      address + BitVec.ofNat 32 (4 * first.length) := by
    rw [BitVec.ofNat_mul, BitVec.mul_comm]
    rfl
  have fits : ((addressesAt address first.length).map memory).length = 0 + first.length := by
    rw [List.length_map, length_addressesAt, Nat.zero_add]
  have compare := compareLoop_words size first ((addressesAt address first.length).map memory)
    (rest.flatMap wordBytes ++ tail) 0 fits
  obtain ⟨cmdQueue', resultQueue', state', read, still⟩ :=
    readMemoryWords_reads link reads address some few within cmdQueue resultQueue start log
  refine ⟨cmdQueue', resultQueue', state', still, ?_⟩
  rw [List.drop_zero] at compare
  rw [List.length_append, List.flatMap_append, List.append_assoc, verifyLoop, if_pos more]
  simp only [count, read, rounds, compare, left, next]
  split_ifs
  · rfl
  · rfl

/-- The loop over the chunks, with the words of the file that are left. -/
theorem verifyLoop_result (size : SQInteger) (tail : List Byte) (words : List Word)
    (small : words.length < 2 ^ 31) (address : SQInteger)
    (within : ∀ place ∈ addressesAt address words.length, inside place)
    (cmdQueue resultQueue : List Byte) {state : σ} (start : here state) (log : List (List Byte)) :
    ∃ (cmdQueue' resultQueue' : List Byte) (state' : σ) (chunks : List (List Word)), here state' ∧
      verifyLoop link.recorded { size, rest := words.flatMap wordBytes ++ tail }
          (BitVec.ofNat 32 words.length) address
          { cmdQueue, resultQueue, state := (state, log) } =
        (if words = (addressesAt address words.length).map memory then .returned 0
          else .returned (-1),
          { cmdQueue := cmdQueue', resultQueue := resultQueue',
            state := (state', log ++ chunks.map readPacketOf) }) ∧
      (words = (addressesAt address words.length).map memory →
        chunks.flatten = addressesAt address words.length) := by
  induction words using (measure List.length).wf.induction generalizing address cmdQueue
    resultQueue state log with
  | _ words ih =>
  by_cases none : words = []
  · subst none
    refine ⟨cmdQueue, resultQueue, state, [], start, ?_, fun _ => rfl⟩
    have empty : [] = (addressesAt address ([] : List Word).length).map memory := rfl
    rw [verifyLoop, if_neg (by decide), if_pos empty, List.map_nil, List.append_nil]
  · obtain ⟨first, rest, rfl, few, all, some⟩ := chunk_of_words none
    have shorter : rest.length < (first ++ rest).length := by
      rw [List.length_append]
      omega
    have split := addressesAt_add address first.length rest.length
    rw [List.length_append] at small
    rw [List.length_append, split, List.forall_mem_append] at within
    obtain ⟨cmdQueue₁, resultQueue₁, state₁, start₁, round⟩ := verifyLoop_round link reads size tail
      few all some small address within.1 cmdQueue resultQueue start log
    rw [round, List.length_append, split, List.map_append]
    by_cases same : first = (addressesAt address first.length).map memory
    · rw [if_pos same]
      obtain ⟨cmdQueue', resultQueue', state', chunks, still, run, addresses⟩ :=
        ih rest shorter (by omega) (address + BitVec.ofNat 32 (4 * first.length)) within.2 cmdQueue₁
          resultQueue₁ start₁ (log ++ [readPacketOf (addressesAt address first.length)])
      have agree : first ++ rest = (addressesAt address first.length).map memory ++
            (addressesAt (address + BitVec.ofNat 32 (4 * first.length)) rest.length).map memory ↔
          rest = (addressesAt (address + BitVec.ofNat 32 (4 * first.length))
            rest.length).map memory := by
        rw [← same, List.append_cancel_left_eq]
      refine ⟨cmdQueue', resultQueue', state', addressesAt address first.length :: chunks, still, ?_,
        fun both => ?_⟩
      · simp only [run, agree, List.map_cons, List.append_assoc, List.singleton_append]
      · rw [List.flatten_cons, addresses (agree.mp both)]
    · rw [if_neg same]
      have length : first.length = ((addressesAt address first.length).map memory).length := by
        rw [List.length_map, length_addressesAt]
      have differs : ¬ first ++ rest = (addressesAt address first.length).map memory ++
          (addressesAt (address + BitVec.ofNat 32 (4 * first.length)) rest.length).map memory :=
        fun both => same (List.append_inj_left both length)
      refine ⟨cmdQueue₁, resultQueue₁, state₁, [addressesAt address first.length], start₁, ?_,
        fun both => absurd both differs⟩
      rw [if_neg differs]
      rfl

end Reads

section Result

variable {σ : Type} (link : Link σ) {here : σ → Prop} {memory : Word → Word} (file : BinaryFile)
  (reads : ReadsMemory link here (· ∈ placesOf file) memory)

include reads

/-- `verifyFlash` is a run of the loop on the words of the file. -/
theorem verifyFlash_result (nonempty : file.bytes ≠ []) (cmdQueue resultQueue : List Byte)
    {state : σ} (start : here state) :
    ∃ (ending : Ending) (cmdQueue' resultQueue' : List Byte) (state' : σ)
      (chunks : List (List Word)), here state' ∧
      verifyFlash link.recorded (some file) { cmdQueue, resultQueue, state := (state, []) } =
        (ending,
          { cmdQueue := cmdQueue'
            resultQueue := resultQueue'
            state := (state', chunks.map readPacketOf) }) ∧
      (ending = .returned 0 ↔ ∀ i < file.bytes.length / 4,
        (wordsOf file.bytes)[i]? = some (memory (BitVec.ofNat 32 (4 * i)))) ∧
      (ending ≠ .returned 0 → ending = .returned (-1)) ∧
      (ending = .returned 0 → chunks.flatten = placesOf file) := by
  have small := file.fits
  have length := length_wordsOf file.bytes
  have places := addressesAt_places file
  obtain ⟨split, -⟩ := wordsOf_split file.bytes
  obtain ⟨cmdQueue', resultQueue', state', chunks, still, run, addresses⟩ :=
    verifyLoop_result link reads file.len (partOf file.bytes) (wordsOf file.bytes) (by omega) 0
      (fun place member => places ▸ member) cmdQueue resultQueue start []
  rw [← split] at run
  have result : verifyFlash link.recorded (some file) { cmdQueue, resultQueue, state := (state, []) } =
      verifyLoop link.recorded { size := file.len, rest := file.bytes }
        (BitVec.ofNat 32 (wordsOf file.bytes).length) 0
        { cmdQueue, resultQueue, state := (state, []) } := by
    unfold verifyFlash
    simp only [readblob_len nonempty, sdiv_len]
  rw [← result] at run
  rw [← wordsOf_eq_iff]
  by_cases same : wordsOf file.bytes = (addressesAt 0 (wordsOf file.bytes).length).map memory
  · rw [if_pos same] at run
    exact ⟨_, cmdQueue', resultQueue', state', chunks, still, run, iff_of_true rfl same,
      fun other => absurd rfl other, fun _ => (addresses same).trans places⟩
  · have differs : Ending.returned (-1) ≠ Ending.returned 0 := by decide
    rw [if_neg same] at run
    exact ⟨_, cmdQueue', resultQueue', state', chunks, still, run, iff_of_false differs same,
      fun _ => rfl, fun zero => absurd zero differs⟩

/-- With a reliable transport and target, `verifyFlash` returns 0 exactly when every word of the
file is in the target at its address, and -1 otherwise; when it returns 0, it has sent reads of
these addresses, each once and in order, and nothing else. -/
theorem verify_exact (nonempty : file.bytes ≠ []) (cmdQueue resultQueue : List Byte) {state : σ}
    (start : here state) :
    let result := verifyFlash link.recorded (some file)
      { cmdQueue, resultQueue, state := (state, []) }
    (result.1 = .returned 0 ↔ ∀ i < file.bytes.length / 4,
      (wordsOf file.bytes)[i]? = some (memory (BitVec.ofNat 32 (4 * i)))) ∧
    (result.1 ≠ .returned 0 → result.1 = .returned (-1)) ∧
    (result.1 = .returned 0 → ∃ chunks : List (List Word),
      result.2.state.2 = chunks.map readPacketOf ∧
        chunks.flatten =
          (List.range (file.bytes.length / 4)).map fun i => BitVec.ofNat 32 (4 * i)) := by
  obtain ⟨ending, cmdQueue', resultQueue', state', chunks, -, run, zero, other, flat⟩ :=
    verifyFlash_result link file reads nonempty cmdQueue resultQueue start
  rw [run]
  exact ⟨zero, other, fun done => ⟨chunks, rfl, flat done⟩⟩

end Result

/-- What a memory answers to a packet of reads. -/
def answerReads (memory : Word → Word) : List Byte → List Byte
  | _ :: b0 :: b1 :: b2 :: b3 :: rest =>
      wordBytes (memory (wordOfBytes b0 b1 b2 b3)) ++ answerReads memory rest
  | _ => []

/-- A transport to a memory, with the reply that is on its way. -/
def memoryLink (memory : Word → Word) : Link (List Byte) where
  writePacket packet _ := (true, answerReads memory packet)
  readPacket _ reply := (true, 0 :: reply, [])
  failed_empty _ failed := nomatch failed

theorem answerReads_packet (memory : Word → Word) (addresses : List Word) :
    answerReads memory (readPacketOf addresses) = (addresses.map memory).flatMap wordBytes := by
  induction addresses with
  | nil => rfl
  | cons address addresses ih =>
      have packet : readPacketOf (address :: addresses) =
          (Command.readMem address).bytes ++ readPacketOf addresses :=
        List.append_assoc _ _ _
      rw [packet, List.map_cons, List.flatMap_cons, ← ih]
      simp only [Command.bytes, Command.arguments, wordBytes, List.cons_append, List.nil_append,
        answerReads, wordOfBytes_byteOfWord]

theorem memoryLink_reads (inside : Word → Prop) (memory : Word → Word) :
    ReadsMemory (memoryLink memory) (fun _ => True) inside memory := by
  intro address count state _ _ _ _
  refine ⟨?_, trivial⟩
  exact congrArg (fun reply => some (0 :: reply)) (answerReads_packet memory _)

/-- Two words and a part of a third. -/
def partFile : BinaryFile where
  bytes := [0x00, 0x00, 0x00, 0x00, 0x04, 0x00, 0x00, 0x00, 0x09, 0x09]
  fits := Nat.le_of_ble_eq_true rfl

/-- In a memory of words that hold their addresses. -/
theorem verify_exact_part :
    (verifyFlash (memoryLink id).recorded (some partFile)
      { cmdQueue := [], resultQueue := [], state := ([], []) }).1 = .returned 0 :=
  (@verify_exact (List Byte) (memoryLink id) (fun _ => True) id partFile (memoryLink_reads _ id)
    (List.cons_ne_nil _ _) [] [] [] trivial).1.mpr (by decide)

end Swagger.Host
