/-
**A run on a part.**

A transport leads to a part (`Part`) when the packets do to its flash what they stand for: the
request of the erase leaves it blank, a longword clears bits of it, reads deliver its words, and
nothing else touches it. They do so from the states that are `sound`, and lead to such states again.
The flash is what it holds when no erase is under way; longwords and reads are good for a part that
is `ready`, which it is once a read of `MDM_AP_CTRL` has shown the end of the erase.

`Part.flashes`: on such a part, a run ends in one of three ways by the file alone once the erase has
gone well. It gets to its end exactly for a file of whole words, which is then what the flash holds.
For any other file, and for one that cannot be opened, the part has been erased before that shows.
-/

import Swagger.Host.InitSystem

namespace Swagger.Host

open Library

/-! ### Longwords in packets -/

/-- The address and the data of a packet that programs a longword; the packet holds 24 bits of the
address. -/
def longwordOf (packet : List Byte) : Option (Word × Word) :=
  match packet.drop 23 with
  | a0 :: a1 :: a2 :: _ :: _ :: _ :: _ :: _ :: _ :: d0 :: d1 :: d2 :: d3 :: _ =>
      let address := wordOfBytes a0 a1 a2 0
      let data := wordOfBytes d0 d1 d2 d3
      if packet = packetOf (queueFlashLongword address data) then some (address, data) else none
  | _ => none

theorem longwordOf_short {packet : List Byte} (short : packet.length < 36) :
    longwordOf packet = none := by
  unfold longwordOf
  split
  · rename_i found
    have length := congrArg List.length found
    rw [List.length_drop] at length
    simp only [List.length_cons] at length
    omega
  · rfl

theorem toNat_masked (address : Word) :
    (address &&& 0x00FFFFFF).toNat = address.toNat % 2 ^ 24 := by
  rw [BitVec.toNat_and, show (0x00FFFFFF : Word).toNat = 2 ^ 24 - 1 from rfl,
    Nat.and_two_pow_sub_one_eq_mod]

/-- The three low bytes of the word behind the command code. -/
theorem wordOfBytes_masked (address : Word) :
    wordOfBytes (byteOfWord (0x06000000 ||| (address &&& 0x00FFFFFF)) 0)
        (byteOfWord (0x06000000 ||| (address &&& 0x00FFFFFF)) 1)
        (byteOfWord (0x06000000 ||| (address &&& 0x00FFFFFF)) 2) 0 =
      address &&& 0x00FFFFFF := by
  have both : (0x06000000 ||| (address &&& 0x00FFFFFF)).toNat =
      address.toNat % 2 ^ 24 + 6 * 2 ^ 24 := by
    rw [BitVec.toNat_or, toNat_masked, Nat.or_comm, show (0x06000000 : Word).toNat = 6 <<< 24 from
      rfl, or_shiftLeft_eq_add _ 6 24 (Nat.mod_lt _ (by norm_num))]
  apply BitVec.eq_of_toNat_eq
  rw [toNat_wordOfBytes, toNat_masked, toNat_byteOfWord, toNat_byteOfWord, toNat_byteOfWord, both,
    show (0 : Byte).toNat = 0 from rfl]
  omega

/-- Masking an address that is masked changes nothing. -/
theorem queueFlashLongword_masked (address data : Word) :
    packetOf (queueFlashLongword (address &&& 0x00FFFFFF) data) =
      packetOf (queueFlashLongword address data) := by
  have mask : address &&& 0x00FFFFFF &&& 0x00FFFFFF = address &&& 0x00FFFFFF := by
    rw [BitVec.and_assoc, BitVec.and_self]
  simp only [packetOf, queueFlashLongword, mask]

theorem longwordOf_packet (address data : Word) :
    longwordOf (packetOf (queueFlashLongword address data)) =
      some (address &&& 0x00FFFFFF, data) := by
  obtain ⟨back, front⟩ : ∃ back, (packetOf (queueFlashLongword address data)).drop 23 =
      wordBytes (0x06000000 ||| (address &&& 0x00FFFFFF)) ++
        ([(cmdType .writeMem).setWidth 8] ++ (wordBytes (ftfaFccobBase + 4) ++
          (wordBytes data ++ back))) := by
    simp only [packetOf, queueFlashLongword, queueWriteMemory, queuePollMemory, queueReadMemory,
      queueUInt32_eq, queueUInt8, List.nil_append, List.append_assoc]
    exact ⟨_, rfl⟩
  unfold longwordOf
  rw [front]
  simp only [wordBytes, List.cons_append, List.nil_append, wordOfBytes_byteOfWord,
    wordOfBytes_masked, queueFlashLongword_masked, if_true]

/-- Only the packets of longwords are taken for one. -/
theorem packet_of_longwordOf {packet : List Byte} {address data : Word}
    (found : longwordOf packet = some (address, data)) :
    packet = packetOf (queueFlashLongword address data) := by
  unfold longwordOf at found
  split at found
  · dsimp only at found
    split_ifs at found with same
    obtain ⟨rfl, rfl⟩ := Prod.mk.inj (Option.some.inj found)
    exact same
  · cases found

theorem longwordOf_single {packet : List Byte} (single : Single packet) :
    longwordOf packet = none := by
  apply longwordOf_short
  rcases single with rfl | ⟨command, -, rfl⟩
  · decide
  · rw [Command.length_bytes]
    generalize command.opcode = opcode
    cases opcode <;> decide

theorem length_readPacketOf (addresses : List Word) :
    (readPacketOf addresses).length = 5 * addresses.length := by
  induction addresses with
  | nil => rfl
  | cons address addresses ih =>
      have packet : readPacketOf (address :: addresses) =
          (Command.readMem address).bytes ++ readPacketOf addresses :=
        List.append_assoc _ _ _
      rw [packet, List.length_append, ih, Command.length_bytes, List.length_cons]
      simp only [Command.opcode, Opcode.arity]
      omega

/-! ### Parts -/

/-- Flash that has been erased. -/
def blank : Flash := fun _ => 0xFF

def wordAt (flash : Flash) (address : Word) : Word :=
  wordOfBytes (flash address) (flash (address + 1)) (flash (address + 2)) (flash (address + 3))

/-- What packets do to the flash of a part, up to a limit. -/
structure Part {σ : Type} (link : Link σ) (flash : σ → Flash) (sound ready : σ → Prop)
    (limit : Nat) : Prop where
  erase : ∀ state, sound state → let erased := link.exchange erasePacket state
    sound erased.2 ∧ ((Answered 0 erased.1 ∧ flash erased.2 = blank) ∨
      (Refused erased.1 ∧ flash erased.2 = flash state))
  poll : ∀ state, sound state → let polled := link.exchange ctrlPacket state
    Complete 1 polled.1 ∧
      (okWord (fun v => v &&& mdmCtrlFlashErase = 0) polled.1 = true → ready polled.2)
  prompt : ∀ command state, Prompt command → sound state →
    let next := (link.exchange command.bytes state).2
    sound next ∧ flash next = flash state ∧ (ready state → ready next)
  longword : ∀ address data state, sound state → ready state →
    let programmed := link.exchange (packetOf (queueFlashLongword address data)) state
    sound programmed.2 ∧ ready programmed.2 ∧
      (address.toNat % 4 = 0 → address.toNat < limit →
        ¬ Stops programmed.1 ∧ flash programmed.2 = programLongword (flash state) address data)
  reads : ∀ contents, ReadsMemory link
    (fun state => sound state ∧ flash state = contents ∧ ready state)
    (fun place => place.toNat % 4 = 0 ∧ place.toNat + 4 ≤ limit) (wordAt contents)

/-- A packet of one of the commands that leave the flash. -/
def Prompted (packet : List Byte) : Prop := ∃ command, Prompt command ∧ packet = command.bytes

theorem prompted_singles : AdmitsSingles Prompted := fun command prompt => ⟨command, prompt, rfl⟩

/-! ### The erase -/

section Erase

variable {σ : Type} {link : Link σ}

/-- What is kept up to a hit, and what a hit leads to. -/
theorem pollWith_reaches {address : SQInteger} {hit : SQInteger → Bool} (before after : σ → Prop)
    (keeps : ∀ state, before state → before (link.exchange (readAPPacket address) state).2)
    (hits : ∀ state, before state → ¬ Refused (link.exchange (readAPPacket address) state).1 →
      hit (firstWord (resultsOf (link.exchange (readAPPacket address) state).1)) = true →
      after (link.exchange (readAPPacket address) state).2)
    (rounds : Nat) (queues : Queues σ) (start : before queues.state)
    (done : (pollWith link address hit rounds queues).1 = cmdStatusOk) :
    after (pollWith link address hit rounds queues).2.state := by
  induction rounds generalizing queues with
  | zero => exact absurd done (show ¬ cmdStatusTimeout = cmdStatusOk by decide)
  | succ rounds ih =>
      have kept := keeps queues.state start
      have hitting := hits queues.state start
      rw [pollWith_succ] at done ⊢
      simp only at done ⊢
      generalize link.exchange (readAPPacket address) queues.state = exchanged
        at kept hitting done ⊢
      by_cases refused : Refused exchanged.1
      · rw [if_pos (not_ok refused)] at done
        exact absurd done (not_ok refused)
      · have accepted := not_not.mpr ((statusOf_eq_ok exchanged.1).mpr refused)
        rw [if_neg accepted] at done ⊢
        by_cases passed : hit (firstWord (resultsOf exchanged.1)) = true
        · rw [if_pos passed, popUInt32_state]
          exact hitting refused passed
        · rw [if_neg passed] at done ⊢
          refine ih _ ?_ done
          rw [popUInt32_state]
          exact kept

variable {flash : σ → Flash} {sound ready : σ → Prop} {limit : Nat}
  (part : Part link flash sound ready limit)

/-- The part is sound, holds this, and is ready. -/
def Ready (flash : σ → Flash) (sound ready : σ → Prop) (contents : Flash) (state : σ) : Prop :=
  sound state ∧ flash state = contents ∧ ready state

include part

/-- Commands that leave the flash keep what it holds, and that the part is ready. -/
theorem Part.keeps (contents : Flash) {packet : List Byte} {state : σ} (prompted : Prompted packet)
    (here : Ready flash sound ready contents state) :
    Ready flash sound ready contents (link.exchange packet state).2 := by
  obtain ⟨command, prompt, rfl⟩ := prompted
  obtain ⟨isSound, holds, isReady⟩ := here
  obtain ⟨sound', same, still⟩ := part.prompt command state prompt isSound
  exact ⟨sound', same.trans holds, still isReady⟩

/-- The wait for the end of the erase leads to a part that is ready. -/
theorem Part.polled {queues : Queues σ} (isSound : sound queues.state)
    (erased : flash queues.state = blank)
    (done : (pollAPNot link mdmApCtrl mdmCtrlFlashErase queues).1 = 0) :
    Ready flash sound ready blank (pollAPNot link mdmApCtrl mdmCtrlFlashErase queues).2.state := by
  have kept (state : σ) (here : sound state ∧ flash state = blank) :
      sound (link.exchange ctrlPacket state).2 ∧ flash (link.exchange ctrlPacket state).2 = blank := by
    obtain ⟨sound', same, -⟩ := part.prompt (.readAP mdmApCtrl) state (.inr rfl) here.1
    exact ⟨sound', same.trans here.2⟩
  refine pollWith_reaches (fun state => sound state ∧ flash state = blank)
    (Ready flash sound ready blank) kept (fun state here accepted passed => ?_) maxRetries queues
    ⟨isSound, erased⟩ done
  obtain ⟨complete, settles⟩ := part.poll state here.1
  have cleared := congrFun erased_test (firstWord (resultsOf (link.exchange ctrlPacket state).1))
  rw [passed] at cleared
  obtain ⟨sound', holds⟩ := kept state here
  refine ⟨sound', holds, settles (okWord_iff.mpr
    ⟨(complete_iff_answered accepted).mp complete, ?_⟩)⟩
  rw [readValue, if_pos ((statusOf_eq_ok _).mpr accepted)]
  exact cleared.symm

theorem Part.erasing {queues : Queues σ} (isSound : sound queues.state)
    (done : (erasingFlash link queues).1 = 0) :
    Ready flash sound ready blank (erasingFlash link queues).2.state := by
  have failed : ¬ (-1 : SQInteger) = 0 := by decide
  have written := executeStatus_eq link
    (queueWriteAP mdmApCtrl (mdmCtrlSysResetReq ||| mdmCtrlFlashErase) (clearCmdQueue queues))
  have status : (writeAP link mdmApCtrl (mdmCtrlSysResetReq ||| mdmCtrlFlashErase) queues).1 =
      statusOf (link.exchange erasePacket queues.state).1 := congrArg Prod.fst written
  have state : (writeAP link mdmApCtrl (mdmCtrlSysResetReq ||| mdmCtrlFlashErase) queues).2.state =
      (link.exchange erasePacket queues.state).2 :=
    congrArg (fun result => result.2.state) written
  have tail : Scripted Prompted (fun _ link queues => kinetisMdmHalt link
      (connect link (setReset link 0 (setReset link 1 queues))).2) := by
    intro σ τ link link' related corresponds queues queues' same
    have reset := setReset_same corresponds same 1 ⟨.reset _, trivial, rfl⟩
    have released := setReset_same corresponds reset 0 ⟨.reset _, trivial, rfl⟩
    have connected := connectLoop_matches (prompted_singles .connect trivial) corresponds 10 released
    exact kinetisMdmHalt_matches prompted_singles corresponds connected.2
  rw [erasingFlash] at done ⊢
  simp only at done ⊢
  generalize writeAP link mdmApCtrl (mdmCtrlSysResetReq ||| mdmCtrlFlashErase) queues = triggered
    at status state done ⊢
  have polled := @Part.polled σ link flash sound ready limit part triggered.2
  generalize pollAPNot link mdmApCtrl mdmCtrlFlashErase triggered.2 = erased at polled done ⊢
  split_ifs at done ⊢ with refused ended
  · exact absurd done failed
  · rw [not_not, status, statusOf_eq_ok] at refused
    obtain ⟨sound', granted⟩ := part.erase queues.state isSound
    rw [← state] at sound'
    rcases granted with ⟨-, requested⟩ | ⟨refusal, -⟩
    · exact tail.keeps (Ready flash sound ready blank)
        (fun packet state prompted here => part.keeps blank prompted here)
        (polled sound' ((congrArg flash state).trans requested) ended)
    · exact absurd refusal refused
  · exact absurd done failed

/-- The packets of the erase keep the part sound. -/
theorem Part.single_sound {packet : List Byte} {state : σ} (single : Single packet)
    (isSound : sound state) : sound (link.exchange packet state).2 := by
  rcases single with rfl | ⟨command, prompt, rfl⟩
  · exact (part.erase state isSound).1
  · exact (part.prompt command state prompt isSound).1

/-- So do the checks in front of the request of the erase. -/
theorem Part.checked {queues : Queues σ} (isSound : sound queues.state) :
    sound (readMemory link simFcfg1 (readAP link mdmApStat (pollAP link mdmApStat mdmStatFlashReady
      (writeMemory link simScgc6 scgc6Ftf
        (kinetisMdmHalt link (setReset link 0 queues)).2).2).2).2).2.state := by
  have checks : Scripted Prompted (fun _ link queues => readMemory link simFcfg1 (readAP link
      mdmApStat (pollAP link mdmApStat mdmStatFlashReady (writeMemory link simScgc6 scgc6Ftf
        (kinetisMdmHalt link (setReset link 0 queues)).2).2).2).2) := by
    intro σ τ link link' related corresponds queues queues' same
    have released := setReset_same corresponds same 0 ⟨.reset _, trivial, rfl⟩
    have halted := kinetisMdmHalt_matches prompted_singles corresponds released
    have clocked := writeMemory_matches corresponds halted.2
      (prompted_singles (.writeMem simScgc6 scgc6Ftf) (.inr (.inr rfl)))
    have ready : Matches related (pollAP link mdmApStat mdmStatFlashReady _)
        (pollAP link' mdmApStat mdmStatFlashReady _) :=
      pollWith_matches prompted_singles corresponds (.inl rfl)
        (fun v => v &&& mdmStatFlashReady = mdmStatFlashReady) maxRetries clocked.2
    have security := readAP_matches corresponds ready.2
      (prompted_singles (.readAP mdmApStat) (.inl rfl))
    exact readMemory_matches corresponds security.2 (prompted_singles (.readMem simFcfg1) trivial)
  exact checks.keeps sound
    (fun packet state prompted here => part.single_sound (.inr prompted) here) isSound

/-- If the erase goes well, it leaves the flash blank, and the part is ready. -/
theorem Part.erased {queues : Queues σ} (isSound : sound queues.state)
    (done : (kinetisFlasherase link queues).1 = 0) :
    Ready flash sound ready blank (kinetisFlasherase link queues).2.state := by
  have failed : ¬ (-1 : SQInteger) = 0 := by decide
  have before := part.checked isSound
  rw [kinetisFlasherase] at done ⊢
  simp only at done ⊢
  split_ifs at done ⊢
  · exact absurd done failed
  · exact absurd done failed
  · exact absurd done failed
  · exact absurd done failed
  · exact absurd done failed
  · exact part.erasing before done

theorem Part.connected {queues : Queues σ} (isSound : sound queues.state) :
    sound (connect link queues).2.state := by
  have connects : Scripted Prompted (fun _ link queues => connect link queues) :=
    fun corresponds _ _ same =>
      connectLoop_matches (prompted_singles .connect trivial) corresponds 10 same
  exact connects.keeps sound
    (fun packet state prompted here => part.single_sound (.inr prompted) here) isSound

/-- However it goes, it leaves the flash as it was, or blank. -/
theorem Part.untouched (contents : Flash) {queues : Queues σ} (isSound : sound queues.state)
    (start : flash queues.state = contents) :
    flash (kinetisFlasherase link (connect link queues).2).2.state = contents ∨
      flash (kinetisFlasherase link (connect link queues).2).2.state = blank := by
  have singles : AdmitsSingles Single := fun command prompt => .inr ⟨command, prompt, rfl⟩
  have scripted : Scripted Single
      (fun _ link queues => kinetisFlasherase link (connect link queues).2) :=
    fun corresponds _ _ same => erased_matches singles (.inl rfl) corresponds same
  refine (scripted.keeps
    (fun state => sound state ∧ (flash state = contents ∨ flash state = blank))
    (fun packet state single here => ⟨part.single_sound single here.1, ?_⟩)
    ⟨isSound, .inl start⟩).2
  rcases single with rfl | ⟨command, prompt, rfl⟩
  · rcases (part.erase state here.1).2 with ⟨-, erased⟩ | ⟨-, same⟩
    · exact .inr erased
    · rw [same]
      exact here.2
  · rw [(part.prompt command state prompt here.1).2.1]
    exact here.2

end Erase

/-! ### The same calls on two targets -/

section Views

variable {σ τ : Type} {target : FlashTarget σ} {target' : FlashTarget τ} (view : τ → σ)
  (longword : ∀ address data state, target.flashProgramLongword address data (view state) =
    ((target'.flashProgramLongword address data state).1,
      view (target'.flashProgramLongword address data state).2))

include longword

/-- A target that is seen in another one makes the same of a blob. -/
theorem flashLoop_view (left : Nat) (blob : Blob) (bound : blob.rest.length ≤ left)
    (idx : SQInteger) (state : τ) :
    target.flashLoop blob idx (view state) =
      ((target'.flashLoop blob idx state).1, view (target'.flashLoop blob idx state).2) := by
  induction left using Nat.strong_induction_on generalizing blob idx state with
  | _ left ih =>
      obtain ⟨size, rest⟩ := blob
      cases inside : idx.slt size with
      | false => rw [flashLoop_end _ inside, flashLoop_end _ inside]
      | true =>
          cases read : Blob.readn { size, rest } with
          | none => rw [flashLoop_thrown _ inside read, flashLoop_thrown _ inside read]
          | some result =>
              obtain ⟨word, blob'⟩ := result
              have smaller := lt_of_lt_of_le (Blob.readn_shorter read) bound
              rw [flashLoop_word _ inside read, flashLoop_word _ inside read, longword]
              simp only
              split_ifs
              · rfl
              · exact ih _ smaller blob' le_rfl (idx + 4) _
              · exact ih _ smaller blob' le_rfl (idx + 4) state

theorem flashProgram_view
    (reset : ∀ value state,
      target.setReset value (view state) = view (target'.setReset value state))
    (binFile : Option BinaryFile) (state : τ) :
    target.flashProgram binFile (view state) =
      ((target'.flashProgram binFile state).1, view (target'.flashProgram binFile state).2) := by
  unfold FlashTarget.flashProgram
  cases binFile with
  | none => rfl
  | some file =>
      cases read : file.readblob file.len with
      | none => simp only [read]
      | some blob =>
          simp only [read, flashLoop_view view longword _ blob le_rfl]
          generalize target'.flashLoop blob 0 state = result
          obtain ⟨_ | ending, state'⟩ := result
          · simp only [reset]
          · rfl

end Views

/-! ### Words and bytes -/

/-- The bytes of a list of words, by the word and the place in it. -/
theorem getElem?_flatMap_wordBytes {words : List Word} {index offset : Nat}
    (inside : index < words.length) (few : offset < 4) :
    (words.flatMap wordBytes)[4 * index + offset]? =
      some (byteOfWord (words.getD index 0) offset) := by
  induction words generalizing index with
  | nil => exact absurd inside (Nat.not_lt_zero _)
  | cons word words ih =>
      rw [List.flatMap_cons]
      cases index with
      | zero =>
          rw [List.getElem?_append_left (by rw [length_wordBytes]; omega), List.getD_cons_zero]
          interval_cases offset <;> rfl
      | succ index =>
          rw [List.getElem?_append_right (by rw [length_wordBytes]; omega), length_wordBytes,
            List.getD_cons_succ, ← ih (Nat.lt_of_succ_lt_succ inside)]
          exact congrArg (fun place => _[place]?) (by omega)

/-- Words that are burnt are there to be read. -/
theorem wordAt_burnt {words : List Word} {index : Nat} (inside : index < words.length)
    (small : 4 * words.length < 2 ^ 32) :
    wordAt (burnt blank 0 (words.flatMap wordBytes)) (BitVec.ofNat 32 (4 * index)) =
      words.getD index 0 := by
  have stored (offset : Nat) (few : offset < 4) :
      burnt blank 0 (words.flatMap wordBytes)
          (BitVec.ofNat 32 (4 * index) + BitVec.ofNat 32 offset) =
        byteOfWord (words.getD index 0) offset := by
    have place : (BitVec.ofNat 32 (4 * index) + BitVec.ofNat 32 offset).toNat =
        4 * index + offset := by
      rw [← BitVec.ofNat_add, BitVec.toNat_ofNat, Nat.mod_eq_of_lt (by omega)]
    unfold burnt
    rw [place, if_neg (Nat.not_lt_zero _), Nat.sub_zero,
      getElem?_flatMap_wordBytes inside few, Option.getD_some]
  have first := stored 0 (by omega)
  have second := stored 1 (by omega)
  have third := stored 2 (by omega)
  have fourth := stored 3 (by omega)
  have start : BitVec.ofNat 32 (4 * index) + BitVec.ofNat 32 0 = BitVec.ofNat 32 (4 * index) :=
    BitVec.add_zero _
  rw [start] at first
  rw [wordAt, first, show (1 : Word) = BitVec.ofNat 32 1 from rfl,
    show (2 : Word) = BitVec.ofNat 32 2 from rfl, show (3 : Word) = BitVec.ofNat 32 3 from rfl,
    second, third, fourth, wordOfBytes_byteOfWord]

theorem addressesAt_burnt (words : List Word) (small : 4 * words.length < 2 ^ 32) :
    words = (addressesAt 0 words.length).map
      (wordAt (burnt blank 0 (words.flatMap wordBytes))) := by
  apply List.ext_getElem?
  intro index
  by_cases inside : index < words.length
  · have absolute : (0 : Word) + BitVec.ofNat 32 (4 * index) = BitVec.ofNat 32 (4 * index) :=
      BitVec.zero_add _
    rw [addressesAt, List.map_map, List.getElem?_map, List.getElem?_range inside, Option.map_some,
      Function.comp_apply, absolute, wordAt_burnt inside small, List.getD_eq_getElem _ _ inside,
      List.getElem?_eq_getElem inside]
  · rw [List.getElem?_eq_none (by omega),
      List.getElem?_eq_none (by rw [List.length_map, length_addressesAt]; omega)]

theorem burnt_blank : burnt blank 0 [] = blank := burnt_nil fun _ _ => rfl

/-! ### A file on a part -/

section File

variable {σ : Type} {link : Link σ} {flash : σ → Flash} {sound ready : σ → Prop} {limit : Nat}
  (part : Part link flash sound ready limit)

/-- The target that is a part which is sound and ready. -/
def Part.target : FlashTarget { queues : Queues σ // sound queues.state ∧ ready queues.state } where
  flashProgramLongword address data queues :=
    ((kinetisFlashLongword link address data queues.1).1,
      ⟨(kinetisFlashLongword link address data queues.1).2, by
        rw [kinetisFlashLongword_state]
        obtain ⟨isSound, isReady, -⟩ := part.longword address data queues.1.state queues.2.1
          queues.2.2
        exact ⟨isSound, isReady⟩⟩)
  setReset value queues :=
    ⟨setReset link value queues.1, by
      rw [setReset, executeCmdQueue_snd]
      obtain ⟨isSound, -, isReady⟩ := part.prompt (.reset (value.setWidth 8)) queues.1.state trivial
        queues.2.1
      exact ⟨isSound, isReady queues.2.2⟩⟩

/-- It can be programmed. -/
theorem Part.programs {size : Nat} (fits : size ≤ limit) :
    Programs part.target (fun queues => flash queues.1.state) size where
  longword address data queues aligned inside := by
    obtain ⟨-, -, programmed⟩ := part.longword address data queues.1.state queues.2.1 queues.2.2
    obtain ⟨goes, burns⟩ := programmed aligned (lt_of_lt_of_le inside fits)
    refine ⟨(kinetisFlashLongword_eq_zero_iff link address data queues.1).mpr goes, ?_⟩
    show flash (kinetisFlashLongword link address data queues.1).2.state = _
    rw [kinetisFlashLongword_state]
    exact burns
  setReset value queues := by
    show flash (setReset link value queues.1).state = _
    rw [setReset, executeCmdQueue_snd]
    exact (part.prompt (.reset (value.setWidth 8)) queues.1.state trivial queues.2.1).2.1

include part in
/-- `flash_program` leaves the words of the file in a part that is blank. -/
theorem Part.programmed (file : BinaryFile) (nonempty : file.bytes ≠ [])
    (fits : file.bytes.length ≤ limit) {queues : Queues σ}
    (here : Ready flash sound ready blank queues.state) :
    ∃ queues', (targetKV10Z link).flashProgram (some file) queues =
        (if partOf file.bytes = [] then .returned 0 else .thrown, queues') ∧
      Ready flash sound ready (burnt blank 0 ((wordsOf file.bytes).flatMap wordBytes))
        queues'.state := by
  obtain ⟨isSound, isBlank, isReady⟩ := here
  have erased : ∀ location, flash queues.state location = 0xFF := fun location => by
    rw [isBlank]
    rfl
  let start : { queues : Queues σ // sound queues.state ∧ ready queues.state } :=
    ⟨queues, isSound, isReady⟩
  obtain ⟨last, run, left⟩ := flashProgram_result part.target file nonempty (part.programs fits)
    start erased
  have view := @flashProgram_view (Queues σ)
    ({ queues : Queues σ // sound queues.state ∧ ready queues.state } × List FlashCall)
    (targetKV10Z link)
    part.target.recorded (fun state => state.1.1) (fun _ _ _ => rfl) (fun _ _ => rfl) (some file)
    (start, [])
  have reset (value : SQInteger)
      (state : { queues : Queues σ // sound queues.state ∧ ready queues.state }) :
      flash (part.target.setReset value state).1.state = flash state.1.state :=
    (part.programs fits).setReset value state
  rw [run] at view
  rw [isBlank] at left
  by_cases whole : partOf file.bytes = []
  · rw [if_pos whole] at view ⊢
    obtain ⟨isSound', isReady'⟩ := (part.target.setReset 0 (part.target.setReset 1 last)).2
    refine ⟨_, view, isSound', ?_, isReady'⟩
    rw [reset, reset, left]
  · rw [if_neg whole] at view ⊢
    exact ⟨_, view, last.2.1, left, last.2.2⟩

/-- The places of a file that fits a part are words of it. -/
theorem placesOf_inside {file : BinaryFile} {limit : Nat} (fits : file.bytes.length ≤ limit) :
    ∀ place ∈ placesOf file, place.toNat % 4 = 0 ∧ place.toNat + 4 ≤ limit := by
  intro place member
  have small := file.fits
  obtain ⟨index, inside, rfl⟩ := List.mem_map.mp member
  rw [List.mem_range] at inside
  rw [BitVec.toNat_ofNat]
  omega

/-- Where the words of the file can be read, `verifyFlash` compares the file with them. -/
theorem verifyFlash_compares {link : Link σ} {here : σ → Prop} {memory : Word → Word}
    (file : BinaryFile) (reads : ReadsMemory link here (· ∈ placesOf file) memory)
    (nonempty : file.bytes ≠ []) {queues : Queues σ} (start : here queues.state) :
    ((verifyFlash link (some file) queues).1 = .returned 0 ↔
        ∀ i < file.bytes.length / 4, (wordsOf file.bytes)[i]? =
          some (memory (BitVec.ofNat 32 (4 * i)))) ∧
      here (verifyFlash link (some file) queues).2.state := by
  have small := file.fits
  obtain ⟨ending, cmdQueue, resultQueue, state, chunks, still, run, zero, -, -⟩ :=
    verifyFlash_result link file reads nonempty queues.cmdQueue queues.resultQueue start
  have corresponds : link.recorded.Corresponds (fun _ => True)
      (fun recorded state => recorded.1 = state) link := by
    rintro packet recorded state - rfl
    exact ⟨rfl, rfl⟩
  have alike : Queues.Same (fun (recorded : σ × List (List Byte)) state => recorded.1 = state)
      { cmdQueue := queues.cmdQueue
        resultQueue := queues.resultQueue
        state := (queues.state, []) }
      queues := ⟨rfl, rfl, rfl⟩
  have room : ∀ other ∈ some file, other.bytes.length ≤ 2 ^ 32 := by
    rintro other ⟨⟩
    omega
  obtain ⟨same, states⟩ := @verifyFlash_matches _ _ (fun _ => True) _ link.recorded link _ _
    (2 ^ 32) (fun _ _ _ _ _ _ => trivial) le_rfl corresponds (some file) room alike
  rw [run] at same states
  rw [← same, ← states.state]
  exact ⟨zero, still⟩

include part in
/-- `verifyFlash` finds the file in a part that holds its words. -/
theorem Part.verified (file : BinaryFile) (nonempty : file.bytes ≠ [])
    (fits : file.bytes.length ≤ limit) {queues : Queues σ}
    (here : Ready flash sound ready (burnt blank 0 ((wordsOf file.bytes).flatMap wordBytes))
      queues.state) :
    (verifyFlash link (some file) queues).1 = .returned 0 ∧
      flash (verifyFlash link (some file) queues).2.state =
        burnt blank 0 ((wordsOf file.bytes).flatMap wordBytes) := by
  have small := file.fits
  have length := length_wordsOf file.bytes
  obtain ⟨compares, still⟩ := verifyFlash_compares file
    ((part.reads _).within (placesOf_inside fits)) nonempty here
  refine ⟨compares.mpr ?_, still.2.1⟩
  exact (wordsOf_eq_iff _ _).mp (addressesAt_burnt (wordsOf file.bytes) (by omega))

/-- The words of the file, if there is one. -/
def fileWords (binFile : Option BinaryFile) : List Word :=
  (binFile.map fun file => wordsOf file.bytes).getD []

theorem wholeWords_iff (file : BinaryFile) :
    WholeWords (some file) ↔ file.bytes ≠ [] ∧ partOf file.bytes = [] := by
  rw [partOf_eq_nil_iff]
  constructor
  · rintro ⟨other, same, whole⟩
    cases same
    exact whole
  · exact fun whole => ⟨file, rfl, whole⟩

include part in
/-- Behind an erase that has gone well, the file decides how the run ends. -/
theorem Part.run_some (file : BinaryFile) (fits : file.bytes.length ≤ limit) {queues : Queues σ}
    (isSound : sound queues.state)
    (done : (kinetisFlasherase link (connect link queues).2).1 = 0) :
    (WholeWords (some file) → (initSystem link false (some file) queues).1 = .finished) ∧
      (¬ WholeWords (some file) → (initSystem link false (some file) queues).1 = .caught) ∧
      flash (initSystem link false (some file) queues).2.state =
        burnt blank 0 ((wordsOf file.bytes).flatMap wordBytes) := by
  have isBlank := part.erased (part.connected isSound) done
  have run_eq := initSystem_eq link (some file) queues
  simp only at run_eq
  generalize kinetisFlasherase link (connect link queues).2 = erased at done isBlank run_eq
  obtain ⟨value, queues₁⟩ := erased
  simp only at done
  subst done
  rw [require_zero] at run_eq
  by_cases empty : file.bytes = []
  · have thrown : (targetKV10Z link).flashProgram (some file) queues₁ = (.thrown, queues₁) := by
      unfold FlashTarget.flashProgram
      simp only [readblob_empty empty]
    have none : wordsOf file.bytes = [] := by
      rw [empty]
      rfl
    rw [thrown, require_failed (show Ending.thrown ≠ .returned 0 from nofun)] at run_eq
    rw [run_eq, none, List.flatMap_nil, burnt_blank]
    exact ⟨fun whole => absurd empty ((wholeWords_iff file).mp whole).1, fun _ => rfl,
      isBlank.2.1⟩
  · obtain ⟨queues₂, program, left⟩ := part.programmed file empty fits isBlank
    rw [program] at run_eq
    by_cases whole : partOf file.bytes = []
    · obtain ⟨confirmed, holds⟩ := part.verified file empty fits left
      rw [if_pos whole, require_zero, require_last, confirmed] at run_eq
      rw [run_eq]
      exact ⟨fun _ => rfl, fun other => absurd ((wholeWords_iff file).mpr ⟨empty, whole⟩) other,
        holds⟩
    · rw [if_neg whole, require_failed (show Ending.thrown ≠ .returned 0 from nofun)] at run_eq
      rw [run_eq]
      exact ⟨fun other => absurd ((wholeWords_iff file).mp other).2 whole, fun _ => rfl, left.2.1⟩

/-- How a run ends, and what it makes of the flash, by the result of the erase. -/
structure Flashes (binFile : Option BinaryFile) (erased : SQInteger) (ending : Startup)
    (before after : Flash) : Prop where
  finished : ending = .finished ↔ erased = 0 ∧ WholeWords binFile
  caught : ending = .caught ↔ erased = 0 ∧ ∃ file ∈ binFile, ¬ WholeWords (some file)
  programmed : erased = 0 → after = burnt blank 0 ((fileWords binFile).flatMap wordBytes)
  unerased : erased ≠ 0 → after = before ∨ after = blank

include part in
/-- Once the erase has gone well, the flash holds the words of the file behind the run and nothing
else; the run gets to its end exactly for a file of whole words, and has caught an error for any
other file that is there. A run whose erase has failed leaves the flash as it was, or blank. -/
theorem Part.flashes (binFile : Option BinaryFile)
    (fits : ∀ file ∈ binFile, file.bytes.length ≤ limit) (queues : Queues σ)
    (isSound : sound queues.state) :
    Flashes binFile (kinetisFlasherase link (connect link queues).2).1
      (initSystem link false binFile queues).1 (flash queues.state)
      (flash (initSystem link false binFile queues).2.state) := by
  have run_eq := initSystem_eq link binFile queues
  dsimp only at run_eq
  by_cases done : (kinetisFlasherase link (connect link queues).2).1 = 0
  · cases binFile with
    | none =>
        obtain ⟨-, isBlank, -⟩ := part.erased (part.connected isSound) done
        have failed : initSystem link false none queues =
            (.failed, (kinetisFlasherase link (connect link queues).2).2) := by
          rw [run_eq, done, require_zero]
          rfl
        rw [failed]
        refine ⟨⟨nofun, ?_⟩, ⟨nofun, ?_⟩, fun _ => isBlank.trans burnt_blank.symm, absurd done⟩
        · rintro ⟨-, file, ⟨⟩, -⟩
        · rintro ⟨-, file, ⟨⟩, -⟩
    | some file =>
        obtain ⟨finished, caught, holds⟩ := part.run_some file (fits file rfl) isSound done
        by_cases whole : WholeWords (some file)
        · have ends := finished whole
          refine ⟨⟨fun _ => ⟨done, whole⟩, fun _ => ends⟩, ⟨fun same => ?_, fun both => ?_⟩,
            fun _ => holds, absurd done⟩
          · rw [ends] at same
            cases same
          · obtain ⟨-, other, ⟨⟩, part⟩ := both
            exact absurd whole part
        · have ends := caught whole
          refine ⟨⟨fun same => ?_, fun both => absurd both.2 whole⟩,
            ⟨fun _ => ⟨done, file, rfl, whole⟩, fun _ => ends⟩, fun _ => holds, absurd done⟩
          rw [ends] at same
          cases same
  · have failed : initSystem link false binFile queues =
        (.failed, (kinetisFlasherase link (connect link queues).2).2) := by
      rw [run_eq, require_failed fun zero => done (Ending.returned.inj zero), Ending.startup,
        if_pos done]
    rw [failed]
    exact ⟨⟨nofun, fun both => absurd both.1 done⟩, ⟨nofun, fun both => absurd both.1 done⟩,
      fun zero => absurd zero done, fun _ => part.untouched (flash queues.state) isSound rfl⟩

end File

/-! ### A part of 32 KB -/

/-- A word that passes the checks of the erase: powered, ready, unsecured, of the right size. -/
def allClear : Word := 0xF3000002

def partWord (flash : Flash) (address : Word) : Word :=
  if address.toNat < 0x8000 then wordAt flash address else allClear

/-- The reply of the part to a packet, and its flash behind it. -/
def partStep (packet : List Byte) (flash : Flash) : List Byte × Flash :=
  if packet = erasePacket then ([0], blank)
  else match longwordOf packet with
    | some (address, data) => (0 :: wordBytes fstatCcif, programLongword flash address data)
    | none =>
        if packet.head? = some Opcode.readMem.code then
          (0 :: answerReads (partWord flash) packet, flash)
        else (0 :: wordBytes allClear, flash)

/-- The transport to it, with the reply that is on its way. -/
def partLink : Link (Flash × List Byte) where
  writePacket packet state :=
    let step := partStep packet state.1
    (true, step.2, step.1)
  readPacket _ state := (true, state.2, state)
  failed_empty _ failed := nomatch failed

theorem partLink_exchange (packet : List Byte) (state : Flash × List Byte) :
    partLink.exchange packet state =
      let step := partStep packet state.1
      (some step.1, step.2, step.1) :=
  rfl

theorem partStep_single {packet : List Byte} (other : packet ≠ erasePacket)
    (single : longwordOf packet = none) (flash : Flash) : (partStep packet flash).2 = flash := by
  unfold partStep
  rw [if_neg other, single]
  simp only
  split_ifs
  · rfl
  · rfl

theorem Prompt.ne_erase {command : Command} (prompt : Prompt command) :
    command.bytes ≠ erasePacket := by
  intro same
  have quiet : ¬ erases command.bytes = true := by
    cases command with
    | writeAP address value =>
        obtain ⟨rfl, rfl⟩ := prompt
        decide
    | waitMemTrue address mask => exact prompt.elim
    | _ => exact nofun
  rw [same] at quiet
  exact quiet (by decide)

theorem partLink_part :
    Part partLink (fun state => state.1) (fun _ => True) (fun _ => True) 0x8000 where
  erase state _ := ⟨trivial, .inl ⟨⟨[], rfl, le_rfl⟩, rfl⟩⟩
  poll state _ := ⟨⟨0, wordBytes allClear, rfl, fun _ => le_rfl⟩, fun _ => trivial⟩
  prompt command state prompt _ :=
    ⟨trivial,
      partStep_single prompt.ne_erase (longwordOf_single (.inr ⟨command, prompt, rfl⟩)) state.1, id⟩
  longword address data state _ _ := by
    refine ⟨trivial, trivial, fun _ inside => ?_⟩
    have other : packetOf (queueFlashLongword address data) ≠ erasePacket := by
      intro same
      have found := longwordOf_packet address data
      rw [same, longwordOf_single (.inl rfl)] at found
      exact nomatch found
    have whole : address &&& 0x00FFFFFF = address := by
      apply BitVec.eq_of_toNat_eq
      rw [toNat_masked, Nat.mod_eq_of_lt (by omega)]
    have step : partStep (packetOf (queueFlashLongword address data)) state.1 =
        (0 :: wordBytes fstatCcif, programLongword state.1 address data) := by
      rw [partStep, if_neg other, longwordOf_packet, whole]
    have clear : flashFailed (firstWord (resultsOf (some (0 :: wordBytes fstatCcif)))) = false := by
      decide
    rw [partLink_exchange, step]
    refine ⟨fun stops => stops.elim ?_ fun failed => ?_, rfl⟩
    · rintro ⟨status, results, same, nonzero⟩
      cases same
      exact nonzero rfl
    · exact Bool.false_ne_true (clear.symm.trans failed)
  reads contents address count state here some few inside := by
    obtain ⟨-, rfl, -⟩ := here
    have head : (readPacketOf (addressesAt address count)).head? = .some Opcode.readMem.code := by
      obtain ⟨count, rfl⟩ := Nat.exists_eq_succ_of_ne_zero some.ne'
      rw [addressesAt, List.range_succ_eq_map]
      rfl
    have other : readPacketOf (addressesAt address count) ≠ erasePacket := by
      intro same
      rw [same] at head
      exact absurd head (by decide)
    have short : (readPacketOf (addressesAt address count)).length < 36 := by
      rw [length_readPacketOf, length_addressesAt]
      omega
    have within : (addressesAt address count).map (partWord state.1) =
        (addressesAt address count).map (wordAt state.1) := by
      refine List.map_congr_left fun place member => ?_
      obtain ⟨-, below⟩ := inside place member
      rw [partWord, if_pos (by omega)]
    have step : partStep (readPacketOf (addressesAt address count)) state.1 =
        (0 :: ((addressesAt address count).map (wordAt state.1)).flatMap wordBytes, state.1) := by
      rw [partStep, if_neg other, longwordOf_short short]
      simp only
      rw [if_pos head, answerReads_packet, within]
    rw [partLink_exchange, step]
    exact ⟨rfl, trivial, rfl, trivial⟩

/-- A programmer with such a part, and something else in its flash. -/
def usedPart : Queues (Flash × List Byte) where
  cmdQueue := []
  resultQueue := []
  state := (fun _ => 0x5A, [])

theorem usedPart_erased :
    (kinetisFlasherase partLink (connect partLink usedPart).2).1 = 0 := by
  decide +kernel

end Swagger.Host
