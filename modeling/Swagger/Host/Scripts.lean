/-
**Scripts do not see more of a transport than its replies.**

Two transports correspond on packets of a kind when, from states that are related, they give the
same reply to such a packet and lead to states that are related (`Link.Corresponds`). A function
that sends packets of the kind only then returns the same on both, and leaves the same queues
(`Scripted`). This holds of every function of the scripts, by what it is composed of.

Two uses: a transport may be exchanged for a simpler one that corresponds to it, and what holds of
every packet of the kind holds of every packet that is sent (`Scripted.sends`).
-/

import Swagger.Host.FlashErrors
import Swagger.Host.MassErase
import Swagger.Host.Verify

namespace Swagger.Host

/-! ### Transports that correspond -/

/-- To packets of a kind, the same replies from states that are related, and such states again. -/
def Link.Corresponds {σ τ : Type} (kind : List Byte → Prop) (related : σ → τ → Prop)
    (link : Link σ) (link' : Link τ) : Prop :=
  ∀ packet state state', kind packet → related state state' →
    (link.exchange packet state).1 = (link'.exchange packet state').1 ∧
      related (link.exchange packet state).2 (link'.exchange packet state').2

/-- The same queues, on transports in related states. -/
structure Queues.Same {σ τ : Type} (related : σ → τ → Prop) (queues : Queues σ)
    (queues' : Queues τ) : Prop where
  cmdQueue : queues.cmdQueue = queues'.cmdQueue
  resultQueue : queues.resultQueue = queues'.resultQueue
  state : related queues.state queues'.state

/-- The same result, and the same queues. -/
def Matches {α σ τ : Type} (related : σ → τ → Prop) (result : α × Queues σ)
    (result' : α × Queues τ) : Prop :=
  result.1 = result'.1 ∧ result.2.Same related result'.2

/-- A function on queues that sends packets of a kind only: it cannot tell transports that
correspond on them. -/
def Scripted {α : Type} (kind : List Byte → Prop)
    (run : ∀ σ : Type, Link σ → Queues σ → α × Queues σ) : Prop :=
  ∀ {σ τ : Type} {link : Link σ} {link' : Link τ} {related : σ → τ → Prop},
    link.Corresponds kind related link' → ∀ {queues : Queues σ} {queues' : Queues τ},
      queues.Same related queues' → Matches related (run σ link queues) (run τ link' queues')

/-! ### Packets of one command -/

/-- The commands that are sent in a packet of their own while a part is connected, halted and
erased, apart from the request of the erase. -/
def Prompt : Command → Prop
  | .connect | .reset _ | .readMem _ => True
  | .readDP address => address = 4
  | .writeDP address value => address = 4 ∧ value = 0x50000000
  | .readAP address => address = mdmApStat ∨ address = mdmApCtrl
  | .writeAP address value => address = mdmApCtrl ∧ value = mdmCtrlDebugReq
  | .writeMem address _ => address = scsDhcsr ∨ address = scsDcrsr ∨ address = simScgc6
  | .waitMemTrue _ _ | .getProgId => False

/-- The packets of one command are of the kind. -/
def AdmitsSingles (kind : List Byte → Prop) : Prop := ∀ command, Prompt command → kind command.bytes

/-- The packets that program a longword are. -/
def AdmitsLongwords (kind : List Byte → Prop) : Prop :=
  ∀ address data, kind (packetOf (queueFlashLongword address data))

/-- The packets that read up to six words below a limit are. -/
def AdmitsReads (kind : List Byte → Prop) (limit : Nat) : Prop :=
  ∀ (address : Word) (count : Nat), 0 < count → count ≤ 6 → address.toNat % 4 = 0 →
    address.toNat + 4 * count ≤ limit → kind (readPacketOf (addressesAt address count))

section Queuing

variable {σ : Type} (queues : Queues σ)

theorem queueReadAP_bytes (address : SQInteger) :
    queueReadAP address (clearCmdQueue queues) =
      { queues with cmdQueue := (Command.readAP address).bytes } := by
  simp only [queueReadAP, queueUInt32_eq, queueUInt8, clearCmdQueue, setWidth_cmdType,
    Command.bytes, Command.opcode, Command.arguments, List.nil_append, List.singleton_append]

theorem queueWriteAP_bytes (address value : SQInteger) :
    queueWriteAP address value (clearCmdQueue queues) =
      { queues with cmdQueue := (Command.writeAP address value).bytes } := by
  simp only [queueWriteAP, queueUInt32_eq, queueUInt8, clearCmdQueue, setWidth_cmdType,
    Command.bytes, Command.opcode, Command.arguments, List.nil_append, List.cons_append]

theorem queueReadStat_bytes :
    queueReadStat (clearCmdQueue queues) = { queues with cmdQueue := (Command.readDP 4).bytes } :=
  rfl

theorem queueWriteStat_bytes (value : SQInteger) :
    queueWriteStat value (clearCmdQueue queues) =
      { queues with cmdQueue := (Command.writeDP 4 value).bytes } := by
  simp only [queueWriteStat, queueWriteDP, queueUInt32_eq, queueUInt8, clearCmdQueue,
    setWidth_cmdType, Command.bytes, Command.opcode, Command.arguments, List.nil_append,
    List.cons_append]
  rfl

theorem queueReadMemory_bytes (address : SQInteger) :
    queueReadMemory address (clearCmdQueue queues) =
      { queues with cmdQueue := (Command.readMem address).bytes } := by
  simp only [queueReadMemory, queueUInt32_eq, queueUInt8, clearCmdQueue, setWidth_cmdType,
    Command.bytes, Command.opcode, Command.arguments, List.nil_append, List.singleton_append]

theorem queueWriteMemory_bytes (address value : SQInteger) :
    queueWriteMemory address value (clearCmdQueue queues) =
      { queues with cmdQueue := (Command.writeMem address value).bytes } := by
  simp only [queueWriteMemory, queueUInt32_eq, queueUInt8, clearCmdQueue, setWidth_cmdType,
    Command.bytes, Command.opcode, Command.arguments, List.nil_append, List.cons_append]

theorem queueReset_bytes (state : SQInteger) :
    queueReset state (clearCmdQueue queues) =
      { queues with cmdQueue := (Command.reset (state.setWidth 8)).bytes } := rfl

theorem queueConnect_bytes :
    queueConnect (clearCmdQueue queues) = { queues with cmdQueue := Command.connect.bytes } := rfl

end Queuing

/-! ### One exchange -/

section Corresponding

variable {σ τ : Type} {kind : List Byte → Prop} {related : σ → τ → Prop} {link : Link σ}
  {link' : Link τ} {queues : Queues σ} {queues' : Queues τ}

theorem popUInt32_matches (same : queues.Same related queues') :
    Matches related (popUInt32 queues) (popUInt32 queues') := by
  obtain ⟨cmdQueue, resultQueue, state⟩ := queues
  obtain ⟨cmdQueue', resultQueue', state'⟩ := queues'
  obtain ⟨rfl, rfl, states⟩ := same
  unfold popUInt32
  split
  · rename_i queue
    simp only at queue ⊢
    subst queue
    exact ⟨rfl, rfl, rfl, states⟩
  · exact ⟨rfl, rfl, rfl, states⟩

theorem popWords_matches (words : Nat) {queues : Queues σ} {queues' : Queues τ}
    (same : queues.Same related queues') :
    Matches related (popWords words queues) (popWords words queues') := by
  induction words generalizing queues queues' with
  | zero => exact ⟨rfl, same⟩
  | succ words ih =>
      have first := popUInt32_matches same
      have rest := ih first.2
      exact ⟨congrArg₂ List.cons first.1 rest.1, rest.2⟩

section Exchange

variable (corresponds : link.Corresponds kind related link') (same : queues.Same related queues')

include corresponds same

theorem executeCmdQueue_matches {cmdQueue : List Byte} (sends : kind cmdQueue) :
    Matches related (executeCmdQueue link { queues with cmdQueue })
      (executeCmdQueue link' { queues' with cmdQueue }) := by
  obtain ⟨reply, states⟩ := corresponds cmdQueue queues.state queues'.state sends same.state
  refine ⟨rfl, ?_⟩
  rw [executeCmdQueue_snd, executeCmdQueue_snd]
  exact ⟨rfl, congrArg (Option.getD · []) reply, states⟩

theorem executeStatus_matches {cmdQueue : List Byte} (sends : kind cmdQueue) :
    Matches related (executeStatus link { queues with cmdQueue })
      (executeStatus link' { queues' with cmdQueue }) := by
  obtain ⟨reply, states⟩ := corresponds cmdQueue queues.state queues'.state sends same.state
  rw [executeStatus_eq, executeStatus_eq]
  exact ⟨congrArg statusOf reply, rfl, congrArg resultsOf reply, states⟩

theorem executeRead_matches {cmdQueue : List Byte} (sends : kind cmdQueue) :
    Matches related (executeRead link { queues with cmdQueue })
      (executeRead link' { queues' with cmdQueue }) := by
  have status := executeStatus_matches corresponds same sends
  unfold executeRead
  simp only
  rw [status.1]
  split_ifs
  · exact popUInt32_matches status.2
  · exact ⟨rfl, status.2⟩

end Exchange

/-! ### The functions -/

section Functions

variable (corresponds : link.Corresponds kind related link') (same : queues.Same related queues')

include corresponds same

theorem readStat_matches (sends : kind (Command.readDP 4).bytes) :
    Matches related (readStat link queues) (readStat link' queues') := by
  unfold readStat
  rw [queueReadStat_bytes, queueReadStat_bytes]
  exact executeRead_matches corresponds same sends

theorem writeStat_matches {value : SQInteger} (sends : kind (Command.writeDP 4 value).bytes) :
    Matches related (writeStat link value queues) (writeStat link' value queues') := by
  unfold writeStat
  rw [queueWriteStat_bytes, queueWriteStat_bytes]
  exact executeStatus_matches corresponds same sends

theorem readAP_matches {address : SQInteger} (sends : kind (Command.readAP address).bytes) :
    Matches related (readAP link address queues) (readAP link' address queues') := by
  unfold readAP
  rw [queueReadAP_bytes, queueReadAP_bytes]
  exact executeRead_matches corresponds same sends

theorem writeAP_matches {address value : SQInteger}
    (sends : kind (Command.writeAP address value).bytes) :
    Matches related (writeAP link address value queues) (writeAP link' address value queues') := by
  unfold writeAP
  rw [queueWriteAP_bytes, queueWriteAP_bytes]
  exact executeStatus_matches corresponds same sends

theorem readMemory_matches {address : SQInteger} (sends : kind (Command.readMem address).bytes) :
    Matches related (readMemory link address queues) (readMemory link' address queues') := by
  unfold readMemory
  rw [queueReadMemory_bytes, queueReadMemory_bytes]
  exact executeRead_matches corresponds same sends

theorem writeMemory_matches {address value : SQInteger}
    (sends : kind (Command.writeMem address value).bytes) :
    Matches related (writeMemory link address value queues)
      (writeMemory link' address value queues') := by
  unfold writeMemory
  rw [queueWriteMemory_bytes, queueWriteMemory_bytes]
  exact executeStatus_matches corresponds same sends

theorem setReset_same (state : SQInteger)
    (sends : kind (Command.reset (state.setWidth 8)).bytes) :
    (setReset link state queues).Same related (setReset link' state queues') := by
  unfold setReset
  rw [queueReset_bytes, queueReset_bytes]
  exact (executeCmdQueue_matches corresponds same sends).2

end Functions

section Loops

/-- The rounds of a connect, when it is known what the first of them does. -/
theorem connectLoop_first {rounds : Nat} (rest : ∀ {queues : Queues σ} {queues' : Queues τ},
      queues.Same related queues' →
      Matches related (connectLoop link rounds queues) (connectLoop link' rounds queues'))
    (reply : (link.exchange Command.connect.bytes queues.state).1 =
      (link'.exchange Command.connect.bytes queues'.state).1)
    (states : related (link.exchange Command.connect.bytes queues.state).2
      (link'.exchange Command.connect.bytes queues'.state).2) :
    Matches related (connectLoop link (rounds + 1) queues)
      (connectLoop link' (rounds + 1) queues') := by
  have packet : packetOf queueConnect = Command.connect.bytes := rfl
  rw [connectLoop_succ, connectLoop_succ, packet]
  simp only
  have replied : Queues.Same related
      { cmdQueue := Command.connect.bytes
        resultQueue := resultsOf (link'.exchange Command.connect.bytes queues'.state).1
        state := (link.exchange Command.connect.bytes queues.state).2 }
      { cmdQueue := Command.connect.bytes
        resultQueue := resultsOf (link'.exchange Command.connect.bytes queues'.state).1
        state := (link'.exchange Command.connect.bytes queues'.state).2 } := ⟨rfl, rfl, states⟩
  have idcode := popUInt32_matches replied
  rw [reply]
  split_ifs
  · exact idcode
  · exact rest idcode.2

theorem connectLoop_matches (connects : kind Command.connect.bytes)
    (corresponds : link.Corresponds kind related link') (rounds : Nat) {queues : Queues σ}
    {queues' : Queues τ} (same : queues.Same related queues') :
    Matches related (connectLoop link rounds queues) (connectLoop link' rounds queues') := by
  induction rounds generalizing queues queues' with
  | zero => exact ⟨rfl, same⟩
  | succ rounds ih =>
      obtain ⟨reply, states⟩ := corresponds Command.connect.bytes queues.state queues'.state
        connects same.state
      exact connectLoop_first ih reply states

variable (singles : AdmitsSingles kind) (corresponds : link.Corresponds kind related link')

include singles corresponds

theorem pollWith_matches {address : SQInteger} (polled : Prompt (.readAP address))
    (hit : SQInteger → Bool) (rounds : Nat) {queues : Queues σ} {queues' : Queues τ}
    (same : queues.Same related queues') :
    Matches related (pollWith link address hit rounds queues)
      (pollWith link' address hit rounds queues') := by
  induction rounds generalizing queues queues' with
  | zero => exact ⟨rfl, same⟩
  | succ rounds ih =>
      have status := executeStatus_matches corresponds same
        (singles (.readAP address) polled)
      have v := popUInt32_matches status.2
      rw [pollWith, pollWith, queueReadAP_bytes, queueReadAP_bytes]
      simp only
      rw [status.1, v.1]
      split_ifs
      · exact status
      · exact ⟨rfl, v.2⟩
      · exact ih v.2

theorem debugPowerLoop_matches (timeouts : Nat) {queues : Queues σ} {queues' : Queues τ}
    (same : queues.Same related queues') :
    Matches related (debugPowerLoop link timeouts queues)
      (debugPowerLoop link' timeouts queues') := by
  induction timeouts generalizing queues queues' with
  | zero =>
      have stat := readStat_matches corresponds same (singles (.readDP 4) rfl)
      rw [debugPowerLoop, debugPowerLoop, stat.1]
      split_ifs
      · exact ⟨rfl, stat.2⟩
      · exact ⟨rfl, stat.2⟩
  | succ timeouts ih =>
      have stat := readStat_matches corresponds same (singles (.readDP 4) rfl)
      rw [debugPowerLoop, debugPowerLoop, stat.1]
      split_ifs
      · exact ih stat.2
      · exact ⟨rfl, stat.2⟩

end Loops

/-! ### Verifying -/

theorem readMemoryWords_matches (corresponds : link.Corresponds kind related link')
    (same : queues.Same related queues') (address words : SQInteger)
    (sends : words.toInt ≤ 6 → kind (readPacketOf (addressesAt address words.toInt.toNat))) :
    Matches related (readMemoryWords link address words queues)
      (readMemoryWords link' address words queues') := by
  unfold readMemoryWords
  simp only
  by_cases many : words.toInt > 6
  · rw [if_pos many, if_pos many]
    exact ⟨rfl, rfl, same.resultQueue, same.state⟩
  · have cleared (σ : Type) (queues : Queues σ) :
        queueReadMemoryWords words.toInt.toNat address (clearCmdQueue queues) =
          { queues with cmdQueue := readPacketOf (addressesAt address words.toInt.toNat) } :=
      queueReadMemoryWords_packet _ _ _
    have status := executeStatus_matches corresponds same (sends (not_lt.mp many))
    have contents := popWords_matches words.toInt.toNat status.2
    rw [if_neg many, if_neg many, cleared, cleared, status.1]
    split_ifs
    · exact ⟨congrArg SQValue.array contents.1, contents.2⟩
    · exact ⟨rfl, status.2⟩

/-- An integer that is not negative, unsigned. -/
theorem toNat_of_toInt {value : SQInteger} (positive : 0 ≤ value.toInt) :
    value.toNat = value.toInt.toNat := by
  have whole := @BitVec.toInt_eq_toNat_bmod 32 value
  have small := value.isLt
  rw [Int.bmod_def] at whole
  split_ifs at whole <;> omega

section Verify

variable {limit : Nat} (reads : AdmitsReads kind limit) (addressable : limit ≤ 2 ^ 32)
  (corresponds : link.Corresponds kind related link')

include reads addressable corresponds

/-- The loop of `verifyFlash`. The induction is on the words that are left. -/
theorem verifyLoop_matches (left : Nat) (blob : Blob) (wordsLeft address : SQInteger)
    (bound : wordsLeft.toInt.toNat ≤ left) (aligned : address.toNat % 4 = 0)
    (inside : address.toNat + 4 * wordsLeft.toInt.toNat ≤ limit) {queues : Queues σ}
    {queues' : Queues τ} (same : queues.Same related queues') :
    Matches related (verifyLoop link blob wordsLeft address queues)
      (verifyLoop link' blob wordsLeft address queues') := by
  induction left using Nat.strong_induction_on generalizing blob wordsLeft address queues queues'
    with
  | _ left ih =>
      rw [verifyLoop, verifyLoop]
      by_cases more : (0 : SQInteger).slt wordsLeft = true
      · obtain ⟨some, few, less⟩ := toInt_wordCount more
        have chunk : (wordCount wordsLeft).toInt ≤ 6 →
            kind (readPacketOf (addressesAt address (wordCount wordsLeft).toInt.toNat)) :=
          fun six => reads _ _ (by omega) (by omega) aligned (by omega)
        have read := readMemoryWords_matches corresponds same address (wordCount wordsLeft) chunk
        rw [if_pos more, if_pos more]
        simp only
        generalize readMemoryWords link address (wordCount wordsLeft) queues = result at read ⊢
        generalize readMemoryWords link' address (wordCount wordsLeft) queues' = result' at read ⊢
        obtain ⟨contents, queues₁⟩ := result
        obtain ⟨contents', queues₁'⟩ := result'
        obtain ⟨rfl, same'⟩ : contents = contents' ∧ queues₁.Same related queues₁' := read
        cases contents with
        | integer value => exact ⟨rfl, same'⟩
        | array values =>
            simp only
            cases compareLoop values (wordCount wordsLeft).toInt.toNat 0 blob with
            | error ending => exact ⟨rfl, same'⟩
            | ok blob' =>
                -- the address may only wrap behind the last word
                have next : (address + wordCount wordsLeft * 4).toNat =
                    (address.toNat + 4 * (wordCount wordsLeft).toInt.toNat) % 2 ^ 32 := by
                  rw [BitVec.toNat_add, BitVec.toNat_mul, toNat_of_toInt some.le,
                    show (4 : SQInteger).toNat = 4 from rfl]
                  omega
                exact ih (wordsLeft - wordCount wordsLeft).toInt.toNat (by rw [less]; omega) blob' _
                  _ le_rfl (by rw [next]; omega) (by rw [next, less]; omega) same'
      · rw [if_neg more, if_neg more]
        exact ⟨rfl, same⟩

theorem verifyFlash_matches (binFile : Option BinaryFile)
    (inside : ∀ file ∈ binFile, file.bytes.length ≤ limit)
    (same : queues.Same related queues') :
    Matches related (verifyFlash link binFile queues) (verifyFlash link' binFile queues') := by
  unfold verifyFlash
  cases binFile with
  | none => exact ⟨rfl, same⟩
  | some file =>
      by_cases empty : file.bytes = []
      · simp only [readblob_empty empty]
        exact ⟨rfl, same⟩
      · have small := file.fits
        have length := length_wordsOf file.bytes
        have count : (file.len.sdiv 4).toInt.toNat = (wordsOf file.bytes).length := by
          rw [sdiv_len, toInt_ofNat_small (by omega), Int.toNat_natCast]
        have room := inside file rfl
        simp only [readblob_len empty]
        refine verifyLoop_matches reads addressable corresponds _ _ _ _ le_rfl rfl ?_ same
        rw [count, show (0 : SQInteger).toNat = 0 from rfl]
        omega

end Verify

/-! ### Erasing -/

section Erase

variable (singles : AdmitsSingles kind) (corresponds : link.Corresponds kind related link')

include singles corresponds

theorem readCoreRegister_matches (same : queues.Same related queues') (regID : SQInteger) :
    Matches related (readCoreRegister link regID queues) (readCoreRegister link' regID queues') :=
  have requested := writeMemory_matches corresponds same
    (singles (.writeMem scsDcrsr regID) (.inr (.inl rfl)))
  readMemory_matches corresponds requested.2 (singles (.readMem scsDcrdr) trivial)

theorem kinetisEnableDebugPower_matches (same : queues.Same related queues') :
    Matches related (kinetisEnableDebugPower link queues)
      (kinetisEnableDebugPower link' queues') :=
  have requested := writeStat_matches corresponds same (singles (.writeDP 4 _) ⟨rfl, rfl⟩)
  debugPowerLoop_matches singles corresponds 100 requested.2

theorem kinetisMdmHalt_matches (same : queues.Same related queues') :
    Matches related (kinetisMdmHalt link queues) (kinetisMdmHalt link' queues') := by
  have powered := kinetisEnableDebugPower_matches singles corresponds same
  have debugged := writeMemory_matches corresponds powered.2 (singles (.writeMem scsDhcsr
    (dhcsrDbgKey ||| cDebugEn ||| cHalt ||| cMaskInts)) (.inl rfl))
  have released := writeAP_matches corresponds debugged.2
    (singles (.writeAP mdmApCtrl mdmCtrlDebugReq) ⟨rfl, rfl⟩)
  have result := readAP_matches corresponds released.2 (singles (.readAP mdmApStat) (.inl rfl))
  have pc := readCoreRegister_matches singles corresponds result.2 15
  have msp := readCoreRegister_matches singles corresponds pc.2 dcrsrRegMsp
  unfold kinetisMdmHalt
  simp only
  rw [powered.1, debugged.1, released.1, result.1]
  split_ifs
  · exact ⟨rfl, powered.2⟩
  · exact ⟨rfl, debugged.2⟩
  · exact ⟨rfl, released.2⟩
  · exact ⟨rfl, msp.2⟩
  · exact ⟨rfl, result.2⟩

theorem erasingFlash_matches (erases : kind erasePacket) (same : queues.Same related queues') :
    Matches related (erasingFlash link queues) (erasingFlash link' queues') := by
  have triggered := writeAP_matches corresponds same (show kind (Command.writeAP mdmApCtrl
    (mdmCtrlSysResetReq ||| mdmCtrlFlashErase)).bytes from erases)
  have erased : Matches related (pollAPNot link mdmApCtrl mdmCtrlFlashErase _)
      (pollAPNot link' mdmApCtrl mdmCtrlFlashErase _) :=
    pollWith_matches singles corresponds (.inr rfl)
      (fun v => v &&& mdmCtrlFlashErase ≠ mdmCtrlFlashErase) maxRetries triggered.2
  have reset := setReset_same corresponds erased.2 1 (singles (.reset _) trivial)
  have released := setReset_same corresponds reset 0 (singles (.reset _) trivial)
  have connected := connectLoop_matches (singles .connect trivial) corresponds 10 released
  have halted := kinetisMdmHalt_matches singles corresponds connected.2
  unfold erasingFlash
  simp only
  rw [triggered.1, erased.1]
  split_ifs
  · exact ⟨rfl, triggered.2⟩
  · exact ⟨rfl, halted.2⟩
  · exact ⟨rfl, erased.2⟩

theorem kinetisFlasherase_matches (erases : kind erasePacket)
    (same : queues.Same related queues') :
    Matches related (kinetisFlasherase link queues) (kinetisFlasherase link' queues') := by
  have released := setReset_same corresponds same 0 (singles (.reset _) trivial)
  have halted := kinetisMdmHalt_matches singles corresponds released
  have clocked := writeMemory_matches corresponds halted.2
    (singles (.writeMem simScgc6 scgc6Ftf) (.inr (.inr rfl)))
  have ready : Matches related (pollAP link mdmApStat mdmStatFlashReady _)
      (pollAP link' mdmApStat mdmStatFlashReady _) :=
    pollWith_matches singles corresponds (.inl rfl)
      (fun v => v &&& mdmStatFlashReady = mdmStatFlashReady) maxRetries clocked.2
  have security := readAP_matches corresponds ready.2 (singles (.readAP mdmApStat) (.inl rfl))
  have retval := readMemory_matches corresponds security.2 (singles (.readMem simFcfg1) trivial)
  have erasing := erasingFlash_matches singles corresponds erases retval.2
  unfold kinetisFlasherase
  simp only
  rw [clocked.1, ready.1, security.1, retval.1]
  split_ifs
  · exact ⟨rfl, clocked.2⟩
  · exact ⟨rfl, ready.2⟩
  · exact ⟨rfl, security.2⟩
  · exact ⟨rfl, retval.2⟩
  · exact ⟨rfl, retval.2⟩
  · exact erasing

end Erase

/-! ### Programming -/

section Program

variable (longwords : AdmitsLongwords kind) (corresponds : link.Corresponds kind related link')

include longwords corresponds

theorem kinetisFlashLongword_matches (same : queues.Same related queues')
    (address data : SQInteger) :
    Matches related (kinetisFlashLongword link address data queues)
      (kinetisFlashLongword link' address data queues') := by
  have result := executeStatus_matches corresponds same (longwords address data)
  unfold executeStatus at result
  have retval := popUInt32_matches result.2
  have executed {σ : Type} (link : Link σ) (queues : Queues σ) :
      (executeCmdQueue link queues).1 = 0 := rfl
  unfold kinetisFlashLongword
  rw [queueFlashLongword_packet, queueFlashLongword_packet]
  simp only
  rw [executed, executed, result.1, retval.1]
  split_ifs with failed
  · exact absurd rfl failed
  · exact ⟨rfl, result.2⟩
  · exact ⟨rfl, retval.2⟩
  · exact ⟨rfl, retval.2⟩

/-- The loop of `flash_program`. The induction is on the bytes that are left of the blob. -/
theorem flashLoop_matches (left : Nat) (blob : Blob) (bound : blob.rest.length ≤ left)
    (idx : SQInteger) {queues : Queues σ} {queues' : Queues τ}
    (same : queues.Same related queues') :
    Matches related ((targetKV10Z link).flashLoop blob idx queues)
      ((targetKV10Z link').flashLoop blob idx queues') := by
  induction left using Nat.strong_induction_on generalizing blob idx queues queues' with
  | _ left ih =>
      obtain ⟨size, rest⟩ := blob
      cases inside : idx.slt size with
      | false =>
          rw [flashLoop_end _ inside, flashLoop_end _ inside]
          exact ⟨rfl, same⟩
      | true =>
          cases read : Blob.readn { size, rest } with
          | none =>
              rw [flashLoop_thrown _ inside read, flashLoop_thrown _ inside read]
              exact ⟨rfl, same⟩
          | some result =>
              obtain ⟨word, blob'⟩ := result
              have shorter := Blob.readn_shorter read
              have smaller := lt_of_lt_of_le shorter bound
              have programmed : Matches related
                  ((targetKV10Z link).flashProgramLongword idx word queues)
                  ((targetKV10Z link').flashProgramLongword idx word queues') :=
                kinetisFlashLongword_matches longwords corresponds same idx word
              rw [flashLoop_word _ inside read, flashLoop_word _ inside read]
              simp only
              rw [programmed.1]
              split_ifs
              · exact ⟨rfl, programmed.2⟩
              · exact ih _ smaller blob' le_rfl (idx + 4) programmed.2
              · exact ih _ smaller blob' le_rfl (idx + 4) same

theorem flashProgram_matches (singles : AdmitsSingles kind) (binFile : Option BinaryFile)
    (same : queues.Same related queues') :
    Matches related ((targetKV10Z link).flashProgram binFile queues)
      ((targetKV10Z link').flashProgram binFile queues') := by
  unfold FlashTarget.flashProgram
  cases binFile with
  | none => exact ⟨rfl, same⟩
  | some file =>
      cases read : file.readblob file.len with
      | none =>
          simp only [read]
          exact ⟨rfl, same⟩
      | some blob =>
          have loop := flashLoop_matches longwords corresponds _ blob le_rfl 0 same
          simp only [read]
          generalize (targetKV10Z link).flashLoop blob 0 queues = result at loop ⊢
          generalize (targetKV10Z link').flashLoop blob 0 queues' = result' at loop ⊢
          obtain ⟨ending, queues₁⟩ := result
          obtain ⟨ending', queues₁'⟩ := result'
          obtain ⟨rfl, same'⟩ : ending = ending' ∧ queues₁.Same related queues₁' := loop
          cases ending with
          | none =>
              have reset := setReset_same corresponds same' 1 (singles (.reset _) trivial)
              exact ⟨rfl, setReset_same corresponds reset 0 (singles (.reset _) trivial)⟩
          | some ending => exact ⟨rfl, same'⟩

end Program

end Corresponding

/-! ### What is sent -/

/-- The record goes on from another one, with packets of a kind. -/
def Extends (kind : List Byte → Prop) (before after : List Exchange) : Prop :=
  ∃ more, after = before ++ more ∧ ∀ exchange ∈ more, kind exchange.packet

/-- A function that sends packets of a kind adds such packets to the record, whatever the replies
are. -/
theorem Scripted.sends {α : Type} {kind : List Byte → Prop}
    {run : ∀ σ : Type, Link σ → Queues σ → α × Queues σ} (scripted : Scripted kind run) {σ : Type}
    (link : Link σ) (queues : Queues (Transcript σ)) :
    Extends kind queues.state.log (run _ link.transcript queues).2.state.log := by
  let related (one two : Transcript σ) := one = two ∧ Extends kind queues.state.log two.log
  have corresponds : link.transcript.Corresponds kind related link.transcript := by
    rintro packet one two sends ⟨rfl, more, log, all⟩
    refine ⟨rfl, rfl, more ++ [⟨packet, (link.exchange packet one.state).1⟩], ?_, ?_⟩
    · simp only [Link.transcript_exchange, log, List.append_assoc]
    · intro exchange member
      rcases List.mem_append.mp member with before | last
      · exact all exchange before
      · rw [List.mem_singleton.mp last]
        exact sends
  have start : queues.Same related queues :=
    ⟨rfl, rfl, rfl, [], (List.append_nil _).symm, fun _ member => absurd member List.not_mem_nil⟩
  exact (scripted corresponds start).2.state.2

/-- And it keeps what the transport keeps on such packets. -/
theorem Scripted.keeps {α : Type} {kind : List Byte → Prop}
    {run : ∀ σ : Type, Link σ → Queues σ → α × Queues σ} (scripted : Scripted kind run) {σ : Type}
    {link : Link σ} (holds : σ → Prop)
    (kept : ∀ packet state, kind packet → holds state → holds (link.exchange packet state).2)
    {queues : Queues σ} (start : holds queues.state) : holds (run σ link queues).2.state := by
  let related (one two : σ) := one = two ∧ holds two
  have corresponds : link.Corresponds kind related link := by
    rintro packet one two sends ⟨rfl, here⟩
    exact ⟨rfl, rfl, kept packet one sends here⟩
  have same : queues.Same related queues := ⟨rfl, rfl, rfl, start⟩
  exact (scripted corresponds same).2.state.2

end Swagger.Host
