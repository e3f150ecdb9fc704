/-
**The driver and the target agree bit by bit.**

The driver moves pins and the target steps at rising edges. The facts about one pin movement are
`Drives.writeBit` and `Listens.readBit`: while the host drives the line and the target does not, a
written bit is what the target sees; while the target drives it and the host does not, a read bit
is what the target sends, and the target takes one step in either case. Every longer exchange is
put together from these two (`Drives.request`, `Listens.readBits`, `Drives.writeBits`).
-/

import Swagger.Firmware.LowLevel

namespace Swagger.Firmware

variable {τ : Type} (target : SwdTarget τ) (noise : Nat → Bool)

/-! ### One bit -/

/-- The host drives the line, and the target is in this state. -/
structure Drives (bench : Bench τ) (port : TargetState τ) : Prop where
  output : bench.hostOutput = true
  wire : bench.wire = port

/-- The host leaves the line to the target, which is in this state. -/
structure Listens (bench : Bench τ) (port : TargetState τ) : Prop where
  input : bench.hostOutput = false
  wire : bench.wire = port

variable {bench : Bench τ} {port : TargetState τ}

theorem Drives.release (drives : Drives bench port) : Listens (bench.configDataPin false) port :=
  ⟨rfl, drives.wire⟩

theorem Listens.release (listens : Listens bench port) : Listens (bench.configDataPin false) port :=
  ⟨rfl, listens.wire⟩

theorem Listens.takeOver (listens : Listens bench port) : Drives (bench.configDataPin true) port :=
  ⟨rfl, listens.wire⟩

theorem Drives.setDataPin (drives : Drives bench port) (v : Bool) :
    Drives (bench.setDataPin v) port :=
  ⟨drives.output, drives.wire⟩

theorem setClockPin_low (bench : Bench τ) :
    bench.setClockPin target noise false = { bench with clock := false } := by
  rw [Bench.setClockPin, if_neg (fun rising => Bool.false_ne_true rising.1)]

theorem writeBit_eq (v : Bool) (bench : Bench τ) :
    (Bench.pins target noise).writeBit v bench =
      Bench.setClockPin target noise true
        { bench with
          level := v
          clock := false } := by
  change (bench.setDataPin v |>.setClockPin target noise false).setClockPin target noise true = _
  rw [setClockPin_low]
  rfl

/-- A falling edge moves nothing, a rising edge is one step of the target. -/
theorem strobe (bench : Bench τ) :
    ((bench.setClockPin target noise false).setClockPin target noise true).hostOutput =
        bench.hostOutput ∧
      ((bench.setClockPin target noise false).setClockPin target noise true).wire =
        bench.wire.step target (bench.line noise) := by
  rw [setClockPin_low, Bench.setClockPin, if_pos ⟨rfl, rfl⟩]
  exact ⟨rfl, rfl⟩

/-- A bit that the host writes while the target keeps off the line. -/
theorem Drives.writeBit (drives : Drives bench port) (quiet : port.drives = none) (v : Bool) :
    Drives ((Bench.pins target noise).writeBit v bench) (port.step target v) := by
  obtain ⟨output, rfl⟩ := drives
  obtain ⟨same, stepped⟩ := strobe target noise (bench.setDataPin v)
  have line : (bench.setDataPin v).line noise = v := by
    unfold Bench.line Bench.setDataPin
    simp only [output, quiet]
  rw [line] at stepped
  exact ⟨same.trans output, stepped⟩

/-- A bit that the host reads while the target drives the line. -/
theorem Listens.readBit (listens : Listens bench port) {bit : Bool}
    (sends : port.drives = some bit) :
    ((Bench.pins target noise).readBit bench).1 = bit ∧
      Listens ((Bench.pins target noise).readBit bench).2 (port.step target bit) := by
  obtain ⟨input, rfl⟩ := listens
  have line : bench.line noise = bit := by
    unfold Bench.line
    simp only [input, sends]
  obtain ⟨same, stepped⟩ := strobe target noise bench
  rw [line] at stepped
  refine ⟨?_, same.trans input, stepped⟩
  change (bench.setClockPin target noise false).line noise = bit
  rw [setClockPin_low]
  exact line

/-- A cycle in which the target does not look at the line. -/
theorem Listens.turnaround (listens : Listens bench port) {next : TargetState τ}
    (blind : ∀ line, port.step target line = next) :
    Listens ((Bench.pins target noise).readBit bench).2 next := by
  obtain ⟨input, rfl⟩ := listens
  obtain ⟨same, stepped⟩ := strobe target noise bench
  rw [blind] at stepped
  exact ⟨same.trans input, stepped⟩

/-! ### Zeros on an idle line -/

theorem Drives.writeZeros (rounds : Nat) {bench : Bench τ} (drives : Drives bench port)
    (idle : port.phase = .idle) :
    Drives ((Bench.pins target noise).repeatBit false rounds bench) port := by
  induction rounds generalizing bench with
  | zero => exact drives
  | succ rounds ih =>
      have quiet : port.drives = none := by rw [TargetState.drives, idle]
      have stays : port.step target false = port := by
        rw [TargetState.step, idle]
        simp
      have written := drives.writeBit target noise quiet false
      rw [stays] at written
      exact ih written

theorem Drives.lineIdle (drives : Drives bench port) (idle : port.phase = .idle) :
    Drives ((Bench.pins target noise).lineIdle bench) port :=
  Drives.writeZeros target noise 8 ⟨rfl, drives.wire⟩ idle

/-! ### The request -/

/-- The phase behind an acknowledgement. -/
def phaseBehind (request : Request) (ack : Ack) (word : Word) : TargetPhase :=
  if ack ≠ .ok then .ending { request, ack, data := none, parity := true }
  else if request.readNotWrite then .sending request word 0
  else .yielding request

/-- The two address bits of the header are the lowest bits of the address. -/
theorem addressBits (address : Byte) :
    (BitVec.ofBoolListLE [decide (address &&& 1 > 0), decide (address &&& 2 > 0)]).setWidth 2 =
      address.setWidth 2 := by
  revert address
  decide

/-- The parity bit of the driver is the one the target expects. -/
theorem headerParity (apNotDp readNotWrite a2 a3 : Bool) :
    (readNotWrite ^^ apNotDp ^^ a2 ^^ a3) = oddParity [apNotDp, readNotWrite, a2, a3] := by
  revert apNotDp readNotWrite a2 a3
  decide

/-- The target takes the last bit of a header with the right parity. -/
theorem endHeader_request (apNotDp readNotWrite : Bool) (address : Byte)
    (port : TargetState τ) :
    port.endHeader target apNotDp readNotWrite (decide (address &&& 1 > 0))
        (decide (address &&& 2 > 0))
        (readNotWrite ^^ apNotDp ^^ decide (address &&& 1 > 0) ^^ decide (address &&& 2 > 0))
        false true =
      { port with
        phase := .turnaround (requestOf apNotDp readNotWrite address)
          (target.respond (requestOf apNotDp readNotWrite address) port.state).1
          (target.respond (requestOf apNotDp readNotWrite address) port.state).2.1
        state := (target.respond (requestOf apNotDp readNotWrite address) port.state).2.2 } := by
  rw [TargetState.endHeader, if_pos ⟨headerParity _ _ _ _, rfl, rfl⟩]
  simp only [addressBits]
  rfl

/-- The three bits of the acknowledgement are put together again. -/
theorem Listens.readAck {request : Request} {ack : Ack} {word : Word}
    (listens : Listens bench { port with phase := .acknowledging request ack word 0 }) :
    ((Bench.pins target noise).readAck bench).1 = ack.code ∧
      Listens ((Bench.pins target noise).readAck bench).2
        { port with phase := phaseBehind request ack word } := by
  obtain ⟨bit0, one⟩ := listens.release.readBit target noise rfl
  obtain ⟨bit1, two⟩ := one.readBit target noise rfl
  obtain ⟨bit2, three⟩ := two.readBit target noise rfl
  unfold SWDInterfaceBase.readAck
  simp only
  rw [Bench.pins_configDataPin, bit0, bit1, bit2]
  constructor
  · cases ack <;> rfl
  · have last : TargetState.step target (ack.code.getLsbD 2)
        { port with phase := .acknowledging request ack word 2 } =
        { port with phase := phaseBehind request ack word } := by
      unfold TargetState.step phaseBehind
      simp only
      rw [if_neg (lt_irrefl 3)]
      split_ifs
      · rfl
      · rfl
      · rfl
    rw [← last]
    exact three

/-- An idle target takes in the request, and is behind its acknowledgement in the end. -/
theorem request_spec (bench : Bench τ)
    (idle : bench.wire.phase = .idle) (apNotDp readNotWrite : Bool) (address : Byte) :
    ((Bench.pins target noise).request apNotDp readNotWrite address bench).1 =
        (target.respond (requestOf apNotDp readNotWrite address) bench.wire.state).1.code ∧
      Listens ((Bench.pins target noise).request apNotDp readNotWrite address bench).2
        { bench.wire with
          phase := phaseBehind (requestOf apNotDp readNotWrite address)
            (target.respond (requestOf apNotDp readNotWrite address) bench.wire.state).1
            (target.respond (requestOf apNotDp readNotWrite address) bench.wire.state).2.1
          state := (target.respond (requestOf apNotDp readNotWrite address)
            bench.wire.state).2.2 } := by
  obtain ⟨hostOutput, level, clock, cycles, ⟨phase, state, log⟩⟩ := bench
  obtain rfl : phase = .idle := idle
  let port (phase : TargetPhase) : TargetState τ := { phase, state, log }
  let before : Bench τ := { hostOutput, level, clock, cycles, wire := port .idle }
  have ready : Drives (before.configDataPin true) (port .idle) := ⟨rfl, rfl⟩
  have zero : Drives _ (port .idle) := ready.writeBit target noise rfl false
  have start : Drives _ (port (.header [])) := zero.writeBit target noise rfl true
  have one : Drives _ (port (.header [_])) := start.writeBit target noise rfl apNotDp
  have two : Drives _ (port (.header [_, _])) := one.writeBit target noise rfl readNotWrite
  have three : Drives _ (port (.header [_, _, _])) :=
    two.writeBit target noise rfl (decide (address &&& 1 > 0))
  have four : Drives _ (port (.header [_, _, _, _])) :=
    three.writeBit target noise rfl (decide (address &&& 2 > 0))
  have five : Drives _ (port (.header [_, _, _, _, _])) := four.writeBit target noise rfl
    (readNotWrite ^^ apNotDp ^^ decide (address &&& 1 > 0) ^^ decide (address &&& 2 > 0))
  have six : Drives _ (port (.header [_, _, _, _, _, _])) := five.writeBit target noise rfl false
  have seven := six.writeBit target noise rfl true
  change Drives _ ((port _).endHeader target apNotDp readNotWrite _ _ _ _ _) at seven
  rw [endHeader_request] at seven
  have turned := seven.release.turnaround target noise fun _ => rfl
  exact turned.readAck target noise

/-! ### Words -/

theorem lowestBit (word : Word) : decide (word &&& 1 ≠ 0) = word.getLsbD 0 := by
  have value : word &&& 1 = BitVec.setWidth 32 (BitVec.ofBool (word.getLsbD 0)) := by
    apply BitVec.eq_of_getLsbD_eq
    intro index small
    rw [BitVec.getLsbD_and, BitVec.getLsbD_setWidth, BitVec.getLsbD_ofBool, decide_eq_true small,
      Bool.true_and]
    cases index with
    | zero => simp
    | succ index => simp [BitVec.getLsbD_one]
  rw [value]
  cases word.getLsbD 0 <;> decide

/-- The folded parity is the parity of all bits. -/
theorem calcParity_eq (x : Word) : calcParity x = oddParity (bitsOfWord x) := by
  unfold calcParity oddParity bitsOfWord
  simp only
  rw [lowestBit]
  simp only [BitVec.getLsbD_xor, BitVec.getLsbD_ushiftRight, Nat.reduceAdd, Nat.add_zero,
    List.range_succ, List.range_zero, List.nil_append, List.cons_append, List.map_cons,
    List.map_nil, List.foldr_cons, List.foldr_nil, Bool.xor_false]
  ac_rfl

theorem topBit : ∀ index < 32, (0x80000000 : Word).getLsbD index = decide (index = 31) := by
  decide

/-- One round of the reading loop. -/
theorem shiftIn_eq (word : Word) (sent : Nat) (small : sent < 32) :
    (if word.getLsbD sent then (word <<< (32 - sent)) >>> 1 ||| 0x80000000
      else (word <<< (32 - sent)) >>> 1) = word <<< (32 - (sent + 1)) := by
  apply BitVec.eq_of_getLsbD_eq
  intro index inside
  have shifted : ((word <<< (32 - sent)) >>> 1).getLsbD index =
      (decide (index ≠ 31) && (word <<< (32 - (sent + 1))).getLsbD index) := by
    simp only [BitVec.getLsbD_ushiftRight, BitVec.getLsbD_shiftLeft]
    rw [show 1 + index - (32 - sent) = index - (32 - (sent + 1)) by omega,
      decide_eq_true inside, Bool.true_and, ← Bool.and_assoc]
    congr 1
    rw [← decide_not, ← decide_not, ← Bool.decide_and, ← Bool.decide_and,
      decide_eq_decide]
    omega
  have top : (word <<< (32 - (sent + 1))).getLsbD 31 = word.getLsbD sent := by
    rw [BitVec.getLsbD_shiftLeft, decide_eq_true (by omega), decide_eq_false (by omega),
      show 31 - (32 - (sent + 1)) = sent by omega, Bool.not_false, Bool.true_and, Bool.true_and]
  by_cases last : index = 31
  · rw [last] at shifted ⊢
    rw [top]
    cases bit : word.getLsbD sent with
    | true =>
        rw [if_pos rfl, BitVec.getLsbD_or, topBit 31 (by omega), decide_eq_true rfl, Bool.or_true]
    | false => rw [if_neg Bool.false_ne_true, shifted, decide_eq_false (by omega), Bool.false_and]
  · rw [decide_eq_true last, Bool.true_and] at shifted
    split_ifs
    · rw [BitVec.getLsbD_or, topBit index inside, decide_eq_false last, Bool.or_false, shifted]
    · exact shifted

/-! ### The data phases -/

/-- The loop that reads: what has been read of the word is at its upper end. -/
theorem Listens.readBits {request : Request} {word : Word} {state : τ} {log : List Transfer}
    (rounds sent : Nat)
    (all : sent + rounds = 32) {bench : Bench τ}
    (listens : Listens bench { phase := .sending request word sent, state, log }) :
    ((Bench.pins target noise).readBits rounds (word <<< (32 - sent)) bench).1 = word ∧
      Listens ((Bench.pins target noise).readBits rounds (word <<< (32 - sent)) bench).2
        { phase := .sending request word 32, state, log } := by
  induction rounds generalizing sent bench with
  | zero =>
      obtain rfl : sent = 32 := all
      exact ⟨BitVec.shiftLeft_zero word, listens⟩
  | succ rounds ih =>
      have small : sent < 32 := by omega
      have drives : TargetState.drives
          { phase := .sending request word sent, state, log : TargetState τ } =
          some (word.getLsbD sent) := by
        unfold TargetState.drives
        simp only
        rw [if_pos small]
      have stepped : TargetState.step target (word.getLsbD sent)
          { phase := .sending request word sent, state, log } =
          { phase := .sending request word (sent + 1), state, log } := by
        unfold TargetState.step
        simp only
        rw [if_pos (by omega)]
      obtain ⟨bit, next⟩ := listens.readBit target noise drives
      rw [stepped] at next
      have rest := ih (sent + 1) (by omega) next
      rw [← shiftIn_eq word sent small, ← bit] at rest
      exact rest

/-- The loop that writes: the target has taken in the lower bits of the word, the others are left
to be written. -/
theorem Drives.writeBits {request : Request} {word : Word} {state : τ} {log : List Transfer}
    (rounds sent : Nat)
    (all : sent + rounds = 32) {bench : Bench τ}
    (drives : Drives bench
      { phase := .receiving request ((List.range sent).map word.getLsbD), state, log }) :
    Drives ((Bench.pins target noise).writeBits rounds (word >>> sent) bench)
      { phase := .receiving request (bitsOfWord word), state, log } := by
  induction rounds generalizing sent bench with
  | zero =>
      obtain rfl : sent = 32 := all
      exact drives
  | succ rounds ih =>
      have bit : decide (word >>> sent &&& 1 ≠ 0) = word.getLsbD sent := by
        rw [lowestBit, BitVec.getLsbD_ushiftRight, Nat.add_zero]
      have stepped :
          TargetState.step target (word.getLsbD sent)
              { phase := .receiving request ((List.range sent).map word.getLsbD), state, log } =
            { phase := .receiving request ((List.range (sent + 1)).map word.getLsbD)
              state, log } := by
        unfold TargetState.step
        simp only
        rw [if_pos (by rw [List.length_map, List.length_range]; omega), List.range_succ,
          List.map_append, List.map_singleton]
      have next := drives.writeBit target noise rfl (word.getLsbD sent)
      rw [stepped] at next
      have rest := ih (sent + 1) (by omega) next
      rw [← bit, BitVec.shiftRight_add] at rest
      exact rest

/-! ### Transactions -/

/-- A target that is idle again, with one more transfer in its log. -/
def TargetState.closed (port : TargetState τ) (result : Transfer × τ) : TargetState τ :=
  { phase := .idle, state := result.2, log := port.log ++ [result.1] }

/-- Behind an acknowledgement other than OK the transfer is over after one cycle. -/
theorem Listens.endRefused {transfer : Transfer} {state : τ}
    (listens : Listens bench { port with phase := .ending transfer, state := state }) :
    ((Bench.pins target noise).endRefused bench).wire = port.closed (transfer, state) :=
  (listens.turnaround target noise fun _ => rfl).wire

/-- The acknowledgement codes are told apart. -/
theorem Ack.refused {ack : Ack} (refused : ack ≠ .ok) :
    ack.code ≠ swdOk ∧ (ack.code = swdFail ∨ ack.code = swdWait) := by
  cases ack with
  | ok => exact absurd rfl refused
  | wait => exact ⟨by decide, .inr rfl⟩
  | fault => exact ⟨by decide, .inl rfl⟩

/-- A read, bit by bit, is a read at the target: it returns the acknowledgement and, if that is OK,
the word of the target, which is idle again. -/
theorem doReadTransaction_spec (bench : Bench τ) (idle : bench.wire.phase = .idle)
    (apNotDp : Bool) (address : Byte) (data : Word) :
    let result := target.transfer (requestOf apNotDp true address) data bench.wire.state
    ((Bench.pins target noise).doReadTransaction apNotDp address data bench).1 = result.1.ack.code ∧
      ((Bench.pins target noise).doReadTransaction apNotDp address data bench).2.1 =
        result.1.data.getD data ∧
      ((Bench.pins target noise).doReadTransaction apNotDp address data bench).2.2.wire =
        bench.wire.closed result := by
  obtain ⟨code, listens⟩ := request_spec target noise bench idle apNotDp true address
  rcases answer : target.respond (requestOf apNotDp true address) bench.wire.state with
    ⟨ack, word, state⟩
  rw [answer] at code listens
  unfold SWDInterfaceBase.doReadTransaction
  generalize (Bench.pins target noise).request apNotDp true address bench = requested at code listens ⊢
  obtain ⟨swdcode, bench'⟩ := requested
  obtain rfl : swdcode = ack.code := code
  simp only at listens ⊢
  by_cases ok : ack = .ok
  · subst ok
    have starts : Listens bench' { phase := .sending _ word 0, state, log := _ } := listens
    have sent := starts.readBits target noise 32 0 rfl
    rw [show word <<< (32 - 0) = 0 from BitVec.shiftLeft_eq_zero le_rfl] at sent
    obtain ⟨read, behind⟩ := sent
    obtain ⟨bit, ended⟩ : _ = oddParity (bitsOfWord word) ∧ Listens _ _ :=
      behind.readBit target noise rfl
    have closed : Drives _ (bench.wire.closed
        ({ request := requestOf apNotDp true address, ack := .ok, data := some word,
           parity := true }, state)) := ended.takeOver.writeBit target noise rfl false
    have idled := (closed.lineIdle target noise rfl).setDataPin true
    have even : ¬ calcParity ((Bench.pins target noise).readBits 32 0 bench').1 ≠
        ((Bench.pins target noise).readBit ((Bench.pins target noise).readBits 32 0 bench').2).1 := by
      rw [read, bit, calcParity_eq]
      exact not_not.mpr rfl
    rw [SwdTarget.transfer_read answer rfl, if_pos Ack.code_ok, if_neg even]
    exact ⟨rfl, read, idled.wire⟩
  · obtain ⟨notOk, refused⟩ := Ack.refused ok
    unfold phaseBehind at listens
    rw [if_pos ok] at listens
    rw [SwdTarget.transfer_refused answer ok, if_neg notOk, if_pos refused]
    exact ⟨rfl, rfl, listens.endRefused target noise⟩

/-- The parity bit of the driver closes the data of a write. -/
theorem receiving_last (request : Request) (data : Word) (state : τ) (log : List Transfer) :
    TargetState.step target (calcParity data)
        { phase := .receiving request (bitsOfWord data), state, log } =
      { phase := .idle
        state := target.accept request data state
        log := log ++ [{ request, ack := .ok, data := some data, parity := true }] } := by
  have even : oddParity (bitsOfWord data ++ [calcParity data]) = false := by
    rw [calcParity_eq]
    exact oddParity_closed _
  have word : wordOfBits ((bitsOfWord data ++ [calcParity data]).take 32) = data := by
    rw [List.take_append_of_le_length (length_bitsOfWord data).ge,
      List.take_of_length_le (length_bitsOfWord data).le, wordOfBits_bitsOfWord]
  unfold TargetState.step
  simp only
  rw [if_neg (by rw [length_bitsOfWord]; exact lt_irrefl _), TargetState.endData, even, word]
  rfl

/-- A write, bit by bit, is a write at the target: it returns the acknowledgement, and the target,
which is idle again, has taken the word with even parity if the acknowledgement is OK. -/
theorem doWriteTransaction_spec (bench : Bench τ) (idle : bench.wire.phase = .idle)
    (apNotDp : Bool) (address : Byte) (data : Word) :
    let result := target.transfer (requestOf apNotDp false address) data bench.wire.state
    ((Bench.pins target noise).doWriteTransaction apNotDp address data bench).1 = result.1.ack.code ∧
      ((Bench.pins target noise).doWriteTransaction apNotDp address data bench).2.wire =
        bench.wire.closed result := by
  obtain ⟨code, listens⟩ := request_spec target noise bench idle apNotDp false address
  rcases answer : target.respond (requestOf apNotDp false address) bench.wire.state with
    ⟨ack, word, state⟩
  rw [answer] at code listens
  unfold SWDInterfaceBase.doWriteTransaction
  generalize (Bench.pins target noise).request apNotDp false address bench = requested at code listens ⊢
  obtain ⟨swdcode, bench'⟩ := requested
  obtain rfl : swdcode = ack.code := code
  simp only at listens ⊢
  by_cases ok : ack = .ok
  · subst ok
    have taken := (listens.turnaround target noise fun _ => rfl).takeOver
    have starts : Drives _
        { phase := .receiving _ ((List.range 0).map data.getLsbD), state, log := _ } := taken
    have written := starts.writeBits target noise 32 0 rfl
    have ended := written.writeBit target noise rfl (calcParity data)
    rw [receiving_last] at ended
    have idled := (ended.lineIdle target noise rfl).setDataPin true
    rw [SwdTarget.transfer_write answer rfl, if_pos Ack.code_ok]
    exact ⟨rfl, idled.wire⟩
  · obtain ⟨notOk, refused⟩ := Ack.refused ok
    unfold phaseBehind at listens
    rw [if_pos ok] at listens
    rw [SwdTarget.transfer_refused answer ok, if_neg notOk, if_pos refused]
    exact ⟨rfl, listens.endRefused target noise⟩

/-! ### Sequences of transactions -/

/-- A call of a transaction. For a read, `data` is what the reference parameter holds before. -/
inductive Call
  | read (apNotDp : Bool) (address : Byte) (data : Word)
  | write (apNotDp : Bool) (address : Byte) (data : Word)
  deriving DecidableEq, Repr

namespace Call

def request : Call → Request
  | .read apNotDp address _ => requestOf apNotDp true address
  | .write apNotDp address _ => requestOf apNotDp false address

def data : Call → Word
  | .read _ _ data | .write _ _ data => data

end Call

/-- A call that has returned, with the bench as it is then. -/
structure Returned (τ : Type) where
  call : Call
  swdcode : Byte
  data : Word
  bench : Bench τ

def Call.perform (call : Call) (bench : Bench τ) : Returned τ :=
  match call with
  | .read apNotDp address data =>
      let result := (Bench.pins target noise).doReadTransaction apNotDp address data bench
      { call, swdcode := result.1, data := result.2.1, bench := result.2.2 }
  | .write apNotDp address data =>
      let result := (Bench.pins target noise).doWriteTransaction apNotDp address data bench
      { call, swdcode := result.1, data, bench := result.2 }

/-- The calls, one after the other. -/
def performAll : List Call → Bench τ → List (Returned τ)
  | [], _ => []
  | call :: calls, bench =>
      let returned := call.perform target noise bench
      returned :: performAll calls returned.bench

/-- The call and the transfer that the target has decoded are the same: the request, the
acknowledgement that is returned, and the data word if there is one. -/
structure Agrees (returned : Returned τ) (transfer : Transfer) : Prop where
  request : transfer.request = returned.call.request
  ack : returned.swdcode = transfer.ack.code
  read : returned.call.request.readNotWrite = true → transfer.ack = .ok →
    transfer.data = some returned.data
  write : returned.call.request.readNotWrite = false → transfer.ack = .ok →
    transfer.data = some returned.call.data ∧ transfer.parity = true

/-- Each call in turn agrees with one transfer, which is the one that the target chose to make of
it; when the call returns, the target is idle and has decoded this one transfer more. -/
def AllAgree (target : SwdTarget τ) : TargetState τ → List (Returned τ) → Prop
  | _, [] => True
  | port, returned :: rest =>
      let result := target.transfer returned.call.request returned.call.data port.state
      Agrees returned result.1 ∧ returned.bench.wire = port.closed result ∧
        AllAgree target (port.closed result) rest

theorem Call.perform_call (call : Call) (bench : Bench τ) :
    (call.perform target noise bench).call = call := by
  cases call <;> rfl

/-- One call. -/
theorem Call.perform_agrees (call : Call) (bench : Bench τ) (idle : bench.wire.phase = .idle) :
    Agrees (call.perform target noise bench)
        (target.transfer call.request call.data bench.wire.state).1 ∧
      (call.perform target noise bench).bench.wire =
        bench.wire.closed (target.transfer call.request call.data bench.wire.state) := by
  cases call with
  | read apNotDp address data =>
      obtain ⟨code, read, wire⟩ :=
        doReadTransaction_spec target noise bench idle apNotDp address data
      refine ⟨?_, wire⟩
      rcases answer : target.respond (requestOf apNotDp true address) bench.wire.state with
        ⟨ack, word, state⟩
      rw [Call.request, Call.data]
      by_cases ok : ack = .ok
      · subst ok
        rw [SwdTarget.transfer_read answer rfl] at code read
        rw [SwdTarget.transfer_read answer rfl]
        exact ⟨rfl, code, fun _ _ => congrArg some read.symm,
          fun write => absurd write.symm Bool.false_ne_true⟩
      · rw [SwdTarget.transfer_refused answer ok] at code
        rw [SwdTarget.transfer_refused answer ok]
        exact ⟨rfl, code, fun _ isOk => absurd isOk ok, fun _ isOk => absurd isOk ok⟩
  | write apNotDp address data =>
      obtain ⟨code, wire⟩ := doWriteTransaction_spec target noise bench idle apNotDp address data
      refine ⟨?_, wire⟩
      rcases answer : target.respond (requestOf apNotDp false address) bench.wire.state with
        ⟨ack, word, state⟩
      rw [Call.request, Call.data]
      by_cases ok : ack = .ok
      · subst ok
        rw [SwdTarget.transfer_write answer rfl] at code
        rw [SwdTarget.transfer_write answer rfl]
        exact ⟨rfl, code, fun read => absurd read Bool.false_ne_true, fun _ _ => ⟨rfl, rfl⟩⟩
      · rw [SwdTarget.transfer_refused answer ok] at code
        rw [SwdTarget.transfer_refused answer ok]
        exact ⟨rfl, code, fun _ isOk => absurd isOk ok, fun _ isOk => absurd isOk ok⟩

/-- For every sequence of transactions, every target and every level of an undriven line, the
target decodes what is called, and nothing else, and the calls return what the target answers. -/
theorem bits_agree (bench : Bench τ) (idle : bench.wire.phase = .idle) (calls : List Call) :
    (performAll target noise calls bench).map Returned.call = calls ∧
      AllAgree target bench.wire (performAll target noise calls bench) := by
  induction calls generalizing bench with
  | nil => exact ⟨rfl, trivial⟩
  | cons call calls ih =>
      obtain ⟨agrees, wire⟩ := call.perform_agrees target noise bench idle
      obtain ⟨called, rest⟩ := ih (call.perform target noise bench).bench (by rw [wire]; rfl)
      have same := call.perform_call target noise bench
      rw [performAll]
      refine ⟨by rw [List.map_cons, called, same], ?_⟩
      unfold AllAgree
      simp only [same]
      rw [← wire]
      exact ⟨agrees, rfl, rest⟩

/-- A target that gives these acknowledgements, then OK, and the same word to every read. -/
def scripted (word : Word) : SwdTarget (List Ack) where
  respond _ acks := (acks.headD .ok, word, acks.tail)
  accept _ _ acks := acks

/-- A bench at rest, with this target on it. -/
def Bench.atRest {τ : Type} (state : τ) : Bench τ where
  hostOutput := true
  level := true
  clock := true
  cycles := 0
  wire := { phase := .idle, state, log := [] }

theorem bits_agree_scripted :
    AllAgree (scripted 0x2BA01477) (Bench.atRest [.wait, .ok, .fault]).wire
      (performAll (scripted 0x2BA01477) (fun _ => true)
        [.read false 0 0, .read false 0 0, .write true 1 0x20000000, .write true 3 0xDEADBEEF]
        (Bench.atRest [.wait, .ok, .fault])) :=
  (bits_agree (scripted 0x2BA01477) (fun _ => true) (Bench.atRest [.wait, .ok, .fault]) rfl
    [.read false 0 0, .read false 0 0, .write true 1 0x20000000, .write true 3 0xDEADBEEF]).2

end Swagger.Firmware
