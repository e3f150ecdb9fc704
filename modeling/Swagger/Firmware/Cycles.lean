/-
**The clock cycles of a transaction.**

`recorder` is an implementation of the pins that keeps a record: for each clock cycle whether the
host's pin has been an output in it, from the falling edge up to the rising one, and the level it is
set to. The levels that are sampled are arbitrary, so a target may return any bits.

`Between` says where the pins are behind a rising edge. A written or a read bit is one cycle more
(`Between.writeBit`, `Between.readBit`), and a transaction is put together from these:
`read_cycles` and `write_cycles` give its cycles on every path, by the acknowledgement.
-/

import Swagger.Firmware.LowLevel
import Swagger.Firmware.BitLevel

namespace Swagger.Firmware

/-! ### Pins with a record -/

/-- A clock cycle that is over: whether the pin has been an output, and its level as an output. -/
structure Cycle where
  driven : Bool
  level : Bool
  deriving DecidableEq, Repr

/-- The pins, whether the data pin has been an output since the falling edge, and the cycles that
are over. -/
structure Pins where
  output : Bool
  level : Bool
  clock : Bool
  driven : Bool
  cycles : List Cycle

/-- The pins behind `initPins`. -/
def Pins.init : Pins where
  output := true
  level := false
  clock := false
  driven := true
  cycles := []

/-- A cycle begins with a falling edge, and is over with a rising one. What is sampled in it is
given by its number. -/
def recorder (levels : Nat → Bool) : SWDInterfaceBase Pins where
  configDataPin output pins := { pins with output, driven := pins.driven || output }
  setDataPin v pins := { pins with level := v }
  getDataPin pins := levels pins.cycles.length
  setClockPin v pins :=
    match pins.clock, v with
    | false, true =>
        { pins with
          clock := true
          cycles := pins.cycles ++ [{ driven := pins.driven, level := pins.level }] }
    | true, false => { pins with clock := false, driven := pins.output }
    | _, _ => pins
  doDelay := id

/-- Cycles in which these bits are written. -/
def drivenBits (bits : List Bool) : List Cycle :=
  bits.map fun bit => { driven := true, level := bit }

/-- Cycles in which the pin is an input, with the output level as it has been left. -/
def freeCycles (count : Nat) : List Cycle := List.replicate count { driven := false, level := true }

/-- Behind a rising edge. -/
structure Between (pins : Pins) (output level : Bool) (cycles : List Cycle) : Prop where
  clock : pins.clock = true
  output : pins.output = output
  level : pins.level = level
  cycles : pins.cycles = cycles

section Record

variable (levels : Nat → Bool) {pins : Pins} {output level : Bool} {cycles : List Cycle}

/-! ### Bits -/

theorem Between.configDataPin (between : Between pins output level cycles) (output' : Bool) :
    Between ((recorder levels).configDataPin output' pins) output' level cycles :=
  ⟨between.clock, rfl, between.level, between.cycles⟩

theorem Between.setDataPin (between : Between pins output level cycles) (v : Bool) :
    Between ((recorder levels).setDataPin v pins) output v cycles :=
  ⟨between.clock, between.output, rfl, between.cycles⟩

/-- A written bit is a cycle in which the host drives the line. -/
theorem Between.writeBit (between : Between pins true level cycles) (v : Bool) :
    Between ((recorder levels).writeBit v pins) true v
      (cycles ++ [{ driven := true, level := v }]) := by
  obtain ⟨output, level, clock, driven, cycles⟩ := pins
  obtain ⟨rfl, rfl, rfl, rfl⟩ := between
  exact ⟨rfl, rfl, rfl, rfl⟩

/-- A read bit is a cycle in which it does not. -/
theorem Between.readBit (between : Between pins false level cycles) :
    ((recorder levels).readBit pins).1 = levels cycles.length ∧
      Between ((recorder levels).readBit pins).2 false level
        (cycles ++ [{ driven := false, level }]) := by
  obtain ⟨output, level, clock, driven, cycles⟩ := pins
  obtain ⟨rfl, rfl, rfl, rfl⟩ := between
  exact ⟨rfl, rfl, rfl, rfl, rfl⟩

/-- The zero in front of a request, whatever the pins have been before. -/
theorem between_start (pins : Pins) :
    Between ((recorder levels).writeBit false ((recorder levels).configDataPin true pins)) true
      false (pins.cycles ++ [{ driven := true, level := false }]) := by
  obtain ⟨output, level, clock, driven, cycles⟩ := pins
  cases clock with
  | true => exact ⟨rfl, rfl, rfl, rfl⟩
  | false =>
      refine ⟨rfl, rfl, rfl, ?_⟩
      change cycles ++ [{ driven := driven || true, level := false }] = _
      rw [Bool.or_true]

/-! ### Loops -/

theorem drivenBits_append (bits others : List Bool) :
    drivenBits (bits ++ others) = drivenBits bits ++ drivenBits others := List.map_append

/-- The bits of a word, the lowest first. -/
theorem Between.writeBits (rounds : Nat) (data : Word) {pins : Pins} {level : Bool}
    {cycles : List Cycle} (between : Between pins true level cycles) :
    ∃ level', Between ((recorder levels).writeBits rounds data pins) true level'
      (cycles ++ drivenBits ((List.range rounds).map data.getLsbD)) := by
  induction rounds generalizing data pins level cycles with
  | zero => exact ⟨level, by rwa [List.range_zero, List.map_nil, drivenBits, List.map_nil,
      List.append_nil]⟩
  | succ rounds ih =>
      obtain ⟨level', written⟩ := ih (data >>> 1) (between.writeBit levels (data.getLsbD 0))
      refine ⟨level', ?_⟩
      have shifted : (List.range rounds).map (data >>> 1).getLsbD =
          (List.range rounds).map (data.getLsbD ∘ Nat.succ) := by
        refine List.map_congr_left fun index _ => ?_
        rw [BitVec.getLsbD_ushiftRight, Nat.add_comm]
        rfl
      rw [shifted, List.append_assoc, List.singleton_append] at written
      rw [SWDInterfaceBase.writeBits, lowestBit, List.range_succ_eq_map, List.map_cons,
        List.map_map]
      exact written

theorem Between.repeatBit (rounds : Nat) (v : Bool) {pins : Pins} {cycles : List Cycle}
    (between : Between pins true v cycles) :
    Between ((recorder levels).repeatBit v rounds pins) true v
      (cycles ++ drivenBits (List.replicate rounds v)) := by
  induction rounds generalizing pins cycles with
  | zero => rwa [List.replicate_zero, drivenBits, List.map_nil, List.append_nil]
  | succ rounds ih =>
      have rest := ih (between.writeBit levels v)
      rw [List.append_assoc, List.singleton_append] at rest
      exact rest

theorem Between.skipBits (rounds : Nat) {pins : Pins} {cycles : List Cycle}
    (between : Between pins false true cycles) :
    Between ((recorder levels).skipBits rounds pins) false true (cycles ++ freeCycles rounds) := by
  induction rounds generalizing pins cycles with
  | zero => rwa [freeCycles, List.replicate_zero, List.append_nil]
  | succ rounds ih =>
      have rest := ih (between.readBit levels).2
      rw [List.append_assoc, List.singleton_append] at rest
      exact rest

/-- The loop that reads, from the cycle `start + sent` on: what has been read of the word is at its
upper end. -/
theorem Between.readBits {word : Word} {start : Nat}
    (bits : ∀ index < 32, word.getLsbD index = levels (start + index)) (rounds sent : Nat)
    (all : sent + rounds = 32) {pins : Pins} {cycles : List Cycle}
    (place : cycles.length = start + sent) (between : Between pins false true cycles) :
    ((recorder levels).readBits rounds (word <<< (32 - sent)) pins).1 = word ∧
      Between ((recorder levels).readBits rounds (word <<< (32 - sent)) pins).2 false true
        (cycles ++ freeCycles rounds) := by
  induction rounds generalizing sent pins cycles with
  | zero =>
      obtain rfl : sent = 32 := all
      refine ⟨BitVec.shiftLeft_zero word, ?_⟩
      rwa [freeCycles, List.replicate_zero, List.append_nil]
  | succ rounds ih =>
      have small : sent < 32 := by omega
      obtain ⟨bit, next⟩ := between.readBit levels
      rw [place, ← bits sent small] at bit
      have rest := ih (sent + 1) (by omega) (by rw [List.length_append, place]; rfl) next
      rw [← shiftIn_eq word sent small, ← bit, List.append_assoc, List.singleton_append] at rest
      exact rest

/-! ### Transactions -/

/-- The bits of a request, with the zero in front of it. -/
def requestBits (apNotDp readNotWrite : Bool) (address : Byte) : List Bool :=
  let a2 := decide (address &&& 1 > 0)
  let a3 := decide (address &&& 2 > 0)
  [false, true, apNotDp, readNotWrite, a2, a3, readNotWrite ^^ apNotDp ^^ a2 ^^ a3, false, true]

/-- The acknowledgement that is sampled from a cycle on, the first bit lowest. -/
def ackAt (levels : Nat → Bool) (place : Nat) : Byte :=
  (BitVec.ofBoolListLE [levels place, levels (place + 1), levels (place + 2)]).setWidth 8

/-- The levels that are sampled from a cycle on. -/
def sampled (levels : Nat → Bool) (place count : Nat) : List Bool :=
  (List.range count).map fun index => levels (place + index)

theorem readAck_code (bit0 bit1 bit2 : Bool) :
    (let swdcode : Byte := 0
      let swdcode := if bit0 then swdcode ||| 1 else swdcode
      let swdcode := if bit1 then swdcode ||| 2 else swdcode
      if bit2 then swdcode ||| 4 else swdcode) =
      (BitVec.ofBoolListLE [bit0, bit1, bit2]).setWidth 8 := by
  revert bit0 bit1 bit2
  decide

/-- A request and its acknowledgement. -/
theorem request_cycles (apNotDp readNotWrite : Bool) (address : Byte) (pins : Pins) :
    ((recorder levels).request apNotDp readNotWrite address pins).1 =
        ackAt levels (pins.cycles.length + 10) ∧
      Between ((recorder levels).request apNotDp readNotWrite address pins).2 false true
        (pins.cycles ++ (drivenBits (requestBits apNotDp readNotWrite address) ++
          freeCycles 4)) := by
  have zero := between_start levels pins
  have one := zero.writeBit levels true
  have two := one.writeBit levels apNotDp
  have three := two.writeBit levels readNotWrite
  have four := three.writeBit levels (decide (address &&& 1 > 0))
  have five := four.writeBit levels (decide (address &&& 2 > 0))
  have six := five.writeBit levels
    (readNotWrite ^^ apNotDp ^^ decide (address &&& 1 > 0) ^^ decide (address &&& 2 > 0))
  have seven := six.writeBit levels false
  have eight := seven.writeBit levels true
  obtain ⟨-, turned⟩ := (eight.configDataPin levels false).readBit levels
  obtain ⟨bit0, first⟩ := (turned.configDataPin levels false).readBit levels
  obtain ⟨bit1, second⟩ := first.readBit levels
  obtain ⟨bit2, third⟩ := second.readBit levels
  simp only [List.append_assoc, List.cons_append, List.nil_append, List.length_append,
    List.length_cons, List.length_nil] at bit0 bit1 bit2 third
  refine ⟨?_, third⟩
  unfold SWDInterfaceBase.request SWDInterfaceBase.readAck
  simp only
  rw [bit0, bit1, bit2]
  exact readAck_code _ _ _

/-- The cycles of a read, by its acknowledgement. -/
def readCycles (apNotDp : Bool) (address ack : Byte) : List Cycle :=
  drivenBits (requestBits apNotDp true address) ++ freeCycles 4 ++
    if ack = swdOk then freeCycles 33 ++ drivenBits (List.replicate 9 false)
    else if ack = swdFail ∨ ack = swdWait then freeCycles 1
    else freeCycles 33 ++ drivenBits (List.replicate 8 false)

/-- The cycles of a write, by its acknowledgement. -/
def writeCycles (apNotDp : Bool) (address : Byte) (data : Word) (ack : Byte) : List Cycle :=
  drivenBits (requestBits apNotDp false address) ++ freeCycles 4 ++
    if ack = swdOk then
      freeCycles 1 ++ drivenBits (bitsOfWord data ++ [calcParity data] ++ List.replicate 8 false)
    else if ack = swdFail ∨ ack = swdWait then freeCycles 1
    else freeCycles 33 ++ drivenBits (List.replicate 8 false)

theorem Between.lineIdle (between : Between pins output level cycles) :
    Between ((recorder levels).lineIdle pins) true false
      (cycles ++ drivenBits (List.replicate 8 false)) :=
  ((between.setDataPin levels false).configDataPin levels true).repeatBit levels 8 false

theorem Between.endRefused (between : Between pins false true cycles) :
    ((recorder levels).endRefused pins).cycles = cycles ++ freeCycles 1 :=
  (((between.readBit levels).2.configDataPin levels true).setDataPin levels true).cycles

theorem Between.endProtocolError (between : Between pins false true cycles) :
    ((recorder levels).endProtocolError pins).cycles =
      cycles ++ (freeCycles 33 ++ drivenBits (List.replicate 8 false)) := by
  have idled := ((between.skipBits levels 33).lineIdle levels).setDataPin levels true
  rw [← List.append_assoc]
  exact idled.cycles

/-- A word is put together from the bits that are sampled. -/
theorem getLsbD_wordOfBits_sampled (place : Nat) {index : Nat} (small : index < 32) :
    (wordOfBits (sampled levels place 32)).getLsbD index = levels (place + index) := by
  rw [wordOfBits, BitVec.getLsbD_setWidth, BitVec.getLsbD_ofBoolListLE, sampled,
    List.getD_eq_getElem?_getD, List.getElem?_map, List.getElem?_range small, Option.map_some,
    Option.getD_some, decide_eq_true small, Bool.true_and]

/-- A read that is acknowledged OK returns the word that is sampled, and FAIL if the parity bit
behind it is wrong. -/
theorem read_ok (apNotDp : Bool) (address : Byte) (data : Word) (pins : Pins)
    (ok : ackAt levels (pins.cycles.length + 10) = swdOk) :
    ((recorder levels).doReadTransaction apNotDp address data pins).1 =
        (if calcParity (wordOfBits (sampled levels (pins.cycles.length + 13) 32)) ≠
          levels (pins.cycles.length + 45) then swdFail else swdOk) ∧
      ((recorder levels).doReadTransaction apNotDp address data pins).2.1 =
        wordOfBits (sampled levels (pins.cycles.length + 13) 32) ∧
      ((recorder levels).doReadTransaction apNotDp address data pins).2.2.cycles =
        pins.cycles ++ readCycles apNotDp address swdOk := by
  obtain ⟨code, asked⟩ := request_cycles levels apNotDp true address pins
  unfold SWDInterfaceBase.doReadTransaction
  generalize (recorder levels).request apNotDp true address pins = requested
    at code asked ⊢
  obtain ⟨swdcode, asking⟩ := requested
  obtain rfl : swdcode = swdOk := code.trans ok
  have place : (pins.cycles ++ (drivenBits (requestBits apNotDp true address) ++
      freeCycles 4)).length = pins.cycles.length + 13 + 0 := List.length_append
  let word := wordOfBits (sampled levels (pins.cycles.length + 13) 32)
  obtain ⟨read, behind⟩ := @Between.readBits levels word (pins.cycles.length + 13)
    (fun index small => getLsbD_wordOfBits_sampled levels _ small) 32 0 rfl _ _ place asked
  rw [show word <<< (32 - 0) = 0 from BitVec.shiftLeft_eq_zero le_rfl] at read behind
  obtain ⟨bit, ended⟩ := behind.readBit levels
  have turned := (ended.configDataPin levels true).writeBit levels false
  have idled := (turned.lineIdle levels).setDataPin levels true
  rw [List.length_append, place] at bit
  simp only [if_true]
  rw [read, bit]
  refine ⟨rfl, rfl, ?_⟩
  rw [idled.cycles]
  simp only [List.append_assoc]
  rfl

/-- The cycles of a read on every path. -/
theorem read_cycles (apNotDp : Bool) (address : Byte) (data : Word) (pins : Pins) :
    ((recorder levels).doReadTransaction apNotDp address data pins).2.2.cycles =
      pins.cycles ++ readCycles apNotDp address (ackAt levels (pins.cycles.length + 10)) := by
  by_cases ok : ackAt levels (pins.cycles.length + 10) = swdOk
  · rw [(read_ok levels apNotDp address data pins ok).2.2, ok]
  · obtain ⟨code, asked⟩ := request_cycles levels apNotDp true address pins
    unfold SWDInterfaceBase.doReadTransaction readCycles
    generalize (recorder levels).request apNotDp true address pins = requested
      at code asked ⊢
    obtain ⟨swdcode, asking⟩ := requested
    obtain rfl : swdcode = ackAt levels (pins.cycles.length + 10) := code
    simp only
    rw [if_neg ok, if_neg ok]
    split_ifs
    · rw [asked.endRefused levels, List.append_assoc]
    · rw [asked.endProtocolError levels, List.append_assoc]

/-- A write returns the acknowledgement that is sampled, and these are its cycles. -/
theorem write_cycles (apNotDp : Bool) (address : Byte) (data : Word) (pins : Pins) :
    ((recorder levels).doWriteTransaction apNotDp address data pins).1 =
        ackAt levels (pins.cycles.length + 10) ∧
      ((recorder levels).doWriteTransaction apNotDp address data pins).2.cycles =
        pins.cycles ++
          writeCycles apNotDp address data (ackAt levels (pins.cycles.length + 10)) := by
  obtain ⟨code, asked⟩ := request_cycles levels apNotDp false address pins
  unfold SWDInterfaceBase.doWriteTransaction writeCycles
  generalize (recorder levels).request apNotDp false address pins = requested
    at code asked ⊢
  obtain ⟨swdcode, asking⟩ := requested
  obtain rfl : swdcode = ackAt levels (pins.cycles.length + 10) := code
  simp only
  split_ifs
  · obtain ⟨-, turned⟩ := asked.readBit levels
    obtain ⟨level, written⟩ := (turned.configDataPin levels true).writeBits levels 32 data
    have ended := written.writeBit levels (calcParity data)
    have idled := (ended.lineIdle levels).setDataPin levels true
    refine ⟨rfl, idled.cycles.trans ?_⟩
    simp only [List.append_assoc, drivenBits_append]
    rfl
  · refine ⟨rfl, ?_⟩
    rw [asked.endRefused levels, List.append_assoc]
  · refine ⟨rfl, ?_⟩
    rw [asked.endProtocolError levels, List.append_assoc]

end Record

end Swagger.Firmware
