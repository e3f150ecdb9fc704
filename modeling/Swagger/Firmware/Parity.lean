/-
**The parity of the data.**

Behind an OK the driver samples 33 bits of a read, whatever they are. It takes the first 32 for the
word, and returns OK exactly when the last one is their parity (`read_checks`). What a target sends
has even parity, so when an odd number of the bits is corrupted the read returns FAIL, and `readDP`
returns SWDFAULT behind this one transaction (`read_corrupted`, `readDP_corrupted`). The driver
sends even parity as well (`write_even`). `parity_detects` puts the three together.
-/

import Swagger.Firmware.Cycles

namespace Swagger.Firmware

/-! ### Parity and the number of ones -/

theorem oddParity_iff (bits : List Bool) : oddParity bits = true ↔ Odd (bits.count true) := by
  induction bits with
  | nil => exact ⟨nofun, fun odd => absurd odd (by decide)⟩
  | cons bit bits ih =>
      have parity : oddParity (bit :: bits) = (bit ^^ oddParity bits) := rfl
      rw [parity]
      cases bit with
      | false => rw [Bool.false_xor, ih, List.count_cons_of_ne (by decide)]
      | true =>
          rw [Bool.true_xor, Bool.not_eq_true', ← Bool.not_eq_true, ih, List.count_cons_self,
            Nat.odd_add_one]

theorem even_count_iff (bits : List Bool) : Even (bits.count true) ↔ oddParity bits = false := by
  rw [← Nat.not_odd_iff_even, ← oddParity_iff, Bool.not_eq_true]

/-- Flipping bits changes the parity by the parity of the flips. -/
theorem oddParity_zipWith (bits flips : List Bool) (same : bits.length = flips.length) :
    oddParity (List.zipWith xor bits flips) = (oddParity bits ^^ oddParity flips) := by
  induction bits generalizing flips with
  | nil =>
      obtain rfl : flips = [] := List.length_eq_zero_iff.mp same.symm
      rfl
  | cons bit bits ih =>
      cases flips with
      | nil => cases same
      | cons flip flips =>
          have rest := ih flips (Nat.succ.inj same)
          unfold oddParity at rest ⊢
          rw [List.zipWith_cons_cons, List.foldr_cons, List.foldr_cons, List.foldr_cons, rest,
            Bool.xor_assoc, Bool.xor_left_comm flip, ← Bool.xor_assoc]

/-! ### Reading -/

/-- What a read makes of the 33 bits that are sampled from this cycle on. -/
structure ChecksParity (levels : Nat → Bool) (place : Nat) (result : Byte × Word × Pins) :
    Prop where
  ok_iff : result.1 = swdOk ↔ levels (place + 32) = oddParity (sampled levels place 32)
  fail : result.1 ≠ swdOk → result.1 = swdFail
  data : ∀ index < 32, result.2.1.getLsbD index = levels (place + index)

/-- What a target sends behind an OK: the word, and the bit that makes the parity even. -/
def sentBits (word : Word) : List Bool := bitsOfWord word ++ [oddParity (bitsOfWord word)]

section Read

variable (levels : Nat → Bool) {pins : Pins}

/-- The word that is put together has the bits that are sampled. -/
theorem bitsOfWord_sampled (place : Nat) :
    bitsOfWord (wordOfBits (sampled levels place 32)) = sampled levels place 32 := by
  refine List.map_congr_left fun index member => ?_
  exact getLsbD_wordOfBits_sampled levels place (List.mem_range.mp member)

theorem read_checks (ok : ackAt levels (pins.cycles.length + 10) = swdOk) (apNotDp : Bool)
    (address : Byte) (data : Word) :
    ChecksParity levels (pins.cycles.length + 13)
      ((recorder levels).doReadTransaction apNotDp address data pins) := by
  obtain ⟨code, word, -⟩ := read_ok levels apNotDp address data pins ok
  rw [calcParity_eq, bitsOfWord_sampled] at code
  have fails : swdFail ≠ swdOk := by decide
  refine ⟨?_, fun notOk => ?_, fun index small => ?_⟩
  · rw [code]
    split_ifs with differs
    · exact ⟨fun same => absurd same fails, fun same => absurd same.symm differs⟩
    · exact ⟨fun _ => (not_not.mp differs).symm, fun _ => rfl⟩
  · rw [code] at notOk ⊢
    split_ifs at notOk ⊢
    · rfl
    · exact absurd rfl notOk
  · rw [word]
    exact getLsbD_wordOfBits_sampled levels _ small

theorem sampled_succ (place count : Nat) :
    sampled levels place (count + 1) = sampled levels place count ++ [levels (place + count)] := by
  rw [sampled, List.range_succ, List.map_append, List.map_singleton, sampled]

/-- With an odd number of its bits corrupted, what a target has sent is refused. -/
theorem read_corrupted (ok : ackAt levels (pins.cycles.length + 10) = swdOk) {word : Word}
    {flips : List Bool} (all : flips.length = 33) (odd : Odd (flips.count true))
    (received :
      sampled levels (pins.cycles.length + 13) 33 = List.zipWith xor (sentBits word) flips)
    (apNotDp : Bool) (address : Byte) (data : Word) :
    ((recorder levels).doReadTransaction apNotDp address data pins).1 = swdFail := by
  have checks := read_checks levels ok apNotDp address data
  refine checks.fail fun isOk => ?_
  have last := checks.ok_iff.mp isOk
  have length : (sentBits word).length = flips.length := by
    rw [sentBits, List.length_append, length_bitsOfWord, all]
    rfl
  have parity := congrArg oddParity received
  rw [sampled_succ, last, oddParity_closed, oddParity_zipWith _ _ length, sentBits,
    oddParity_closed, Bool.false_xor, (oddParity_iff flips).mpr odd] at parity
  cases parity

/-- A transaction that is not answered WAIT is the only one. -/
theorem readDP_once {σ : Type} (port : SwdPort σ) (address : Word) (state : MidLevel σ)
    (notWait : (port.doReadTransaction false (a23 address) state.target).1 ≠ swdWait) :
    MidLevel.readDP port address state =
      (MidLevel.statusOfAck (port.doReadTransaction false (a23 address) state.target).1,
        (port.doReadTransaction false (a23 address) state.target).2.1,
        { state with
          target := (port.doReadTransaction false (a23 address) state.target).2.2 }) := by
  rw [MidLevel.readDP, driverRetries, MidLevel.retryRead]
  exact if_neg notWait

/-- `readDP` makes one transaction of it. -/
theorem readDP_corrupted (ok : ackAt levels (pins.cycles.length + 10) = swdOk) {word : Word}
    {flips : List Bool} (all : flips.length = 33) (odd : Odd (flips.count true))
    (received :
      sampled levels (pins.cycles.length + 13) 33 = List.zipWith xor (sentBits word) flips)
    (setReset : Bool → Pins → Pins) (address apCache : Word) :
    let result :=
      MidLevel.readDP ((recorder levels).port setReset) address { target := pins, apCache }
    result.1 = Status.swdFault.code ∧
      result.2.2.target =
        ((recorder levels).doReadTransaction false (a23 address) 0 pins).2.2 := by
  have fails : (((recorder levels).port setReset).doReadTransaction false (a23 address) pins).1 =
      swdFail := read_corrupted levels ok all odd received false (a23 address) 0
  have notWait : swdFail ≠ swdWait := by decide
  rw [readDP_once _ address { target := pins, apCache } (by rwa [fails]), fails]
  exact ⟨rfl, rfl⟩

end Read

/-! ### Writing -/

/-- The levels of the 33 cycles behind the turnaround of a write. -/
def writtenBits (levels : Nat → Bool) (apNotDp : Bool) (address : Byte) (data : Word)
    (pins : Pins) : List Bool :=
  ((((recorder levels).doWriteTransaction apNotDp address data pins).2.cycles.drop
    (pins.cycles.length + 14)).take 33).map Cycle.level

theorem level_drivenBits (bits : List Bool) : (drivenBits bits).map Cycle.level = bits := by
  rw [drivenBits, List.map_map]
  exact List.map_id bits

/-- Behind the turnaround a write sends the word and its parity. -/
theorem write_bits (levels : Nat → Bool) {pins : Pins}
    (ok : ackAt levels (pins.cycles.length + 10) = swdOk) (apNotDp : Bool) (address : Byte)
    (data : Word) : writtenBits levels apNotDp address data pins = sentBits data := by
  have cycles : ((recorder levels).doWriteTransaction apNotDp address data pins).2.cycles =
      (pins.cycles ++ (drivenBits (requestBits apNotDp false address) ++ freeCycles 5)) ++
        (drivenBits (sentBits data) ++ drivenBits (List.replicate 8 false)) := by
    rw [(write_cycles levels apNotDp address data pins).2, ok, writeCycles, if_pos rfl,
      drivenBits_append, calcParity_eq]
    simp only [List.append_assoc]
    rfl
  have ahead : (pins.cycles ++ (drivenBits (requestBits apNotDp false address) ++
      freeCycles 5)).length = pins.cycles.length + 14 := List.length_append
  have sent : (drivenBits (sentBits data)).length = 33 := by
    rw [drivenBits, List.length_map, sentBits, List.length_append, length_bitsOfWord]
    rfl
  rw [writtenBits, cycles, List.drop_left' ahead, List.take_left' sent, level_drivenBits]

/-- The number of ones among them is even. -/
theorem write_even (levels : Nat → Bool) {pins : Pins}
    (ok : ackAt levels (pins.cycles.length + 10) = swdOk) (apNotDp : Bool) (address : Byte)
    (data : Word) : Even ((writtenBits levels apNotDp address data pins).count true) := by
  rw [write_bits levels ok, even_count_iff]
  exact oddParity_closed _

/-! ### The parity bit -/

/-- Behind an OK a read checks the parity of the 33 bits and returns the word among them, so an odd
number of corrupted bits makes it FAIL, and `readDP` SWDFAULT without a retry; and the 33 bits of a
write have an even number of ones. -/
theorem parity_detects (levels : Nat → Bool) (pins : Pins)
    (ok : ackAt levels (pins.cycles.length + 10) = swdOk) :
    (∀ (apNotDp : Bool) (address : Byte) (data : Word),
      ChecksParity levels (pins.cycles.length + 13)
        ((recorder levels).doReadTransaction apNotDp address data pins)) ∧
    (∀ (word : Word) (flips : List Bool), flips.length = 33 → Odd (flips.count true) →
      sampled levels (pins.cycles.length + 13) 33 = List.zipWith xor (sentBits word) flips →
      (∀ (apNotDp : Bool) (address : Byte) (data : Word),
        ((recorder levels).doReadTransaction apNotDp address data pins).1 = swdFail) ∧
      ∀ (setReset : Bool → Pins → Pins) (address apCache : Word),
        let result :=
          MidLevel.readDP ((recorder levels).port setReset) address { target := pins, apCache }
        result.1 = Status.swdFault.code ∧
          result.2.2.target =
            ((recorder levels).doReadTransaction false (a23 address) 0 pins).2.2) ∧
    ∀ (apNotDp : Bool) (address : Byte) (data : Word),
      writtenBits levels apNotDp address data pins = sentBits data ∧
        Even ((writtenBits levels apNotDp address data pins).count true) := by
  refine ⟨read_checks levels ok, fun word flips all odd received => ⟨?_, ?_⟩,
    fun apNotDp address data => ⟨?_, ?_⟩⟩
  · exact read_corrupted levels ok all odd received
  · exact readDP_corrupted levels ok all odd received
  · exact write_bits levels ok apNotDp address data
  · exact write_even levels ok apNotDp address data

/-- The first bit of an acknowledgement, and the first bit of the word behind it. -/
def flippedBit (cycle : Nat) : Bool := cycle == 10 || cycle == 13

/-- A word of zeros whose first bit is corrupted. -/
theorem parity_detects_flipped :
    ((recorder flippedBit).doReadTransaction false 0 0 Pins.init).1 = swdFail :=
  ((parity_detects flippedBit Pins.init (by decide)).2.1 0 (true :: List.replicate 32 false) rfl
    (by decide) rfl).1 false 0 0

end Swagger.Firmware
