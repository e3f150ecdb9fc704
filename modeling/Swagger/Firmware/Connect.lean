/-
**`doConnect` finds the port in whatever state it is.**

The target is in JTAG or in SWD mode, and in SWD mode it may be anywhere in a transfer, so that it
drives the line together with the host. `doConnect` writes 64 ones, the 32 bits of a word with the
selection, 64 ones and 8 zeros, and then reads the identification.

The first ones let a transfer that is going on come to its end: `rank` counts the edges to the one
at which the port has lost track, and `pending` the transfers that may still be closed. While the
port drives the line, the levels are arbitrary; that they cannot complete a selection late among the
ones is carried along in `Settling`. From there on the target is silent, and what it sees is what is
written (`wakes`). Behind the zeros the line is calm, so the transactions that follow are those of
the port alone.
-/

import Swagger.Firmware.Lockstep

namespace Swagger.Firmware

/-! ### A transfer that is going on -/

/-- How many edges it takes at most until the port has lost track, if the host writes ones. -/
def rank : TargetPhase → Nat
  | .idle => 8
  | .header bits => (if bits.all id then 0 else 46) + (7 - bits.length)
  | .turnaround .. => 46
  | .acknowledging _ _ _ sent => 43 + (2 - sent)
  | .sending _ _ sent => 10 + (32 - sent)
  | .yielding _ => 42
  | .receiving _ bits => 9 + (32 - bits.length)
  | .ending _ => 9
  | .lost => 0

/-- How many transfers may still be closed. -/
def pending : TargetPhase → Nat
  | .idle | .lost => 0
  | .header bits => if bits.all id then 0 else 1
  | _ => 1

theorem pending_le (phase : TargetPhase) : pending phase ≤ 1 := by
  cases phase with
  | header bits =>
      rw [pending]
      split_ifs
      · exact Nat.zero_le 1
      · exact le_rfl
  | idle => exact Nat.zero_le 1
  | lost => exact Nat.zero_le 1
  | _ => exact le_rfl

/-- A header that has missed its end. No target comes to it by itself. -/
def Stuck (phase : TargetPhase) : Prop := ∃ bits : List Bool, phase = .header bits ∧ 7 ≤ bits.length

section Port

variable {τ : Type} (target : SwdTarget τ) {port : TargetState τ} {line : Bool}

/-- The transfers that the port has closed were going on. -/
structure Logged (start port : TargetState τ) : Prop where
  log : ∃ interrupted : List Transfer, port.log = start.log ++ interrupted ∧
    interrupted.length + pending port.phase ≤ pending start.phase
  state : pending start.phase = 0 → port.state = start.state

theorem Logged.refl (port : TargetState τ) : Logged port port :=
  ⟨⟨[], (List.append_nil _).symm, by rw [List.length_nil, Nat.zero_add]⟩, fun _ => rfl⟩

theorem Logged.trans {start middle last : TargetState τ} (one : Logged start middle)
    (two : Logged middle last) : Logged start last := by
  obtain ⟨⟨first, log, few⟩, same⟩ := one
  obtain ⟨⟨more, log', few'⟩, same'⟩ := two
  refine ⟨⟨first ++ more, ?_, ?_⟩, fun none => ?_⟩
  · rw [log', log, List.append_assoc]
  · rw [List.length_append]
    omega
  · exact (same' (by omega)).trans (same none)

/-- A transfer that is given up is not closed. -/
theorem Logged.quit (port : TargetState τ) {phase : TargetPhase} (none : pending phase = 0) :
    Logged port { port with phase } := by
  refine ⟨⟨[], (List.append_nil _).symm, ?_⟩, fun _ => rfl⟩
  rw [List.length_nil, none]
  exact Nat.zero_le _

/-- A step within a transfer. -/
theorem Logged.within (going : pending port.phase = 1) (phase : TargetPhase) (state : τ) :
    Logged port { port with phase, state } := by
  refine ⟨⟨[], (List.append_nil _).symm, ?_⟩, fun none => ?_⟩
  · rw [List.length_nil, Nat.zero_add, going]
    exact pending_le phase
  · exact absurd (none.symm.trans going) Nat.zero_ne_one

/-- The step that closes one. -/
theorem Logged.close (going : pending port.phase = 1) (state : τ) (transfer : Transfer) :
    Logged port { phase := .idle, state, log := port.log ++ [transfer] } :=
  ⟨⟨[transfer], rfl, going.ge⟩, fun none => absurd (none.symm.trans going) Nat.zero_ne_one⟩

theorem step_header {bits : List Bool} (here : port.phase = .header bits)
    (other : bits.length ≠ 6) :
    port.step target line = { port with phase := .header (bits ++ [line]) } := by
  unfold TargetState.step
  rw [here]
  match bits, other with
  | [], _ | [_], _ | [_, _], _ | [_, _, _], _ | [_, _, _, _], _ | [_, _, _, _, _], _ => rfl
  | [_, _, _, _, _, _], other => exact absurd rfl other
  | _ :: _ :: _ :: _ :: _ :: _ :: _ :: _, _ => rfl

/-- The end of a header: the port answers, or has lost track. Ones are no header. -/
theorem step_park {bits : List Bool} (here : port.phase = .header bits) (six : bits.length = 6) :
    port.step target line = port.lose ∨
      ¬ (bits.all id = true ∧ line = true) ∧ ∃ request ack word state,
        port.step target line = { port with phase := .turnaround request ack word, state } := by
  obtain ⟨apNotDp, readNotWrite, a2, a3, parity, stop, rfl⟩ :
      ∃ a b c d e f, bits = [a, b, c, d, e, f] := by
    match bits, six with
    | [a, b, c, d, e, f], _ => exact ⟨a, b, c, d, e, f, rfl⟩
  have ends : port.step target line =
      port.endHeader target apNotDp readNotWrite a2 a3 parity stop line := by
    unfold TargetState.step
    rw [here]
  rw [ends, TargetState.endHeader]
  by_cases formed : parity = oddParity [apNotDp, readNotWrite, a2, a3] ∧ stop = false ∧ line = true
  · rw [if_pos formed]
    refine .inr ⟨fun ones => ?_, _, _, _, _, rfl⟩
    obtain ⟨-, stopped, -⟩ := formed
    rw [stopped] at ones
    simp at ones
  · rw [if_neg formed]
    exact .inl rfl

theorem step_lost (lost : port.phase = .lost) : port.step target line = port := by
  unfold TargetState.step
  rw [lost]

theorem step_logged (high : port.drives = none → line = true) :
    Logged port (port.step target line) := by
  obtain ⟨phase, state, log⟩ := port
  cases phase with
  | idle =>
      obtain rfl : line = true := high rfl
      exact Logged.quit _ rfl
  | header bits =>
      obtain rfl : line = true := high rfl
      by_cases six : bits.length = 6
      · rcases @step_park τ target ⟨.header bits, state, log⟩ true bits rfl six with
          lost | ⟨mixed, _, _, _, _, answered⟩
        · rw [lost]
          exact Logged.quit _ rfl
        · rw [answered]
          refine Logged.within ?_ _ _
          exact if_neg fun all => mixed ⟨all, rfl⟩
      · rw [step_header target rfl six]
        by_cases all : bits.all id = true
        · refine Logged.quit _ (if_pos ?_)
          rw [List.all_append, all]
          rfl
        · have going : pending (.header bits) = 1 := if_neg all
          exact Logged.within going _ _
  | turnaround request ack word => exact Logged.within rfl _ _
  | acknowledging request ack word sent =>
      unfold TargetState.step
      simp only
      split_ifs <;> exact Logged.within rfl _ _
  | sending request word sent =>
      unfold TargetState.step
      simp only
      split_ifs <;> exact Logged.within rfl _ _
  | yielding request => exact Logged.within rfl _ _
  | receiving request bits =>
      unfold TargetState.step
      simp only
      split_ifs
      · exact Logged.within rfl _ _
      · exact Logged.close rfl _ _
  | ending transfer => exact Logged.close rfl _ _
  | lost => exact Logged.refl _

theorem step_rank (high : port.drives = none → line = true) (going : port.phase ≠ .lost)
    (moves : ¬ Stuck port.phase) :
    (port.step target line).phase = .lost ∨
      rank (port.step target line).phase < rank port.phase ∧
        ¬ Stuck (port.step target line).phase := by
  obtain ⟨phase, state, log⟩ := port
  cases phase with
  | idle =>
      obtain rfl : line = true := high rfl
      refine .inr ⟨show 7 < 8 by decide, ?_⟩
      rintro ⟨bits, same, long⟩
      obtain rfl := TargetPhase.header.inj same
      exact absurd long (by decide)
  | header bits =>
      obtain rfl : line = true := high rfl
      have short : bits.length < 7 := by
        by_contra long
        exact moves ⟨bits, rfl, not_lt.mp long⟩
      by_cases six : bits.length = 6
      · rcases @step_park τ target ⟨.header bits, state, log⟩ true bits rfl six with
          lost | ⟨mixed, _, _, _, _, answered⟩
        · rw [lost]
          exact .inl rfl
        · rw [answered]
          refine .inr ⟨?_, fun ⟨_, same, _⟩ => TargetPhase.noConfusion same⟩
          have notAll : ¬ bits.all id = true := fun all => mixed ⟨all, rfl⟩
          rw [rank, rank, if_neg notAll, six]
          decide
      · rw [step_header target rfl six]
        refine .inr ⟨?_, ?_⟩
        · rw [rank, rank, List.all_append, List.length_append]
          simp only [List.all_cons, List.all_nil, id, Bool.and_true, List.length_cons,
            List.length_nil]
          omega
        · rintro ⟨bits', same, long⟩
          obtain rfl := TargetPhase.header.inj same
          rw [List.length_append, List.length_singleton] at long
          omega
  | turnaround request ack word =>
      exact .inr ⟨show 45 < 46 by decide, fun ⟨_, same, _⟩ => TargetPhase.noConfusion same⟩
  | acknowledging request ack word sent =>
      refine .inr ?_
      unfold TargetState.step
      simp only
      split_ifs
      · refine ⟨?_, fun ⟨_, same, _⟩ => TargetPhase.noConfusion same⟩
        rw [rank, rank]
        omega
      · refine ⟨?_, fun ⟨_, same, _⟩ => TargetPhase.noConfusion same⟩
        rw [rank, rank]
        omega
      · refine ⟨?_, fun ⟨_, same, _⟩ => TargetPhase.noConfusion same⟩
        rw [rank, rank]
        omega
      · refine ⟨?_, fun ⟨_, same, _⟩ => TargetPhase.noConfusion same⟩
        rw [rank, rank]
        omega
  | sending request word sent =>
      refine .inr ?_
      unfold TargetState.step
      simp only
      split_ifs
      · refine ⟨?_, fun ⟨_, same, _⟩ => TargetPhase.noConfusion same⟩
        rw [rank, rank]
        omega
      · refine ⟨?_, fun ⟨_, same, _⟩ => TargetPhase.noConfusion same⟩
        rw [rank, rank]
        omega
  | yielding request =>
      exact .inr ⟨show 41 < 42 by decide, fun ⟨_, same, _⟩ => TargetPhase.noConfusion same⟩
  | receiving request bits =>
      refine .inr ?_
      unfold TargetState.step
      simp only
      split_ifs
      · refine ⟨?_, fun ⟨_, same, _⟩ => TargetPhase.noConfusion same⟩
        rw [rank, rank, List.length_append, List.length_singleton]
        omega
      · refine ⟨?_, fun ⟨_, same, _⟩ => TargetPhase.noConfusion same⟩
        change rank .idle < _
        rw [rank, rank]
        omega
  | ending transfer =>
      exact .inr ⟨show 8 < 9 by decide, fun ⟨_, same, _⟩ => TargetPhase.noConfusion same⟩
  | lost => exact absurd rfl going

end Port

/-! ### The first ones -/

section Settling

variable {τ : Type} (target : SwdTarget τ) {swj : SwjState τ} {line : Bool} {k : Nat}

/-- Where the target may be when so many ones have been written: JTAG is selected and has seen nearly
all of them, the SWD port has lost track, it is still in a transfer, or it is stuck. -/
inductive Place (k : Nat) (swj : SwjState τ) : Prop
  | jtag (ones : Nat) : swj.mode = .jtag → List.replicate ones true <+: swj.seen →
      k ≤ ones + 13 → Place k swj
  | lost (ones : Nat) : swj.mode = .swd → swj.port.phase = .lost →
      List.replicate ones true <+: swj.seen → k ≤ ones + 54 → Place k swj
  | busy : swj.mode = .swd → swj.port.phase ≠ .lost → ¬ Stuck swj.port.phase →
      rank swj.port.phase + k ≤ 53 → Place k swj
  | stuck : swj.mode = .swd → Stuck swj.port.phase → List.replicate k true <+: swj.seen →
      k < 50 → Place k swj

/-- What the ones have done to a target. The level is not the host's only while the port drives the
line, and behind fifty ones it does not. -/
structure Settling (start : TargetState τ) (k : Nat) (swj : SwjState τ) : Prop where
  late : ∀ place, place + 2 ≤ k → ¬ false :: List.replicate 50 true <+: swj.seen.drop place
  high : 1 ≤ k → Behind [] swj.seen → swj.drives = none
  place : Place k swj
  logged : Logged start swj.port

theorem rank_le (phase : TargetPhase) : rank phase ≤ 53 := by
  cases phase with
  | header bits =>
      rw [rank]
      split_ifs <;> omega
  | acknowledging request ack word sent =>
      rw [rank]
      omega
  | sending request word sent =>
      rw [rank]
      omega
  | receiving request bits =>
      rw [rank]
      omega
  | _ => exact of_decide_eq_true rfl

theorem Settling.start (swj : SwjState τ) : Settling swj.port 0 swj := by
  refine ⟨fun place early => absurd early (by omega), fun early => absurd early (by decide), ?_,
    Logged.refl _⟩
  rcases mode : swj.mode with _ | _
  · exact .jtag 0 mode List.nil_prefix (Nat.zero_le _)
  · by_cases lost : swj.port.phase = .lost
    · exact .lost 0 mode lost List.nil_prefix (Nat.zero_le _)
    by_cases stuck : Stuck swj.port.phase
    · exact .stuck mode stuck List.nil_prefix (by decide)
    · exact .busy mode lost stuck (rank_le _)

theorem drives_lost (lost : swj.port.phase = .lost) : swj.drives = none := by
  unfold SwjState.drives TargetState.drives
  rw [lost]
  cases swj.mode <;> rfl

theorem drives_jtag (jtag : swj.mode = .jtag) : swj.drives = none := by
  rw [SwjState.drives, jtag]

theorem drives_stuck (stuck : Stuck swj.port.phase) : swj.drives = none := by
  obtain ⟨bits, here, -⟩ := stuck
  unfold SwjState.drives TargetState.drives
  rw [here]
  cases swj.mode <;> rfl

/-- A zero behind fifty ones is not seen while ones are written. -/
theorem Settling.no_zero {start : TargetState τ} (settling : Settling start k swj)
    (high : swj.drives = none → line = true) (place : Nat) (early : place + 2 ≤ k + 1) :
    ¬ false :: List.replicate 50 true <+: (line :: swj.seen).drop place := by
  intro zero
  cases place with
  | zero =>
      obtain ⟨low, ones⟩ := List.cons_prefix_cons.mp zero
      have one := high (settling.high (by omega) ones)
      rw [← low] at one
      exact Bool.false_ne_true one
  | succ place => exact settling.late place (by omega) zero

/-- The last levels of a sequence are its bits, and the fifty ones are behind them. -/
theorem Behind.drop {bits rest seen : List Bool} (behind : Behind (bits ++ rest) seen) :
    rest.reverse <+: seen ∧ Behind bits (seen.drop rest.length) := by
  obtain ⟨old, rfl⟩ := behind
  rw [List.reverse_append, List.append_assoc, List.append_assoc]
  refine ⟨List.prefix_append _ _, ?_⟩
  rw [← List.length_reverse, List.drop_left, ← List.append_assoc]
  exact List.prefix_append _ _

/-- A selection cannot be completed late. -/
theorem Settling.early {start : TargetState τ} (settling : Settling start k swj)
    (high : swj.drives = none → line = true) {rest : List Bool} (long : rest.length = 15)
    (behind : Behind ([false] ++ rest) (line :: swj.seen)) : k + 1 ≤ 16 := by
  by_contra late
  have zero := behind.drop.2
  rw [long] at zero
  exact settling.no_zero high 15 (by omega) zero

theorem Settling.step {start : TargetState τ} (settling : Settling start k swj)
    (high : swj.drives = none → line = true) : Settling start (k + 1) (swj.step target line) := by
  have steps := swj.step_cases target line
  have late := settling.no_zero high
  generalize swj.step target line = next at steps ⊢
  cases steps with
  | toSwd selects =>
      have behind : Behind ([false] ++ toSwd.tail) (line :: swj.seen) := selects
      have early := settling.early high rfl behind
      exact ⟨late, fun _ _ => drives_lost rfl, .lost 0 rfl rfl List.nil_prefix (by omega),
        settling.logged.trans (Logged.quit _ rfl)⟩
  | toJtag _ selects =>
      have behind : Behind ([false] ++ toJtag.tail) (line :: swj.seen) := selects
      have early := settling.early high rfl behind
      have last : List.replicate 3 true <+: toJtag.tail.reverse := by decide
      have ones := last.trans behind.drop.1
      exact ⟨late, fun _ _ => drives_jtag rfl, .jtag 3 rfl ones (by omega),
        settling.logged.trans (Logged.quit _ rfl)⟩
  | jtag _ mode =>
      obtain rfl : line = true := high (drives_jtag mode)
      refine ⟨late, fun _ _ => drives_jtag rfl, ?_, settling.logged⟩
      cases settling.place with
      | jtag ones _ seen few =>
          exact .jtag (ones + 1) rfl (List.cons_prefix_cons.mpr ⟨rfl, seen⟩) (by omega)
      | lost _ swd | busy swd | stuck swd =>
          exact SwjMode.noConfusion (mode.symm.trans swd)
  | ones mode behind =>
      refine ⟨late, fun _ _ => drives_lost rfl, ?_, settling.logged.trans (Logged.quit _ rfl)⟩
      cases settling.place with
      | jtag _ jtag => exact SwjMode.noConfusion (jtag.symm.trans mode)
      | lost ones _ lost seen few =>
          obtain rfl : line = true := high (drives_lost lost)
          exact .lost (ones + 1) rfl rfl (List.cons_prefix_cons.mpr ⟨rfl, seen⟩) (by omega)
      | busy _ _ _ soon => exact .lost 0 rfl rfl List.nil_prefix (by omega)
      | stuck _ _ _ soon => exact .lost 0 rfl rfl List.nil_prefix (by omega)
  | zeros mode behind =>
      have zeros : Behind ([false] ++ [false]) (line :: swj.seen) := behind
      have soon : ¬ 1 + 2 ≤ k + 1 := fun early => late 1 early zeros.drop.2
      refine ⟨late, fun _ _ => rfl, .busy rfl ?_ ?_ ?_,
        settling.logged.trans (Logged.quit _ rfl)⟩
      · exact fun same => TargetPhase.noConfusion same
      · exact fun ⟨_, same, _⟩ => TargetPhase.noConfusion same
      · change 8 + (k + 1) ≤ 53
        omega
  | port mode notHigh _ =>
      have drives : swj.drives = swj.port.drives := by rw [SwjState.drives, mode]
      have logged := step_logged target (drives ▸ high)
      refine ⟨late, fun _ behind => absurd behind notHigh, ?_, settling.logged.trans logged⟩
      cases settling.place with
      | jtag _ jtag => exact SwjMode.noConfusion (jtag.symm.trans mode)
      | lost ones _ lost seen few =>
          obtain rfl : line = true := high (drives_lost lost)
          refine .lost (ones + 1) rfl ?_ (List.cons_prefix_cons.mpr ⟨rfl, seen⟩) (by omega)
          exact (congrArg TargetState.phase (step_lost target lost)).trans lost
      | busy _ going moves soon =>
          rcases step_rank target (drives ▸ high) going moves with lost | ⟨less, moves'⟩
          · exact .lost 0 rfl lost List.nil_prefix (by omega)
          · by_cases lost : (swj.port.step target line).phase = .lost
            · exact .lost 0 rfl lost List.nil_prefix (by omega)
            · have within : rank (swj.port.step target line).phase + (k + 1) ≤ 53 := by omega
              exact .busy rfl lost moves' within
      | stuck _ stuck seen soon =>
          obtain rfl : line = true := high (drives_stuck stuck)
          have more : List.replicate (k + 1) true <+: true :: swj.seen :=
            List.cons_prefix_cons.mpr ⟨rfl, seen⟩
          have few : k + 1 < 50 := by
            by_contra many
            have fifty : k + 1 = 50 := by omega
            rw [fifty] at more
            exact notHigh more
          obtain ⟨bits, here, long⟩ := stuck
          refine .stuck rfl ⟨bits ++ [true], ?_, ?_⟩ more few
          · change (swj.port.step target true).phase = _
            rw [step_header target here (by omega)]
          · rw [List.length_append]
            omega

end Settling

/-! ### What is seen on a silent line -/

/-- These bits cannot be behind fifty ones, whatever has come before the known levels. -/
def Apart (bits known : List Bool) : Prop :=
  ¬ bits.reverse ++ List.replicate 50 true <+: known ∧
    ¬ known <+: bits.reverse ++ List.replicate 50 true

instance (bits known : List Bool) : Decidable (Apart bits known) :=
  inferInstanceAs (Decidable (_ ∧ _))

theorem Apart.not_behind {bits known seen : List Bool} (apart : Apart bits known)
    (last : known <+: seen) : ¬ Behind bits seen := by
  intro behind
  rcases List.prefix_or_prefix_of_prefix behind last with inside | inside
  · exact apart.1 inside
  · exact apart.2 inside

/-- These levels are no selection and do not end a reset. -/
def Unmoved (known : List Bool) : List Bool → Prop
  | [] => True
  | bit :: bits =>
      (Apart toSwd (bit :: known) ∧ Apart toJtag (bit :: known) ∧ Apart twoZeros (bit :: known)) ∧
        Unmoved (bit :: known) bits

instance decidableUnmoved : (known bits : List Bool) → Decidable (Unmoved known bits)
  | _, [] => inferInstanceAs (Decidable True)
  | known, bit :: bits =>
      have : Decidable (Unmoved (bit :: known) bits) := decidableUnmoved (bit :: known) bits
      inferInstanceAs (Decidable (_ ∧ _))

section Silent

variable {τ : Type} (target : SwdTarget τ) {swj : SwjState τ}

/-- The target sees these levels, one after the other, and keeps off the line all the time. -/
inductive Sees : List Bool → SwjState τ → SwjState τ → Prop
  | nil (swj : SwjState τ) : Sees [] swj swj
  | cons {bit : Bool} {bits : List Bool} {swj next : SwjState τ} : swj.drives = none →
      Sees bits (swj.step target bit) next → Sees (bit :: bits) swj next

theorem Sees.append {bits bits' : List Bool} {swj middle next : SwjState τ}
    (one : Sees target bits swj middle) (two : Sees target bits' middle next) :
    Sees target (bits ++ bits') swj next := by
  induction one with
  | nil => exact two
  | cons quiet _ ih => exact .cons quiet (ih two)

theorem Sees.split {bits bits' : List Bool} {swj next : SwjState τ}
    (sees : Sees target (bits ++ bits') swj next) :
    ∃ middle, Sees target bits swj middle ∧ Sees target bits' middle next := by
  induction bits generalizing swj with
  | nil => exact ⟨swj, .nil swj, sees⟩
  | cons bit bits ih =>
      cases sees with
      | cons quiet rest =>
          obtain ⟨middle, one, two⟩ := ih rest
          exact ⟨middle, .cons quiet one, two⟩

theorem Sees.single {bit : Bool} {swj next : SwjState τ} (quiet : swj.drives = none)
    (last : swj.step target bit = next) : Sees target [bit] swj next :=
  .cons quiet (last ▸ .nil _)

/-- JTAG is selected, or the port has lost track. -/
def Deaf (swj : SwjState τ) : Prop := swj.mode = .jtag ∨ swj.port.phase = .lost

theorem Deaf.drives (deaf : Deaf swj) : swj.drives = none := by
  rcases deaf with jtag | lost
  · exact drives_jtag jtag
  · exact drives_lost lost

theorem lose_lost {port : TargetState τ} (lost : port.phase = .lost) : port.lose = port := by
  obtain ⟨phase, state, log⟩ := port
  obtain rfl : phase = .lost := lost
  rfl

theorem Deaf.step (deaf : Deaf swj) {line : Bool} (swd : ¬ Behind toSwd (line :: swj.seen))
    (jtag : ¬ Behind toJtag (line :: swj.seen)) (zeros : ¬ Behind twoZeros (line :: swj.seen)) :
    swj.step target line = { swj with seen := line :: swj.seen } := by
  have steps := swj.step_cases target line
  have lost (mode : swj.mode = .swd) : swj.port.phase = .lost :=
    deaf.resolve_left fun jtag => SwjMode.noConfusion (jtag.symm.trans mode)
  generalize swj.step target line = next at steps ⊢
  cases steps with
  | toSwd selects => exact absurd selects swd
  | toJtag _ selects => exact absurd selects jtag
  | jtag _ mode => rw [mode]
  | ones mode => rw [mode, lose_lost (lost mode)]
  | zeros _ behind => exact absurd behind zeros
  | port mode => rw [mode, step_lost target (lost mode)]

theorem Deaf.sees (deaf : Deaf swj) {known bits : List Bool} (last : known <+: swj.seen)
    (unmoved : Unmoved known bits) :
    Sees target bits swj { swj with seen := bits.reverse ++ swj.seen } := by
  induction bits generalizing known swj with
  | nil => exact .nil swj
  | cons bit bits ih =>
      obtain ⟨⟨swd, jtag, zeros⟩, rest⟩ := unmoved
      have last' : bit :: known <+: bit :: swj.seen := List.cons_prefix_cons.mpr ⟨rfl, last⟩
      have stepped := deaf.step target (swd.not_behind last') (jtag.not_behind last')
        (zeros.not_behind last')
      have deaf' : Deaf { swj with seen := bit :: swj.seen } := deaf
      rw [List.reverse_cons, List.append_assoc]
      refine .cons deaf.drives ?_
      rw [stepped]
      exact ih deaf' last' rest

/-- A sequence that ends with a one is not behind a zero. -/
theorem not_behind_zero {bits seen : List Bool}
    (last : (bits.reverse ++ List.replicate 50 true).head? = some true) :
    ¬ Behind bits (false :: seen) := by
  rintro ⟨old, same⟩
  have head := congrArg List.head? same
  rw [List.head?_append, last] at head
  exact Bool.noConfusion (Option.some.inj head)

/-- A zero at an idle port. -/
theorem idle_step (mode : swj.mode = .swd) (idle : swj.port.phase = .idle) :
    swj.step target false = { swj with seen := false :: swj.seen } := by
  have steps := swj.step_cases target false
  have rests : swj.port.rest = swj.port := by
    rw [TargetState.rest, ← idle]
  generalize swj.step target false = next at steps ⊢
  cases steps with
  | toSwd selects => exact absurd selects (not_behind_zero (by decide))
  | toJtag _ selects => exact absurd selects (not_behind_zero (by decide))
  | jtag _ jtag => exact SwjMode.noConfusion (jtag.symm.trans mode)
  | ones _ behind => exact absurd behind (not_behind_zero rfl)
  | zeros _ _ => rw [rests, mode]
  | port _ _ _ =>
      have stays : swj.port.step target false = swj.port := by
        unfold TargetState.step
        rw [idle]
        rfl
      rw [stays, mode]

theorem idle_sees (rounds : Nat) {swj : SwjState τ} (mode : swj.mode = .swd)
    (idle : swj.port.phase = .idle) :
    Sees target (List.replicate rounds false) swj
      { swj with seen := List.replicate rounds false ++ swj.seen } := by
  induction rounds generalizing swj with
  | zero => exact .nil swj
  | succ rounds ih =>
      have quiet : swj.drives = none := by
        rw [SwjState.drives, mode]
        unfold TargetState.drives
        simp only [idle]
      have last : List.replicate (rounds + 1) false ++ swj.seen =
          List.replicate rounds false ++ (false :: swj.seen) := by
        rw [List.replicate_succ', List.append_assoc]
        rfl
      rw [last]
      refine .cons quiet ?_
      rw [idle_step target mode idle]
      exact @ih { swj with seen := false :: swj.seen } mode idle

/-- Where the target is behind the first ones. -/
theorem Settling.settled {start : TargetState τ} (settling : Settling start 64 swj) :
    List.replicate 10 true <+: swj.seen ∧
      (swj.mode = .jtag ∧ List.replicate 50 true <+: swj.seen ∨
        swj.mode = .swd ∧ swj.port.phase = .lost) := by
  cases settling.place with
  | jtag ones mode seen few =>
      exact ⟨(shorter_ones (by omega)).trans seen,
        .inl ⟨mode, (shorter_ones (by omega)).trans seen⟩⟩
  | lost ones mode lost seen few =>
      exact ⟨(shorter_ones (by omega)).trans seen, .inr ⟨mode, lost⟩⟩
  | busy _ _ _ soon => omega
  | stuck _ _ _ soon => omega

/-- The selection selects SWD, and makes an SWD port lose track. -/
theorem selection_sees (ones : List.replicate 10 true <+: swj.seen)
    (settled : swj.mode = .jtag ∧ List.replicate 50 true <+: swj.seen ∨
      swj.mode = .swd ∧ swj.port.phase = .lost) :
    Sees target toSwd swj
      { seen := toSwd.reverse ++ swj.seen, mode := .swd, port := swj.port.lose } := by
  have deaf : Deaf swj := settled.imp And.left And.right
  have split : toSwd = toSwd.take 15 ++ [true] := by decide
  have turned : toSwd.reverse = true :: (toSwd.take 15).reverse := by decide
  have unmoved : Unmoved (List.replicate 10 true) (toSwd.take 15) := by decide +kernel
  let before : SwjState τ := { swj with seen := (toSwd.take 15).reverse ++ swj.seen }
  have deafBefore : Deaf before := deaf
  have known : toSwd.reverse ++ List.replicate 10 true <+: true :: before.seen := by
    rw [turned]
    exact (List.prefix_append_right_inj (true :: (toSwd.take 15).reverse)).mpr ones
  have last : before.step target true =
      { seen := true :: before.seen, mode := .swd, port := swj.port.lose } := by
    have lost (mode : swj.mode = .swd) : swj.port.phase = .lost := by
      rcases settled with ⟨jtag, -⟩ | ⟨-, lost⟩
      · exact SwjMode.noConfusion (jtag.symm.trans mode)
      · exact lost
    have steps := before.step_cases target true
    generalize before.step target true = next at steps ⊢
    cases steps with
    | toSwd _ => rfl
    | toJtag _ selects =>
        have apart : Apart toJtag (toSwd.reverse ++ List.replicate 10 true) := by decide +kernel
        exact absurd selects (apart.not_behind known)
    | jtag not mode =>
        rcases settled with ⟨-, fifty⟩ | ⟨swd, -⟩
        · refine absurd ?_ not
          rw [Behind, turned]
          exact (List.prefix_append_right_inj (true :: (toSwd.take 15).reverse)).mpr fifty
        · exact SwjMode.noConfusion (mode.symm.trans swd)
    | ones _ _ => rfl
    | zeros _ behind =>
        have apart : Apart twoZeros (toSwd.reverse ++ List.replicate 10 true) := by decide +kernel
        exact absurd behind (apart.not_behind known)
    | port mode _ _ => rw [step_lost target (lost mode), lose_lost (lost mode)]
  have whole := (deaf.sees target ones unmoved).append target
    (.single target deafBefore.drives last)
  rw [← split] at whole
  rw [turned]
  exact whole

/-- The two zeros behind fifty ones let the port rest. -/
theorem zeros_sees (lost : swj.port.phase = .lost) (mode : swj.mode = .swd)
    (two : Behind twoZeros (false :: swj.seen)) :
    Sees target [false] swj
      { seen := false :: swj.seen, mode := .swd, port := swj.port.rest } := by
  refine .single target (drives_lost lost) ?_
  have steps := swj.step_cases target false
  generalize swj.step target false = next at steps ⊢
  cases steps with
  | toSwd selects => exact absurd selects (not_behind_zero (by decide))
  | toJtag _ selects => exact absurd selects (not_behind_zero (by decide))
  | jtag _ jtag => exact SwjMode.noConfusion (jtag.symm.trans mode)
  | ones _ behind => exact absurd behind (not_behind_zero rfl)
  | zeros _ _ => rfl
  | port _ _ notTwo => exact absurd two notTwo

/-- What is written between the first ones and the last six zeros. -/
def resetBits : List Bool := List.replicate 16 false ++ List.replicate 64 true ++ [false]

/-- What is written behind the first ones. -/
def wakeUp : List Bool :=
  bitsOfWord 0xE79E ++ List.replicate 64 true ++ List.replicate 8 false

/-- Behind the ones, the rest selects SWD and brings the port to its start. -/
theorem wakeUp_sees (ones : List.replicate 10 true <+: swj.seen)
    (settled : swj.mode = .jtag ∧ List.replicate 50 true <+: swj.seen ∨
      swj.mode = .swd ∧ swj.port.phase = .lost) :
    Sees target wakeUp swj
      { seen := wakeUp.reverse ++ swj.seen, mode := .swd, port := swj.port.rest } := by
  have split : wakeUp = toSwd ++ (resetBits ++ ([false] ++ List.replicate 6 false)) := by decide
  have unmoved : Unmoved (toSwd.reverse ++ List.replicate 10 true) resetBits := by decide +kernel
  let lost : SwjState τ :=
    { seen := toSwd.reverse ++ swj.seen, mode := .swd, port := swj.port.lose }
  have deaf : Deaf lost := .inr rfl
  have known : toSwd.reverse ++ List.replicate 10 true <+: lost.seen :=
    (List.prefix_append_right_inj toSwd.reverse).mpr ones
  let still : SwjState τ := { lost with seen := resetBits.reverse ++ lost.seen }
  have two : Behind twoZeros (false :: still.seen) := by
    have inside : twoZeros.reverse ++ List.replicate 50 true <+: false :: resetBits.reverse := by
      decide
    exact inside.trans (List.prefix_append (false :: resetBits.reverse) lost.seen)
  have rested := @zeros_sees τ target still rfl rfl two
  have idle := @idle_sees τ target 6
    { seen := false :: still.seen, mode := .swd, port := still.port.rest } rfl rfl
  have whole := (selection_sees target ones settled).append target
    ((deaf.sees target known unmoved).append target (rested.append target idle))
  rw [← split] at whole
  rw [split, List.reverse_append, List.reverse_append, List.append_assoc, List.append_assoc]
  exact whole

end Silent

/-! ### The pins -/

/-- The bits are written, one after the other. -/
def SWDInterfaceBase.writeAll {σ : Type} (base : SWDInterfaceBase σ) : List Bool → σ → σ
  | [], state => state
  | bit :: bits, state => base.writeAll bits (base.writeBit bit state)

theorem writeBits_all {σ : Type} (base : SWDInterfaceBase σ) (rounds : Nat) (data : Word)
    (state : σ) : base.writeBits rounds data state =
      base.writeAll ((List.range rounds).map data.getLsbD) state := by
  induction rounds generalizing data state with
  | zero => rfl
  | succ rounds ih =>
      have shifted : (List.range rounds).map (data >>> 1).getLsbD =
          (List.range rounds).map (data.getLsbD ∘ Nat.succ) := by
        refine List.map_congr_left fun index _ => ?_
        rw [BitVec.getLsbD_ushiftRight, Nat.add_comm]
        rfl
      rw [SWDInterfaceBase.writeBits, ih, shifted, lowestBit, List.range_succ_eq_map,
        List.map_cons, List.map_map]
      rfl

theorem repeatBit_all {σ : Type} (base : SWDInterfaceBase σ) (rounds : Nat) (v : Bool)
    (state : σ) : base.repeatBit v rounds state =
      base.writeAll (List.replicate rounds v) state := by
  induction rounds generalizing state with
  | zero => rfl
  | succ rounds ih => exact ih _

section Pins

variable {τ : Type} (target : SwdTarget τ) (noise : Nat → Bool) {bench : SwjBench τ}
  {swj : SwjState τ}

/-- The host drives the line, and the target is in this state. -/
structure Driving (bench : SwjBench τ) (swj : SwjState τ) : Prop where
  output : bench.hostOutput = true
  swj : bench.swj = swj

theorem Driving.configDataPin (driving : Driving bench swj) :
    Driving ((SwjBench.pins target noise).configDataPin true bench) swj :=
  ⟨rfl, driving.swj⟩

theorem Driving.setDataPin (driving : Driving bench swj) (v : Bool) :
    Driving ((SwjBench.pins target noise).setDataPin v bench) swj :=
  ⟨driving.output, driving.swj⟩

/-- The target sees the bit that is written, unless it drives the line itself. -/
theorem Driving.writeBit (driving : Driving bench swj) (v : Bool) :
    ∃ line, (swj.drives = none → line = v) ∧
      Driving ((SwjBench.pins target noise).writeBit v bench) (swj.step target line) := by
  obtain ⟨output, rfl⟩ := driving
  rw [SwjBench.writeBit_eq, SwjBench.setClockPin, if_pos ⟨rfl, rfl⟩]
  refine ⟨_, fun quiet => ?_, output, rfl⟩
  unfold SwjBench.line
  simp only [output, quiet]

theorem Driving.writeAll {bits : List Bool} {next : SwjState τ} (sees : Sees target bits swj next)
    (driving : Driving bench swj) :
    Driving ((SwjBench.pins target noise).writeAll bits bench) next := by
  induction sees generalizing bench with
  | nil => exact driving
  | cons quiet _ ih =>
      obtain ⟨line, same, driving'⟩ := driving.writeBit target noise _
      rw [same quiet] at driving'
      exact ih driving'

/-- The first ones. -/
theorem Driving.settles (rounds : Nat) {start : TargetState τ} {k : Nat}
    (settling : Settling start k swj) (driving : Driving bench swj) :
    ∃ swj', Settling start (k + rounds) swj' ∧
      Driving ((SwjBench.pins target noise).repeatBit true rounds bench) swj' := by
  induction rounds generalizing k swj bench with
  | zero => exact ⟨swj, settling, driving⟩
  | succ rounds ih =>
      obtain ⟨line, same, driving'⟩ := driving.writeBit target noise true
      obtain ⟨swj', settled, last⟩ := ih (settling.step target same) driving'
      rw [Nat.add_right_comm] at settled
      exact ⟨swj', settled, last⟩

theorem Driving.lineReset {next : SwjState τ}
    (sees : Sees target (List.replicate 64 true) swj next) (driving : Driving bench swj) :
    Driving ((SwjBench.pins target noise).lineReset bench) next := by
  rw [SWDInterfaceBase.lineReset, repeatBit_all]
  exact (driving.configDataPin target noise).writeAll target noise sees

theorem Driving.lineIdle {next : SwjState τ}
    (sees : Sees target (List.replicate 8 false) swj next) (driving : Driving bench swj) :
    Driving ((SwjBench.pins target noise).lineIdle bench) next := by
  rw [SWDInterfaceBase.lineIdle, repeatBit_all]
  exact ((driving.setDataPin target noise false).configDataPin target noise).writeAll target noise
    sees

theorem Driving.writeWord32 {data : Word} {next : SwjState τ}
    (sees : Sees target (bitsOfWord data) swj next) (driving : Driving bench swj) :
    Driving ((SwjBench.pins target noise).writeWord32 data bench) next := by
  rw [SWDInterfaceBase.writeWord32, writeBits_all]
  exact driving.writeAll target noise sees

theorem doConnect_eq {σ : Type} (base : SWDInterfaceBase σ) (state : σ) :
    base.doConnect state = base.doReadTransaction false 0 0
      (base.setDataPin true (base.lineIdle (base.lineReset (base.writeWord32 0xE79E
        (base.lineReset (base.configDataPin true state)))))) := rfl

/-- Up to the read of the identification, from anywhere. -/
theorem doConnect_rests (bench : SwjBench τ) :
    ∃ ready : SwjBench τ, ∃ seen : List Bool,
      (SwjBench.pins target noise).doConnect bench =
          (SwjBench.pins target noise).doReadTransaction false 0 0 ready ∧
        ready.swj.seen = List.replicate 8 false ++ seen ∧ ready.swj.mode = .swd ∧
        ready.swj.port.phase = .idle ∧ Logged bench.swj.port ready.swj.port := by
  have start : Driving ((SwjBench.pins target noise).configDataPin true
      ((SwjBench.pins target noise).configDataPin true bench)) bench.swj := ⟨rfl, rfl⟩
  obtain ⟨settled, settling, driving⟩ := start.settles target noise 64 (.start bench.swj)
  rw [← SWDInterfaceBase.lineReset] at driving
  obtain ⟨ones, place⟩ := settling.settled
  obtain ⟨reset, sees, zeros⟩ := (wakeUp_sees target ones place).split
  obtain ⟨selected, selects, resets⟩ := sees.split
  have one := driving.writeWord32 target noise selects
  have two := one.lineReset target noise resets
  have three := two.lineIdle target noise zeros
  have ready := three.setDataPin target noise true
  have seen : wakeUp.reverse ++ settled.seen = List.replicate 8 false ++
      ((bitsOfWord 0xE79E ++ List.replicate 64 true).reverse ++ settled.seen) := by
    rw [wakeUp, List.reverse_append, List.reverse_replicate, List.append_assoc]
  refine ⟨_, _, doConnect_eq _ bench, (congrArg SwjState.seen ready.swj).trans seen,
    congrArg SwjState.mode ready.swj, ?_, ?_⟩
  · rw [ready.swj]
    rfl
  · rw [ready.swj]
    exact settling.logged.trans (Logged.quit _ rfl)

/-- The call that `doConnect` ends with. -/
def identify : Call := .read false 0 0

theorem identify_on {σ : Type} (base : SWDInterfaceBase σ) (state : σ) :
    identify.on base state = (((base.doReadTransaction false 0 0 state).1,
      (base.doReadTransaction false 0 0 state).2.1),
      (base.doReadTransaction false 0 0 state).2.2) := rfl

/-- The result of `doConnect`, and what is left of the pins: the port is idle and has closed what was
going on. -/
theorem doConnect_spec (bench : SwjBench τ) :
    ∃ ready : Bench τ, ready.wire.phase = .idle ∧ Logged bench.swj.port ready.wire ∧
      let connected := (SwjBench.pins target noise).doConnect bench
      let identified := identify.on (Bench.pins target noise) ready
      (connected.1, connected.2.1) = identified.1 ∧ Mirrors 34 connected.2.2 identified.2 := by
  obtain ⟨ready, seen, connects, zeros, selected, idle, logged⟩ := doConnect_rests target noise bench
  have calm : Calm ready.swj.seen := ⟨[], List.replicate 5 false ++ seen, zeros, by decide⟩
  have spare : Spare 34 ready.swj.seen := by
    rw [zeros]
    exact (Spare.zero _).mono (by decide)
  have mirrors : Mirrors 34 ready ready.alone := ⟨selected, calm, spare, rfl⟩
  refine ⟨ready.alone, idle, logged, ?_⟩
  intro connected identified
  have same : connected = (SwjBench.pins target noise).doReadTransaction false 0 0 ready := connects
  obtain ⟨answer, mirrors'⟩ := identify.on_mirrors target noise mirrors idle
  rw [identify_on] at answer mirrors'
  rw [same]
  exact ⟨answer, mirrors'⟩

/-- The calls behind a connection. -/
theorem callAll_connected (calls : List Call) {connected : Byte × Word × SwjBench τ}
    {ready : Bench τ} (idle : ready.wire.phase = .idle) (logged : Logged bench.swj.port ready.wire)
    (answer : (connected.1, connected.2.1) = (identify.on (Bench.pins target noise) ready).1)
    (mirrors : Mirrors 34 connected.2.2 (identify.on (Bench.pins target noise) ready).2) :
    let called := callAll (SwjBench.pins target noise) calls connected.2.2
    ∃ (interrupted : List Transfer) (state : τ),
      interrupted.length ≤ pending bench.swj.port.phase ∧
      (pending bench.swj.port.phase = 0 → state = bench.swj.port.state) ∧
      let transfers := target.transfers (identify :: calls) state
      (connected.1, connected.2.1) :: called.1 =
          List.zipWith Call.answer (identify :: calls) transfers.1 ∧
        called.2.swj.mode = .swd ∧
        called.2.swj.port =
          { phase := .idle
            state := transfers.2
            log := bench.swj.port.log ++ interrupted ++ transfers.1 } := by
  intro called
  obtain ⟨⟨interrupted, log, few⟩, same⟩ := logged
  have wire := (identify.on_alone target noise ready idle).2
  have idle' : (identify.on (Bench.pins target noise) ready).2.wire.phase = .idle := by
    rw [wire, TargetState.closed]
  obtain ⟨answers, mirrors'⟩ := callAll_mirrors target noise calls mirrors idle'
  obtain ⟨told, behind⟩ := callAll_alone target noise (identify :: calls) ready idle
  rw [log] at behind
  exact ⟨interrupted, ready.wire.state, Nat.le_of_add_right_le few, same,
    (List.cons_eq_cons.mpr ⟨answer, answers⟩).trans told, mirrors'.selected,
    mirrors'.port.trans behind⟩

end Pins

/-- **`doConnect` finds the port, and no transaction loses it.** From every state of the pins and of
the target, with any levels on a line that both drive: what was going on at the target is closed or
given up, the SWD port is selected and reads its identification, and all calls behind it return what
the target answers. The target sees these transfers and no other. -/
theorem connects_anywhere {τ : Type} (target : SwdTarget τ) (noise : Nat → Bool)
    (bench : SwjBench τ) (calls : List Call) :
    let base := SwjBench.pins target noise
    let connected := base.doConnect bench
    let called := callAll base calls connected.2.2
    ∃ (interrupted : List Transfer) (state : τ),
      interrupted.length ≤ pending bench.swj.port.phase ∧
      (pending bench.swj.port.phase = 0 → state = bench.swj.port.state) ∧
      let transfers := target.transfers (identify :: calls) state
      (connected.1, connected.2.1) :: called.1 =
          List.zipWith Call.answer (identify :: calls) transfers.1 ∧
        called.2.swj.mode = .swd ∧
        called.2.swj.port =
          { phase := .idle
            state := transfers.2
            log := bench.swj.port.log ++ interrupted ++ transfers.1 } := by
  obtain ⟨ready, idle, logged, answer, mirrors⟩ := doConnect_spec target noise bench
  exact callAll_connected target noise calls idle logged answer mirrors

end Swagger.Firmware
