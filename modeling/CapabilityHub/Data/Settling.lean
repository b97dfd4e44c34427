import Mathlib.Algebra.Group.Nat.Defs
import Mathlib.Data.Nat.Log
import Mathlib.Logic.Function.Iterate

/-! # Measures that state themselves

A document that states its own size is measured until the size it states is the one that it has. The size
grows by a digit only when a power of ten is passed, so that four rounds are enough
(`CapabilityHub.settle_decimals`).
-/

namespace CapabilityHub

/-- Rounds of measuring, up to the one that finds what is known already. -/
def settle {α : Type} [DecidableEq α] (measure : α → α) : Nat → α → α
  | 0, known => known
  | rounds + 1, known =>
      if measure known = known then known else settle measure rounds (measure known)

/-- The same for a measure that may fail. -/
def settleM {ε α : Type} [DecidableEq α] (measure : α → Except ε α) : Nat → α → Except ε α
  | 0, known => .ok known
  | rounds + 1, known =>
      match measure known with
      | .error error => .error error
      | .ok found => if found = known then .ok known else settleM measure rounds found

/-- The number of decimal digits. -/
def decimals (value : Nat) : Nat := (Nat.toDigits 10 value).length

variable {α : Type} [DecidableEq α] {measure : α → α} {grow : Nat → Nat} {first second third : Nat}

/-- Where one of the rounds finds what it started with, the result measures as itself. -/
theorem settle_fixed {rounds round : Nat} {start : α} (within : round ≤ rounds)
    (fixed : measure (measure^[round] start) = measure^[round] start) :
    measure (settle measure rounds start) = settle measure rounds start := by
  induction rounds generalizing round start with
  | zero =>
      obtain rfl := Nat.le_zero.mp within
      exact fixed
  | succ rounds ih =>
      rw [settle]
      by_cases found : measure start = start
      · rw [if_pos found]
        exact found
      · rw [if_neg found]
        cases round with
        | zero => exact absurd fixed found
        | succ round =>
            rw [Function.iterate_succ_apply] at fixed
            exact ih (Nat.le_of_succ_le_succ within) fixed

/-- A measure that may fail settles as the one that does not. -/
theorem settle_of_settleM {ε : Type} {failing : α → Except ε α} {rounds : Nat} {start result : α}
    (agrees : ∀ known found, failing known = .ok found → found = measure known)
    (settled : settleM failing rounds start = .ok result) : settle measure rounds start = result := by
  induction rounds generalizing start with
  | zero => exact Except.ok.inj settled
  | succ rounds ih =>
      rw [settleM] at settled
      cases measured : failing start with
      | error error =>
          rw [measured] at settled
          cases settled
      | ok found =>
          obtain rfl := agrees start found measured
          rw [measured] at settled
          rw [settle]
          by_cases same : measure start = start
          · rw [if_pos same]
            exact Except.ok.inj ((if_pos same).symm.trans settled)
          · rw [if_neg same]
            exact ih ((if_neg same).symm.trans settled)

/-- The rounds return if none of them raises. -/
theorem exists_settleM {ε : Type} {failing : α → Except ε α} {holds : α → Prop} {rounds : Nat} {start : α}
    (first : holds start)
    (step : ∀ known, holds known → ∃ found, failing known = .ok found ∧ holds found) :
    ∃ result, settleM failing rounds start = .ok result := by
  induction rounds generalizing start with
  | zero => exact ⟨start, rfl⟩
  | succ rounds ih =>
      obtain ⟨found, measured, next⟩ := step start first
      rw [settleM, measured]
      by_cases same : found = start
      · exact ⟨start, if_pos same⟩
      · obtain ⟨result, done⟩ := ih next
        exact ⟨result, (if_neg same).trans done⟩

/-! ## Growth by one digit -/

/-- A growth that gains at most one in the reach of what it has. -/
structure Slow (grow : Nat → Nat) : Prop where
  mono : Monotone grow
  gain : ∀ first second, first ≤ second → second ≤ first + grow first + 1 → grow second ≤ grow first + 1

/-- The third measure is the fourth one. -/
theorem Slow.stable (slow : Slow grow) {base start : Nat} (low : start ≤ grow (base + start)) :
    grow (base + grow (base + grow (base + start))) = grow (base + grow (base + start)) := by
  have up : grow (base + start) ≤ grow (base + grow (base + start)) :=
    slow.mono (Nat.add_le_add_left low base)
  have more := slow.mono (Nat.add_le_add_left up base)
  have once := slow.gain (base + start) (base + grow (base + start)) (by omega) (by omega)
  have twice := slow.gain (base + start) (base + grow (base + grow (base + start))) (by omega) (by omega)
  by_cases same : grow (base + grow (base + start)) = grow (base + start)
  · rw [same]
    exact same
  · omega

theorem decimals_le_iff {value digits : Nat} (positive : 0 < digits) :
    decimals value ≤ digits ↔ value < 10 ^ digits := Nat.length_toDigits_le_iff (by decide) positive

theorem decimals_pos {value : Nat} : 0 < decimals value := Nat.length_toDigits_pos

theorem lt_pow_decimals (value : Nat) : value < 10 ^ decimals value :=
  (decimals_le_iff decimals_pos).mp le_rfl

theorem decimals_mono : Monotone decimals := fun _ second smaller =>
  (decimals_le_iff decimals_pos).mpr (smaller.trans_lt (lt_pow_decimals second))

/-- A value of more than one digit is not below the power of ten before it. -/
theorem pow_le_of_decimals {value digits : Nat} (positive : 0 < digits) (long : digits < decimals value) :
    10 ^ digits ≤ value := by
  by_contra below
  exact absurd ((decimals_le_iff positive).mpr (Nat.lt_of_not_le below)) (Nat.not_le.mpr long)

/-- The quarter of a size, rounded up, in decimal digits. -/
def quarterDecimals (bytes : Nat) : Nat := decimals ((bytes + 3) / 4)

theorem quarterDecimals_mono : Monotone quarterDecimals := fun _ _ smaller =>
  decimals_mono (Nat.div_le_div_right (Nat.add_le_add_right smaller 3))

/-- A growth that is reached within twice the digits gains at most one digit. -/
theorem decimals_gain {more : Nat} (near : second ≤ first + more)
    (short : more ≤ 2 * decimals first + 3) : decimals second ≤ decimals first + 1 := by
  have bound := lt_pow_decimals first
  have large : decimals first < 10 ^ decimals first := Nat.lt_pow_self (by decide)
  rw [decimals_le_iff (by omega), Nat.pow_succ]
  have positive := @decimals_pos first
  omega

theorem quarterDecimals_gain (near : second ≤ first + 2 * quarterDecimals first + 3) :
    quarterDecimals second ≤ quarterDecimals first + 1 := by
  have quarters : (second + 3) / 4 ≤ (first + 3) / 4 + (2 * quarterDecimals first + 3) := by omega
  exact decimals_gain quarters le_rfl

/-- The growth of a document that states its size in quarters. -/
theorem slow_quarterDecimals : Slow quarterDecimals where
  mono := quarterDecimals_mono
  gain := fun _ _ _ near => quarterDecimals_gain (by omega)

theorem decimals_le_quarterDecimals (bytes : Nat) : decimals bytes ≤ quarterDecimals bytes + 1 := by
  have bound := lt_pow_decimals ((bytes + 3) / 4)
  rw [← quarterDecimals] at bound
  rw [decimals_le_iff (by omega), Nat.pow_succ]
  omega

/-- No power of ten is passed together with four times one. -/
theorem gain_apart (near : second ≤ first + (quarterDecimals first + decimals first) + 1)
    (longer : decimals first < decimals second) : quarterDecimals second ≤ quarterDecimals first := by
  have quarter : quarterDecimals first ≤ decimals first := decimals_mono (by omega)
  have whole := decimals_le_quarterDecimals first
  have bound := lt_pow_decimals first
  have quarterBound := lt_pow_decimals ((first + 3) / 4)
  have passed := pow_le_of_decimals decimals_pos longer
  by_contra quarterLonger
  have quarterPassed := pow_le_of_decimals decimals_pos (Nat.lt_of_not_le quarterLonger)
  change (first + 3) / 4 < 10 ^ quarterDecimals first at quarterBound
  change 10 ^ quarterDecimals first ≤ (second + 3) / 4 at quarterPassed
  have large : quarterDecimals first < 10 ^ quarterDecimals first := Nat.lt_pow_self (by decide)
  rcases Nat.lt_or_eq_of_le quarter with fewer | equal
  · have one : decimals first = quarterDecimals first + 1 := by omega
    rw [one, Nat.pow_succ] at passed
    omega
  · have ten : 10 ^ 1 ≤ 10 ^ quarterDecimals first :=
      Nat.pow_le_pow_right (by decide) decimals_pos
    rw [← equal] at bound
    omega

/-- The growth of a document that states its size in bytes and in quarters. -/
theorem slow_bothDecimals : Slow fun bytes => quarterDecimals bytes + decimals bytes where
  mono := fun _ _ smaller => Nat.add_le_add (quarterDecimals_mono smaller) (decimals_mono smaller)
  gain := by
    intro first second _ near
    have quarter : quarterDecimals first ≤ decimals first := decimals_mono (by omega)
    have reached : second ≤ first + (quarterDecimals first + decimals first + 1) := near
    have bytes : decimals second ≤ decimals first + 1 := decimals_gain reached (by omega)
    by_cases longer : decimals first < decimals second
    · have apart := gain_apart near longer
      omega
    · have whole := decimals_le_quarterDecimals first
      have quarters : quarterDecimals second ≤ quarterDecimals first + 1 := quarterDecimals_gain (by omega)
      omega

end CapabilityHub
