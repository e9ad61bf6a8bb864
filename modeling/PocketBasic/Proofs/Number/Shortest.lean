/-
**The shortest decimal.** The search for it works on a scale on which numbers, decimals and the ends
of intervals are whole.

* `RoundingInterval.searchFrom_contains`: what is found is in the interval of the number;
* **`Single.ofDecimal_shortest`**: the shortest decimal of a number reads as the number.
-/

import Mathlib.Tactic.Common
import Mathlib.Tactic.Linarith
import Mathlib.Tactic.Ring
import PocketBasic.Number.Notation
import PocketBasic.Proofs.Number.Decimal

namespace PocketBasic.Single

namespace RoundingInterval

theorem value_ofMagnitude (magnitude : Nat) : (ofMagnitude magnitude).value =
    4 * (significandOf magnitude * 2 ^ shiftOf magnitude) * 5 ^ 149 := by
  simp only [ofMagnitude, Nat.pow_eq]
  ring

/-- The value is in the interval. -/
theorem contains_value (magnitude : Nat) :
    (ofMagnitude magnitude).contains (ofMagnitude magnitude).value = true := by
  have scale : 0 < 2 ^ shiftOf magnitude * 5 ^ 149 := by positivity
  simp only [ofMagnitude, contains, Nat.pow_eq]
  generalize 2 ^ shiftOf magnitude * 5 ^ 149 = scale at *
  split
  all_goals
    simp only [Bool.and_eq_true, decide_eq_true_eq]
    refine ⟨?_, by omega⟩
    split <;> omega

/-- The ends are in the interval only if it is closed. -/
theorem bounds_of_contains {interval : RoundingInterval} {point : Nat}
    (inside : interval.contains point = true) :
    interval.value ≤ point + interval.below ∧ point ≤ interval.value + interval.above ∧
      (interval.closed = false →
        interval.value ≠ point + interval.below ∧ point ≠ interval.value + interval.above) := by
  unfold contains at inside
  split at inside
  · rename_i closed
    simp only [Bool.and_eq_true, decide_eq_true_eq] at inside
    exact ⟨inside.1, inside.2, fun isOpen => absurd closed (by simp [isOpen])⟩
  · simp only [Bool.and_eq_true, decide_eq_true_eq] at inside
    exact ⟨Nat.le_of_lt inside.1, Nat.le_of_lt inside.2,
      fun _ => ⟨Nat.ne_of_lt inside.1, Nat.ne_of_lt inside.2⟩⟩

theorem searchFrom_zero (interval : RoundingInterval) :
    interval.searchFrom 0 = (interval.value / 4, -149) := rfl

/-- What the search finds is in the interval, if the value itself is. -/
theorem searchFrom_contains {interval : RoundingInterval}
    (whole : interval.contains (interval.value / 4 * 4) = true) (place : Nat) :
    ∃ found : Nat, (interval.searchFrom place).2 = (found : Int) - 149 ∧
      interval.contains ((interval.searchFrom place).1 * (4 * 10 ^ found)) = true := by
  induction place with
  | zero =>
    refine ⟨0, by simp [searchFrom_zero], ?_⟩
    rw [Nat.pow_zero, Nat.mul_one, searchFrom_zero]
    exact whole
  | succ place ih =>
    unfold searchFrom
    split
    · rename_i digits found
      refine ⟨place + 1, by push_cast; rfl, ?_⟩
      unfold digitsAt? at found
      simp only [Nat.pow_eq] at found
      split at found
      · rename_i upper
        cases found
        exact (Bool.and_eq_true_iff.mp upper).1
      · split at found
        · rename_i lower
          cases found
          exact lower
        · cases found
    · exact ih

end RoundingInterval

/-- **A decimal of the interval reads as its number.** -/
theorem ofDecimal_of_contains {magnitude digits place : Nat}
    (finite : magnitude < infinityMagnitude)
    (inside : (RoundingInterval.ofMagnitude magnitude).contains
      (digits * (4 * 10 ^ place)) = true) :
    ofDecimal false digits ((place : Int) - 149) = ofMagnitude false magnitude := by
  rw [ofDecimal_eq, ofQuotient]
  refine congrArg (ofMagnitude false) ?_
  generalize numeratorEq : digits * 10 ^ ((place : Int) - 149).toNat * unitsPerOne = numerator
  generalize denominatorEq : 10 ^ (-((place : Int) - 149)).toNat = denominator
  have positive : 0 < denominator := by
    rw [← denominatorEq]
    positivity
  -- the quotient is the decimal on the scale of the interval
  have point : digits * (4 * 10 ^ place) * denominator = 5 ^ 149 * (4 * numerator) := by
    have powers : 10 ^ place * 10 ^ (-((place : Int) - 149)).toNat =
        10 ^ 149 * 10 ^ ((place : Int) - 149).toNat := by
      rw [← Nat.pow_add, ← Nat.pow_add]
      congr 1
      omega
    calc digits * (4 * 10 ^ place) * denominator
        = 4 * digits * (10 ^ place * 10 ^ (-((place : Int) - 149)).toNat) := by
          rw [denominatorEq]
          ring
      _ = 4 * digits * (10 ^ 149 * 10 ^ ((place : Int) - 149).toNat) := by rw [powers]
      _ = 5 ^ 149 * (4 * (digits * 10 ^ ((place : Int) - 149).toNat * unitsPerOne)) := by
          rw [show (10 : Nat) ^ 149 = 5 ^ 149 * unitsPerOne from by decide]
          ring
      _ = 5 ^ 149 * (4 * numerator) := by rw [numeratorEq]
  generalize digits * (4 * 10 ^ place) = decimal at *
  have width (factor : Nat) : factor * (2 ^ shiftOf magnitude * 5 ^ 149) * denominator =
      5 ^ 149 * (factor * (denominator * 2 ^ shiftOf magnitude)) := by ring
  obtain ⟨low, high, strict⟩ := RoundingInterval.bounds_of_contains inside
  simp only [RoundingInterval.ofMagnitude, Nat.pow_eq] at low high strict
  generalize (2 ^ shiftOf magnitude * 5 ^ 149) = scale at *
  have fives : 0 < 5 ^ 149 := by positivity
  generalize 5 ^ 149 = five at *
  have below : (if significandOf magnitude = exponentUnit then scale else 2 * scale) =
      (if significandOf magnitude = exponentUnit then 1 else 2) * scale := by
    split
    · rw [Nat.one_mul]
    · rfl
  rw [below] at low strict
  have scaledLow := Nat.mul_le_mul_right denominator low
  have scaledHigh := Nat.mul_le_mul_right denominator high
  rw [Nat.add_mul, point, width, width, ← Nat.mul_add] at scaledLow
  rw [← Nat.add_mul, point, width] at scaledHigh
  refine nearestMagnitude_eq positive finite (Nat.le_of_mul_le_mul_left scaledLow fives)
    (Nat.le_of_mul_le_mul_left scaledHigh fives) fun odd => ?_
  obtain ⟨notLow, notHigh⟩ := strict (by simp [odd])
  have notLeast : significandOf magnitude ≠ exponentUnit := by
    intro least
    rw [least] at odd
    cases odd
  rw [if_neg notLeast] at notLow
  constructor
  · intro equal
    refine notLow (Nat.eq_of_mul_eq_mul_right positive ?_)
    rw [Nat.add_mul, point, width, width, ← Nat.mul_add, equal]
  · intro equal
    refine notHigh (Nat.eq_of_mul_eq_mul_right positive ?_)
    rw [← Nat.add_mul, point, width, equal]

/-! ### The shortest decimal -/

/-- Where the search for the shortest decimal begins. -/
theorem shortest_eq (x : Single) : x.shortest =
    (RoundingInterval.ofMagnitude x.magnitude).searchFrom
      ((RoundingInterval.ofMagnitude x.magnitude).value.log2 / 3 + 1) := rfl

/-- **The shortest decimal of a number reads as the number.** -/
theorem ofDecimal_shortest {x : Single} (finite : x.isFinite = true)
    (positive : x.isNegative = false) :
    ofDecimal false x.shortest.1 x.shortest.2 = x := by
  have four : 4 ∣ (RoundingInterval.ofMagnitude x.magnitude).value := by
    rw [RoundingInterval.value_ofMagnitude, Nat.mul_assoc]
    exact Nat.dvd_mul_right 4 _
  have whole : (RoundingInterval.ofMagnitude x.magnitude).contains
      ((RoundingInterval.ofMagnitude x.magnitude).value / 4 * 4) = true := by
    rw [Nat.div_mul_cancel four]
    exact RoundingInterval.contains_value x.magnitude
  rw [shortest_eq]
  generalize (RoundingInterval.ofMagnitude x.magnitude).value.log2 / 3 + 1 = place
  obtain ⟨found, exponent, inside⟩ := RoundingInterval.searchFrom_contains whole place
  rw [exponent, ofDecimal_of_contains (of_decide_eq_true finite) inside,
    ofMagnitude_magnitude positive]

theorem shortest_positive {x : Single} (finite : x.isFinite = true)
    (positive : x.isNegative = false) (some : 0 < x.absoluteUnits) : 0 < x.shortest.1 := by
  by_contra none
  have same := ofDecimal_shortest finite positive
  rw [show x.shortest.1 = 0 by omega, ofDecimal, if_pos rfl] at same
  rw [← same] at some
  exact absurd some (by decide)

/-- Zeros at the end stand for a power of ten. -/
theorem ofDecimal_zeros (digits count : Nat) :
    ofDecimal false (digits * 10 ^ count) 0 = ofDecimal false digits count := by
  rw [ofDecimal_eq, ofDecimal_eq]
  simp

end PocketBasic.Single
