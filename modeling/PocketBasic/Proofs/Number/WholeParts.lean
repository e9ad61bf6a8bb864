/-
**Whole numbers are exact.** Cutting off a fraction never rounds, and neither does the distance from
a base as long as it is small. So a number that is held against a small range, after its fraction
was cut off and a base was taken away, is in the range at the place that its whole part says.

* `exists_units_wholePart`: a number without its fraction is the value of a magnitude;
* `units_truncate`: cutting off a fraction;
* `subtract_truncate`: taking away a base;
* **`wholePart_of_inside`**: numbers that are inside a range.
-/

import Mathlib.Tactic.Common
import PocketBasic.Proofs.Number.Order

namespace PocketBasic.Single

/-! ### Signs and magnitudes -/

theorem magnitude_signed (negative : Bool) {magnitude : Nat}
    (atMost : magnitude ≤ infinityMagnitude) :
    (ofMagnitude negative magnitude).magnitude = magnitude := by
  cases negative
  · exact magnitude_ofMagnitude atMost
  · unfold infinityMagnitude exponentUnit at atMost
    simp only [ofMagnitude, Single.magnitude, signUnit, UInt32.toNat_ofNat', if_true]
    omega

theorem isNegative_signed (negative : Bool) (magnitude : Nat) :
    (ofMagnitude negative magnitude).isNegative = negative := by
  cases negative
  · exact isNegative_ofMagnitude magnitude
  · simp only [ofMagnitude, isNegative, signUnit, UInt32.toNat_ofNat', if_true, decide_eq_true_eq]
    omega

theorem isNaN_of_finite {x : Single} (finite : x.magnitude < infinityMagnitude) :
    x.isNaN = false := by
  rw [isNaN]
  exact decide_eq_false (Nat.not_lt.mpr (Nat.le_of_lt finite))

theorem isInfinite_of_finite {x : Single} (finite : x.magnitude < infinityMagnitude) :
    x.isInfinite = false := by
  rw [isInfinite]
  exact decide_eq_false (Nat.ne_of_lt finite)

/-! ### Cutting off a fraction -/

/-- The whole part of a finite number is the value of a magnitude. -/
theorem exists_units_wholePart {x : Single} (finite : x.magnitude < infinityMagnitude) :
    ∃ magnitude < infinityMagnitude,
      unitsOf magnitude = x.absoluteUnits / unitsPerOne * unitsPerOne := by
  rcases Nat.lt_or_ge (shiftOf x.magnitude) 149 with low | high
  · -- A number with places behind the point has less than a full significand before it.
    refine exists_unitsOf (Nat.le_of_lt ?_)
    rw [Nat.div_lt_iff_lt_mul (by decide), absoluteUnits, unitsOf, Nat.pow_eq]
    calc significandOf x.magnitude * 2 ^ shiftOf x.magnitude
        < exactLimit * 2 ^ shiftOf x.magnitude :=
          Nat.mul_lt_mul_of_pos_right (significandOf_lt _) (Nat.two_pow_pos _)
      _ ≤ exactLimit * unitsPerOne :=
          Nat.mul_le_mul_left _ (Nat.pow_le_pow_right (by decide) (Nat.le_of_lt low))
  · -- One with none is whole.
    refine ⟨x.magnitude, finite, (Nat.div_mul_cancel ?_).symm⟩
    exact Nat.dvd_mul_left_of_dvd (Nat.pow_dvd_pow 2 high) _

/-- **Cutting off the fraction of a finite number is exact.** -/
theorem units_truncate {x : Single} (finite : x.magnitude < infinityMagnitude) :
    x.truncate.magnitude < infinityMagnitude ∧ x.truncate.units = x.wholePart * unitsPerOne := by
  obtain ⟨magnitude, small, units⟩ := exists_units_wholePart finite
  have nearest := nearestMagnitude_unitsOf small Nat.one_pos
  rw [Nat.mul_one, units] at nearest
  rw [truncate, isNaN_of_finite finite, isInfinite_of_finite finite, ofQuotient, nearest]
  simp only [Bool.false_eq_true, if_false]
  rw [Single.units, absoluteUnits, magnitude_signed _ (Nat.le_of_lt small),
    isNegative_signed, units, wholePart]
  refine ⟨small, ?_⟩
  split <;> push_cast <;> ring

/-! ### Taking away a base -/

theorem units_negate {x : Single} (finite : x.magnitude < infinityMagnitude) :
    x.negate.magnitude = x.magnitude ∧ x.negate.units = -x.units := by
  have same := magnitude_signed (!x.isNegative) (Nat.le_of_lt finite)
  refine ⟨same, ?_⟩
  rw [units, units, absoluteUnits, absoluteUnits, negate, same,
    isNegative_signed]
  cases x.isNegative <;> simp

/-- The difference of two finite numbers is rounded once, unless it is none. -/
theorem subtract_finite {x y : Single} (finite : x.magnitude < infinityMagnitude)
    (finite' : y.magnitude < infinityMagnitude) :
    x.subtract y =
      if x.units - y.units = 0 then ofMagnitude (x.isNegative && y.negate.isNegative) 0
      else ofQuotient (x.units - y.units < 0) (x.units - y.units).natAbs 1 := by
  obtain ⟨same, opposite⟩ := units_negate finite'
  have negated : y.negate.magnitude < infinityMagnitude := same.trans_lt finite'
  rw [subtract, add, isNaN_of_finite finite, isNaN_of_finite finite', isNaN_of_finite negated,
    isInfinite_of_finite finite, isInfinite_of_finite negated, opposite, ← Int.sub_eq_add_neg]
  simp

theorem units_ofNat {value : Nat} (small : value ≤ exactLimit) :
    (ofNat value).units = value * unitsPerOne := by
  rw [units, isNegative_ofNat, if_neg Bool.false_ne_true, (ofNat_exact small).2]
  push_cast
  rfl

/-- **The distance of a whole part from a small base**, rounded once. -/
theorem subtract_truncate {x : Single} {base : Nat} (finite : x.magnitude < infinityMagnitude)
    (small : base ≤ exactLimit) :
    x.truncate.subtract (ofNat base) =
      if x.wholePart = base then
        ofMagnitude (x.truncate.isNegative && (ofNat base).negate.isNegative) 0
      else ofQuotient (x.wholePart < base) ((x.wholePart - base).natAbs * unitsPerOne) 1 := by
  obtain ⟨whole, units⟩ := units_truncate finite
  have positive : (0 : Int) < unitsPerOne := by decide
  rw [subtract_finite whole (ofNat_exact small).1, units, units_ofNat small, ← Int.sub_mul]
  have none : (x.wholePart - base) * (unitsPerOne : Int) = 0 ↔ x.wholePart = base := by
    rw [Int.mul_eq_zero, or_iff_left (Int.ne_of_gt positive), Int.sub_eq_zero]
  have below : (x.wholePart - base) * (unitsPerOne : Int) < 0 ↔ x.wholePart < base := by
    constructor
    · intro less
      by_contra least
      exact absurd (Int.mul_nonneg (by omega) (Int.le_of_lt positive)) (Int.not_le.mpr less)
    · exact fun less => Int.mul_neg_of_neg_of_pos (by omega) positive
  simp only [none, below, Int.natAbs_mul, Int.natAbs_natCast]

/-! ### Ranges -/

/-- The whole part of a small whole number is the number itself. -/
theorem toSize_ofNat {value : Nat} (small : value ≤ exactLimit) : (ofNat value).toSize = value := by
  obtain ⟨finite, units⟩ := ofNat_exact small
  rw [toSize, clampToNat, isNaN_of_finite finite, isInfinite_of_finite finite, isNegative_ofNat,
    units, Nat.mul_div_cancel _ (by decide)]
  simp only [Bool.or_false, Bool.false_eq_true, if_false]
  exact Nat.min_eq_right (Nat.le_trans small (by decide))

theorem magnitude_ofNat_mono {lower upper : Nat} (ordered : lower ≤ upper) :
    (ofNat lower).magnitude ≤ (ofNat upper).magnitude := by
  rw [ofNat, ofNat, magnitude_ofQuotient, magnitude_ofQuotient]
  exact nearestMagnitude_mono (Nat.mul_le_mul_right _ ordered) 1

/-- An infinity is below or above every range. -/
theorem outside_of_infinite {x : Single} (infinite : x.isInfinite = true) {base : Nat}
    (small : base ≤ exactLimit) (count : Nat) :
    (x.truncate.subtract (ofNat base)).less zero = true ∨
      (ofNat count).atMost (x.truncate.subtract (ofNat base)) = true := by
  have reached : x.magnitude = infinityMagnitude := of_decide_eq_true infinite
  have number : x.isNaN = false := by
    rw [isNaN, reached]
    decide
  have finite := (ofNat_exact small).1
  have negated := (units_negate finite).1.trans_lt finite
  have same : x.truncate.subtract (ofNat base) = x := by
    rw [truncate, number, infinite, if_neg Bool.false_ne_true, if_pos rfl, subtract, add, number,
      isNaN_of_finite finite, isNaN_of_finite negated, infinite, isInfinite_of_finite negated]
    rfl
  rw [same, less, atMost, number, isNaN_ofNat, rank_ofNat, rank, reached]
  cases x.isNegative
  · refine .inr ?_
    have least := nearestMagnitude_le (count * unitsPerOne) 1
    rw [ofNat, magnitude_ofQuotient]
    simpa using least
  · exact .inl (by decide)

/-- **A number inside a small range is at the place that its whole part says.** -/
theorem wholePart_of_inside {x : Single} {base count : Nat} (number : x.isNaN = false)
    (small : base ≤ exactLimit) (few : count ≤ exactLimit)
    (notBelow : (x.truncate.subtract (ofNat base)).less zero = false)
    (notAbove : (ofNat count).atMost (x.truncate.subtract (ofNat base)) = false) :
    x.wholePart = base + (x.truncate.subtract (ofNat base)).toSize := by
  have finite : x.magnitude < infinityMagnitude := by
    have atMost : x.magnitude ≤ infinityMagnitude := Nat.not_lt.mp (of_decide_eq_false number)
    refine Nat.lt_of_le_of_ne atMost fun reached => ?_
    have infinite : x.isInfinite = true := decide_eq_true reached
    rcases outside_of_infinite infinite small count with below | above
    · exact absurd (notBelow.symm.trans below) Bool.false_ne_true
    · exact absurd (notAbove.symm.trans above) Bool.false_ne_true
  rw [subtract_truncate finite small] at notBelow notAbove ⊢
  rcases Int.lt_trichotomy x.wholePart base with below | same | above
  · -- A negative distance is below zero, however it is rounded.
    exfalso
    rw [if_neg (Int.ne_of_lt below), decide_eq_true below] at notBelow
    have far : 1 ≤ (x.wholePart - base).natAbs := by omega
    have one : 1 ≤ nearestMagnitude (1 * unitsPerOne) 1 := by decide +kernel
    have some := Nat.le_trans one (nearestMagnitude_mono (Nat.mul_le_mul_right unitsPerOne far) 1)
    have finite' := nearestMagnitude_le ((x.wholePart - base).natAbs * unitsPerOne) 1
    rw [ofQuotient, less, isNaN, rank, isNegative_signed, magnitude_signed _ finite',
      decide_eq_false (Nat.not_lt.mpr finite')] at notBelow
    have zero : zero.isNaN = false ∧ zero.rank = 0 := by decide
    rw [zero.1, zero.2] at notBelow
    simp only [Bool.not_false, Bool.and_self, Bool.true_and, if_true, decide_eq_false_iff_not]
      at notBelow
    omega
  · rw [if_pos same, same]
    have none (negative : Bool) : (ofMagnitude negative 0).toSize = 0 := by
      cases negative <;> decide
    rw [none, Int.ofNat_zero, Int.add_zero]
  · obtain ⟨place, same⟩ := Int.le.dest (Int.le_of_lt above)
    have distance : x.wholePart - base = place := by omega
    rw [if_neg (Int.ne_of_gt above), distance,
      decide_eq_false (Int.not_lt.mpr (Int.le_of_lt above)), Int.natAbs_natCast] at notAbove ⊢
    change (ofNat count).atMost (ofNat place) = false at notAbove
    change x.wholePart = base + (ofNat place).toSize
    have inside : place < count := by
      by_contra reached
      have ordered := magnitude_ofNat_mono (Nat.not_lt.mp reached)
      rw [atMost, isNaN_ofNat, isNaN_ofNat, rank_ofNat, rank_ofNat] at notAbove
      simp [ordered] at notAbove
    rw [toSize_ofNat (by omega)]
    omega

end PocketBasic.Single
