/-
**The remainder is exact.** The remainder of two numbers has no more places than one of them: it is
below the divisor in places as fine as those of the divisor, or it is the dividend. So nothing is
rounded when the remainder of whole numbers becomes a number again.

* `Single.exists_unitsOf_mod`: the remainder of two numbers is a number;
* `Single.units_ofInt`: whole numbers that are values of a magnitude;
* `Arithmetic.bits_truncate`: which whole parts have bits;
* `Arithmetic.IsRemainder`: the exact remainder of the whole parts, with the sign of the dividend;
* **`Arithmetic.modulus_is_remainder`**: what `modulus` returns, for all finite numbers.

The range of whole numbers with bits ends at `bitsLimit`, one above the largest of them, so `2 ^ 31`
is taken for the whole number below it (`modulus_of_bitsLimit`).
-/

import Mathlib.Tactic.Common
import PocketBasic.Arithmetic
import PocketBasic.Proofs.Number.WholeParts

namespace PocketBasic

namespace Single

/-! ### The remainder of two numbers -/

theorem shiftOf_le {magnitude : Nat} (finite : magnitude < infinityMagnitude) :
    shiftOf magnitude ≤ 253 := by
  unfold shiftOf infinityMagnitude exponentUnit at *
  omega

/-- **The remainder of two numbers is a number.** -/
theorem exists_unitsOf_mod {dividend divisor : Nat} (finite : dividend < infinityMagnitude)
    (finite' : divisor < infinityMagnitude) (some : unitsOf divisor ≠ 0) :
    ∃ magnitude < infinityMagnitude, unitsOf magnitude = unitsOf dividend % unitsOf divisor := by
  rcases Nat.lt_or_ge (shiftOf dividend) (shiftOf divisor) with less | shifted
  · -- The dividend is the smaller one, and is left over.
    have smaller : dividend < divisor := by
      by_contra reached
      refine absurd less (Nat.not_lt.mpr ?_)
      exact Nat.sub_le_sub_right (Nat.div_le_div_right (Nat.not_lt.mp reached)) 1
    exact ⟨dividend, finite, (Nat.mod_eq_of_lt (unitsOf_strictMono smaller)).symm⟩
  · -- The rest has places as fine as those of the divisor, and is below it.
    have fine : 2 ^ shiftOf divisor ∣ unitsOf dividend % unitsOf divisor := by
      refine (Nat.dvd_mod_iff ?_).mpr ?_
      · exact Nat.dvd_mul_left ..
      · exact Nat.dvd_mul_left_of_dvd (Nat.pow_dvd_pow 2 shifted) _
    obtain ⟨significand, rest⟩ := fine
    have below : 2 ^ shiftOf divisor * significand < significandOf divisor * 2 ^ shiftOf divisor :=
      rest ▸ Nat.mod_lt _ (Nat.pos_of_ne_zero some)
    rw [Nat.mul_comm, Nat.mul_lt_mul_right (Nat.two_pow_pos _)] at below
    have few := significandOf_lt divisor
    have fits : shiftOf divisor * exponentUnit + significand < infinityMagnitude := by
      have places := shiftOf_le finite'
      unfold infinityMagnitude exponentUnit at *
      omega
    obtain ⟨magnitude, finite'', units⟩ := exists_unitsOf_shift (by omega) fits
    exact ⟨magnitude, finite'', by rw [units, rest, Nat.mul_comm]⟩

/-! ### Whole numbers as numbers -/

theorem natAbs_units (x : Single) : x.units.natAbs = x.absoluteUnits := by
  rw [units]
  split <;> omega

theorem units_nonpos_of_isNegative {x : Single} (negative : x.isNegative = true) : x.units ≤ 0 := by
  rw [units, if_pos negative]
  omega

theorem units_nonneg_of_not_isNegative {x : Single} (positive : ¬ x.isNegative = true) :
    0 ≤ x.units := by
  rw [units, if_neg positive]
  omega

/-- The whole part of a whole number is the number itself. -/
theorem wholePart_eq {x : Single} {value : Int} (whole : x.units = value * unitsPerOne) :
    x.wholePart = value := by
  have positive : (0 : Int) < unitsPerOne := by decide
  have absolute : x.absoluteUnits = value.natAbs * unitsPerOne := by
    rw [← natAbs_units, whole, Int.natAbs_mul, Int.natAbs_natCast]
  rw [wholePart, absolute, Nat.mul_div_cancel _ (by decide)]
  split
  · rename_i negative
    have atMost := whole ▸ units_nonpos_of_isNegative negative
    have sign : value ≤ 0 := by
      by_contra above
      exact absurd (Int.mul_pos (Int.not_le.mp above) positive) (Int.not_lt.mpr atMost)
    omega
  · rename_i notNegative
    have atLeast := whole ▸ units_nonneg_of_not_isNegative notNegative
    have sign : 0 ≤ value := by
      by_contra below
      exact absurd (Int.mul_neg_of_neg_of_pos (Int.not_le.mp below) positive)
        (Int.not_lt.mpr atLeast)
    omega

/-- A whole number that is the value of a magnitude is exact. -/
theorem units_ofInt {value : Int} {magnitude : Nat} (finite : magnitude < infinityMagnitude)
    (units : unitsOf magnitude = value.natAbs * unitsPerOne) :
    (ofInt value).isFinite = true ∧ (ofInt value).units = value * unitsPerOne ∧
      (ofInt value).isNegative = decide (value < 0) := by
  have nearest := nearestMagnitude_unitsOf finite Nat.one_pos
  rw [Nat.mul_one, units] at nearest
  have same := magnitude_signed (value < 0) (Nat.le_of_lt finite)
  rw [ofInt, ofQuotient, nearest, isFinite, Single.units, absoluteUnits, same, isNegative_signed,
    units]
  refine ⟨decide_eq_true finite, ?_, rfl⟩
  simp only [decide_eq_true_eq]
  split
  · rw [Int.natCast_mul, ← Int.neg_mul]
    congr 1
    omega
  · rw [Int.natCast_mul]
    congr 1
    omega

/-- The order of finite numbers is the order of their units. -/
theorem rank_le_iff {x y : Single} : x.rank ≤ y.rank ↔ x.units ≤ y.units := by
  have nothing : unitsOf 0 = 0 := by decide
  have order (first second : Nat) : unitsOf first ≤ unitsOf second ↔ first ≤ second :=
    unitsOf_strictMono.le_iff_le
  have zero (magnitude : Nat) : unitsOf magnitude = 0 ↔ magnitude = 0 :=
    ⟨fun none => unitsOf_strictMono.injective (none.trans nothing.symm), fun none => none ▸ nothing⟩
  have ordered := order x.magnitude y.magnitude
  have reversed := order y.magnitude x.magnitude
  have left := zero x.magnitude
  have right := zero y.magnitude
  rw [rank, rank, units, units, absoluteUnits, absoluteUnits]
  split <;> split <;> omega

end Single

namespace Arithmetic

open Single (unitsPerOne)

variable {x y : Single}

/-! ### Whole parts with bits -/

/-- Whether a whole number has 32 bits with a sign. -/
def HasBits (value : Int) : Prop := -2147483648 ≤ value ∧ value ≤ 2147483647

instance (value : Int) : Decidable (HasBits value) := inferInstanceAs (Decidable (_ ∧ _))

theorem atMost_of_finite (finite : x.isFinite = true) (finite' : y.isFinite = true) :
    x.atMost y = decide (x.units ≤ y.units) := by
  rw [Single.isFinite, decide_eq_true_eq] at finite finite'
  rw [Single.atMost, Single.isNaN_of_finite finite, Single.isNaN_of_finite finite']
  simp only [Bool.not_false, Bool.true_and, Single.rank_le_iff]

theorem isFinite_truncate (finite : x.isFinite = true) : x.truncate.isFinite = true :=
  decide_eq_true (Single.units_truncate (of_decide_eq_true finite)).1

theorem wholePart_truncate (finite : x.isFinite = true) : x.truncate.wholePart = x.wholePart :=
  Single.wholePart_eq (Single.units_truncate (of_decide_eq_true finite)).2

/-- **The whole parts that have bits for `bits`**: those up to the limit, which itself is taken for
the whole number below it. -/
theorem bits_truncate (finite : x.isFinite = true) :
    bits x.truncate =
      if -2147483648 ≤ x.wholePart ∧ x.wholePart ≤ 2147483648 then
        .ok (Int32.ofInt (min 2147483647 x.wholePart))
      else .error { kind := .overflow } := by
  have whole := isFinite_truncate finite
  have positive : (0 : Int) < unitsPerOne := by decide
  have units : x.truncate.units = x.wholePart * unitsPerOne :=
    (Single.units_truncate (of_decide_eq_true finite)).2
  have lower : bitsLimit.negate.units = -2147483648 * unitsPerOne := by decide +kernel
  have upper : bitsLimit.units = 2147483648 * unitsPerOne := by decide +kernel
  rw [bits, whole, atMost_of_finite (by decide) whole, atMost_of_finite whole (by decide), lower,
    upper, units]
  simp only [Int.mul_le_mul_right positive, Bool.true_and, Bool.and_eq_true, decide_eq_true_eq]
  split
  · rename_i inside
    have number : x.truncate.isNaN = false :=
      Single.isNaN_of_finite (of_decide_eq_true whole)
    have bounded : x.truncate.isInfinite = false :=
      Single.isInfinite_of_finite (of_decide_eq_true whole)
    rw [Single.toInt32, Single.clampToInt, number, bounded, wholePart_truncate finite]
    have least : max (-0x80000000) (min 0x7FFFFFFF x.wholePart) = min 2147483647 x.wholePart := by
      omega
    simp only [Bool.false_eq_true, if_false, least]
  · rfl

/-- Below the limit a whole part is taken as it is. -/
theorem bits_truncate_of_ne (finite : x.isFinite = true) (differs : x.wholePart ≠ 2147483648) :
    bits x.truncate =
      if HasBits x.wholePart then .ok (Int32.ofInt x.wholePart)
      else .error { kind := .overflow } := by
  rw [bits_truncate finite]
  by_cases fits : HasBits x.wholePart
  · rw [if_pos ⟨fits.1, by have := fits.2; omega⟩, if_pos fits, Int.min_eq_right fits.2]
  · rw [if_neg fits, if_neg]
    intro ⟨atLeast, atMost⟩
    exact fits ⟨atLeast, by omega⟩

theorem toInt_ofInt {value : Int} (fits : HasBits value) : (Int32.ofInt value).toInt = value :=
  Int32.toInt_ofInt_of_le fits.1 (Int.lt_add_one_of_le fits.2)

theorem ofInt_eq_iff {value : Int} (fits : HasBits value) (other : Int32) :
    Int32.ofInt value = other ↔ value = other.toInt := by
  rw [← Int32.toInt_inj, toInt_ofInt fits]

/-! ### Remainders -/

/-- The exact remainder of two whole parts, with the sign of the dividend: what is left when the
exact quotient, without its fraction, was taken away. -/
structure IsRemainder (rest dividend divisor : Single) : Prop where
  finite : rest.isFinite = true
  exact : rest.units = (dividend.wholePart -
    divisor.wholePart * dividend.wholePart.tdiv divisor.wholePart) * unitsPerOne
  below : rest.units.natAbs < divisor.wholePart.natAbs * unitsPerOne
  sign : rest.units = 0 ∨ rest.isNegative = dividend.isNegative

/-- The whole part of a finite number is the value of a magnitude. -/
theorem exists_units_natAbs (finite : x.isFinite = true) :
    ∃ magnitude < Single.infinityMagnitude,
      Single.unitsOf magnitude = x.wholePart.natAbs * unitsPerOne := by
  obtain ⟨magnitude, small, units⟩ := Single.exists_units_wholePart (of_decide_eq_true finite)
  refine ⟨magnitude, small, units.trans ?_⟩
  rw [Single.wholePart]
  split
  · rw [Int.natAbs_neg, Int.natAbs_natCast]
  · rw [Int.natAbs_natCast]

/-- A number whose whole part is negative is negative, and likewise for positive ones. -/
theorem isNegative_eq_of_wholePart (some : x.wholePart ≠ 0) :
    x.isNegative = decide (x.wholePart < 0) := by
  rw [Single.wholePart] at some ⊢
  generalize x.absoluteUnits / unitsPerOne = whole at some ⊢
  cases negative : x.isNegative
  · simp only [Bool.false_eq_true, if_false, false_eq_decide_iff]
    omega
  · simp only [negative, if_true] at some
    simp only [if_true, true_eq_decide_iff]
    omega

/-- **The remainder of whole parts becomes a number without rounding.** -/
theorem isRemainder_ofInt (finite : x.isFinite = true) (finite' : y.isFinite = true)
    (some : y.wholePart ≠ 0) :
    IsRemainder (Single.ofInt (x.wholePart.tmod y.wholePart)) x y := by
  obtain ⟨dividend, small, units⟩ := exists_units_natAbs finite
  obtain ⟨divisor, small', units'⟩ := exists_units_natAbs finite'
  have positive : 0 < unitsPerOne := by decide
  have divides : Single.unitsOf divisor ≠ 0 := by
    rw [units', Nat.mul_ne_zero_iff]
    exact ⟨Int.natAbs_ne_zero.mpr some, Nat.ne_of_gt positive⟩
  obtain ⟨rest, small'', same⟩ := Single.exists_unitsOf_mod small small' divides
  rw [units, units', Nat.mul_mod_mul_right, ← Int.natAbs_tmod] at same
  obtain ⟨bounded, exact, sign⟩ := Single.units_ofInt small'' same
  have below : (x.wholePart.tmod y.wholePart).natAbs < y.wholePart.natAbs := by
    rw [Int.natAbs_tmod]
    exact Nat.mod_lt _ (Nat.pos_of_ne_zero (Int.natAbs_ne_zero.mpr some))
  refine ⟨bounded, ?_, ?_, ?_⟩
  · rw [exact, Int.tmod_def]
  · rw [exact, Int.natAbs_mul, Int.natAbs_natCast]
    exact Nat.mul_lt_mul_of_pos_right below positive
  · by_cases none : x.wholePart.tmod y.wholePart = 0
    · exact .inl (by rw [exact, none, Int.zero_mul])
    refine .inr ?_
    have dividend : x.wholePart ≠ 0 := fun zero => none (by rw [zero, Int.zero_tmod])
    rw [sign, isNegative_eq_of_wholePart dividend]
    rcases Int.lt_or_gt_of_ne dividend with negative | positive'
    · have least := Int.tmod_nonneg y.wholePart (Int.neg_nonneg_of_nonpos (Int.le_of_lt negative))
      rw [Int.neg_tmod] at least
      simp only [negative, decide_true, decide_eq_true_eq]
      omega
    · have least := Int.tmod_nonneg y.wholePart (Int.le_of_lt positive')
      simp only [Int.not_lt.mpr (Int.le_of_lt positive'), Int.not_lt.mpr least]

/-! ### The operator -/

/-- **The operator on whole parts.** -/
theorem modulus_eq (finite : x.isFinite = true) (finite' : y.isFinite = true)
    (differs : x.wholePart ≠ 2147483648) (differs' : y.wholePart ≠ 2147483648) :
    modulus x y =
      if y.wholePart = 0 then failure .divisionByZero
      else if HasBits x.wholePart ∧ HasBits y.wholePart ∧
          ¬ (x.wholePart = -2147483648 ∧ y.wholePart = -1) then
        .ok (Single.ofInt (x.wholePart.tmod y.wholePart))
      else failure .overflow := by
  rw [modulus, bits_truncate_of_ne finite' differs', bits_truncate_of_ne finite differs]
  by_cases fits' : HasBits y.wholePart
  · have zero : Int32.ofInt y.wholePart = 0 ↔ y.wholePart = 0 := ofInt_eq_iff fits' 0
    have minusOne : Int32.ofInt y.wholePart = -1 ↔ y.wholePart = -1 := ofInt_eq_iff fits' (-1)
    rw [if_pos fits']
    change (if Int32.ofInt y.wholePart = 0 then _ else _) = _
    simp only [zero, fits', true_and]
    split
    · rfl
    by_cases fits : HasBits x.wholePart
    · have least : Int32.ofInt x.wholePart = Int32.minValue ↔ x.wholePart = -2147483648 :=
        ofInt_eq_iff fits Int32.minValue
      rw [if_pos fits]
      change (if (Int32.ofInt x.wholePart = Int32.minValue && Int32.ofInt y.wholePart = -1) = true
        then _ else _) = _
      simp only [Bool.and_eq_true, decide_eq_true_eq, least, minusOne, fits, true_and]
      by_cases overflows : x.wholePart = -2147483648 ∧ y.wholePart = -1
      · rw [if_pos overflows, if_neg (not_not_intro overflows)]
      · rw [if_neg overflows, if_pos overflows, toInt_ofInt fits, toInt_ofInt fits']
        rfl
    · have outside : ¬ (HasBits x.wholePart ∧
          ¬ (x.wholePart = -2147483648 ∧ y.wholePart = -1)) := fun all => fits all.1
      rw [if_neg fits, if_neg outside]
      rfl
  · have some : y.wholePart ≠ 0 := fun zero => fits' (zero ▸ by decide)
    have outside : ¬ (HasBits x.wholePart ∧ HasBits y.wholePart ∧
        ¬ (x.wholePart = -2147483648 ∧ y.wholePart = -1)) := fun all => fits' all.2.1
    rw [if_neg fits', if_neg some, if_neg outside]
    rfl

/-- **There is a division by zero exactly where the divisor has no whole part.** -/
theorem modulus_eq_divisionByZero_iff (x : Single) (finite : y.isFinite = true) :
    modulus x y = failure .divisionByZero ↔ y.wholePart = 0 := by
  rw [modulus, bits_truncate finite]
  split
  · rename_i inside
    have fits : HasBits (min 2147483647 y.wholePart) := by
      unfold HasBits
      omega
    have zero : Int32.ofInt (min 2147483647 y.wholePart) = 0 ↔ y.wholePart = 0 := by
      rw [ofInt_eq_iff fits, Int32.toInt_zero]
      omega
    change (if Int32.ofInt (min 2147483647 y.wholePart) = 0 then _ else _) = _ ↔ _
    simp only [zero]
    split
    · rename_i none
      exact iff_of_true rfl none
    · rename_i some
      refine iff_of_false (fun divides => ?_) some
      cases dividend : bits x.truncate with
      | error told =>
        rw [dividend] at divides
        have overflows : told = { kind := .overflow } := by
          rw [bits] at dividend
          split at dividend <;> cases dividend
          rfl
        rw [overflows] at divides
        cases divides
      | ok value =>
        rw [dividend] at divides
        change (if _ then _ else _) = _ at divides
        split at divides <;> cases divides
  · rename_i outside
    refine iff_of_false (fun divides => by cases divides) fun none => outside ?_
    rw [none]
    decide

/-- **The remainder is exact.** For all finite numbers there is a division by zero exactly where the
divisor has no whole part. With the limit of `bits` left out, any number that is returned is the
remainder of the whole parts, whole parts with bits have one, except for the quotient `2 ^ 31`, and
the others are an overflow. -/
theorem modulus_is_remainder (finite : x.isFinite = true) (finite' : y.isFinite = true) :
    (modulus x y = failure .divisionByZero ↔ y.wholePart = 0) ∧
      (x.wholePart ≠ 2147483648 → y.wholePart ≠ 2147483648 →
        (∀ rest, modulus x y = .ok rest → IsRemainder rest x y) ∧
        (y.wholePart ≠ 0 → HasBits x.wholePart → HasBits y.wholePart →
          ¬ (x.wholePart = -2147483648 ∧ y.wholePart = -1) → ∃ rest, modulus x y = .ok rest) ∧
        (y.wholePart ≠ 0 → ¬ (HasBits x.wholePart ∧ HasBits y.wholePart) →
          modulus x y = failure .overflow)) := by
  refine ⟨modulus_eq_divisionByZero_iff x finite', fun differs differs' => ?_⟩
  rw [modulus_eq finite finite' differs differs']
  refine ⟨fun rest returned => ?_, fun some fits fits' quotient => ?_, fun some outside => ?_⟩
  · split at returned
    · cases returned
    rename_i some
    split at returned
    · cases returned
      exact isRemainder_ofInt finite finite' some
    · cases returned
  · exact ⟨_, by rw [if_neg some, if_pos ⟨fits, fits', quotient⟩]⟩
  · rw [if_neg some, if_neg fun all => outside ⟨all.1, all.2.1⟩]

/-- What is left of `-7` by `3` is `-1`. -/
theorem modulus_is_remainder_seven : IsRemainder Single.minusOne ⟨0xC0E00000⟩ ⟨0x40400000⟩ :=
  ((modulus_is_remainder (by decide) (by decide)).2 (by decide +kernel) (by decide +kernel)).1
    Single.minusOne (by decide +kernel)

/-- The limit has no bits, and yet it has a remainder: by `10` this is `7`, that of `2147483647`. -/
theorem modulus_of_bitsLimit :
    ¬ HasBits bitsLimit.wholePart ∧
      modulus bitsLimit ⟨0x41200000⟩ = .ok ⟨0x40E00000⟩ ∧
      ¬ IsRemainder ⟨0x40E00000⟩ bitsLimit ⟨0x41200000⟩ :=
  ⟨by decide +kernel, by decide +kernel, fun remainder =>
    absurd remainder.exact (by decide +kernel)⟩

end Arithmetic

end PocketBasic
