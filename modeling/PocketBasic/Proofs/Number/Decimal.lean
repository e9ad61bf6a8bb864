/-
**Decimals and their values.** The digits of a number, and the number that digits with an exponent
denote.

* `digitsValue_eq`, `digitsValue_lt`: the value of a run of digits;
* `digitsWithin_spec`, `pow_le_of_digitsWithin`: the decimal digits of a number;
* **`Single.ofDecimal_eq`**: every decimal is its exact quotient of units, rounded once.
-/

import Mathlib.Tactic.Common
import Mathlib.Tactic.Linarith
import Mathlib.Tactic.Ring
import PocketBasic.Number.Decimal
import PocketBasic.Proofs.Number.Rounding

namespace PocketBasic

/-! ### Digits -/

namespace Single

theorem digitsValue_append (value : Nat) (digits more : Bytes) :
    digitsValue value (digits ++ more) = digitsValue (digitsValue value digits) more := by
  unfold digitsValue
  exact List.foldl_append

/-- The digits in front count by their place. -/
theorem digitsValue_eq (value : Nat) (digits : Bytes) :
    digitsValue value digits = value * 10 ^ digits.length + digitsValue 0 digits := by
  induction digits generalizing value with
  | nil => simp [digitsValue]
  | cons digit rest ih =>
    have one (total : Nat) : digitsValue total (digit :: rest) =
        digitsValue (total * 10 + (digit.toNat - 48)) rest := rfl
    rw [one, one, ih, ih (0 * 10 + _), List.length_cons, Nat.pow_succ]
    ring

theorem digitsValue_lt {digits : Bytes} (all : ∀ digit ∈ digits, isDigit digit = true) :
    digitsValue 0 digits < 10 ^ digits.length := by
  induction digits with
  | nil => simp [digitsValue]
  | cons digit rest ih =>
    have small : digit.toNat - 48 ≤ 9 := by
      have digital := all digit List.mem_cons_self
      simp only [isDigit, Bool.and_eq_true, decide_eq_true_eq] at digital
      have := UInt8.le_iff_toNat_le.mp digital.2
      simp at this
      omega
    have shorter := ih fun byte member => all byte (List.mem_cons_of_mem _ member)
    have one : digitsValue 0 (digit :: rest) = digitsValue (digit.toNat - 48) rest := by
      simp [digitsValue]
    rw [one, digitsValue_eq, List.length_cons, Nat.pow_succ]
    nlinarith

theorem digitsValue_zeros (value count : Nat) :
    digitsValue value (List.replicate count 48) = value * 10 ^ count := by
  induction count generalizing value with
  | zero => simp [digitsValue]
  | succ count ih =>
    rw [List.replicate_succ, show digitsValue value (48 :: List.replicate count 48) =
      digitsValue (value * 10) (List.replicate count 48) from rfl, ih, Nat.pow_succ]
    ring

end Single

/-! ### Decimal digits of a number -/

theorem toNat_digit {value : Nat} (small : value < 10) :
    (48 + value.toUInt8).toNat = 48 + value := by
  rw [UInt8.toNat_add, show (48 : UInt8).toNat = 48 from rfl, Nat.toUInt8_eq, UInt8.toNat_ofNat']
  omega

theorem isDigit_digit {value : Nat} (small : value < 10) :
    isDigit (48 + value.toUInt8) = true := by
  simp only [isDigit, Bool.and_eq_true, decide_eq_true_eq, UInt8.le_iff_toNat_le,
    toNat_digit small]
  simp
  omega

/-- The digits of a number with room for all of them: each is a digit, and together they are the
number. -/
theorem digitsWithin_spec {places value : Nat} (room : value < 2 ^ places) (some : 0 < places) :
    (∀ digit ∈ digitsWithin places value, isDigit digit = true) ∧
      Single.digitsValue 0 (digitsWithin places value) = value ∧
      digitsWithin places value ≠ [] := by
  induction places generalizing value with
  | zero => omega
  | succ places ih =>
    unfold digitsWithin
    split
    · rename_i small
      refine ⟨by simpa using isDigit_digit small, ?_, by simp⟩
      simp [Single.digitsValue, toNat_digit small, -UInt8.toNat_add]
    · have shorter : value / 10 < 2 ^ places := by
        rw [Nat.pow_succ] at room
        omega
      obtain ⟨all, same, -⟩ := ih shorter (by
        by_contra none
        rw [show places = 0 by omega] at shorter
        omega)
      have last := toNat_digit (Nat.mod_lt value (show 10 > 0 by omega))
      refine ⟨?_, ?_, by simp⟩
      · intro digit member
        rcases List.mem_append.mp member with front | back
        · exact all digit front
        · rw [List.mem_singleton.mp back]
          exact isDigit_digit (Nat.mod_lt value (by omega))
      · rw [Single.digitsValue_append, same]
        simp only [Single.digitsValue, List.foldl_cons, List.foldl_nil, last]
        omega

theorem isDigit_decimal {value : Nat} {digit : UInt8} (member : digit ∈ decimal value) :
    isDigit digit = true :=
  (digitsWithin_spec Nat.lt_log2_self (by omega)).1 digit member

@[simp]
theorem digitsValue_decimal (value : Nat) : Single.digitsValue 0 (decimal value) = value :=
  (digitsWithin_spec Nat.lt_log2_self (by omega)).2.1

theorem decimal_ne_nil (value : Nat) : decimal value ≠ [] :=
  (digitsWithin_spec Nat.lt_log2_self (by omega)).2.2

/-- There are no leading zeros. -/
theorem pow_le_of_digitsWithin (places : Nat) {value : Nat} (positive : 0 < value) :
    10 ^ ((digitsWithin places value).length - 1) ≤ value := by
  induction places generalizing value with
  | zero => exact positive
  | succ places ih =>
    unfold digitsWithin
    split
    · exact positive
    · have shorter := @ih (value / 10) (by omega)
      rw [List.length_append, List.length_singleton, Nat.add_sub_cancel]
      rcases Nat.eq_zero_or_pos (digitsWithin places (value / 10)).length with none | some
      · rw [none]
        exact positive
      · obtain ⟨fewer, length⟩ := Nat.exists_eq_add_one_of_ne_zero (Nat.ne_of_gt some)
        rw [length, Nat.add_sub_cancel] at shorter
        rw [length, Nat.pow_succ]
        omega

/-- The digits in front of a positive number have a value too. -/
theorem digitsValue_take_decimal {value count : Nat} (positive : 0 < value) (some : 0 < count) :
    0 < Single.digitsValue 0 ((decimal value).take count) := by
  by_contra none
  have zero : Single.digitsValue 0 ((decimal value).take count) = 0 := by omega
  have split := digitsValue_decimal value
  rw [← List.take_append_drop count (decimal value), Single.digitsValue_append, zero] at split
  have short := @Single.digitsValue_lt ((decimal value).drop count) fun digit member =>
    isDigit_decimal (List.mem_of_mem_drop member)
  have long := pow_le_of_digitsWithin (value.log2 + 1) positive
  have shorter := Nat.pow_le_pow_right (show 0 < 10 by omega)
    (show ((decimal value).drop count).length ≤ (decimal value).length - 1 by
      rw [List.length_drop]
      omega)
  unfold decimal at *
  omega

/-! ### Decimals -/

namespace Single

theorem magnitude_ofMagnitude {magnitude : Nat} (atMost : magnitude ≤ infinityMagnitude) :
    (ofMagnitude false magnitude).magnitude = magnitude := by
  unfold infinityMagnitude exponentUnit at atMost
  simp only [ofMagnitude, Single.magnitude, signUnit, UInt32.toNat_ofNat', Bool.false_eq_true,
    if_false]
  omega

/-- A number without a sign is its magnitude. -/
theorem ofMagnitude_magnitude {x : Single} (positive : x.isNegative = false) :
    ofMagnitude false x.magnitude = x := by
  obtain ⟨bits⟩ := x
  have below : ¬ signUnit ≤ bits.toNat := of_decide_eq_false positive
  unfold signUnit at below
  simp only [ofMagnitude, Single.magnitude, signUnit, Bool.false_eq_true, if_false]
  congr 1
  apply UInt32.toNat_inj.mp
  rw [UInt32.toNat_ofNat']
  omega

theorem nearestMagnitude_le (numerator denominator : Nat) :
    nearestMagnitude numerator denominator ≤ infinityMagnitude :=
  Nat.min_le_right _ _

theorem magnitude_ofQuotient (numerator denominator : Nat) :
    (ofQuotient false numerator denominator).magnitude = nearestMagnitude numerator denominator :=
  magnitude_ofMagnitude (nearestMagnitude_le _ _)

theorem nearestMagnitude_zero {numerator denominator : Nat} (positive : 0 < denominator)
    (tiny : 2 * numerator ≤ denominator) : nearestMagnitude numerator denominator = 0 := by
  apply nearestMagnitude_eq positive (by decide)
  · rw [show significandOf 0 = 0 from rfl]
    omega
  · rw [show significandOf 0 = 0 from rfl, show shiftOf 0 = 0 from rfl]
    omega
  · rw [show significandOf 0 = 0 from rfl]
    omega

theorem nearestMagnitude_infinity {numerator : Nat} (huge : 2 ^ 350 ≤ numerator) :
    nearestMagnitude numerator 1 = infinityMagnitude := by
  have places : 350 ≤ (numerator / 1).log2 :=
    (le_log2_div (by omega) (by omega)).mpr (by omega)
  apply Nat.min_eq_right
  have shifted : 327 * exponentUnit ≤ ((numerator / 1).log2 - 23) * exponentUnit :=
    Nat.mul_le_mul_right _ (by omega)
  unfold infinityMagnitude
  omega

/-- **A decimal is rounded once**: the bounds on the exponent only save computing. -/
theorem ofDecimal_eq (digits : Nat) (exponent : Int) :
    ofDecimal false digits exponent =
      ofQuotient false (digits * 10 ^ exponent.toNat * unitsPerOne) (10 ^ (-exponent).toNat) := by
  unfold ofDecimal
  simp only [Nat.pow_eq]
  split
  · rename_i zero
    rw [zero, ofQuotient, nearestMagnitude_zero (by positivity) (by simp)]
  rename_i some
  split
  · rename_i huge
    rw [show (-exponent).toNat = 0 by omega, Nat.pow_zero, ofQuotient, infinity,
      nearestMagnitude_infinity]
    have power : 10 ^ 61 ≤ 10 ^ exponent.toNat := Nat.pow_le_pow_right (by omega) (by omega)
    calc 2 ^ 350 = 2 ^ 201 * unitsPerOne := by
          rw [show unitsPerOne = 2 ^ 149 from rfl, ← Nat.pow_add]
      _ ≤ 1 * 10 ^ 61 * unitsPerOne := Nat.mul_le_mul_right _ (by decide)
      _ ≤ digits * 10 ^ exponent.toNat * unitsPerOne := by gcongr; omega
  split
  · rename_i tiny
    rw [show exponent.toNat = 0 by omega, Nat.pow_zero, Nat.mul_one, ofQuotient,
      nearestMagnitude_zero (by positivity)]
    have log := Nat.lt_log2_self (n := digits)
    calc 2 * (digits * unitsPerOne) ≤ 2 * (2 ^ (digits.log2 + 1) * unitsPerOne) := by gcongr
      _ = 2 ^ digits.log2 * 2 ^ 151 := by
        rw [show unitsPerOne = 2 ^ 149 from rfl]
        ring
      _ ≤ 10 ^ digits.log2 * 10 ^ 61 :=
        Nat.mul_le_mul (Nat.pow_le_pow_left (by omega) _) (by decide)
      _ = 10 ^ (digits.log2 + 61) := by rw [Nat.pow_add]
      _ ≤ 10 ^ (-exponent).toNat := Nat.pow_le_pow_right (by omega) (by omega)
  split
  · rw [show (-exponent).toNat = 0 by omega, Nat.pow_zero]
  · rw [show exponent.toNat = 0 by omega, Nat.pow_zero, Nat.mul_one]

/-- A decimal is positive, and no NaN. -/
theorem isNegative_ofDecimal (digits : Nat) (exponent : Int) :
    (ofDecimal false digits exponent).isNegative = false ∧
      (ofDecimal false digits exponent).isNaN = false := by
  have atMost := nearestMagnitude_le (digits * 10 ^ exponent.toNat * unitsPerOne)
    (10 ^ (-exponent).toNat)
  rw [ofDecimal_eq]
  constructor
  · simp only [ofQuotient, isNegative, ofMagnitude, signUnit, UInt32.toNat_ofNat',
      decide_eq_false_iff_not, Bool.false_eq_true, if_false]
    omega
  · rw [isNaN, magnitude_ofQuotient]
    simpa using atMost

end Single

end PocketBasic
