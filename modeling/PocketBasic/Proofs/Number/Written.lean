/-
**How a number is written.** The written form of a number is a numeral that reads as the number.

* **`Numeral.exists_writes`**: every finite number without a sign is written as a numeral that reads
  as it.
-/

import Mathlib.Data.List.Basic
import Mathlib.Tactic.Common
import PocketBasic.Number.Notation
import PocketBasic.Proofs.Number.Numeral

namespace PocketBasic

open Single (digitsValue ofDecimal)

/-! ### Whole numbers -/

namespace Single

/-- A whole number of units that fits is that number. -/
theorem ofDecimal_wholePart {x : Single} (whole : x.isWhole = true)
    (positive : x.isNegative = false) :
    ofDecimal false (x.absoluteUnits / unitsPerOne) 0 = x := by
  simp only [isWhole, Bool.and_eq_true, decide_eq_true_eq] at whole
  have units := nearestMagnitude_unitsOf (of_decide_eq_true whole.1) (show 0 < 1 by omega)
  rw [Nat.mul_one] at units
  rw [ofDecimal_eq, Int.toNat_zero, Int.neg_zero, Int.toNat_zero, Nat.pow_zero, Nat.mul_one,
    Nat.div_mul_cancel (Nat.dvd_of_mod_eq_zero whole.2), ofQuotient, absoluteUnits, units,
    ofMagnitude_magnitude positive]

theorem eq_zero {x : Single} (positive : x.isNegative = false) (none : x.absoluteUnits = 0) :
    x = ⟨0⟩ := by
  have parts := shiftOf_significandOf x.magnitude
  have least : significandOf x.magnitude = 0 := by
    rcases Nat.mul_eq_zero.mp none with zero | power
    · exact zero
    · exact absurd power (Nat.ne_of_gt (Nat.two_pow_pos _))
  have unshifted : shiftOf x.magnitude = 0 := by
    by_contra some
    have := le_significandOf (Nat.pos_of_ne_zero some)
    rw [least] at this
    exact absurd this (by decide)
  rw [least, unshifted] at parts
  rw [← ofMagnitude_magnitude positive, ← parts]
  rfl

/-- How a finite number without a sign is written. -/
theorem text_eq {x : Single} (positive : x.isNegative = false) (notNaN : x.isNaN = false)
    (notInfinite : x.isInfinite = false) (absolute : x.absolute = x) :
    x.text = if x.isWhole && x.less exponentFrom then signedDecimal x.wholePart
      else if exponentFrom.atMost x || x.less exponentBelow then
        scientific x.shortest.1 x.shortest.2
      else positional x.shortest.1 x.shortest.2 := by
  unfold text
  -- the search must not be run
  generalize x.shortest = found
  obtain ⟨digits, exponent⟩ := found
  simp only [positive, notNaN, notInfinite, absolute, Bool.false_eq_true, if_false, List.nil_append]

end Single

/-! ### The written form -/

namespace Numeral

/-- Whether a numeral is the written form of a number: nothing is left out and no digit is without
need. -/
structure Writes (numeral : Numeral) (x : Single) : Prop where
  valid : numeral.IsValid
  text : numeral.text = x.text
  value : numeral.value = x
  leading : ∃ digit rest, numeral.whole = digit :: rest ∧ (digit = 48 → rest = [])
  fraction : numeral.fraction ≠ some []

/-- A positive number does not begin with a zero. -/
theorem exists_decimal {value : Nat} (positive : 0 < value) :
    ∃ digit rest, decimal value = digit :: rest ∧ digit ≠ 48 := by
  obtain ⟨digit, rest, same⟩ := List.exists_cons_of_ne_nil (decimal_ne_nil value)
  refine ⟨digit, rest, same, fun zero => ?_⟩
  have leading := @digitsValue_take_decimal _ 1 positive (by omega)
  rw [same, zero] at leading
  exact absurd leading (Nat.lt_irrefl 0)

/-- A whole number is written in digits. -/
theorem writes_whole {x : Single} (positive : x.isNegative = false) (whole : x.isWhole = true)
    (text : x.text = decimal (x.absoluteUnits / Single.unitsPerOne)) :
    Writes ⟨decimal (x.absoluteUnits / Single.unitsPerOne), none, none⟩ x where
  valid :=
    { whole := fun _ => isDigit_decimal
      fraction := fun _ member => absurd member List.not_mem_nil
      digits := .inl (decimal_ne_nil _)
      power := fun _ _ none => by cases none }
  text := by simp [Numeral.text, powerText, text]
  value := by simp [Numeral.value, exponent, Single.ofDecimal_wholePart whole positive]
  leading := by
    rcases Nat.eq_zero_or_pos (x.absoluteUnits / Single.unitsPerOne) with zero | some
    · rw [zero]
      exact ⟨48, [], by decide, fun _ => rfl⟩
    · obtain ⟨digit, rest, same, nonzero⟩ := exists_decimal some
      exact ⟨digit, rest, same, fun zero => absurd zero nonzero⟩
  fraction := by simp

/-- The exponent as digits with a sign. -/
theorem powerText_signedDecimal (power : Int) :
    powerText (some (decide (power < 0), decimal power.natAbs)) = 69 :: signedDecimal power := by
  unfold signedDecimal
  by_cases negative : power < 0
  · rw [if_pos negative, decide_eq_true negative]
    rfl
  · rw [if_neg negative, decide_eq_false negative]
    rfl

theorem exponent_signedDecimal (power : Int) :
    exponent (some (decide (power < 0), decimal power.natAbs)) = power := by
  by_cases negative : power < 0
  · rw [decide_eq_true negative]
    simp only [exponent, digitsValue_decimal]
    omega
  · rw [decide_eq_false negative]
    simp only [exponent, digitsValue_decimal]
    omega

/-- The digits behind the point, where there are any. -/
theorem exists_fraction (digit : UInt8) (rest power : Bytes) :
    ∃ fraction : Option Bytes, fraction.getD [] = rest ∧ fraction ≠ some [] ∧
      (match digit :: rest with
        | [] => []
        | [digit] => digit :: 69 :: power
        | digit :: rest => digit :: 46 :: rest ++ 69 :: power) =
        [digit] ++ fraction.elim [] (46 :: ·) ++ 69 :: power := by
  cases rest with
  | nil => exact ⟨none, rfl, by simp, rfl⟩
  | cons next rest => exact ⟨some (next :: rest), rfl, by simp, rfl⟩

/-- A large or a small number is written with an exponent. -/
theorem exists_writes_scientific {x : Single} (finite : x.isFinite = true)
    (positive : x.isNegative = false) (nonzero : 0 < x.absoluteUnits)
    (text : x.text = Single.scientific x.shortest.1 x.shortest.2) :
    ∃ numeral : Numeral, numeral.Writes x := by
  obtain ⟨digit, rest, digits, -⟩ :=
    exists_decimal (Single.shortest_positive finite positive nonzero)
  have known := digitsValue_decimal x.shortest.1
  have same := Single.ofDecimal_shortest finite positive
  have all : ∀ byte ∈ digit :: rest, isDigit byte = true := by
    rw [← digits]
    exact fun _ => isDigit_decimal
  have length : (decimal x.shortest.1).length - 1 = rest.length := by
    rw [digits, List.length_cons, Nat.add_sub_cancel]
  rw [digits] at known
  generalize powerEq : x.shortest.2 + ((decimal x.shortest.1).length - 1 : Nat) = power at *
  obtain ⟨fraction, getD, some, written⟩ := exists_fraction digit rest (signedDecimal power)
  have scientific : x.text = [digit] ++ fraction.elim [] (46 :: ·) ++
      69 :: signedDecimal power := by
    rw [text, Single.scientific, powerEq, digits]
    exact written
  refine ⟨⟨[digit], fraction, (decide (power < 0), decimal power.natAbs)⟩, ?_, ?_, ?_,
    ⟨digit, [], rfl, fun _ => rfl⟩, some⟩
  · refine ⟨fun byte member => all byte ?_, fun byte member => all byte ?_, .inl (by simp), ?_⟩
    · rw [List.mem_singleton.mp member]
      exact List.mem_cons_self
    · rw [getD] at member
      exact List.mem_cons_of_mem _ member
    · rintro negative digits ⟨⟩
      exact ⟨decimal_ne_nil _, fun _ => isDigit_decimal⟩
  · rw [scientific, Numeral.text, powerText_signedDecimal]
  · rw [Numeral.value, exponent_signedDecimal, getD, List.singleton_append, known,
      ← length, ← powerEq, Int.add_sub_cancel, same]

/-- Other numbers are written with the point in its place. -/
theorem exists_writes_positional {x : Single} {digits : Nat} {exponent : Int}
    (same : ofDecimal false digits exponent = x) (some : 0 < digits)
    (text : x.text = Single.positional digits exponent) :
    ∃ numeral : Numeral, numeral.Writes x := by
  have known := digitsValue_decimal digits
  obtain ⟨digit, rest, begins, leading⟩ := exists_decimal some
  have all : ∀ byte ∈ decimal digits, isDigit byte = true := fun _ => isDigit_decimal
  have zero (count : Nat) : ∀ byte ∈ List.replicate count (48 : UInt8), isDigit byte = true := by
    intro byte member
    rw [List.eq_of_mem_replicate member]
    decide
  have noPower : ∀ negative digits, (none : Option (Bool × Bytes)) = .some (negative, digits) →
      digits ≠ [] ∧ ∀ digit ∈ digits, isDigit digit = true := by
    intro _ _ none
    cases none
  unfold Single.positional at text
  simp only at text
  split at text
  · rename_i whole
    refine ⟨⟨decimal digits ++ List.replicate exponent.toNat 48, none, none⟩,
      ⟨fun byte member => ?_, by simp, .inl ?_, noPower⟩, ?_, ?_,
      ⟨digit, rest ++ List.replicate exponent.toNat 48, by rw [begins]; rfl,
        fun zero => absurd zero leading⟩, by simp⟩
    · exact (List.mem_append.mp member).elim (all byte) (zero _ byte)
    · simp [decimal_ne_nil]
    · simp [Numeral.text, powerText, text]
    · refine Eq.trans ?_ same
      simp only [Numeral.value, Numeral.exponent, Option.getD_none, List.append_nil,
        Single.digitsValue_append, known, Single.digitsValue_zeros, List.length_nil]
      rw [show (0 : Int) - (0 : Nat) = 0 from rfl, Single.ofDecimal_zeros,
        Int.toNat_of_nonneg whole]
  rename_i below
  generalize placesEq : (-exponent).toNat = places at *
  have exponentEq : exponent = 0 - (places : Int) := by omega
  split at text
  · rename_i inside
    have left : 0 < (decimal digits).length - places := by omega
    refine ⟨⟨(decimal digits).take ((decimal digits).length - places),
      .some ((decimal digits).drop ((decimal digits).length - places)), none⟩,
      ⟨fun byte member => all byte (List.mem_of_mem_take member),
        fun byte member => all byte (List.mem_of_mem_drop member), .inl ?_, noPower⟩, ?_, ?_,
      ⟨digit, rest.take ((decimal digits).length - places - 1), ?_,
        fun zero => absurd zero leading⟩, ?_⟩
    · rw [ne_eq, List.take_eq_nil_iff]
      have := decimal_ne_nil digits
      simp only [this, or_false]
      omega
    · simp [Numeral.text, powerText, text]
    · refine Eq.trans ?_ same
      simp only [Numeral.value, Numeral.exponent, Option.getD_some, List.take_append_drop, known,
        List.length_drop, exponentEq]
      rw [show (decimal digits).length - ((decimal digits).length - places) = places by omega]
    · obtain ⟨fewer, some⟩ := Nat.exists_eq_add_one_of_ne_zero (Nat.ne_of_gt left)
      rw [some, begins, List.take_succ_cons, Nat.add_sub_cancel]
    · simp only [ne_eq, Option.some.injEq, List.drop_eq_nil_iff, not_le]
      omega
  · rename_i outside
    refine ⟨⟨[48], .some (List.replicate (places - (decimal digits).length) 48 ++
      decimal digits), none⟩, ⟨?_, fun byte member => ?_, .inl (by simp), noPower⟩, ?_, ?_,
      ⟨48, [], rfl, fun _ => rfl⟩, ?_⟩
    · intro byte member
      rw [List.mem_singleton.mp member]
      decide
    · exact (List.mem_append.mp member).elim (zero _ byte) (all byte)
    · simp [Numeral.text, powerText, text]
    · refine Eq.trans ?_ same
      simp only [Numeral.value, Numeral.exponent, Option.getD_some, Single.digitsValue_append,
        Single.digitsValue_zeros, List.length_append, List.length_replicate, exponentEq]
      rw [show digitsValue 0 [48] = 0 from rfl, Nat.zero_mul, known,
        show places - (decimal digits).length + (decimal digits).length = places by omega]
    · simp [decimal_ne_nil]

/-- **Every finite number without a sign is written as a numeral that reads as it.** -/
theorem exists_writes {x : Single} (finite : x.isFinite = true) (positive : x.isNegative = false) :
    ∃ numeral : Numeral, numeral.Writes x := by
  have below := of_decide_eq_true finite
  have notNaN : x.isNaN = false := by
    simp only [Single.isNaN, decide_eq_false_iff_not]
    omega
  have notInfinite : x.isInfinite = false := by
    simp only [Single.isInfinite, decide_eq_false_iff_not]
    omega
  have absolute : x.absolute = x := Single.ofMagnitude_magnitude positive
  have nonzero (other : ¬ (x.isWhole && x.less Single.exponentFrom) = true) :
      0 < x.absoluteUnits := by
    by_contra none
    rw [Single.eq_zero positive (by omega)] at other
    exact other (by decide)
  have text := Single.text_eq positive notNaN notInfinite absolute
  by_cases whole : (x.isWhole && x.less Single.exponentFrom) = true
  · rw [if_pos whole] at text
    have natural : signedDecimal x.wholePart = decimal (x.absoluteUnits / Single.unitsPerOne) := by
      have part : x.wholePart = (x.absoluteUnits / Single.unitsPerOne : Nat) := by
        rw [Single.wholePart, positive]
        rfl
      rw [part, signedDecimal, if_neg (Int.not_lt.mpr (Int.natCast_nonneg _)), Int.natAbs_natCast]
    rw [natural] at text
    exact ⟨_, writes_whole positive (Bool.and_eq_true_iff.mp whole).1 text⟩
  · rw [if_neg whole] at text
    by_cases outside : (Single.exponentFrom.atMost x || x.less Single.exponentBelow) = true
    · rw [if_pos outside] at text
      exact exists_writes_scientific finite positive (nonzero whole) text
    · rw [if_neg outside] at text
      exact exists_writes_positional (Single.ofDecimal_shortest finite positive)
        (Single.shortest_positive finite positive (nonzero whole)) text

end Numeral

end PocketBasic
