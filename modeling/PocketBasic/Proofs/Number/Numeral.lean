/-
**Numerals**: numbers as they can be typed, with a point and an exponent or without.

* `Numeral`: the digits in each place, with the text (`Numeral.text`) and the number
  (`Numeral.value`) that they make;
* **`Numeral.IsValid.ofText?_text`**: a numeral reads as the number that it denotes.
-/

import Mathlib.Tactic.Common
import PocketBasic.Number.Notation
import PocketBasic.Proofs.Number.Shortest
import PocketBasic.Proofs.Text.Classes

namespace PocketBasic

/-! ### Numerals -/

/-- A number as it can be typed: the digits before the point, those behind it if there is a point,
and sign and digits of the exponent if there is one. -/
structure Numeral where
  whole : Bytes
  fraction : Option Bytes
  power : Option (Bool × Bytes)

namespace Numeral

/-- The exponent as it is written. -/
def powerText : Option (Bool × Bytes) → Bytes
  | none => []
  | some (true, digits) => 69 :: 45 :: digits
  | some (false, digits) => 69 :: digits

def text (numeral : Numeral) : Bytes :=
  numeral.whole ++ numeral.fraction.elim [] (46 :: ·) ++ powerText numeral.power

/-- The exponent. -/
def exponent : Option (Bool × Bytes) → Int
  | none => 0
  | some (true, digits) => -Single.digitsValue 0 digits
  | some (false, digits) => Single.digitsValue 0 digits

/-- The number that a numeral denotes. -/
def value (numeral : Numeral) : Single :=
  Single.ofDecimal false (Single.digitsValue 0 (numeral.whole ++ numeral.fraction.getD []))
    (exponent numeral.power - (numeral.fraction.getD []).length)

/-- Whether a numeral has digits in the places for digits, and as many as it needs. -/
structure IsValid (numeral : Numeral) : Prop where
  whole : ∀ digit ∈ numeral.whole, isDigit digit = true
  fraction : ∀ digit ∈ numeral.fraction.getD [], isDigit digit = true
  digits : numeral.whole ≠ [] ∨ numeral.fraction.getD [] ≠ []
  power : ∀ negative digits, numeral.power = some (negative, digits) →
    digits ≠ [] ∧ ∀ digit ∈ digits, isDigit digit = true

/-- A numeral begins with a digit, or with a point and a digit. -/
theorem IsValid.text_eq {numeral : Numeral} (valid : numeral.IsValid) :
    ∃ first rest, numeral.text = first :: rest ∧
      (isDigit first = true ∨ first = 46 ∧ rest.head?.any isDigit = true) := by
  obtain ⟨whole, fraction, power⟩ := numeral
  cases whole with
  | cons digit rest => exact ⟨digit, _, rfl, .inl (valid.whole digit List.mem_cons_self)⟩
  | nil =>
    have digits := valid.digits
    have all := valid.fraction
    rcases fraction with _ | _ | ⟨digit, rest⟩
    · simp at digits
    · simp at digits
    · exact ⟨46, _, rfl, .inr ⟨rfl, by simpa using all digit (by simp)⟩⟩

theorem splitSign_of_digit {digit : UInt8} (digital : digit ≠ 45 ∧ digit ≠ 43) (rest : Bytes) :
    Single.splitSign (digit :: rest) = (false, digit :: rest) := by
  unfold Single.splitSign
  split
  · rename_i same
    cases same
    exact absurd rfl digital.1
  · rename_i same
    cases same
    exact absurd rfl digital.2
  · rfl

/-- The bytes that a numeral may begin with begin nothing else. -/
theorem of_begins : ∀ byte, isDigit byte = true ∨ byte = 46 →
    (byte ≠ 45 ∧ byte ≠ 43) ∧ upper byte ≠ 73 ∧ upper byte ≠ 78 := by
  decide +kernel

/-- The exponent of a text that ends with one. -/
theorem exponent?_powerText {power : Option (Bool × Bytes)}
    (valid : ∀ negative digits, power = some (negative, digits) →
      digits ≠ [] ∧ ∀ digit ∈ digits, isDigit digit = true) :
    Single.exponent? (powerText power) = some (exponent power) := by
  rcases power with _ | ⟨negative, digits⟩
  · rfl
  · obtain ⟨nonempty, all⟩ := valid negative digits rfl
    have digital : digits.all isDigit = true := List.all_eq_true.mpr all
    obtain ⟨digit, rest, rfl⟩ := List.exists_cons_of_ne_nil nonempty
    have unsigned := splitSign_of_digit (of_begins digit (.inl (all digit List.mem_cons_self))).1
        rest
    cases negative with
    | true =>
      simp only [powerText, Single.exponent?, Single.splitSign, digital, exponent]
      rfl
    | false =>
      simp only [powerText, Single.exponent?, unsigned, digital, exponent]
      rfl

theorem head?_powerText (power : Option (Bool × Bytes)) :
    (powerText power).head?.any isDigit = false := by
  rcases power with _ | ⟨_ | _, digits⟩ <;> rfl

theorem powerText_eq (power : Option (Bool × Bytes)) :
    powerText power = [] ∨ ∃ rest, powerText power = 69 :: rest := by
  rcases power with _ | ⟨_ | _, digits⟩
  · exact .inl rfl
  · exact .inr ⟨_, rfl⟩
  · exact .inr ⟨_, rfl⟩

/-- What stands behind the whole part of a numeral. -/
def tail (numeral : Numeral) : Bytes :=
  numeral.fraction.elim [] (46 :: ·) ++ powerText numeral.power

theorem text_eq_tail (numeral : Numeral) : numeral.text = numeral.whole ++ numeral.tail := by
  rw [text, tail, List.append_assoc]

theorem head?_tail (numeral : Numeral) : numeral.tail.head?.any isDigit = false := by
  obtain ⟨whole, _ | fraction, power⟩ := numeral
  · exact head?_powerText power
  · rfl

/-- What begins with a digit or a point is read without a sign, and is no name. -/
theorem ofText?_of_begins {first : UInt8} {rest : Bytes}
    (begins : isDigit first = true ∨ first = 46) :
    Single.ofText? (first :: rest) = Single.ofDigits? false (first :: rest) := by
  obtain ⟨unsigned, notI, notN⟩ := of_begins first begins
  unfold Single.ofText?
  rw [splitSign_of_digit unsigned]
  simp only [List.map_cons]
  rw [if_neg, if_neg]
  · intro same
    exact notN (List.cons.inj same).1
  · simp only [Bool.or_eq_true, decide_eq_true_eq]
    rintro (same | same)
    · exact notI (List.cons.inj same).1
    · exact notI (List.cons.inj same).1

/-- **A numeral reads as the number that it denotes.** -/
theorem IsValid.ofText?_text {numeral : Numeral} (valid : numeral.IsValid) :
    Single.ofText? numeral.text = some numeral.value := by
  obtain ⟨first, rest, text, begins⟩ := valid.text_eq
  have digits : Single.ofDigits? false numeral.text = some numeral.value := by
    unfold Single.ofDigits?
    rw [text_eq_tail, takeWhile_run valid.whole numeral.head?_tail,
      dropWhile_run valid.whole numeral.head?_tail]
    have powered := exponent?_powerText valid.power
    obtain ⟨whole, _ | fraction, power⟩ := numeral
    · have behind : (Numeral.mk whole none power).tail = powerText power := rfl
      have nonempty : whole.isEmpty = false := by simpa using valid.digits
      rw [behind]
      have same : Single.digitsValue (Single.digitsValue 0 whole) [] =
          Single.digitsValue 0 (whole ++ []) := by rw [List.append_nil]; rfl
      rcases powerText_eq power with none | ⟨rest, mark⟩
      · simp only [none] at powered ⊢
        simp [nonempty, powered, same, value]
      · simp only [mark] at powered ⊢
        simp [nonempty, powered, same, value]
    · have behind : (Numeral.mk whole (some fraction) power).tail =
          46 :: (fraction ++ powerText power) := rfl
      have all : ∀ digit ∈ fraction, isDigit digit = true := valid.fraction
      have nonempty : (whole.isEmpty && fraction.isEmpty) = false := by
        simpa [← not_and_or] using valid.digits
      simp only [behind, takeWhile_run all (head?_powerText power),
        dropWhile_run all (head?_powerText power), nonempty, powered]
      simp [value, Single.digitsValue_append]
  rw [text, ofText?_of_begins (begins.imp_right And.left), ← text, digits]

end Numeral

end PocketBasic
