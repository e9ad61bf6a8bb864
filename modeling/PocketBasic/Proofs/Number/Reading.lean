/-
**Numbers in a line.** The written form of a number is read as one token, unless what stands behind
it goes on with it.

* `Lexer.EndsNumber`: a text that goes on with no number in front of it;
* `Lexer.splitNumber_text`: a numeral is cut off where it ends;
* **`Lexer.readNumber_text`**: a number that is written is read back.
-/

import Mathlib.Tactic.Common
import PocketBasic.Proofs.Number.Written
import PocketBasic.Token.Lexer

namespace PocketBasic

namespace Lexer

/-- Whether a text goes on with no number in front of it. -/
structure EndsNumber (fractions : Bool) (tail : Bytes) : Prop where
  digit : tail.head?.any isDigit = false
  point : fractions = true → tail.head? ≠ some 46
  exponent : fractions = true → splitExponent tail = ([], tail)

variable {tail : Bytes}

/-- The exponent of a numeral is cut off where it ends. -/
theorem splitExponent_powerText {power : Option (Bool × Bytes)}
    (valid : ∀ negative digits, power = some (negative, digits) →
      digits ≠ [] ∧ ∀ digit ∈ digits, isDigit digit = true)
    (ends : EndsNumber true tail) :
    splitExponent (Numeral.powerText power ++ tail) = (Numeral.powerText power, tail) := by
  rcases power with _ | ⟨negative, digits⟩
  · exact ends.exponent rfl
  · obtain ⟨nonempty, all⟩ := valid negative digits rfl
    obtain ⟨digit, rest, rfl⟩ := List.exists_cons_of_ne_nil nonempty
    have first := all digit List.mem_cons_self
    have unsigned := (Numeral.of_begins digit (.inl first)).1
    have taken := takeWhile_run all ends.digit
    have left := dropWhile_run all ends.digit
    rw [List.cons_append] at taken left
    cases negative with
    | true =>
      simp only [Numeral.powerText, splitExponent, List.cons_append, List.head?_cons,
        Option.any_some, first, taken, left]
      rfl
    | false =>
      simp only [Numeral.powerText, splitExponent, List.cons_append]
      -- the first digit is no sign
      split
      · rename_i same
        cases same
        exact absurd rfl unsigned.2
      · rename_i same
        cases same
        exact absurd rfl unsigned.1
      · simp only [List.head?_cons, Option.any_some, first, taken, left]
        rfl

/-- **A numeral is cut off where it ends.** -/
theorem splitNumber_text {numeral : Numeral} (valid : numeral.IsValid)
    (ends : EndsNumber true tail) :
    splitNumber true (numeral.text ++ tail) = (numeral.text, tail) := by
  have power := splitExponent_powerText valid.power ends
  obtain ⟨whole, fraction, exponent⟩ := numeral
  have stops : ((Numeral.mk whole fraction exponent).tail ++ tail).head?.any isDigit = false := by
    cases behind : (Numeral.mk whole fraction exponent).tail with
    | nil => exact ends.digit
    | cons first rest => simpa [behind] using (Numeral.mk whole fraction exponent).head?_tail
  rw [Numeral.text_eq_tail, List.append_assoc, splitNumber, takeWhile_run valid.whole stops,
    dropWhile_run valid.whole stops]
  cases fraction with
  | none =>
    have unpointed : splitFraction (Numeral.powerText exponent ++ tail) =
        ([], Numeral.powerText exponent ++ tail) := by
      rcases Numeral.powerText_eq exponent with none | ⟨rest, mark⟩
      · have point := ends.point rfl
        rw [none, List.nil_append]
        unfold splitFraction
        split
        · exact absurd rfl point
        · rfl
      · rw [mark]
        rfl
    simp only [Numeral.tail, Option.elim_none, List.nil_append, unpointed, power, if_true,
      List.append_nil]
  | some digits =>
    have stops : (Numeral.powerText exponent ++ tail).head?.any isDigit = false := by
      rcases Numeral.powerText_eq exponent with none | ⟨rest, mark⟩
      · rw [none]
        exact ends.digit
      · rw [mark]
        rfl
    have all : ∀ digit ∈ digits, isDigit digit = true := valid.fraction
    simp only [Numeral.tail, Option.elim_some, List.cons_append, List.append_assoc, splitFraction,
      takeWhile_run all stops, dropWhile_run all stops, power, if_true]

/-- Whether the written form of a number is made of what a machine reads numbers from. -/
def IsWritten (fractions : Bool) (number : Single) : Prop :=
  number.isFinite = true ∧ (fractions = false → ∀ byte ∈ number.text, isDigit byte = true)

/-- **A number that is written is read back.** -/
theorem readNumber_text {fractions : Bool} {number : Single} (positive : number.isNegative = false)
    (written : IsWritten fractions number) (ends : EndsNumber fractions tail) :
    readNumber fractions (number.text ++ tail) = (.number number, tail) := by
  obtain ⟨numeral, writes⟩ := Numeral.exists_writes written.1 positive
  have value : Single.ofText? number.text = some number := by
    rw [← writes.text, writes.valid.ofText?_text, writes.value]
  have split : splitNumber fractions (number.text ++ tail) = (number.text, tail) := by
    cases fractions with
    | true =>
      rw [← writes.text]
      exact splitNumber_text writes.valid ends
    | false =>
      have all := written.2 rfl
      simp only [splitNumber, takeWhile_run all ends.digit, dropWhile_run all ends.digit]
      rfl
  rw [readNumber, split]
  simp [value]

/-- The written form of a number begins with a digit. -/
theorem exists_text {number : Single} (positive : number.isNegative = false)
    (finite : number.isFinite = true) :
    ∃ digit rest, number.text = digit :: rest ∧ isDigit digit = true := by
  obtain ⟨numeral, writes⟩ := Numeral.exists_writes finite positive
  obtain ⟨digit, rest, whole, _⟩ := writes.leading
  refine ⟨digit, rest ++ numeral.tail, ?_, writes.valid.whole digit (by simp [whole])⟩
  rw [← writes.text, Numeral.text_eq_tail, whole, List.cons_append]

end Lexer

end PocketBasic
