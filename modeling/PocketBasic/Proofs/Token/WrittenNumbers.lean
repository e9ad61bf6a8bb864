/-
**Numbers that were written.** A line that holds the written form of a number and nothing else has
that number as its only token.

* `Single.positive_or_zero`: a number that is not below zero has no sign, or is the zero with a
  sign;
* `Numeral.IsValid.isLineEnd_text`: no byte of a numeral ends a line;
* `TypedLine.readings_number`: a line that is a number has one token;
* **`TypedLine.written_number_reads_back`**: the token is the number that was written.
-/

import Mathlib.Data.List.DropRight
import Mathlib.Tactic.Common
import PocketBasic.Proofs.Number.Reading
import PocketBasic.Proofs.Number.WholeParts
import PocketBasic.Proofs.Token.Readings

namespace PocketBasic

open TypedLine (isLineEnd)

/-! ### Numbers that are not below zero -/

namespace Single

/-- A number that is not below zero has no sign, or it is the zero with a sign. -/
theorem positive_or_zero {number : Single} (finite : number.isFinite = true)
    (unsigned : number.less zero = false) :
    number.isNegative = false ∨ number = ⟨0x80000000⟩ := by
  cases negative : number.isNegative with
  | false => exact .inl rfl
  | true =>
    rw [less, isNaN_of_finite (of_decide_eq_true finite), show zero.isNaN = false from rfl,
      show zero.rank = 0 from rfl, rank, negative] at unsigned
    have least : ¬ -(number.magnitude : Int) < 0 := by simpa using unsigned
    have none : number.bits.toNat % signUnit = 0 := by
      rw [magnitude] at least
      omega
    have signed : signUnit ≤ number.bits.toNat := of_decide_eq_true negative
    have bits : number.bits.toNat = signUnit := by
      have below := number.bits.toNat_lt
      unfold signUnit at none signed ⊢
      omega
    exact .inr (congrArg mk (UInt32.toNat_inj.mp bits))

/-- Such a number is written like its absolute value. -/
theorem text_absolute {number : Single} (finite : number.isFinite = true)
    (unsigned : number.less zero = false) : number.absolute.text = number.text := by
  rcases positive_or_zero finite unsigned with positive | rfl
  · exact congrArg text (ofMagnitude_magnitude positive)
  · decide +kernel

/-- Such a number equals its absolute value. -/
theorem absolute_equals {number : Single} (finite : number.isFinite = true)
    (unsigned : number.less zero = false) : number.absolute.equals number = true := by
  rcases positive_or_zero finite unsigned with positive | rfl
  · have same : number.absolute = number := ofMagnitude_magnitude positive
    rw [same, equals, isNaN_of_finite (of_decide_eq_true finite)]
    exact decide_eq_true rfl
  · rfl

end Single

/-! ### Numerals in a line -/

theorem not_isLineEnd_of_isDigit (byte : UInt8) (digit : isDigit byte = true) :
    isLineEnd byte = false := by
  grind [isDigit, isLineEnd]

theorem not_isBlank_of_isDigit (byte : UInt8) (digit : isDigit byte = true) :
    Lexer.isBlank byte = false := by
  grind [isDigit, Lexer.isBlank]

/-- No byte of an exponent ends a line. -/
theorem Numeral.isLineEnd_powerText {power : Option (Bool × Bytes)}
    (valid : ∀ negative digits, power = some (negative, digits) →
      digits ≠ [] ∧ ∀ digit ∈ digits, isDigit digit = true) :
    ∀ byte ∈ powerText power, isLineEnd byte = false := by
  intro byte member
  rcases power with _ | ⟨negative, digits⟩
  · cases member
  have all := (valid negative digits rfl).2
  cases negative with
  | true =>
    rcases List.mem_cons.mp member with rfl | member
    · rfl
    rcases List.mem_cons.mp member with rfl | member
    · rfl
    · exact not_isLineEnd_of_isDigit byte (all byte member)
  | false =>
    rcases List.mem_cons.mp member with rfl | member
    · rfl
    · exact not_isLineEnd_of_isDigit byte (all byte member)

/-- No byte of a numeral ends a line. -/
theorem Numeral.IsValid.isLineEnd_text {numeral : Numeral} (valid : numeral.IsValid) :
    ∀ byte ∈ numeral.text, isLineEnd byte = false := by
  obtain ⟨whole, fraction, power⟩ := numeral
  intro byte member
  rcases List.mem_append.mp member with front | back
  · rcases List.mem_append.mp front with digit | point
    · exact not_isLineEnd_of_isDigit byte (valid.whole byte digit)
    · cases fraction with
      | none => cases point
      | some digits =>
        rcases List.mem_cons.mp point with rfl | digit
        · rfl
        · exact not_isLineEnd_of_isDigit byte (valid.fraction byte digit)
  · exact isLineEnd_powerText valid.power byte back

namespace TypedLine

theorem text_ofText_of_plain {text : Bytes} {fractions : Bool}
    (plain : ∀ byte ∈ text, isLineEnd byte = false) : (ofText text fractions).text = text :=
  List.rdropWhile_eq_self_iff.mpr fun nonempty =>
    Bool.eq_false_iff.mp (plain _ (List.getLast_mem nonempty))

/-- A line that is a number has one token, which ends with the line. -/
theorem readings_number {line : TypedLine} {number : Single} {first : UInt8} {rest : Bytes}
    (start : line.position = 0) (plain : line.verbatim = false)
    (text : line.text = first :: rest) (digit : isDigit first = true)
    (reads : Lexer.readNumber line.fractions line.text = (.number number, [])) :
    line.readings = [(.number number, line.text.length)] := by
  have here : line.rest = first :: rest := by rw [TypedLine.rest, start, text, List.drop_zero]
  have skipped : Lexer.skipBlanks line.rest = first :: rest := by
    rw [here, Lexer.skipBlanks, List.dropWhile_cons_of_neg
      (Bool.eq_false_iff.mp (not_isBlank_of_isDigit first digit))]
  have begins : Lexer.beginsNumber line.fractions first rest = true := by
    rw [Lexer.beginsNumber, digit, Bool.true_or]
  have token : Lexer.readAfter line.fractions first rest = (.number number, []) := by
    rw [Lexer.readAfter, if_pos begins, ← text, reads]
  have next := next_of_plain plain skipped
  have behind := rest_next_of_plain plain skipped
  rw [token] at next behind
  have ends : line.next.2.next.1 = .endOfText := by
    refine next_nil_of_plain (by rw [next]; rfl) ?_
    rw [behind]
    rfl
  rw [readings_of_token (by rw [next]; exact Token.noConfusion), readings_of_end ends, next]
  rfl

/-- The written form of a number without a sign is read as that number. -/
theorem readings_text {number : Single} (finite : number.isFinite = true)
    (positive : number.isNegative = false) :
    (ofText number.text true).readings = [(.number number, number.text.length)] := by
  obtain ⟨digit, rest, text, digital⟩ := Lexer.exists_text positive finite
  obtain ⟨numeral, writes⟩ := Numeral.exists_writes finite positive
  have line : (ofText number.text true).text = number.text :=
    text_ofText_of_plain (writes.text ▸ writes.valid.isLineEnd_text)
  have written : Lexer.IsWritten true number := ⟨finite, fun whole => absurd whole (by decide)⟩
  have ends : Lexer.EndsNumber true [] := ⟨rfl, fun _ => nofun, fun _ => rfl⟩
  have reads := Lexer.readNumber_text positive written ends
  rw [List.append_nil, ← line] at reads
  rw [readings_number rfl rfl (line.trans text) digital reads, line]

/-- **What was written reads back**: the written form of a finite number that is not below zero has
one token, a number equal to it. -/
theorem written_number_reads_back {number : Single} (finite : number.isFinite = true)
    (unsigned : number.less .zero = false) :
    (ofText number.text true).readings = [(.number number.absolute, number.text.length)] ∧
      number.absolute.equals number = true := by
  have finiteToo : number.absolute.isFinite = true := by
    have same : number.absolute.magnitude = number.magnitude :=
      Single.magnitude_signed false (Nat.le_of_lt (of_decide_eq_true finite))
    rw [Single.isFinite, same]
    exact finite
  refine ⟨?_, Single.absolute_equals finite unsigned⟩
  rw [← Single.text_absolute finite unsigned]
  exact readings_text finiteToo (Single.isNegative_ofMagnitude _)

/-- The least number above zero. -/
theorem written_number_reads_back_least :
    (⟨1⟩ : Single).text = ascii "1E-45" ∧
      (ofText (⟨1⟩ : Single).text true).readings =
        [(.number (⟨1⟩ : Single).absolute, (⟨1⟩ : Single).text.length)] ∧
      (⟨1⟩ : Single).absolute.equals ⟨1⟩ = true :=
  ⟨by decide +kernel, written_number_reads_back (by decide +kernel) (by decide +kernel)⟩

end TypedLine

end PocketBasic
