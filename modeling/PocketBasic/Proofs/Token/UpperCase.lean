/-
**Upper case.** What is read of a text in upper case is what is read of the text, in upper case.

* `Bytes.inUpperCase`: a text with its letters in upper case; runs, blanks and digits are cut off at
  the same places (`takeWhile_inUpperCase`);
* `Single.ofText?_inUpperCase`: a number denotes the same, whatever the case of its exponent's mark;
* `Lexer.longestWord?_inUpperCase`: reserved words are recognised in any case;
* **`Lexer.readAfter_inUpperCase`**: so is every token, but for the letters of a literal.
-/

import Mathlib.Data.List.Basic
import Mathlib.Data.List.TakeWhile
import Mathlib.Tactic.Common
import PocketBasic.Proofs.Number.Decimal
import PocketBasic.Proofs.Text.Classes
import PocketBasic.Proofs.Token.Typed

namespace PocketBasic

/-! ### Upper case -/

theorem upper_upper (byte : UInt8) : upper (upper byte) = upper byte := by
  grind [upper]

theorem isLetter_upper (byte : UInt8) : isLetter (upper byte) = isLetter byte := by
  grind [upper, isLetter]

theorem isDigit_upper (byte : UInt8) : isDigit (upper byte) = isDigit byte := by
  grind [upper, isDigit]

theorem upper_of_not_isLetter (byte : UInt8) (unlettered : isLetter byte = false) :
    upper byte = byte := by
  grind [upper, isLetter]

theorem not_isLetter_of_isDigit (byte : UInt8) (digit : isDigit byte = true) :
    isLetter byte = false := by
  grind [isDigit, isLetter]

/-- A byte that is no letter is the upper case of itself alone. -/
theorem upper_eq_iff {byte other : UInt8} (unlettered : isLetter other = false) :
    upper byte = other ↔ byte = other := by
  constructor
  · rintro rfl
    rw [isLetter_upper] at unlettered
    exact (upper_of_not_isLetter byte unlettered).symm
  · rintro rfl
    exact upper_of_not_isLetter byte unlettered

/-- A text with all letters in upper case. -/
def Bytes.inUpperCase (text : Bytes) : Bytes := text.map upper

namespace Token

/-- A token with its literal in upper case. -/
def inUpperCase : Token → Token
  | .literal text => .literal text.inUpperCase
  | token => token

/-- Whether a token is a literal. -/
def isLiteral : Token → Bool
  | .literal _ => true
  | _ => false

theorem inUpperCase_of_not_isLiteral {token : Token} (unquoted : token.isLiteral = false) :
    token.inUpperCase = token := by
  cases token <;> first | rfl | cases unquoted

@[simp]
theorem isLiteral_inUpperCase (token : Token) : token.inUpperCase.isLiteral = token.isLiteral := by
  cases token <;> rfl

theorem isLiteral_ofByte (byte : UInt8) : (ofByte byte).isLiteral = false := by
  unfold ofByte
  repeat' split
  all_goals rfl

theorem isLiteral_of_mem_vocabulary {token : Token} (member : token ∈ vocabulary) :
    token.isLiteral = false := by
  revert token
  decide +kernel

end Token

namespace Bytes

variable {keep : UInt8 → Bool} {text : Bytes}

@[simp]
theorem inUpperCase_nil : inUpperCase [] = [] := rfl

@[simp]
theorem inUpperCase_cons (byte : UInt8) (text : Bytes) :
    inUpperCase (byte :: text) = upper byte :: text.inUpperCase := rfl

@[simp]
theorem inUpperCase_append (text more : Bytes) :
    inUpperCase (text ++ more) = text.inUpperCase ++ more.inUpperCase := List.map_append

@[simp]
theorem inUpperCase_inUpperCase (text : Bytes) :
    text.inUpperCase.inUpperCase = text.inUpperCase := by
  rw [inUpperCase, inUpperCase, List.map_map]
  exact List.map_congr_left fun byte _ => upper_upper byte

@[simp]
theorem length_inUpperCase (text : Bytes) : text.inUpperCase.length = text.length :=
  List.length_map ..

@[simp]
theorem drop_inUpperCase (count : Nat) (text : Bytes) :
    text.inUpperCase.drop count = inUpperCase (text.drop count) := List.map_drop.symm

@[simp]
theorem take_inUpperCase (count : Nat) (text : Bytes) :
    text.inUpperCase.take count = inUpperCase (text.take count) := List.map_take.symm

theorem takeWhile_inUpperCase (indifferent : ∀ byte, keep (upper byte) = keep byte)
    (text : Bytes) : text.inUpperCase.takeWhile keep = inUpperCase (text.takeWhile keep) := by
  rw [inUpperCase, List.takeWhile_map, inUpperCase]
  exact congrArg (fun keep => (text.takeWhile keep).map upper) (funext indifferent)

theorem dropWhile_inUpperCase (indifferent : ∀ byte, keep (upper byte) = keep byte)
    (text : Bytes) : text.inUpperCase.dropWhile keep = inUpperCase (text.dropWhile keep) := by
  rw [inUpperCase, List.dropWhile_map, inUpperCase]
  exact congrArg (fun keep => (text.dropWhile keep).map upper) (funext indifferent)

/-- A run is the same in two texts that differ in case, if they agree all along it. -/
theorem takeWhile_eq_of_agree (indifferent : ∀ byte, keep (upper byte) = keep byte)
    {text other : Bytes} (same : other.inUpperCase = text.inUpperCase)
    (agree : ∀ place < (text.takeWhile keep).length, other[place]? = text[place]?) :
    other.takeWhile keep = text.takeWhile keep := by
  induction text generalizing other with
  | nil => rw [List.map_eq_nil_iff.mp same]
  | cons byte rest ih =>
    rcases other with _ | ⟨otherByte, otherRest⟩
    · cases same
    obtain ⟨head, tail⟩ := List.cons.inj same
    have keptAlike : keep otherByte = keep byte := by rw [← indifferent, head, indifferent]
    cases kept : keep byte with
    | false =>
      rw [List.takeWhile_cons_of_neg (Bool.eq_false_iff.mp kept),
        List.takeWhile_cons_of_neg (Bool.eq_false_iff.mp (keptAlike.trans kept))]
    | true =>
      rw [List.takeWhile_cons_of_pos kept] at agree
      have first : otherByte = byte := Option.some.inj (agree 0 (Nat.succ_pos _))
      rw [List.takeWhile_cons_of_pos kept, List.takeWhile_cons_of_pos (keptAlike.trans kept), first,
        ih tail fun place inside => agree (place + 1) (Nat.succ_lt_succ inside)]

theorem head?_inUpperCase (indifferent : ∀ byte, keep (upper byte) = keep byte) (text : Bytes) :
    text.inUpperCase.head?.any keep = text.head?.any keep := by
  cases text with
  | nil => rfl
  | cons byte rest => exact indifferent byte

theorem all_inUpperCase (indifferent : ∀ byte, keep (upper byte) = keep byte) (text : Bytes) :
    text.inUpperCase.all keep = text.all keep := by
  rw [inUpperCase, List.all_map]
  exact congrArg (List.all text) (funext indifferent)

theorem inUpperCase_of_digits (digits : ∀ byte ∈ text, isDigit byte = true) :
    text.inUpperCase = text := by
  rw [inUpperCase]
  refine (List.map_congr_left fun byte member => ?_).trans (List.map_id _)
  exact upper_of_not_isLetter byte (not_isLetter_of_isDigit byte (digits byte member))

/-- A run of digits is in upper case. -/
theorem takeWhile_isDigit_inUpperCase (text : Bytes) :
    text.inUpperCase.takeWhile isDigit = text.takeWhile isDigit := by
  rw [takeWhile_inUpperCase isDigit_upper]
  exact inUpperCase_of_digits fun byte member => List.mem_takeWhile_imp member

end Bytes

/-! ### Numbers -/

namespace Single

open Bytes

theorem splitSign_cons (byte : UInt8) (rest : Bytes) : splitSign (byte :: rest) =
    if byte = 45 then (true, rest) else if byte = 43 then (false, rest)
      else (false, byte :: rest) := by
  unfold splitSign
  split_ifs with minus plus
  · rw [minus]
    rfl
  · rw [plus]
    rfl
  · split <;> simp_all

theorem splitSign_inUpperCase (text : Bytes) :
    splitSign text.inUpperCase = ((splitSign text).1, (splitSign text).2.inUpperCase) := by
  cases text with
  | nil => rfl
  | cons byte rest =>
    simp only [inUpperCase_cons, splitSign_cons, @upper_eq_iff _ 45 rfl,
      @upper_eq_iff _ 43 rfl]
    split_ifs <;> rfl

theorem exponent?_inUpperCase (text : Bytes) : exponent? text.inUpperCase = exponent? text := by
  cases text with
  | nil => rfl
  | cons mark rest =>
    simp only [inUpperCase_cons, exponent?, upper_upper, splitSign_inUpperCase,
      all_inUpperCase isDigit_upper]
    have empty : (splitSign rest).2.inUpperCase.isEmpty = (splitSign rest).2.isEmpty :=
      List.isEmpty_map ..
    rw [empty]
    by_cases digits : (!(splitSign rest).2.isEmpty && (splitSign rest).2.all isDigit) = true
    · have same : (splitSign rest).2.inUpperCase = (splitSign rest).2 :=
        inUpperCase_of_digits (List.all_eq_true.mp (Bool.and_eq_true_iff.mp digits).2)
      rw [same]
    · simp only [digits, Bool.false_eq_true, if_false]

/-- Digits with no point behind them. -/
theorem ofDigits?_of_head?_ne {text : Bytes} (negative : Bool)
    (unpointed : (text.dropWhile isDigit).head? ≠ some 46) : ofDigits? negative text =
      if (text.takeWhile isDigit).isEmpty then none
      else (exponent? (text.dropWhile isDigit)).map
        (ofDecimal negative (digitsValue 0 (text.takeWhile isDigit))) := by
  unfold ofDigits?
  simp only
  split
  · rename_i rest pointed
    rw [pointed] at unpointed
    exact absurd rfl unpointed
  · simp [digitsValue]

theorem ofDigits?_inUpperCase (negative : Bool) (text : Bytes) :
    ofDigits? negative text.inUpperCase = ofDigits? negative text := by
  have whole := takeWhile_isDigit_inUpperCase text
  have left := dropWhile_inUpperCase isDigit_upper text
  by_cases pointed : (text.dropWhile isDigit).head? = some 46
  · obtain ⟨rest, behind⟩ := List.head?_eq_some_iff.mp pointed
    rw [behind] at left
    simp only [ofDigits?, whole, left, behind, inUpperCase_cons, show upper 46 = 46 from rfl,
      takeWhile_isDigit_inUpperCase, dropWhile_inUpperCase isDigit_upper, exponent?_inUpperCase]
  · have unpointed : (text.inUpperCase.dropWhile isDigit).head? ≠ some 46 := by
      rw [left, inUpperCase, List.head?_map]
      intro begins
      obtain ⟨byte, first, point⟩ := Option.map_eq_some_iff.mp begins
      rw [(upper_eq_iff rfl).mp point] at first
      exact pointed first
    rw [ofDigits?_of_head?_ne negative pointed, ofDigits?_of_head?_ne negative unpointed, whole,
      left, exponent?_inUpperCase]

/-- **A number denotes the same in any case.** -/
theorem ofText?_inUpperCase (text : Bytes) : ofText? text.inUpperCase = ofText? text := by
  have same : (splitSign text).2.inUpperCase.map upper = (splitSign text).2.map upper :=
    inUpperCase_inUpperCase _
  simp only [ofText?, splitSign_inUpperCase, same, ofDigits?_inUpperCase]

end Single

/-! ### Tokens -/

namespace Lexer

open Bytes

theorem isBlank_upper (byte : UInt8) : isBlank (upper byte) = isBlank byte := by
  grind [upper, isBlank]

theorem isNameByte_upper (byte : UInt8) : isNameByte (upper byte) = isNameByte byte := by
  grind [upper, isNameByte, isLetter]

theorem upper_of_not_isNameByte (byte : UInt8) (unnamed : isNameByte byte = false) :
    upper byte = byte :=
  upper_of_not_isLetter byte (Bool.or_eq_false_iff.mp unnamed).1

theorem skipBlanks_inUpperCase (text : Bytes) :
    skipBlanks text.inUpperCase = (skipBlanks text).inUpperCase :=
  dropWhile_inUpperCase isBlank_upper text

theorem splitFraction_cons (byte : UInt8) (rest : Bytes) : splitFraction (byte :: rest) =
    if byte = 46 then (46 :: rest.takeWhile isDigit, rest.dropWhile isDigit)
    else ([], byte :: rest) := by
  unfold splitFraction
  split_ifs with point
  · rw [point]
    rfl
  · split <;> simp_all

theorem splitFraction_inUpperCase (text : Bytes) : splitFraction text.inUpperCase =
    ((splitFraction text).1.inUpperCase, (splitFraction text).2.inUpperCase) := by
  cases text with
  | nil => rfl
  | cons byte rest =>
    simp only [inUpperCase_cons, splitFraction_cons, @upper_eq_iff _ 46 rfl,
      takeWhile_inUpperCase isDigit_upper, dropWhile_inUpperCase isDigit_upper]
    split_ifs <;> rfl

/-- Whether a byte is the sign of an exponent. -/
def isSign (byte : UInt8) : Bool := byte = 43 || byte = 45

theorem isSign_upper (byte : UInt8) : isSign (upper byte) = isSign byte := by
  grind [upper, isSign]

/-- The sign of an exponent, if there is one. -/
def signOf (text : Bytes) : Bytes := if text.head?.any isSign then text.take 1 else []

theorem signOf_inUpperCase (text : Bytes) :
    signOf text.inUpperCase = (signOf text).inUpperCase := by
  rw [signOf, signOf, head?_inUpperCase isSign_upper, take_inUpperCase]
  split <;> rfl

/-- An exponent is its mark, its sign and its digits. -/
theorem splitExponent_cons (mark : UInt8) (rest : Bytes) : splitExponent (mark :: rest) =
    let digits := rest.drop (signOf rest).length
    if upper mark = 69 && digits.head?.any isDigit then
      (mark :: signOf rest ++ digits.takeWhile isDigit, digits.dropWhile isDigit)
    else ([], mark :: rest) := by
  rcases rest with _ | ⟨byte, rest⟩
  · rfl
  by_cases plus : byte = 43
  · rw [plus]
    rfl
  by_cases minus : byte = 45
  · rw [minus]
    rfl
  have unsigned : signOf (byte :: rest) = [] := by simp [signOf, isSign, plus, minus]
  unfold splitExponent
  simp only
  split
  · rename_i same
    exact absurd (List.cons.inj same).1 plus
  · rename_i same
    exact absurd (List.cons.inj same).1 minus
  · rw [unsigned]
    rfl

theorem splitExponent_inUpperCase (text : Bytes) : splitExponent text.inUpperCase =
    ((splitExponent text).1.inUpperCase, (splitExponent text).2.inUpperCase) := by
  cases text with
  | nil => rfl
  | cons mark rest =>
    rw [inUpperCase_cons, splitExponent_cons, splitExponent_cons]
    simp only [upper_upper, signOf_inUpperCase, length_inUpperCase, drop_inUpperCase,
      head?_inUpperCase isDigit_upper, takeWhile_inUpperCase isDigit_upper,
      dropWhile_inUpperCase isDigit_upper]
    split
    · simp only [inUpperCase_cons, inUpperCase_append, List.cons_append]
    · rfl

theorem splitNumber_inUpperCase (fractions : Bool) (text : Bytes) :
    splitNumber fractions text.inUpperCase =
      ((splitNumber fractions text).1.inUpperCase, (splitNumber fractions text).2.inUpperCase) := by
  simp only [splitNumber, takeWhile_inUpperCase isDigit_upper, dropWhile_inUpperCase isDigit_upper,
    splitFraction_inUpperCase, splitExponent_inUpperCase]
  split
  · simp only [inUpperCase_append]
  · rfl

theorem readNumber_inUpperCase (fractions : Bool) (text : Bytes) :
    readNumber fractions text.inUpperCase =
      ((readNumber fractions text).1, (readNumber fractions text).2.inUpperCase) := by
  simp only [readNumber, splitNumber_inUpperCase, Single.ofText?_inUpperCase]

theorem ne_quote_upper (byte : UInt8) : decide (upper byte ≠ 34) = decide (byte ≠ 34) := by
  rw [decide_eq_decide, ne_eq, upper_eq_iff rfl]

theorem readLiteral_inUpperCase (rest : Bytes) : readLiteral rest.inUpperCase =
    ((readLiteral rest).1.inUpperCase, (readLiteral rest).2.inUpperCase) := by
  rw [readLiteral, takeWhile_inUpperCase ne_quote_upper, dropWhile_inUpperCase ne_quote_upper,
    drop_inUpperCase]
  rfl

theorem readVariable_cons (name : Name) (byte : UInt8) (rest : Bytes) :
    readVariable name (byte :: rest) =
      if byte = 36 then (.string name, rest) else if byte = 40 then (.array name, 40 :: rest)
      else (.scalar name, byte :: rest) := by
  unfold readVariable
  split_ifs with string array
  · rw [string]
    rfl
  · rw [array]
    rfl
  · split <;> simp_all

theorem readVariable_inUpperCase (name : Name) (rest : Bytes) :
    readVariable name rest.inUpperCase =
      ((readVariable name rest).1, (readVariable name rest).2.inUpperCase) := by
  cases rest with
  | nil => rfl
  | cons byte rest =>
    simp only [inUpperCase_cons, readVariable_cons, @upper_eq_iff _ 36 rfl, @upper_eq_iff _ 40 rfl]
    split_ifs <;> rfl

theorem readComparison_of_skipped {first second : UInt8} {rest tail : Bytes}
    (skipped : skipBlanks rest = second :: tail) : readComparison first rest =
      if first = 61 ∧ second = 62 ∨ first = 62 ∧ second = 61 then (.operator .greaterEqual, tail)
      else if first = 61 ∧ second = 60 ∨ first = 60 ∧ second = 61 then (.operator .lessEqual, tail)
      else if first = 60 ∧ second = 62 then (.operator .notEqual, tail)
      else ((readComparison first []).1, second :: tail) := by
  unfold readComparison
  rw [skipped]
  split_ifs with greater less different
  · rcases greater with ⟨rfl, rfl⟩ | ⟨rfl, rfl⟩ <;> rfl
  · rcases less with ⟨rfl, rfl⟩ | ⟨rfl, rfl⟩ <;> rfl
  · obtain ⟨rfl, rfl⟩ := different
    rfl
  · simp only [skipBlanks, List.dropWhile_nil]
    split <;> simp_all

theorem readComparison_inUpperCase (first : UInt8) (rest : Bytes) :
    readComparison first rest.inUpperCase =
      ((readComparison first rest).1, (readComparison first rest).2.inUpperCase) := by
  have skippedAlike := skipBlanks_inUpperCase rest
  rcases skipped : skipBlanks rest with _ | ⟨second, tail⟩
  · rw [skipped] at skippedAlike
    simp only [readComparison, skipped, skippedAlike, inUpperCase_nil]
    split <;> simp_all
  · rw [skipped, inUpperCase_cons] at skippedAlike
    rw [readComparison_of_skipped skipped, readComparison_of_skipped skippedAlike]
    simp only [@upper_eq_iff second 60 rfl, @upper_eq_iff second 61 rfl,
      @upper_eq_iff second 62 rfl]
    split_ifs <;> rfl

theorem longestWord?_inUpperCase (run : Bytes) :
    longestWord? run.inUpperCase = longestWord? run := by
  have same : run.inUpperCase.map upper = run.map upper := inUpperCase_inUpperCase run
  rw [longestWord?, longestWord?, same]

theorem readLetters_inUpperCase (first : UInt8) (rest : Bytes) :
    readLetters (upper first) rest.inUpperCase =
      ((readLetters first rest).1, (readLetters first rest).2.inUpperCase) := by
  have named := takeWhile_inUpperCase isNameByte_upper rest
  unfold readLetters
  simp only [named, ← inUpperCase_cons, longestWord?_inUpperCase]
  split
  · rw [drop_inUpperCase]
  generalize rest.takeWhile isNameByte = named
  rcases named with _ | ⟨second, _ | ⟨third, more⟩⟩
  · rcases rest with _ | ⟨next, rest⟩
    · simp [upper_upper]
    · by_cases digit : isDigit next = true
      · have same := upper_of_not_isLetter next (not_isLetter_of_isDigit next digit)
        simp [upper_upper, digit, same, readVariable_inUpperCase]
      · have same := readVariable_inUpperCase ⟨upper first, 0⟩ (next :: rest)
        rw [inUpperCase_cons] at same
        simp [upper_upper, isDigit_upper, digit, same]
  · have same := readVariable_inUpperCase ⟨upper first, upper second⟩ (rest.drop 1)
    rw [← drop_inUpperCase] at same
    simp only [inUpperCase_cons, inUpperCase_nil, upper_upper, same]
  · simp [upper_upper]

theorem isLiteral_readComparison (first : UInt8) (rest : Bytes) :
    (readComparison first rest).1.isLiteral = false := by
  unfold readComparison
  simp only
  split <;> rfl

theorem isLiteral_readVariable (name : Name) (rest : Bytes) :
    (readVariable name rest).1.isLiteral = false := by
  unfold readVariable
  split <;> rfl

theorem isLiteral_readLetters (first : UInt8) (rest : Bytes) :
    (readLetters first rest).1.isLiteral = false := by
  unfold readLetters
  simp only
  split
  · obtain ⟨_, member, _⟩ := longestWord?_mem ‹_›
    exact Token.isLiteral_of_mem_vocabulary (mem_lettered member).1
  · split
    · split <;> exact isLiteral_readVariable _ _
    · exact isLiteral_readVariable _ _
    · rfl
    · rfl

/-- A literal begins with a quote. -/
theorem isLiteral_readAfter {fractions : Bool} {first : UInt8} {rest : Bytes}
    (unquoted : first ≠ 34) : (readAfter fractions first rest).1.isLiteral = false := by
  unfold readAfter
  split
  · rfl
  split
  · exact isLiteral_readComparison first rest
  split
  · exact isLiteral_readLetters first rest
  · exact Token.isLiteral_ofByte first

theorem readAfter_quote (fractions : Bool) (rest : Bytes) :
    readAfter fractions 34 rest = readLiteral rest := by
  have other : beginsNumber fractions 34 rest = false := by
    simp [beginsNumber, isDigit]
  rw [readAfter, other]
  rfl

theorem readAfter_name (fractions : Bool) {first : UInt8} (rest : Bytes)
    (named : isNameByte first = true) :
    readAfter fractions first rest = readLetters first rest := by
  obtain ⟨digit, point, quote, equal, less, greater⟩ : isDigit first = false ∧ first ≠ 46 ∧
      first ≠ 34 ∧ first ≠ 61 ∧ first ≠ 60 ∧ first ≠ 62 := by
    grind [isNameByte, isLetter, isDigit]
  simp [readAfter, beginsNumber, digit, point, quote, equal, less, greater, named]

/-- **A token is read the same in any case**, and so is the text behind it. -/
theorem readAfter_inUpperCase (fractions : Bool) (first : UInt8) (rest : Bytes) :
    readAfter fractions (upper first) rest.inUpperCase =
      ((readAfter fractions first rest).1.inUpperCase,
        (readAfter fractions first rest).2.inUpperCase) := by
  by_cases quote : first = 34
  · rw [quote, show upper 34 = 34 from rfl, readAfter_quote, readAfter_quote,
      readLiteral_inUpperCase]
  rw [Token.inUpperCase_of_not_isLiteral (isLiteral_readAfter quote)]
  cases named : isNameByte first with
  | true =>
    rw [readAfter_name fractions rest named,
      readAfter_name fractions _ ((isNameByte_upper first).trans named), readLetters_inUpperCase]
  | false =>
    have same := upper_of_not_isNameByte first named
    have number := readNumber_inUpperCase fractions (first :: rest)
    rw [inUpperCase_cons, same] at number
    simp only [same, readAfter, beginsNumber, head?_inUpperCase isDigit_upper, number, quote,
      readComparison_inUpperCase, named, Bool.false_eq_true, if_false]
    split_ifs <;> rfl

end Lexer

end PocketBasic
