/-
**Splitting a typed line into tokens**, one at a time, the way a stored program is read.

* `Lexer.read`: the next token of a text and the text after it; no token is empty
  (`readAfter_length`);
* `Lexer.tokens`: all tokens of a text; after `REM` every byte is a token of its own;
* `TypedLine`: a typed line with a position, which moves token by token (`TypedLine.next`).

Blanks separate nothing: they are skipped wherever a token may begin, and between the two
characters of a comparison. Without fractions a number is a run of digits only.
-/

import PocketBasic.Number.Decimal
import PocketBasic.Token.Vocabulary

namespace PocketBasic

namespace Lexer

def isBlank (byte : UInt8) : Bool := byte = 32 || byte = 9

/-- The bytes that names and reserved words are made of. -/
def isNameByte (byte : UInt8) : Bool := isLetter byte || byte = 64

def skipBlanks (text : Bytes) : Bytes := text.dropWhile isBlank

/-! ### Numbers -/

/-- The point and the digits after it, if the text goes on with a point. -/
def splitFraction : Bytes → Bytes × Bytes
  | 46 :: rest => (46 :: rest.takeWhile isDigit, rest.dropWhile isDigit)
  | text => ([], text)

/-- The exponent, if the text goes on with one that has digits. -/
def splitExponent : Bytes → Bytes × Bytes
  | [] => ([], [])
  | mark :: rest =>
    let (sign, digits) : Bytes × Bytes := match rest with
      | 43 :: tail => ([43], tail)
      | 45 :: tail => ([45], tail)
      | tail => ([], tail)
    if upper mark = 69 && (digits.head?.any isDigit) then
      (mark :: sign ++ digits.takeWhile isDigit, digits.dropWhile isDigit)
    else ([], mark :: rest)

/-- The text of the number in front of a text, and the rest. -/
def splitNumber (fractions : Bool) (text : Bytes) : Bytes × Bytes :=
  let whole := text.takeWhile isDigit
  let afterWhole := text.dropWhile isDigit
  if fractions then
    let (fraction, afterFraction) := splitFraction afterWhole
    let (exponent, rest) := splitExponent afterFraction
    (whole ++ fraction ++ exponent, rest)
  else (whole, afterWhole)

/-- The number in front of a text. -/
def readNumber (fractions : Bool) (text : Bytes) : Token × Bytes :=
  let (spelling, rest) := splitNumber fractions text
  (.number ((Single.ofText? spelling).getD Single.zero), rest)

/-- Whether a number begins with this byte: a digit, or a point with a digit after it. -/
def beginsNumber (fractions : Bool) (first : UInt8) (rest : Bytes) : Bool :=
  isDigit first || (fractions && first = 46 && rest.head?.any isDigit)

/-! ### Literals, comparisons, words and names -/

/-- The literal after its opening quote. The closing quote may be missing. -/
def readLiteral (rest : Bytes) : Token × Bytes :=
  (.literal (rest.takeWhile (· ≠ 34)), (rest.dropWhile (· ≠ 34)).drop 1)

/-- The comparison that begins with `first`; the second character may stand after blanks, and the
two may come in either order. -/
def readComparison (first : UInt8) (rest : Bytes) : Token × Bytes :=
  let rest := skipBlanks rest
  match first, rest with
  | 61, 62 :: tail | 62, 61 :: tail => (.operator .greaterEqual, tail)
  | 61, 60 :: tail | 60, 61 :: tail => (.operator .lessEqual, tail)
  | 60, 62 :: tail => (.operator .notEqual, tail)
  | 61, _ => (.operator .equal, rest)
  | 60, _ => (.operator .less, rest)
  | _, _ => (.operator .greater, rest)

/-- The variable that a name begins, told from the byte after it. -/
def readVariable (name : Name) : Bytes → Token × Bytes
  | 36 :: rest => (.string name, rest)
  | 40 :: rest => (.array name, 40 :: rest)
  | rest => (.scalar name, rest)

/-- The word or name that begins with `first`. A reserved word is recognised in front of any run of
letters. A run of one or two letters that begins with none is a name; of a longer run the first
letter stands alone. -/
def readLetters (first : UInt8) (rest : Bytes) : Token × Bytes :=
  let run := first :: rest.takeWhile isNameByte
  match longestWord? run with
  | some (length, word) => (word, rest.drop (length - 1))
  | none =>
    match run, rest with
    | [_], digit :: tail =>
      if isDigit digit then readVariable ⟨upper first, digit⟩ tail
      else readVariable ⟨upper first, 0⟩ rest
    | [_, second], _ => readVariable ⟨upper first, upper second⟩ (rest.drop 1)
    | [_], [] => (.scalar ⟨upper first, 0⟩, [])
    | _, _ => (.symbol (upper first), rest)

/-! ### Tokens -/

/-- The token that begins with `first`, which is not blank. -/
def readAfter (fractions : Bool) (first : UInt8) (rest : Bytes) : Token × Bytes :=
  if beginsNumber fractions first rest then readNumber fractions (first :: rest)
  else if first = 34 then readLiteral rest
  else if first = 61 || first = 60 || first = 62 then readComparison first rest
  else if isNameByte first then readLetters first rest
  else (Token.ofByte first, rest)

/-- The next token of a text, and the text after it. -/
def read (fractions : Bool) (text : Bytes) : Token × Bytes :=
  match skipBlanks text with
  | [] => (.endOfText, [])
  | first :: rest => readAfter fractions first rest

theorem dropWhile_length_le (keep : UInt8 → Bool) (text : Bytes) :
    (text.dropWhile keep).length ≤ text.length :=
  (List.dropWhile_sublist keep).length_le

theorem splitFraction_length (text : Bytes) : (splitFraction text).2.length ≤ text.length := by
  unfold splitFraction
  split
  · exact Nat.le_succ_of_le (dropWhile_length_le _ _)
  · exact Nat.le_refl _

theorem splitExponent_length (text : Bytes) : (splitExponent text).2.length ≤ text.length := by
  unfold splitExponent
  split
  · exact Nat.le_refl _
  · rename_i mark rest
    split
    rename_i sign digits cut
    have digitsLe : digits.length ≤ rest.length := by
      split at cut <;> cases cut <;> simp
    split
    · exact Nat.le_succ_of_le (Nat.le_trans (dropWhile_length_le _ _) digitsLe)
    · exact Nat.le_refl _

/-- A number that begins is not empty. -/
theorem splitNumber_length (fractions : Bool) (first : UInt8) (rest : Bytes)
    (begins : beginsNumber fractions first rest = true) :
    (splitNumber fractions (first :: rest)).2.length ≤ rest.length := by
  have afterPoint := fun text =>
    Nat.le_trans (splitExponent_length (splitFraction text).2) (splitFraction_length text)
  by_cases digit : isDigit first = true
  · have shorter := dropWhile_length_le isDigit rest
    cases fractions with
    | false => simpa [splitNumber, digit] using shorter
    | true =>
      simpa [splitNumber, digit] using
        Nat.le_trans (afterPoint (rest.dropWhile isDigit)) shorter
  · simp only [beginsNumber, digit, Bool.false_or, Bool.and_eq_true, decide_eq_true_eq] at begins
    obtain ⟨⟨allowed, point⟩, _⟩ := begins
    subst allowed point
    have fraction : (splitFraction (46 :: rest)).2 = rest.dropWhile isDigit := rfl
    have shorter := Nat.le_trans (splitExponent_length (rest.dropWhile isDigit))
      (dropWhile_length_le isDigit rest)
    simpa [splitNumber, isDigit, fraction] using shorter

theorem readComparison_length (first : UInt8) (rest : Bytes) :
    (readComparison first rest).2.length ≤ rest.length := by
  have skipped := dropWhile_length_le isBlank rest
  unfold readComparison
  simp only [skipBlanks] at *
  split <;> simp_all <;> omega

theorem readVariable_length (name : Name) (rest : Bytes) :
    (readVariable name rest).2.length ≤ rest.length := by
  unfold readVariable
  split <;> simp

theorem readLetters_length (first : UInt8) (rest : Bytes) :
    (readLetters first rest).2.length ≤ rest.length := by
  unfold readLetters
  simp only
  split
  · simp
  · split
    · split
      · exact Nat.le_trans (readVariable_length _ _) (Nat.le_succ _)
      · exact readVariable_length _ _
    · exact Nat.le_trans (readVariable_length _ _) (by simp)
    · simp
    · simp

/-- A token is not empty. -/
theorem readAfter_length (fractions : Bool) (first : UInt8) (rest : Bytes) :
    (readAfter fractions first rest).2.length ≤ rest.length := by
  unfold readAfter
  split
  · exact splitNumber_length _ _ _ ‹_›
  · split
    · simpa [readLiteral] using Nat.le_trans (Nat.sub_le _ 1) (dropWhile_length_le (· ≠ 34) rest)
    · split
      · exact readComparison_length _ _
      · split
        · exact readLetters_length _ _
        · exact Nat.le_refl _

/-- All tokens of a text. -/
def tokens (fractions : Bool) (text : Bytes) : List Token :=
  match _skipped : skipBlanks text with
  | [] => []
  | first :: rest =>
    let token := (readAfter fractions first rest).1
    let after := (readAfter fractions first rest).2
    if token.isWord .rem then token :: after.map Token.ofByte
    else token :: tokens fractions after
termination_by text.length
decreasing_by
  have skippedLe := dropWhile_length_le isBlank text
  have afterLe := readAfter_length fractions first rest
  rw [show text.dropWhile isBlank = first :: rest from ‹_›] at skippedLe
  simp only [List.length_cons] at skippedLe
  omega

end Lexer

/-! ### A typed line -/

/-- A typed line that is read token by token. -/
structure TypedLine where
  text : Bytes
  position : Nat := 0
  /-- Whether each byte is a token of its own, as after `REM`. -/
  verbatim : Bool := false
  /-- Whether numbers may have fractions. -/
  fractions : Bool
  deriving DecidableEq, Inhabited

namespace TypedLine

/-- Whether a byte ends a line. -/
def isLineEnd (byte : UInt8) : Bool := byte = 10 || byte = 13

/-- A line as it was typed, without the line ends at its end. -/
def ofText (text : Bytes) (fractions : Bool) : TypedLine :=
  { text := (text.reverse.dropWhile isLineEnd).reverse, fractions }

/-- The line before anything was typed. -/
def empty : TypedLine := { text := [], fractions := false }

/-- The text from the position on. -/
def rest (line : TypedLine) : Bytes := line.text.drop line.position

/-- Moves to a position of the line, where a token begins. -/
def seek (line : TypedLine) (position : Nat) : TypedLine :=
  { line with position := min position line.text.length, verbatim := false }

/-- The next token, and the line behind it. -/
def next (line : TypedLine) : Token × TypedLine :=
  if line.verbatim then
    match line.rest with
    | [] => (.endOfText, { line with verbatim := false })
    | byte :: _ => (Token.ofByte byte, { line with position := line.position + 1 })
  else
    let (token, rest) := Lexer.read line.fractions line.rest
    let position := line.text.length - rest.length
    (token, { line with position, verbatim := token.isWord .rem })

/-- All tokens of a line that has not been read yet. -/
def tokens (line : TypedLine) : List Token := Lexer.tokens line.fractions line.text

end TypedLine

end PocketBasic
