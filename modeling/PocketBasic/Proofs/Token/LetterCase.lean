/-
**Letter case.** Two lines that differ in the case of letters have the same tokens, if they agree in
quoted strings and behind `REM`.

* `TypedLine.keeps`: the places of a line where the case of a letter matters;
* `TypedLine.IsRecased`: lines that differ at most in the case of letters elsewhere;
* `TypedLine.IsRecased.next`: the next token of such lines is the same, and behind it they differ no
  further;
* **`TypedLine.letter_case_is_ignored`**: all their tokens are the same, with the same position
  behind each.
-/

import Mathlib.Data.List.Basic
import Mathlib.Data.List.DropRight
import Mathlib.Data.List.TakeWhile
import Mathlib.Tactic.Common
import PocketBasic.Proofs.Token.Readings
import PocketBasic.Proofs.Token.UpperCase

namespace PocketBasic

namespace TypedLine

/-! ### Recased lines -/

/-- Whether a place is in a literal among some tokens, or behind a remark: a token and the blanks in
front of it stand between the position behind the token before it and its own. -/
def keptAmong (start : Nat) : List (Token × Nat) → Nat → Bool
  | [], _ => false
  | (token, stop) :: more, place =>
    if token.isWord .rem then stop ≤ place
    else (token.isLiteral && start ≤ place && place < stop) || keptAmong stop more place

/-- Whether the letter case at a place of a line matters: in a quoted string, or behind `REM`. -/
def keeps (line : TypedLine) (place : Nat) : Bool :=
  if line.verbatim then line.position ≤ place else keptAmong line.position line.readings place

/-- Whether two lines that are being read differ at most in the case of letters, and agree where
it matters. -/
structure IsRecased (line other : TypedLine) : Prop where
  position : other.position = line.position
  verbatim : other.verbatim = line.verbatim
  fractions : other.fractions = line.fractions
  text : other.text.inUpperCase = line.text.inUpperCase
  kept : ∀ place, line.keeps place = true → other.text[place]? = line.text[place]?

variable {line other : TypedLine} {first : UInt8} {rest : Bytes}

theorem keeps_of_verbatim (verbatim : line.verbatim = true) {place : Nat}
    (behind : line.position ≤ place) : line.keeps place = true := by
  rw [keeps, if_pos verbatim]
  exact decide_eq_true behind

/-- A literal keeps its letters. -/
theorem keeps_of_isLiteral (plain : line.verbatim = false) (literal : line.next.1.isLiteral = true)
    {place : Nat} (behind : line.position ≤ place) (inside : place < line.next.2.position) :
    line.keeps place = true := by
  have goesOn : line.next.1 ≠ .endOfText := by
    intro ends
    rw [ends] at literal
    cases literal
  have unremarked : line.next.1.isWord .rem = false := by
    cases same : line.next.1 <;> first | rfl | (rw [same] at literal; cases literal)
  rw [keeps, plain, if_neg Bool.false_ne_true, readings_of_token goesOn, keptAmong, unremarked]
  simp [literal, behind, inside]

/-- Where the case matters behind a token, it matters. -/
theorem keeps_of_next (goesOn : line.next.1 ≠ .endOfText) {place : Nat}
    (kept : line.next.2.keeps place = true) : line.keeps place = true := by
  cases verbatim : line.verbatim with
  | true =>
    rcases begins : line.rest with _ | ⟨byte, rest⟩
    · exact absurd (next_nil_of_verbatim verbatim begins) goesOn
    · rw [next_of_verbatim verbatim begins, keeps, if_pos verbatim, decide_eq_true_eq] at kept
      exact keeps_of_verbatim verbatim (Nat.le_of_succ_le kept)
  | false =>
    rcases skipped : Lexer.skipBlanks line.rest with _ | ⟨first, rest⟩
    · exact absurd (next_nil_of_plain verbatim skipped) goesOn
    · have remarked : line.next.2.verbatim = line.next.1.isWord .rem := by
        rw [next_of_plain verbatim skipped]
      rw [keeps, remarked] at kept
      rw [keeps, verbatim, if_neg Bool.false_ne_true, readings_of_token goesOn, keptAmong]
      split_ifs at kept ⊢ with word
      · exact kept
      · rw [kept, Bool.or_true]

namespace IsRecased

theorem rest_inUpperCase (recased : IsRecased line other) :
    other.rest.inUpperCase = line.rest.inUpperCase := by
  rw [TypedLine.rest, TypedLine.rest, ← Bytes.drop_inUpperCase, ← Bytes.drop_inUpperCase,
    recased.text, recased.position]

theorem length_text (recased : IsRecased line other) : other.text.length = line.text.length := by
  rw [← Bytes.length_inUpperCase, recased.text, Bytes.length_inUpperCase]

/-- Behind the blanks, two lines that differ in case differ in case. -/
theorem skipBlanks_inUpperCase (recased : IsRecased line other) :
    (Lexer.skipBlanks other.rest).inUpperCase = (Lexer.skipBlanks line.rest).inUpperCase := by
  rw [← Lexer.skipBlanks_inUpperCase, ← Lexer.skipBlanks_inUpperCase, recased.rest_inUpperCase]

/-- What is read of two such lines is the same but for a literal, and as much is left. -/
theorem readAfter_inUpperCase (recased : IsRecased line other)
    {otherFirst : UInt8} {otherRest : Bytes}
    (skipped : Lexer.skipBlanks line.rest = first :: rest)
    (otherSkipped : Lexer.skipBlanks other.rest = otherFirst :: otherRest) :
    (Lexer.readAfter other.fractions otherFirst otherRest).1.inUpperCase =
        (Lexer.readAfter line.fractions first rest).1.inUpperCase ∧
      (Lexer.readAfter other.fractions otherFirst otherRest).2.length =
        (Lexer.readAfter line.fractions first rest).2.length := by
  have same := recased.skipBlanks_inUpperCase
  rw [skipped, otherSkipped, Bytes.inUpperCase_cons, Bytes.inUpperCase_cons] at same
  obtain ⟨head, tail⟩ := List.cons.inj same
  have here := Lexer.readAfter_inUpperCase line.fractions first rest
  have there := Lexer.readAfter_inUpperCase other.fractions otherFirst otherRest
  rw [head, tail, recased.fractions, here, Prod.mk.injEq] at there
  refine ⟨?_, ?_⟩
  · rw [recased.fractions, ← there.1]
  · rw [recased.fractions, ← Bytes.length_inUpperCase, ← there.2, Bytes.length_inUpperCase]

/-- **A literal is the same**, since all its letters matter. -/
theorem readLiteral_eq (recased : IsRecased line other) (plain : line.verbatim = false)
    {otherRest : Bytes} (skipped : Lexer.skipBlanks line.rest = 34 :: rest)
    (otherSkipped : Lexer.skipBlanks other.rest = 34 :: otherRest) :
    (Lexer.readLiteral otherRest).1 = (Lexer.readLiteral rest).1 := by
  have same := recased.skipBlanks_inUpperCase
  rw [skipped, otherSkipped] at same
  have tails : otherRest.inUpperCase = rest.inUpperCase := (List.cons.inj same).2
  have lengths : otherRest.length = rest.length := by
    rw [← Bytes.length_inUpperCase, tails, Bytes.length_inUpperCase]
  have behind : 34 :: rest <:+ line.rest := skipped ▸ List.dropWhile_suffix _
  have otherBehind : 34 :: otherRest <:+ other.rest := otherSkipped ▸ List.dropWhile_suffix _
  -- what stands behind the quote begins at the same place of both lines
  have left := List.suffix_iff_eq_drop.mp
    (((List.suffix_cons 34 rest).trans behind).trans (List.drop_suffix _ _))
  have otherLeft := List.suffix_iff_eq_drop.mp
    (((List.suffix_cons 34 otherRest).trans otherBehind).trans (List.drop_suffix _ _))
  have position : line.position + 1 + rest.length ≤ line.text.length := by
    have shorter := behind.length_le
    rw [length_rest, List.length_cons] at shorter
    omega
  have stop : line.next.2.position =
      line.text.length - ((rest.dropWhile (· ≠ 34)).drop 1).length := by
    rw [next_of_plain plain skipped, Lexer.readAfter_quote]
    rfl
  have literal : line.next.1.isLiteral = true := by
    rw [next_of_plain plain skipped, Lexer.readAfter_quote]
    rfl
  refine congrArg Token.literal (Bytes.takeWhile_eq_of_agree Lexer.ne_quote_upper tails ?_)
  intro place inside
  have parts := congrArg List.length (List.takeWhile_append_dropWhile (p := (· ≠ 34)) (l := rest))
  rw [List.length_append] at parts
  rw [left, otherLeft, List.getElem?_drop, List.getElem?_drop, recased.length_text, lengths]
  refine recased.kept _ (keeps_of_isLiteral plain literal ?_ ?_)
  · omega
  · rw [stop, List.length_drop]
    omega

/-- The token that is read of two such lines is the same. -/
theorem readAfter_eq (recased : IsRecased line other) (plain : line.verbatim = false)
    {otherFirst : UInt8} {otherRest : Bytes}
    (skipped : Lexer.skipBlanks line.rest = first :: rest)
    (otherSkipped : Lexer.skipBlanks other.rest = otherFirst :: otherRest) :
    (Lexer.readAfter other.fractions otherFirst otherRest).1 =
      (Lexer.readAfter line.fractions first rest).1 := by
  by_cases quote : first = 34
  · have same := recased.skipBlanks_inUpperCase
    rw [skipped, otherSkipped, quote] at same
    have otherQuote : otherFirst = 34 := (upper_eq_iff rfl).mp (List.cons.inj same).1
    rw [quote] at skipped ⊢
    rw [otherQuote] at otherSkipped ⊢
    rw [Lexer.readAfter_quote, Lexer.readAfter_quote]
    exact recased.readLiteral_eq plain skipped otherSkipped
  · have token := (recased.readAfter_inUpperCase skipped otherSkipped).1
    have unquoted : (Lexer.readAfter line.fractions first rest).1.isLiteral = false :=
      Lexer.isLiteral_readAfter quote
    have otherUnquoted := unquoted
    rw [← Token.isLiteral_inUpperCase, ← token, Token.isLiteral_inUpperCase] at otherUnquoted
    rwa [Token.inUpperCase_of_not_isLiteral unquoted,
      Token.inUpperCase_of_not_isLiteral otherUnquoted] at token

/-- Lines from which the same token is read differ no further behind it. -/
theorem next_of_eq (recased : IsRecased line other) (goesOn : line.next.1 ≠ .endOfText)
    (position : other.next.2.position = line.next.2.position)
    (verbatim : other.next.2.verbatim = line.next.2.verbatim) :
    IsRecased line.next.2 other.next.2 where
  position := position
  verbatim := verbatim
  fractions := by rw [fractions_next, fractions_next, recased.fractions]
  text := by rw [text_next, text_next, recased.text]
  kept place keeps := by
    rw [text_next, text_next]
    exact recased.kept place (keeps_of_next goesOn keeps)

/-- Behind `REM` the next byte is the same. -/
theorem next_of_verbatim (recased : IsRecased line other) (verbatim : line.verbatim = true) :
    other.next.1 = line.next.1 ∧
      (line.next.1 ≠ .endOfText → IsRecased line.next.2 other.next.2) := by
  have otherVerbatim := recased.verbatim.trans verbatim
  have here : other.rest.head? = line.rest.head? := by
    rw [TypedLine.rest, TypedLine.rest, List.head?_drop, List.head?_drop, recased.position]
    exact recased.kept line.position (keeps_of_verbatim verbatim (Nat.le_refl _))
  rcases begins : line.rest with _ | ⟨byte, rest⟩
  · rw [begins, List.head?_nil, List.head?_eq_none_iff] at here
    have ends := next_nil_of_verbatim verbatim begins
    exact ⟨(next_nil_of_verbatim otherVerbatim here).trans ends.symm, fun goesOn =>
      absurd ends goesOn⟩
  · rw [begins, List.head?_cons, List.head?_eq_some_iff] at here
    obtain ⟨otherRest, otherBegins⟩ := here
    have read := TypedLine.next_of_verbatim verbatim begins
    have otherRead := TypedLine.next_of_verbatim otherVerbatim otherBegins
    refine ⟨by rw [read, otherRead], fun goesOn => recased.next_of_eq goesOn ?_ ?_⟩
    · rw [read, otherRead, recased.position]
    · rw [read, otherRead, verbatim, otherVerbatim]

/-- **The next token is the same**, and the lines differ no further behind it. -/
theorem next (recased : IsRecased line other) : other.next.1 = line.next.1 ∧
    (line.next.1 ≠ .endOfText → IsRecased line.next.2 other.next.2) := by
  cases verbatim : line.verbatim with
  | true => exact recased.next_of_verbatim verbatim
  | false =>
    have otherPlain := recased.verbatim.trans verbatim
    have same := recased.skipBlanks_inUpperCase
    rcases skipped : Lexer.skipBlanks line.rest with _ | ⟨first, rest⟩
    · rw [skipped] at same
      have ends := next_nil_of_plain verbatim skipped
      exact ⟨(next_nil_of_plain otherPlain (List.map_eq_nil_iff.mp same)).trans ends.symm,
        fun goesOn => absurd ends goesOn⟩
    rcases otherSkipped : Lexer.skipBlanks other.rest with _ | ⟨otherFirst, otherRest⟩
    · rw [skipped, otherSkipped] at same
      cases same
    have tokens := recased.readAfter_eq verbatim skipped otherSkipped
    have left := (recased.readAfter_inUpperCase skipped otherSkipped).2
    have read := next_of_plain verbatim skipped
    have otherRead := next_of_plain otherPlain otherSkipped
    refine ⟨by rw [read, otherRead, tokens], fun goesOn => recased.next_of_eq goesOn ?_ ?_⟩
    · rw [read, otherRead]
      dsimp only
      rw [left, recased.length_text]
    · rw [read, otherRead]
      dsimp only
      rw [tokens]

/-- **The same tokens are read** from two lines that differ in case, to the same positions. -/
theorem readings (recased : IsRecased line other) : other.readings = line.readings := by
  induction line using TypedLine.readings.induct generalizing other with
  | case1 line ends =>
    rw [readings_of_end ends, readings_of_end (recased.next.1.trans ends)]
  | case2 line goesOn ih =>
    obtain ⟨token, behind⟩ := recased.next
    have goesOnToo : other.next.1 ≠ .endOfText := by rwa [token]
    rw [readings_of_token goesOn, readings_of_token goesOnToo, token, (behind goesOn).position,
      ih (behind goesOn)]

end IsRecased

/-! ### Whole lines -/

/-- A line as it was typed is a beginning of its text. -/
theorem text_ofText (text : Bytes) (fractions : Bool) :
    (ofText text fractions).text <+: text :=
  List.rdropWhile_prefix isLineEnd text

theorem getElem?_ofText {text : Bytes} {fractions : Bool} {place : Nat}
    (inside : place < (ofText text fractions).text.length) :
    (ofText text fractions).text[place]? = text[place]? := by
  rw [List.getElem?_eq_getElem inside]
  exact (List.prefix_iff_getElem?.mp (text_ofText text fractions) place inside).symm

theorem isLineEnd_upper (byte : UInt8) : isLineEnd (upper byte) = isLineEnd byte := by
  grind [upper, isLineEnd]

theorem text_ofText_inUpperCase (text : Bytes) (fractions : Bool) :
    (ofText text.inUpperCase fractions).text = (ofText text fractions).text.inUpperCase := by
  have reversed (text : Bytes) : text.inUpperCase.reverse = Bytes.inUpperCase text.reverse :=
    List.map_reverse.symm
  simp only [ofText, reversed, Bytes.dropWhile_inUpperCase isLineEnd_upper]

/-- Two texts that differ in case give lines that do. -/
theorem isRecased_ofText {text other : Bytes} (fractions : Bool)
    (recased : other.inUpperCase = text.inUpperCase)
    (kept : ∀ place < text.length, (ofText text fractions).keeps place = true →
      other[place]? = text[place]?) :
    IsRecased (ofText text fractions) (ofText other fractions) := by
  have texts : (ofText other fractions).text.inUpperCase =
      (ofText text fractions).text.inUpperCase := by
    rw [← text_ofText_inUpperCase, recased, text_ofText_inUpperCase]
  have lengths : (ofText other fractions).text.length = (ofText text fractions).text.length := by
    rw [← Bytes.length_inUpperCase, texts, Bytes.length_inUpperCase]
  refine ⟨rfl, rfl, rfl, texts, fun place keeps => ?_⟩
  by_cases inside : place < (ofText text fractions).text.length
  · rw [getElem?_ofText (lengths ▸ inside), getElem?_ofText inside]
    exact kept place (Nat.lt_of_lt_of_le inside (text_ofText text fractions).length_le) keeps
  · rw [List.getElem?_eq_none (Nat.le_of_not_lt inside),
      List.getElem?_eq_none (lengths ▸ Nat.le_of_not_lt inside)]

/-- **Letter case does not matter.** From two texts that differ only in the case of letters outside
quoted strings and outside the text behind `REM`, the same tokens are read, with the same position
behind each. -/
theorem letter_case_is_ignored {text other : Bytes} (fractions : Bool)
    (recased : other.inUpperCase = text.inUpperCase)
    (kept : ∀ place < text.length, (ofText text fractions).keeps place = true →
      other[place]? = text[place]?) :
    (ofText other fractions).readings = (ofText text fractions).readings ∧
      (ofText other fractions).tokens = (ofText text fractions).tokens := by
  have readings := (isRecased_ofText fractions recased kept).readings
  exact ⟨readings, by rw [tokens_ofText, tokens_ofText, readings]⟩

theorem letter_case_is_ignored_remark :
    ascii "Print 1e2\"aB\":uvwReM Xy" ≠ ascii "pRINT 1E2\"aB\":UvWrem Xy" ∧
      (ofText (ascii "Print 1e2\"aB\":uvwReM Xy") true).readings =
        (ofText (ascii "pRINT 1E2\"aB\":UvWrem Xy") true).readings ∧
      (ofText (ascii "Print 1e2\"aB\":uvwReM Xy") true).tokens =
        (ofText (ascii "pRINT 1E2\"aB\":UvWrem Xy") true).tokens := by
  refine ⟨by decide +kernel, letter_case_is_ignored true ?_ ?_⟩
  · decide +kernel
  · decide +kernel

end TypedLine

end PocketBasic
