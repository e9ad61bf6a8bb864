/-
**A line and its tokens.** A typed line is read token by token, and every token begins where the one
before it ended.

* `Lexer.suffix_readAfter`: what is left behind a token is an end of the text;
* `TypedLine.readings`: the tokens of a line from its position on, each with the position behind it;
* `TypedLine.next_of_plain`, `next_of_verbatim`: how the next token is read;
* **`TypedLine.map_fst_readings`**: the tokens that are read are those that the line splits into.
-/

import Mathlib.Data.List.Basic
import Mathlib.Data.List.Infix
import Mathlib.Tactic.Common
import PocketBasic.Proofs.Machine.Ahead
import PocketBasic.Proofs.Token.Typed

namespace PocketBasic

namespace Lexer

/-! ### What is left of a text -/

theorem suffix_splitFraction (text : Bytes) : (splitFraction text).2 <:+ text := by
  unfold splitFraction
  split
  · exact (List.dropWhile_suffix _).trans (List.suffix_cons _ _)
  · exact List.suffix_rfl

theorem suffix_splitExponent (text : Bytes) : (splitExponent text).2 <:+ text := by
  unfold splitExponent
  split
  · exact List.suffix_rfl
  · rename_i mark rest
    split
    rename_i sign digits cut
    have left : digits <:+ rest := by
      split at cut <;> cases cut
      · exact List.suffix_cons _ _
      · exact List.suffix_cons _ _
      · exact List.suffix_rfl
    split
    · exact ((List.dropWhile_suffix _).trans left).trans (List.suffix_cons _ _)
    · exact List.suffix_rfl

theorem suffix_splitNumber (fractions : Bool) (text : Bytes) :
    (splitNumber fractions text).2 <:+ text := by
  have whole : text.dropWhile isDigit <:+ text := List.dropWhile_suffix _
  cases fractions with
  | false => exact whole
  | true => exact ((suffix_splitExponent _).trans (suffix_splitFraction _)).trans whole

theorem suffix_readComparison (first : UInt8) (rest : Bytes) :
    (readComparison first rest).2 <:+ rest := by
  have skipped : skipBlanks rest <:+ rest := List.dropWhile_suffix _
  unfold readComparison
  simp only
  generalize skipBlanks rest = text at skipped ⊢
  split <;> first | exact skipped | exact (List.suffix_cons _ _).trans skipped

theorem suffix_readVariable (name : Name) (rest : Bytes) : (readVariable name rest).2 <:+ rest := by
  unfold readVariable
  split
  · exact List.suffix_cons _ _
  · exact List.suffix_rfl
  · exact List.suffix_rfl

theorem suffix_readLetters (first : UInt8) (rest : Bytes) :
    (readLetters first rest).2 <:+ rest := by
  unfold readLetters
  simp only
  split
  · exact List.drop_suffix _ _
  · split
    · split
      · exact (suffix_readVariable _ _).trans (List.suffix_cons _ _)
      · exact suffix_readVariable _ _
    · exact (suffix_readVariable _ _).trans (List.drop_suffix _ _)
    · exact List.suffix_rfl
    · exact List.suffix_rfl

/-- **What is left behind a token is an end of the text.** -/
theorem suffix_readAfter (fractions : Bool) (first : UInt8) (rest : Bytes) :
    (readAfter fractions first rest).2 <:+ first :: rest := by
  have behind : rest <:+ first :: rest := List.suffix_cons _ _
  unfold readAfter
  split
  · exact suffix_splitNumber _ _
  split
  · exact ((List.drop_suffix _ _).trans (List.dropWhile_suffix _)).trans behind
  split
  · exact (suffix_readComparison _ _).trans behind
  split
  · exact (suffix_readLetters _ _).trans behind
  · exact behind

theorem readAfter_ne_endOfText (fractions : Bool) (first : UInt8) (rest : Bytes) :
    (readAfter fractions first rest).1 ≠ .endOfText := by
  intro ends
  have storable := isStorable_readAfter fractions first rest
  rw [ends] at storable
  exact storable

theorem tokens_of_blank {fractions : Bool} {text : Bytes} (skipped : skipBlanks text = []) :
    tokens fractions text = [] := by
  rw [tokens]
  split <;> rename_i again
  · rfl
  · cases skipped.symm.trans again

theorem tokens_of_skipped {fractions : Bool} {text rest : Bytes} {first : UInt8}
    (skipped : skipBlanks text = first :: rest) : tokens fractions text =
      (readAfter fractions first rest).1 ::
        if (readAfter fractions first rest).1.isWord .rem then
          (readAfter fractions first rest).2.map Token.ofByte
        else tokens fractions (readAfter fractions first rest).2 := by
  rw [tokens]
  split <;> rename_i again
  · cases skipped.symm.trans again
  · obtain ⟨rfl, rfl⟩ := List.cons.inj (skipped.symm.trans again)
    dsimp only
    split <;> rfl

end Lexer

theorem Token.ofByte_ne_endOfText : ∀ byte, ofByte byte ≠ .endOfText := by
  decide +kernel

namespace TypedLine

variable {line : TypedLine} {first : UInt8} {rest : Bytes}

/-! ### Reading token by token -/

/-- The tokens of a line from its position on, each with the position behind it. -/
def readings (line : TypedLine) : List (Token × Nat) :=
  if line.next.1 = .endOfText then []
  else (line.next.1, line.next.2.position) :: line.next.2.readings
termination_by line.text.length - line.position
decreasing_by
  have further := position_lt_next ‹_›
  rw [text_next]
  omega

theorem next_nil_of_plain (plain : line.verbatim = false)
    (skipped : Lexer.skipBlanks line.rest = []) : line.next.1 = .endOfText := by
  rw [next, plain, if_neg Bool.false_ne_true, Lexer.read, skipped]

theorem next_of_plain (plain : line.verbatim = false)
    (skipped : Lexer.skipBlanks line.rest = first :: rest) :
    line.next = ((Lexer.readAfter line.fractions first rest).1,
      { line with
        position := line.text.length - (Lexer.readAfter line.fractions first rest).2.length
        verbatim := (Lexer.readAfter line.fractions first rest).1.isWord .rem }) := by
  rw [next, plain, if_neg Bool.false_ne_true, Lexer.read, skipped]

theorem rest_next_of_plain (plain : line.verbatim = false)
    (skipped : Lexer.skipBlanks line.rest = first :: rest) :
    line.next.2.rest = (Lexer.readAfter line.fractions first rest).2 := by
  have left : (Lexer.readAfter line.fractions first rest).2 <:+ line.text := by
    refine (Lexer.suffix_readAfter _ _ _).trans ?_
    rw [← skipped]
    exact (List.dropWhile_suffix _).trans (List.drop_suffix _ _)
  rw [next_of_plain plain skipped, TypedLine.rest]
  exact (List.suffix_iff_eq_drop.mp left).symm

theorem next_nil_of_verbatim (verbatim : line.verbatim = true) (empty : line.rest = []) :
    line.next.1 = .endOfText := by
  rw [next, verbatim, if_pos rfl, empty]

theorem next_of_verbatim (verbatim : line.verbatim = true) (begins : line.rest = first :: rest) :
    line.next = (Token.ofByte first, { line with position := line.position + 1 }) := by
  rw [next, verbatim, if_pos rfl, begins]

theorem rest_next_of_verbatim (verbatim : line.verbatim = true)
    (begins : line.rest = first :: rest) : line.next.2.rest = rest := by
  rw [next_of_verbatim verbatim begins, TypedLine.rest, ← List.drop_drop, ← TypedLine.rest, begins]
  rfl

/-- At the end of a line there is no token any more. -/
theorem next_next_of_end (ends : line.next.1 = .endOfText) : line.next.2.next.1 = .endOfText := by
  cases verbatim : line.verbatim with
  | true =>
    rcases begins : line.rest with _ | ⟨byte, rest⟩
    · refine next_nil_of_plain ?_ ?_
      · rw [next, verbatim, if_pos rfl, begins]
      · rw [next, verbatim, if_pos rfl, begins]
        exact congrArg Lexer.skipBlanks begins
    · rw [next_of_verbatim verbatim begins] at ends
      exact absurd ends (Token.ofByte_ne_endOfText byte)
  | false =>
    rcases skipped : Lexer.skipBlanks line.rest with _ | ⟨first, rest⟩
    · have read : line.next = (.endOfText,
          { line with position := line.text.length, verbatim := false }) := by
        rw [next, verbatim, if_neg Bool.false_ne_true, Lexer.read, skipped]
        rfl
      rw [read]
      refine next_nil_of_plain rfl ?_
      rw [TypedLine.rest, List.drop_length]
      rfl
    · rw [next_of_plain verbatim skipped] at ends
      exact absurd ends (Lexer.readAfter_ne_endOfText _ _ _)

theorem readings_of_end (ends : line.next.1 = .endOfText) : line.readings = [] := by
  rw [readings, if_pos ends]

theorem readings_of_token (goesOn : line.next.1 ≠ .endOfText) :
    line.readings = (line.next.1, line.next.2.position) :: line.next.2.readings := by
  rw [readings, if_neg goesOn]

/-- **A line splits into the tokens that are read from it** one after the other. -/
theorem map_fst_readings (line : TypedLine) : line.readings.map Prod.fst =
    if line.verbatim then line.rest.map Token.ofByte
    else Lexer.tokens line.fractions line.rest := by
  induction line using readings.induct with
  | case1 line ends =>
    rw [readings_of_end ends, List.map_nil]
    cases verbatim : line.verbatim with
    | true =>
      rcases begins : line.rest with _ | ⟨byte, rest⟩
      · rfl
      · rw [next_of_verbatim verbatim begins] at ends
        exact absurd ends (Token.ofByte_ne_endOfText byte)
    | false =>
      rcases skipped : Lexer.skipBlanks line.rest with _ | ⟨first, rest⟩
      · rw [if_neg Bool.false_ne_true, Lexer.tokens_of_blank skipped]
      · rw [next_of_plain verbatim skipped] at ends
        exact absurd ends (Lexer.readAfter_ne_endOfText _ _ _)
  | case2 line goesOn ih =>
    rw [readings_of_token goesOn, List.map_cons, ih]
    cases verbatim : line.verbatim with
    | true =>
      rcases begins : line.rest with _ | ⟨byte, rest⟩
      · exact absurd (next_nil_of_verbatim verbatim begins) goesOn
      · rw [rest_next_of_verbatim verbatim begins, next_of_verbatim verbatim begins]
        simp only [verbatim, if_true, List.map_cons]
    | false =>
      rcases skipped : Lexer.skipBlanks line.rest with _ | ⟨first, rest⟩
      · exact absurd (next_nil_of_plain verbatim skipped) goesOn
      · rw [rest_next_of_plain verbatim skipped, next_of_plain verbatim skipped,
          if_neg Bool.false_ne_true, Lexer.tokens_of_skipped skipped]

theorem tokens_ofText (text : Bytes) (fractions : Bool) :
    (ofText text fractions).tokens = (ofText text fractions).readings.map Prod.fst :=
  (map_fst_readings (ofText text fractions)).symm

/-- A line begins with the token that is read from it first. -/
theorem exists_tokens_ofText {text : Bytes} {fractions : Bool}
    (goesOn : (ofText text fractions).next.1 ≠ .endOfText) :
    ∃ rest, (ofText text fractions).tokens = (ofText text fractions).next.1 :: rest := by
  rw [tokens_ofText, readings_of_token goesOn, List.map_cons]
  exact ⟨_, rfl⟩

end TypedLine

end PocketBasic
