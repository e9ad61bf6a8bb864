/-
**Listed lines.** The listed text of a line that was typed splits into the tokens of the line,
unless two of them run together.

* `Listing.keepsApart`: no token of a line would be read with the one behind it;
* `Lexer.isRunOf_textAfter`: a run of letters is listed as a part of the run that was typed;
* **`Lexer.tokens_textAfter`**: what is listed of the tokens of a text splits into them again;
* **`Listing.tokens_lineText`**: so does a listed line, into its number and its tokens.
-/

import Mathlib.Tactic.Common
import PocketBasic.Proofs.Token.Readings
import PocketBasic.Proofs.Token.Relisting
import PocketBasic.Proofs.Token.WrittenNumbers

namespace PocketBasic

open Lexer (isBlank isNameByte Reads ReadsLetters IsReadBack)

/-! ### Tokens that stay apart -/

namespace Listing

/-- Whether two tokens are listed without a blank although the first would be read with the byte
that the second begins with. -/
def runTogether (fractions : Bool) (first second : Token) : Bool :=
  !isSpaced first second && second.spelling.head?.any (joins fractions first)

/-- Whether the listed text of a token stands for it: a number is finite, and made of digits alone
where no fractions are read, and a literal is well formed. -/
def isLegible (fractions : Bool) : Token → Bool
  | .number value => value.isFinite && (fractions || value.text.all isDigit)
  | .literal text => Unicode.repaired text = text
  | _ => true

/-- Whether a token is a line end, which is cut off at the end of a line. -/
def isLineBreak : Token → Bool
  | .symbol byte => TypedLine.isLineEnd byte
  | _ => false

/-- Whether tokens are listed as a text that splits into them again. Behind `REM` every byte is. -/
def keepsApart (fractions : Bool) : List Token → Bool
  | [] => true
  | token :: rest =>
    isLegible fractions token &&
      (token.isWord .rem ||
        (!(rest.isEmpty && isLineBreak token) && rest.head?.all (!runTogether fractions token ·) &&
          keepsApart fractions rest))

/-- What it means for a token, other than `REM`, to stay apart from the tokens behind it. -/
theorem keepsApart_cons {fractions : Bool} {token : Token} {rest : List Token}
    (unremarked : token.isWord .rem = false) (apart : keepsApart fractions (token :: rest) = true) :
    isLegible fractions token = true ∧ (rest = [] → isLineBreak token = false) ∧
      (∀ second ∈ rest.head?, runTogether fractions token second = false) ∧
      keepsApart fractions rest = true := by
  simp only [keepsApart, unremarked, Bool.false_or, Bool.and_eq_true, Bool.not_eq_true'] at apart
  obtain ⟨legible, ⟨unbroken, separate⟩, others⟩ := apart
  refine ⟨legible, ?_, ?_, others⟩
  · rintro rfl
    exact unbroken
  · intro second head
    rw [head] at separate
    exact Bool.not_eq_true' _ ▸ separate

theorem isLegible_head {fractions : Bool} {tokens : List Token}
    (apart : keepsApart fractions tokens = true) :
    ∀ second ∈ tokens.head?, isLegible fractions second = true := by
  intro second head
  cases tokens with
  | nil => cases head
  | cons token rest =>
    cases head
    exact (Bool.and_eq_true_iff.mp apart).1

/-- No blank is listed behind a token that neither ends an operand nor is a word or a colon. -/
theorem isSpaced_of_inner {first : Token} (unmarked : first.isSymbol ':' = false)
    (unlettered : isLettered first = false) (inner : endsOperand first = false) (second : Token) :
    isSpaced first second = false := by
  cases first with
  | number => cases inner
  | _ => simp [isSpaced, unmarked, unlettered, inner]

theorem isSpaced_letter {byte : UInt8} (named : isNameByte byte = true) (second : Token) :
    isSpaced (.symbol byte) second = false := by
  have inner : byte ≠ 58 ∧ byte ≠ 41 := by
    grind [isNameByte, isLetter]
  have unmarked : (Token.symbol byte).isSymbol ':' = false := decide_eq_false inner.1
  exact isSpaced_of_inner unmarked rfl (decide_eq_false inner.2) second

theorem joins_blank (fractions : Bool) (token : Token) : joins fractions token 32 = false := by
  cases token with
  | number => simp [joins, isDigit]
  | scalar name => simp [joins, Name.goesOn, isDigit, isNameByte, isLetter]
  | operator op => cases op <;> rfl
  | symbol => simp [joins, isDigit]
  | _ => rfl

end Listing

namespace Lexer

open Listing

variable {fractions : Bool} {token : Token} {text rest more : Bytes}

/-! ### The bytes in front -/

/-- What begins with a letter is listed with a letter in front. -/
theorem ReadsLetters.exists_spelling (reads : ReadsLetters token rest) :
    ∃ first tail, token.spelling = first :: tail ∧ isNameByte first = true := by
  cases reads with
  | @word spelling _ _ member found =>
    rw [(mem_lettered member).2.1]
    have long := (lettered_spelling _ member).2
    rcases spelling with _ | ⟨first, tail⟩
    · simp at long
    · exact ⟨first, tail, rfl, isNameByte_lettered member first List.mem_cons_self⟩
  | scalar typed _ => exact ⟨_, _, typed.spelling_eq, typed.named⟩
  | string typed => exact ⟨_, _, by rw [Token.spelling, typed.spelling_eq]; rfl, typed.named⟩
  | array typed => exact ⟨_, _, typed.spelling_eq, typed.named⟩
  | letter named _ _ _ => exact ⟨_, _, (spelling_letter _ named).1, named⟩

/-- A token that is listed begins with a byte that is not blank; it begins with a letter only if it
was read from letters. -/
theorem Reads.exists_spelling (reads : Reads token rest)
    (legible : isLegible fractions token = true) :
    ∃ first tail, token.spelling = first :: tail ∧ isBlank first = false ∧
      (isNameByte first = true → ReadsLetters token rest) := by
  cases reads with
  | number positive =>
    obtain ⟨digit, tail, text, digital⟩ := exists_text positive (Bool.and_eq_true_iff.mp legible).1
    refine ⟨digit, tail, text, ?_, fun named => ?_⟩ <;>
      grind [isDigit, isBlank, isNameByte, isLetter]
  | literal unquoted => exact ⟨_, _, rfl, rfl, fun named => absurd named (by decide)⟩
  | @comparison op _ relational =>
    cases op <;> first
      | exact absurd relational (by decide)
      | exact ⟨_, _, rfl, rfl, fun named => absurd named (by decide)⟩
  | letters reads =>
    obtain ⟨first, tail, spelling, named⟩ := reads.exists_spelling
    exact ⟨first, tail, spelling, (spelling_letter first named).2, fun _ => reads⟩
  | @mark byte _ alone =>
    have spelling := spelling_mark byte alone
    simp only [isMark, Bool.and_eq_true, Bool.not_eq_true'] at alone
    obtain ⟨⟨⟨⟨⟨⟨⟨⟨solid, unnamed⟩, _⟩, _⟩, _⟩, _⟩, _⟩, _⟩, _⟩ := alone
    exact ⟨_, _, spelling, solid, fun named => absurd named (by simp [unnamed])⟩

/-- **The tokens of a text** are the one that is read first and those of the text behind it. -/
theorem tokens_cases (fractions : Bool) (text : Bytes) :
    tokens fractions text = [] ∨ ∃ token rest, Reads token rest ∧ rest <:+ text ∧
      rest.length < text.length ∧ tokens fractions text =
        token :: if token.isWord .rem then rest.map Token.ofByte else tokens fractions rest := by
  rcases skipped : skipBlanks text with _ | ⟨first, tail⟩
  · exact .inl (tokens_of_blank skipped)
  have solid : isBlank first = false := by
    have head := List.head?_dropWhile_not isBlank text
    rw [show text.dropWhile isBlank = first :: tail from skipped] at head
    exact head
  have behind : first :: tail <:+ text := skipped ▸ List.dropWhile_suffix _
  have shorter := behind.length_le
  have left := readAfter_length fractions first tail
  rw [List.length_cons] at shorter
  exact .inr ⟨_, _, reads_readAfter fractions tail solid,
    (suffix_readAfter fractions first tail).trans behind, by omega, tokens_of_skipped skipped⟩

/-- What is listed behind a token begins with a blank, or with the first byte of the next token. -/
theorem head?_textAfter {keep : UInt8 → Bool}
    (legible : ∀ second ∈ (tokens fractions text).head?, isLegible fractions second = true)
    (apart : ∀ second ∈ (tokens fractions text).head?,
      if isSpaced token second then keep 32 = false else second.spelling.head?.any keep = false) :
    (textAfter (some token) false (tokens fractions text)).head?.any keep = false := by
  rcases tokens_cases fractions text with none | ⟨second, rest, reads, _, _, step⟩
  · rw [none]
    rfl
  · rw [step] at legible apart ⊢
    obtain ⟨first, tail, spelling, _, _⟩ := reads.exists_spelling (legible second rfl)
    have here := apart second rfl
    cases spaced : isSpaced token second with
    | true =>
      rw [if_pos spaced] at here
      simp [textAfter, spaced, here]
    | false =>
      rw [if_neg (Bool.eq_false_iff.mp spaced), spelling] at here
      simpa [textAfter, spaced, spelling] using here

/-- **Behind a token nothing is listed that it would be read with.** -/
theorem joins_textAfter (unremarked : token.isWord .rem = false)
    (apart : keepsApart fractions (token :: tokens fractions rest) = true) :
    (textAfter (some token) false (tokens fractions rest)).head?.any (joins fractions token) =
      false := by
  obtain ⟨_, _, separate, others⟩ := keepsApart_cons unremarked apart
  refine head?_textAfter (isLegible_head others) fun second head => ?_
  split
  · exact joins_blank fractions token
  · rename_i close
    simpa [runTogether, close] using separate second head

theorem isLettered_lettered : ∀ word ∈ lettered, isLettered word.2 = true := by
  decide +kernel

theorem head?_clings {second : Token} (clings : clings second = true) :
    second.spelling.head?.any isNameByte = false := by
  cases second with
  | symbol byte =>
    simp only [Listing.clings, Bool.or_eq_true, decide_eq_true_eq] at clings
    rcases clings with (((rfl | rfl) | rfl) | rfl) | rfl <;> decide +kernel
  | _ => cases clings

/-- **Behind a word no letter is listed**, unless it is a remark. -/
theorem isNameByte_textAfter {spelling : Bytes} (member : (spelling, token) ∈ lettered)
    (apart : keepsApart fractions (tokens fractions rest) = true) :
    (textAfter (some token) false (tokens fractions rest)).head?.any isNameByte = false := by
  have letters : isLettered token = true := isLettered_lettered _ member
  have unmarked : token.isSymbol ':' = false := by
    cases token <;> first | rfl | cases letters
  refine head?_textAfter (isLegible_head apart) fun second _ => ?_
  split
  · rfl
  · rename_i close
    exact head?_clings (by simpa [isSpaced, unmarked, letters] using close)

/-- A comparison is listed with no blank behind it. -/
theorem isBlank_textAfter {op : Operator} (relational : op.isRelational = true)
    (apart : keepsApart fractions (tokens fractions rest) = true) :
    (textAfter (some (.operator op)) false (tokens fractions rest)).head?.any isBlank = false := by
  rcases tokens_cases fractions rest with none | ⟨second, left, reads, _, _, step⟩
  · rw [none]
    rfl
  · refine head?_textAfter (isLegible_head apart) fun other head => ?_
    rw [step] at head apart
    cases head
    obtain ⟨first, tail, spelling, solid, _⟩ :=
      reads.exists_spelling (isLegible_head apart second rfl)
    have unlettered : isLettered (.operator op) = false := by
      cases op <;> first | rfl | cases relational
    have close := isSpaced_of_inner rfl unlettered rfl second
    rw [close, if_neg Bool.false_ne_true, spelling]
    exact solid

/-! ### Remarks -/

/-- The byte that a byte behind `REM` is listed as. -/
def relisted (byte : UInt8) : UInt8 := if byte < 128 && byte ≠ 0 then byte else 63

theorem relisted_spec : ∀ byte, (Token.ofByte byte).spelling = [relisted byte] ∧
    Token.ofByte (relisted byte) = Token.ofByte byte ∧
    isNameByte (relisted byte) = isNameByte byte ∧
    TypedLine.isLineEnd (relisted byte) = TypedLine.isLineEnd byte := by
  decide +kernel

theorem textAfter_verbatim (previous : Option Token) (bytes : Bytes) :
    textAfter previous true (bytes.map Token.ofByte) = bytes.map relisted := by
  induction bytes with
  | nil => rfl
  | cons byte rest ih => simp [textAfter, ih, (relisted_spec byte).1]

theorem relisted_of_isNameByte {byte : UInt8} (named : isNameByte byte = true) :
    relisted byte = byte := by
  simp [relisted, lt_of_isNameByte named]

/-- A run of letters behind `REM` is listed as it is. -/
theorem takeWhile_relisted (bytes : Bytes) :
    (bytes.map relisted).takeWhile isNameByte = bytes.takeWhile isNameByte := by
  have same : isNameByte ∘ relisted = isNameByte :=
    funext fun byte => (relisted_spec byte).2.2.1
  rw [List.takeWhile_map, same]
  refine (List.map_congr_left fun byte among => ?_).trans (List.map_id _)
  exact relisted_of_isNameByte (List.mem_takeWhile_imp among)

/-! ### Runs of letters -/

/-- A token behind which no blank is listed stands right before the next one. -/
theorem textAfter_unspaced {previous : Option Token} {others : List Token}
    (unspaced : ∀ second, previous.any (isSpaced · second) = false) :
    textAfter previous false (token :: others) =
      token.spelling ++ textAfter (some token) (token.isWord .rem) others := by
  simp [textAfter, unspaced]

/-- A run stops at a byte of another class, whatever is behind it. -/
theorem takeWhile_append_stop {keep : UInt8 → Bool} (front : Bytes) {byte : UInt8}
    (stops : keep byte = false) (text : Bytes) :
    (front ++ byte :: text).takeWhile keep = front.takeWhile keep := by
  induction front with
  | nil => simp [stops]
  | cons first rest ih => cases keeps : keep first <;> simp [keeps, ih]

/-- The run of a name stops behind it. -/
theorem takeWhile_name {name : Name} (typed : name.IsTyped)
    (ends : more.head?.any name.goesOn = false) :
    (name.first :: name.tail ++ more).takeWhile isNameByte =
      (name.first :: name.tail).takeWhile isNameByte := by
  rcases more with _ | ⟨next, more⟩
  · rw [List.append_nil]
  cases named : isNameByte next with
  | false => exact takeWhile_append_stop _ named more
  | true =>
    -- only a digit at the end of the name keeps letters off
    have parts : (name.second = 0 → isDigit next = false) ∧ isDigit name.second = true := by
      simpa [Name.goesOn, named] using ends
    have unnamed : isNameByte name.second = false := by
      grind [isDigit, isNameByte, isLetter]
    simp [Name.tail, (lt_of_isDigit parts.2).2, unnamed, typed.named]

/-- The bracket behind the name of an array is listed there. -/
theorem textAfter_array (fractions : Bool) (name : Name) (rest : Bytes) :
    textAfter (some (.array name)) false (tokens fractions (40 :: rest)) =
      40 :: textAfter (some (.symbol 40)) false (tokens fractions rest) := by
  have bracket : readAfter fractions 40 rest = (.symbol 40, rest) := by
    simp [readAfter, beginsNumber, isDigit, isNameByte, isLetter, Token.ofByte]
  have spelling : (Token.symbol 40).spelling = [40] := spelling_mark 40 rfl
  rw [tokens_of_skipped (show skipBlanks (40 :: rest) = 40 :: rest from rfl), bracket,
    @textAfter_unspaced _ (some (.array name)) _ fun second =>
      isSpaced_of_inner rfl rfl rfl second, spelling]
  rfl

/-- A listed text that begins with two letters or more, which are a part of the run of letters that
a typed text begins with. -/
structure IsRunOf (listed typed : Bytes) : Prop where
  two : 2 ≤ (listed.takeWhile isNameByte).length
  part : (listed.takeWhile isNameByte).map upper <+: (typed.map upper).takeWhile isNameByte

theorem takeWhile_upper (text : Bytes) :
    (text.map upper).takeWhile isNameByte = (text.takeWhile isNameByte).map upper :=
  Bytes.takeWhile_inUpperCase isNameByte_upper text

/-- A word is listed in front of no letter, or in front of those that were typed behind it. -/
theorem isRunOf_word {spelling : Bytes} (member : (spelling, token) ∈ lettered)
    (typed : text.map upper = spelling ++ rest.map upper)
    (behind : more.takeWhile isNameByte = [] ∨
      more.takeWhile isNameByte = rest.takeWhile isNameByte) : IsRunOf (spelling ++ more) text := by
  have letters := isNameByte_lettered member
  have two : 2 ≤ spelling.length := (lettered_spelling _ member).2
  have capital : spelling.map upper = spelling := inUpperCase_lettered member
  have run : (spelling ++ more).takeWhile isNameByte = spelling ++ more.takeWhile isNameByte :=
    List.takeWhile_append_of_pos letters
  have typedRun : (text.map upper).takeWhile isNameByte =
      spelling ++ (rest.takeWhile isNameByte).map upper := by
    rw [typed, List.takeWhile_append_of_pos letters, takeWhile_upper]
  refine ⟨by rw [run, List.length_append]; omega, ?_⟩
  rw [run, typedRun, List.map_append, capital, List.prefix_append_right_inj]
  rcases behind with none | same
  · rw [none]
    exact List.nil_prefix
  · rw [same]

/-- A name of two letters is listed as it was typed. -/
theorem isRunOf_name {name : Name} (named : name.IsTyped) {listed : Bytes}
    (run : listed.takeWhile isNameByte = (name.first :: name.tail).takeWhile isNameByte)
    (typed : (text.map upper).takeWhile isNameByte =
      (name.first :: name.tail).takeWhile isNameByte)
    (long : 2 ≤ (text.takeWhile isNameByte).length) : IsRunOf listed text := by
  rw [← List.length_map upper, ← takeWhile_upper, typed] at long
  refine ⟨by rwa [run], ?_⟩
  rw [run, typed, named.run_upper]

theorem isRunOf_letter {byte : UInt8} (letter : isNameByte byte = true)
    (capital : upper byte = byte) (run : IsRunOf more rest)
    (typed : text.map upper = byte :: rest.map upper) : IsRunOf (byte :: more) text := by
  refine ⟨?_, ?_⟩
  · rw [List.takeWhile_cons_of_pos letter]
    exact Nat.le_succ_of_le run.two
  · rw [typed, List.takeWhile_cons_of_pos letter, List.takeWhile_cons_of_pos letter, List.map_cons,
      capital]
    exact (List.prefix_cons_inj byte).mpr run.part

/-- **A run of letters is listed as a part of the run that was typed**, and is no single letter. -/
theorem isRunOf_textAfter {previous : Option Token}
    (unspaced : ∀ second, previous.any (isSpaced · second) = false)
    (apart : keepsApart fractions (tokens fractions text) = true)
    (long : 2 ≤ (text.takeWhile isNameByte).length) :
    IsRunOf (textAfter previous false (tokens fractions text)) text := by
  obtain ⟨size, bound⟩ : ∃ size, text.length ≤ size := ⟨_, Nat.le_refl _⟩
  induction size generalizing text previous with
  | zero => simp [List.length_eq_zero_iff.mp (Nat.le_zero.mp bound)] at long
  | succ size ih =>
    rcases text with _ | ⟨first, tail⟩
    · simp at long
    have named : isNameByte first = true := by
      cases named : isNameByte first with
      | true => rfl
      | false => simp [named] at long
    have skipped : skipBlanks (first :: tail) = first :: tail :=
      List.dropWhile_cons_of_neg (Bool.eq_false_iff.mp (spelling_letter first named).2)
    have step := @tokens_of_skipped fractions _ _ _ skipped
    rw [readAfter_name fractions tail named] at step
    have reads := reads_readLetters tail named
    have typed := spelling_readLetters tail named
    have shorter := readLetters_length first tail
    generalize readLetters first tail = read at step reads typed shorter
    obtain ⟨token, rest⟩ := read
    dsimp only at step reads typed shorter
    rw [← List.map_cons] at typed
    rw [step] at apart ⊢
    rw [textAfter_unspaced unspaced]
    cases reads with
    | word member found =>
      rw [(mem_lettered member).2.1] at typed ⊢
      refine isRunOf_word member typed.symm ?_
      cases remark : token.isWord .rem with
      | true =>
        rw [if_pos rfl, textAfter_verbatim]
        exact .inr (takeWhile_relisted rest)
      | false =>
        rw [remark, if_neg Bool.false_ne_true] at apart
        rw [if_neg Bool.false_ne_true]
        have ends := isNameByte_textAfter member (keepsApart_cons remark apart).2.2.2
        exact .inl (@takeWhile_run isNameByte [] _ nofun ends)
    | @scalar name _ isTyped ends =>
      have behind : (rest.map upper).head?.any name.goesOn = false :=
        (Bytes.head?_inUpperCase name.goesOn_upper rest).trans ends
      have after : (textAfter (some (.scalar name)) false (tokens fractions rest)).head?.any
          name.goesOn = false := by
        have close := joins_textAfter rfl apart
        simp only [Option.any_eq_false] at close ⊢
        intro byte head
        simpa [joins] using (Bool.or_eq_false_iff.mp (close byte head)).2
      rw [Token.spelling, isTyped.spelling_eq] at typed ⊢
      refine isRunOf_name isTyped (takeWhile_name isTyped after) ?_ long
      rw [← typed, takeWhile_name isTyped behind]
    | @string name _ isTyped =>
      have spelled (text : Bytes) : (Token.string name).spelling ++ text =
          name.first :: name.tail ++ 36 :: text := by
        rw [Token.spelling, isTyped.spelling_eq, List.append_assoc]
        rfl
      rw [spelled] at typed ⊢
      refine isRunOf_name isTyped (takeWhile_append_stop _ rfl _) ?_ long
      rw [← typed, takeWhile_append_stop _ rfl]
    | @array name rest isTyped =>
      rw [show (Token.array name).isWord .rem = false from rfl, if_neg Bool.false_ne_true,
        textAfter_array]
      rw [Token.spelling, isTyped.spelling_eq] at typed ⊢
      refine isRunOf_name isTyped (takeWhile_append_stop _ rfl _) ?_ long
      rw [← typed, List.map_cons, takeWhile_append_stop _ rfl]
    | @letter byte _ letter capital longer wordless =>
      have others := (@keepsApart_cons fractions _ _ rfl apart).2.2.2
      have run := @ih rest (some (.symbol byte))
        (fun second => isSpaced_letter letter second) others longer
        (shorter.trans (Nat.le_of_succ_le_succ bound))
      rw [(spelling_letter byte letter).1] at typed ⊢
      exact isRunOf_letter letter capital run typed.symm

/-! ### Reading back -/

/-- A letter with a letter behind it begins no exponent. -/
theorem splitExponent_of_named (mark : UInt8) {text : Bytes}
    (named : text.head?.any isNameByte = true) :
    splitExponent (mark :: text) = ([], mark :: text) := by
  rcases text with _ | ⟨byte, rest⟩
  · cases named
  have letter : isNameByte byte = true := named
  have unsigned : isSign byte = false := by
    grind [isSign, isNameByte, isLetter]
  have undigital : isDigit byte = false := by
    grind [isDigit, isNameByte, isLetter]
  simp [splitExponent_cons, signOf, unsigned, undigital]

/-- Behind a number the listed text does not go on with an exponent. -/
theorem splitExponent_textAfter {value : Single}
    (apart : keepsApart fractions (tokens fractions rest) = true) :
    splitExponent (textAfter (some (.number value)) false (tokens fractions rest)) =
      ([], textAfter (some (.number value)) false (tokens fractions rest)) := by
  rcases tokens_cases fractions rest with none | ⟨second, left, reads, _, _, step⟩
  · rw [none]
    rfl
  rw [step] at apart ⊢
  obtain ⟨mark, tail, spelling, _, lettered⟩ :=
    reads.exists_spelling (isLegible_head apart second rfl)
  rw [textAfter, if_neg Bool.false_ne_true]
  cases spaced : isSpaced (.number value) second with
  | true => simp [spaced, splitExponent_cons, show upper 32 ≠ 69 by decide]
  | false =>
    simp only [Option.any_some, spaced, Bool.false_eq_true, if_false, List.nil_append]
    by_cases exponent : upper mark = 69
    · have named : isNameByte mark = true := by
        rw [← isNameByte_upper, exponent]
        rfl
      -- only a letter that stands alone is listed right behind a number, and it has letters behind
      -- it
      cases lettered named with
      | word member _ =>
        have letters : isLettered second = true := isLettered_lettered _ member
        simp [isSpaced, Token.isSymbol, letters, endsOperand,
          show isLettered (.number value) = false from rfl] at spaced
      | scalar => cases spaced
      | string => cases spaced
      | array => cases spaced
      | @letter byte _ letter capital longer wordless =>
        have others := (@keepsApart_cons fractions _ _ rfl apart).2.2.2
        have two := (@isRunOf_textAfter fractions left (some (.symbol byte))
          (fun second => isSpaced_letter letter second) others longer).two
        rw [(spelling_letter byte letter).1, show (Token.symbol byte).isWord .rem = false from rfl,
          if_neg Bool.false_ne_true]
        refine splitExponent_of_named byte ?_
        rcases listed : textAfter (some (.symbol byte)) false (tokens fractions left) with
          _ | ⟨next, more⟩
        · simp [listed] at two
        · cases letter : isNameByte next with
          | true => exact letter
          | false => simp [listed, letter] at two
    · rw [spelling, List.cons_append, splitExponent_cons]
      simp [exponent]

/-- What is listed of a word, a name or a letter is read back. -/
theorem ReadsLetters.isReadBack (reads : ReadsLetters token rest)
    (unremarked : token.isWord .rem = false)
    (apart : keepsApart fractions (token :: tokens fractions rest) = true) :
    IsReadBack fractions token (textAfter (some token) false (tokens fractions rest)) := by
  have close := joins_textAfter unremarked apart
  have others := (keepsApart_cons unremarked apart).2.2.2
  cases reads with
  | word member found => exact readAfter_word_of_ends member (isNameByte_textAfter member others)
  | scalar typed _ => exact readAfter_scalar typed close
  | string typed => exact readAfter_string typed
  | @array name rest typed =>
    rw [textAfter_array]
    exact readAfter_array typed
  | letter letter capital longer wordless =>
    have run := @isRunOf_textAfter fractions rest (some (.symbol _))
      (fun second => isSpaced_letter letter second) others longer
    exact readAfter_letter letter capital wordless run.two (takeWhile_upper rest ▸ run.part)

/-- **What is listed of a token is read back.** -/
theorem Reads.isReadBack (reads : Reads token rest) (unremarked : token.isWord .rem = false)
    (apart : keepsApart fractions (token :: tokens fractions rest) = true) :
    IsReadBack fractions token (textAfter (some token) false (tokens fractions rest)) := by
  have close := joins_textAfter unremarked apart
  obtain ⟨legible, _, _, others⟩ := keepsApart_cons unremarked apart
  cases reads with
  | @number value _ positive =>
    obtain ⟨finite, digits⟩ := Bool.and_eq_true_iff.mp legible
    refine readAfter_number positive ⟨finite, ?_⟩ ⟨?_, ?_, ?_⟩
    · rintro rfl
      exact List.all_eq_true.mp digits
    · simp only [Option.any_eq_false] at close ⊢
      exact fun byte head => (Bool.or_eq_false_iff.mp (close byte head)).1
    · rintro rfl head
      rw [head] at close
      cases close
    · exact fun _ => splitExponent_textAfter others
  | literal unquoted => exact readAfter_literal unquoted (of_decide_eq_true legible)
  | comparison relational =>
    exact readAfter_comparison relational (isBlank_textAfter relational others) close
  | letters reads => exact reads.isReadBack unremarked apart
  | mark alone => exact readAfter_mark alone close

theorem isWord_ofByte : ∀ byte, (Token.ofByte byte).isWord .rem = false := by
  decide +kernel

/-- A remark is read back, whatever letters are listed behind it. -/
theorem Reads.isReadBack_remark (reads : Reads token rest) (remark : token.isWord .rem = true) :
    IsReadBack fractions token (rest.map relisted) := by
  have word : ReadsLetters token rest := by
    cases reads with
    | letters reads => exact reads
    | @mark byte _ _ => exact absurd remark (by simp [isWord_ofByte])
    | _ => cases remark
  cases word with
  | word member found => exact readAfter_word member (by rwa [takeWhile_relisted])
  | _ => cases remark

/-- The tokens of a text in which a token is listed. -/
theorem tokens_of_isReadBack {blanks : Bytes} (blank : ∀ byte ∈ blanks, isBlank byte = true)
    (readBack : IsReadBack fractions token more) :
    tokens fractions (blanks ++ (token.spelling ++ more)) =
      token :: if token.isWord .rem then more.map Token.ofByte else tokens fractions more := by
  obtain ⟨first, tail, text, solid, read⟩ := readBack
  have skipped : skipBlanks (blanks ++ (token.spelling ++ more)) = first :: tail := by
    rw [text]
    exact dropWhile_run blank solid
  rw [tokens_of_skipped skipped, read]

/-- **What is listed of the tokens of a text splits into them again.** -/
theorem tokens_textAfter (previous : Option Token)
    (apart : keepsApart fractions (tokens fractions text) = true) :
    tokens fractions (textAfter previous false (tokens fractions text)) =
      tokens fractions text := by
  obtain ⟨size, bound⟩ : ∃ size, text.length < size := ⟨_, Nat.lt_succ_self _⟩
  induction size generalizing text previous with
  | zero => exact absurd bound (Nat.not_lt_zero _)
  | succ size ih =>
    rcases tokens_cases fractions text with none | ⟨token, rest, reads, _, shorter, step⟩
    · rw [none]
      exact tokens_of_blank rfl
    rw [step] at apart ⊢
    have blank : ∀ byte ∈ (if previous.any (isSpaced · token) then [32] else [] : Bytes),
        isBlank byte = true := by
      intro byte among
      split at among
      · rw [List.mem_singleton.mp among]
        rfl
      · cases among
    rw [textAfter, if_neg Bool.false_ne_true, List.append_assoc]
    cases remark : token.isWord .rem with
    | true =>
      rw [if_pos rfl, textAfter_verbatim,
        tokens_of_isReadBack blank (reads.isReadBack_remark remark), remark, if_pos rfl,
        List.map_map]
      congr 1
      exact List.map_congr_left fun byte _ => (relisted_spec byte).2.1
    | false =>
      rw [remark, if_neg Bool.false_ne_true] at apart
      rw [if_neg Bool.false_ne_true,
        tokens_of_isReadBack blank (reads.isReadBack remark apart), remark,
          if_neg Bool.false_ne_true,
        ih (some token) (keepsApart_cons remark apart).2.2.2 (by omega)]

/-! ### The end of a line -/

theorem isLineBreak_mark : ∀ byte, isMark byte = true →
    isLineBreak (Token.ofByte byte) = TypedLine.isLineEnd byte := by
  decide +kernel

theorem not_isLineEnd_of_isNameByte {byte : UInt8} (named : isNameByte byte = true) :
    TypedLine.isLineEnd byte = false := by
  grind [TypedLine.isLineEnd, isNameByte, isLetter]

/-- No byte of a name ends a line. -/
theorem isLineEnd_name {name : Name} (typed : name.IsTyped) :
    ∀ byte ∈ name.first :: name.tail, TypedLine.isLineEnd byte = false := by
  intro byte among
  rcases List.mem_cons.mp among with rfl | among
  · exact not_isLineEnd_of_isNameByte typed.named
  · rw [Name.tail] at among
    split at among
    · cases among
    rw [List.mem_singleton.mp among]
    rcases typed.second with none | digit | ⟨letter, _⟩
    · contradiction
    · grind [TypedLine.isLineEnd, isDigit]
    · exact not_isLineEnd_of_isNameByte letter

/-- **A token that is listed ends with no line end**, unless it is one. -/
theorem Reads.isLineEnd_spelling (reads : Reads token rest)
    (legible : isLegible fractions token = true) (unbroken : isLineBreak token = false) :
    ∃ last, token.spelling.getLast? = some last ∧ TypedLine.isLineEnd last = false := by
  obtain ⟨first, tail, spelling, _, _⟩ := reads.exists_spelling legible
  -- a literal may have one inside, and ends with a quote
  have clean (all : ∀ byte ∈ token.spelling, TypedLine.isLineEnd byte = false) :
      ∃ last, token.spelling.getLast? = some last ∧ TypedLine.isLineEnd last = false := by
    have nonempty : token.spelling ≠ [] := by simp [spelling]
    exact ⟨_, List.getLast?_eq_some_getLast nonempty, all _ (List.getLast_mem nonempty)⟩
  cases reads with
  | number positive =>
    obtain ⟨numeral, writes⟩ := Numeral.exists_writes (Bool.and_eq_true_iff.mp legible).1 positive
    refine clean ?_
    rw [Token.spelling, ← writes.text]
    exact writes.valid.isLineEnd_text
  | literal unquoted => exact ⟨34, List.getLast?_concat, rfl⟩
  | @comparison op _ relational => cases op <;> exact clean (by decide +kernel)
  | @mark byte _ alone =>
    rw [isLineBreak_mark byte alone] at unbroken
    exact ⟨byte, by rw [spelling_mark byte alone]; rfl, unbroken⟩
  | letters reads =>
    cases reads with
    | word member _ =>
      refine clean fun byte among => not_isLineEnd_of_isNameByte ?_
      exact isNameByte_lettered member byte ((mem_lettered member).2.1 ▸ among)
    | scalar typed _ =>
      refine clean ?_
      rw [Token.spelling, typed.spelling_eq]
      exact isLineEnd_name typed
    | string typed => exact ⟨36, List.getLast?_concat, rfl⟩
    | array typed =>
      refine clean ?_
      rw [Token.spelling, typed.spelling_eq]
      exact isLineEnd_name typed
    | letter named _ _ _ =>
      exact ⟨_, by rw [(spelling_letter _ named).1]; rfl, not_isLineEnd_of_isNameByte named⟩

/-- **What is listed ends with no line end** if the text ended with none. -/
theorem isLineEnd_textAfter (previous : Option Token)
    (apart : keepsApart fractions (tokens fractions text) = true)
    (filled : tokens fractions text ≠ [])
    (clean : ∀ byte ∈ text.getLast?, TypedLine.isLineEnd byte = false) :
    ∃ last, (textAfter previous false (tokens fractions text)).getLast? = some last ∧
      TypedLine.isLineEnd last = false := by
  obtain ⟨size, bound⟩ : ∃ size, text.length < size := ⟨_, Nat.lt_succ_self _⟩
  induction size generalizing text previous with
  | zero => exact absurd bound (Nat.not_lt_zero _)
  | succ size ih =>
    rcases tokens_cases fractions text with none | ⟨token, rest, reads, behind, shorter, step⟩
    · exact absurd none filled
    rw [step] at apart ⊢
    have cleanToo : ∀ byte ∈ rest.getLast?, TypedLine.isLineEnd byte = false := by
      intro byte last
      obtain ⟨front, rfl⟩ := behind
      refine clean byte ?_
      rw [List.getLast?_append, last]
      rfl
    have here (unbroken : isLineBreak token = false) :=
      reads.isLineEnd_spelling (isLegible_head apart token rfl) unbroken
    rw [textAfter, if_neg Bool.false_ne_true, List.append_assoc]
    cases remark : token.isWord .rem with
    | true =>
      obtain ⟨last, ends, unbroken⟩ := here (by cases token <;> first | rfl | cases remark)
      rw [if_pos rfl, textAfter_verbatim, List.getLast?_append, List.getLast?_append, ends,
        List.getLast?_map]
      cases behind : rest.getLast? with
      | none => exact ⟨last, rfl, unbroken⟩
      | some byte =>
        exact ⟨relisted byte, rfl, (relisted_spec byte).2.2.2.trans (cleanToo byte behind)⟩
    | false =>
      rw [remark, if_neg Bool.false_ne_true] at apart
      obtain ⟨_, unbroken, _, others⟩ := keepsApart_cons remark apart
      rw [if_neg Bool.false_ne_true, List.getLast?_append, List.getLast?_append]
      by_cases none : tokens fractions rest = []
      · obtain ⟨last, ends, clean⟩ := here (unbroken none)
        rw [none, ends]
        exact ⟨last, rfl, clean⟩
      · obtain ⟨last, ends, clean⟩ := ih (some token) others none cleanToo (by omega)
        rw [ends]
        exact ⟨last, rfl, clean⟩

/-! ### Whole lines -/

/-- The digits of a line number are read as the number that it was typed as. -/
theorem readNumber_decimal {number : Single} {line : LineNumber}
    (positive : number.isNegative = false) (numbered : LineNumber.ofSingle? number = some line)
    (ends : EndsNumber fractions more) :
    readNumber fractions (decimal line.toNat ++ more) = (.number number, more) := by
  rw [LineNumber.ofSingle?] at numbered
  split at numbered
  · rename_i within
    simp only [Bool.and_eq_true, decide_eq_true_eq] at within
    obtain ⟨⟨whole, least⟩, most⟩ := within
    have part : number.wholePart = (number.absoluteUnits / Single.unitsPerOne : Nat) := by
      rw [Single.wholePart, positive]
      rfl
    obtain rfl := Option.some.inj numbered
    have value := Single.ofDecimal_wholePart whole positive
    rw [part] at most ⊢
    generalize number.absoluteUnits / Single.unitsPerOne = count at most value ⊢
    have same : (UInt16.ofNat (count : Int).toNat).toNat = count := by
      rw [Int.toNat_natCast, UInt16.toNat_ofNat']
      omega
    have valid : (Numeral.mk (decimal count) none none).IsValid :=
      { whole := fun _ => isDigit_decimal
        fraction := fun _ member => absurd member List.not_mem_nil
        digits := .inl (decimal_ne_nil count)
        power := fun _ _ none => by cases none }
    have text : (Numeral.mk (decimal count) none none).text = decimal count := by
      simp [Numeral.text, Numeral.powerText]
    have reads : Single.ofText? (decimal count) = some number := by
      rw [← text, valid.ofText?_text, Numeral.value]
      simp [Numeral.exponent, value]
    have split : splitNumber fractions (decimal count ++ more) = (decimal count, more) := by
      cases fractions with
      | true => exact text ▸ splitNumber_text valid ends
      | false =>
        rw [splitNumber, takeWhile_run (fun _ => isDigit_decimal) ends.digit,
          dropWhile_run (fun _ => isDigit_decimal) ends.digit]
        rfl
    rw [same, readNumber, split]
    simp [reads]
  · cases numbered

theorem ofByte_ne_number : ∀ byte value, Token.ofByte byte ≠ .number value := by
  intro byte value
  unfold Token.ofByte
  repeat' split
  all_goals exact Token.noConfusion

/-- A number that is read has no sign. -/
theorem Reads.isNegative_number {value : Single} (reads : Reads (.number value) rest) :
    value.isNegative = false := by
  generalize same : Token.number value = token at reads
  cases reads with
  | number positive =>
    cases same
    exact positive
  | mark => exact absurd same.symm (ofByte_ne_number _ _)
  | letters reads =>
    cases reads with
    | word member _ =>
      have letters : isLettered token = true := isLettered_lettered _ member
      subst same
      cases letters
    | _ => cases same
  | _ => cases same

/-- A blank in front of a text changes none of its tokens. -/
theorem tokens_blank (fractions : Bool) (text : Bytes) :
    tokens fractions (32 :: text) = tokens fractions text := by
  have same : skipBlanks (32 :: text) = skipBlanks text := rfl
  rcases skipped : skipBlanks text with _ | ⟨first, tail⟩
  · rw [tokens_of_blank skipped, tokens_of_blank (same.trans skipped)]
  · rw [tokens_of_skipped skipped, tokens_of_skipped (same.trans skipped)]

end Lexer

namespace Listing

open Lexer

/-- **A line that was typed is listed as a line with the same tokens.** -/
theorem tokens_lineText {fractions : Bool} {text : Bytes} {number : Single} {line : LineNumber}
    {body : List Token}
    (typed : (TypedLine.ofText text fractions).tokens = .number number :: body)
    (numbered : LineNumber.ofSingle? number = some line) (filled : body ≠ [])
    (apart : keepsApart fractions body = true) :
    (TypedLine.ofText (lineText line body) fractions).tokens = .number number :: body := by
  rcases tokens_cases fractions (TypedLine.ofText text fractions).text with
    none | ⟨token, rest, reads, behind, _, step⟩
  · cases none.symm.trans typed
  obtain ⟨rfl, same⟩ := List.cons.inj (step.symm.trans typed)
  rw [show (Token.number number).isWord .rem = false from rfl, if_neg Bool.false_ne_true] at same
  subst same
  have positive := reads.isNegative_number
  have clean : ∀ byte ∈ rest.getLast?, TypedLine.isLineEnd byte = false := by
    intro byte last
    obtain ⟨front, parts⟩ := behind
    have whole : (List.rdropWhile TypedLine.isLineEnd text).getLast? = some byte := by
      rw [show List.rdropWhile TypedLine.isLineEnd text = front ++ rest from parts.symm,
        List.getLast?_append, last]
      rfl
    have nonempty : List.rdropWhile TypedLine.isLineEnd text ≠ [] := by
      intro empty
      rw [empty] at whole
      cases whole
    have stripped := List.rdropWhile_last_not TypedLine.isLineEnd text nonempty
    rw [List.getLast?_eq_some_getLast nonempty] at whole
    rw [Option.some.inj whole] at stripped
    exact Bool.eq_false_iff.mpr stripped
  obtain ⟨last, ends, unbroken⟩ := isLineEnd_textAfter none apart filled clean
  -- nothing is cut off at the end of the listed line
  have kept : (TypedLine.ofText (lineText line (tokens fractions rest)) fractions).text =
      lineText line (tokens fractions rest) := by
    refine List.rdropWhile_eq_self_iff.mpr fun nonempty => Bool.eq_false_iff.mp ?_
    have final : (lineText line (tokens fractions rest)).getLast? = some last := by
      rw [lineText, List.getLast?_append, List.getLast?_cons, ends]
      rfl
    rw [List.getLast?_eq_some_getLast nonempty] at final
    rw [Option.some.inj final]
    exact unbroken
  have left : EndsNumber fractions (32 :: textAfter none false (tokens fractions rest)) :=
    ⟨rfl, fun _ => by simp, fun _ => by simp [splitExponent_cons, show upper 32 ≠ 69 by decide]⟩
  have reading := readNumber_decimal positive numbered left
  obtain ⟨digit, digits, spelled⟩ := List.exists_cons_of_ne_nil (decimal_ne_nil line.toNat)
  have digital : isDigit digit = true := isDigit_decimal (spelled ▸ List.mem_cons_self)
  have skipped : skipBlanks (lineText line (tokens fractions rest)) =
      digit :: (digits ++ 32 :: textAfter none false (tokens fractions rest)) := by
    rw [lineText, spelled]
    exact List.dropWhile_cons_of_neg (Bool.eq_false_iff.mp (not_isBlank_of_isDigit digit digital))
  have number : readAfter fractions digit
      (digits ++ 32 :: textAfter none false (tokens fractions rest)) =
        (.number number, 32 :: textAfter none false (tokens fractions rest)) := by
    rw [readAfter, beginsNumber, digital, Bool.true_or, if_pos rfl, ← List.cons_append, ← spelled,
      reading]
  rw [TypedLine.tokens, kept, show (TypedLine.ofText _ fractions).fractions = fractions from rfl,
    tokens_of_skipped skipped, number]
  exact congrArg _ ((tokens_blank fractions _).trans (tokens_textAfter none apart))

end Listing

end PocketBasic
