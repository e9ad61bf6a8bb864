/-
**Listed tokens.** The listed text of a token that was typed is read as that token again, unless
what is listed behind it goes on with it.

* `Lexer.Reads`, `Lexer.ReadsLetters`: the kinds of tokens that are read, each with the text that is
  left behind it;
* `Lexer.reads_readAfter`: every token that is read is of one of these kinds;
* `Listing.joins`: the bytes that a token would be read with;
* **`Lexer.readAfter_number`, …, `Lexer.readAfter_mark`**: what is listed of each kind is read back.
-/

import Mathlib.Data.List.TakeWhile
import Mathlib.Tactic.Common
import PocketBasic.Program.Lines
import PocketBasic.Proofs.Number.Reading
import PocketBasic.Proofs.Token.Words

namespace PocketBasic

namespace Lexer

/-! ### Kinds of tokens -/

/-- Whether a byte is a token of its own wherever it stands. -/
def isMark (byte : UInt8) : Bool :=
  !isBlank byte && !isNameByte byte && !isDigit byte && byte ≠ 34 && byte ≠ 60 && byte ≠ 61 &&
    byte ≠ 62 && byte ≠ 0 && byte < 128

/-- A token that begins with a letter, with the text behind it. -/
inductive ReadsLetters : Token → Bytes → Prop where
  | word {spelling rest : Bytes} {token : Token} (member : (spelling, token) ∈ lettered)
      (found : longestWord? (spelling ++ rest.takeWhile isNameByte) =
        some (spelling.length, token)) : ReadsLetters token rest
  | scalar {name : Name} {rest : Bytes} (typed : name.IsTyped)
      (ends : rest.head?.any name.goesOn = false) : ReadsLetters (.scalar name) rest
  | string {name : Name} {rest : Bytes} (typed : name.IsTyped) : ReadsLetters (.string name) rest
  | array {name : Name} {rest : Bytes} (typed : name.IsTyped) :
      ReadsLetters (.array name) (40 :: rest)
  /-- A letter in front of two or more stands alone when no reserved word begins there. -/
  | letter {byte : UInt8} {rest : Bytes} (named : isNameByte byte = true)
      (capital : upper byte = byte) (long : 2 ≤ (rest.takeWhile isNameByte).length)
      (wordless : longestWord? (byte :: rest.takeWhile isNameByte) = none) :
      ReadsLetters (.symbol byte) rest

/-- A token that is read from a line, with the text behind it. -/
inductive Reads : Token → Bytes → Prop where
  | number {value : Single} {rest : Bytes} (positive : value.isNegative = false) :
      Reads (.number value) rest
  | literal {text rest : Bytes} (unquoted : ∀ byte ∈ text, byte ≠ 34) : Reads (.literal text) rest
  | comparison {op : Operator} {rest : Bytes} (relational : op.isRelational = true) :
      Reads (.operator op) rest
  | letters {token : Token} {rest : Bytes} (reads : ReadsLetters token rest) : Reads token rest
  | mark {byte : UInt8} {rest : Bytes} (alone : isMark byte = true) : Reads (Token.ofByte byte) rest

/-- The text of a number begins with the byte that the number begins with. -/
theorem exists_splitNumber {fractions : Bool} {first : UInt8} {rest : Bytes}
    (begins : beginsNumber fractions first rest = true) :
    ∃ more, (splitNumber fractions (first :: rest)).1 = first :: more := by
  by_cases digit : isDigit first = true
  · cases fractions with
    | false => exact ⟨_, by simp only [splitNumber, List.takeWhile_cons_of_pos digit]; rfl⟩
    | true => exact ⟨_, by simp only [splitNumber, List.takeWhile_cons_of_pos digit]; rfl⟩
  · simp only [beginsNumber, digit, Bool.false_or, Bool.and_eq_true, decide_eq_true_eq] at begins
    obtain ⟨⟨rfl, rfl⟩, _⟩ := begins
    exact ⟨_, by
      simp only [splitNumber, List.takeWhile_cons_of_neg digit, List.dropWhile_cons_of_neg digit]
      rfl⟩

theorem isNegative_ofDigits? {text : Bytes} {value : Single}
    (read : Single.ofDigits? false text = some value) : value.isNegative = false := by
  unfold Single.ofDigits? at read
  simp only at read
  -- with a point behind the digits, or without
  split at read <;>
  · split at read
    · cases read
    obtain ⟨power, _, rfl⟩ := Option.map_eq_some_iff.mp read
    exact (Single.isNegative_ofDecimal _ _).1

/-- A number that is read has no sign. -/
theorem isNegative_splitNumber {fractions : Bool} {first : UInt8} {rest : Bytes}
    (begins : beginsNumber fractions first rest = true) :
    ((Single.ofText? (splitNumber fractions (first :: rest)).1).getD .zero).isNegative = false := by
  have mark : isDigit first = true ∨ first = 46 := by
    simp only [beginsNumber, Bool.or_eq_true, Bool.and_eq_true, decide_eq_true_eq] at begins
    exact begins.imp_right fun pointed => pointed.1.2
  obtain ⟨more, text⟩ := exists_splitNumber begins
  rw [text, Numeral.ofText?_of_begins mark]
  cases read : Single.ofDigits? false (first :: more) with
  | none => rfl
  | some value => exact isNegative_ofDigits? read

theorem reads_readComparison (first : UInt8) (rest : Bytes) :
    Reads (readComparison first rest).1 (readComparison first rest).2 := by
  unfold readComparison
  simp only
  split <;> exact .comparison rfl

theorem reads_readVariable {name : Name} {rest : Bytes} (typed : name.IsTyped)
    (ends : rest.head?.any name.goesOn = false) :
    ReadsLetters (readVariable name rest).1 (readVariable name rest).2 := by
  unfold readVariable
  split
  · exact .string typed
  · exact .array typed
  · exact .scalar typed ends

/-- Behind a part of a run stands the rest of it. -/
theorem takeWhile_drop {keep : UInt8 → Bool} {text : Bytes} {count : Nat}
    (inside : count ≤ (text.takeWhile keep).length) :
    (text.drop count).takeWhile keep = (text.takeWhile keep).drop count := by
  have stops : (text.dropWhile keep).head?.any keep = false := by
    cases behind : text.dropWhile keep with
    | nil => rfl
    | cons byte rest =>
      have head := List.head?_dropWhile_not keep text
      rw [behind] at head
      exact head
  have parts : text.drop count = (text.takeWhile keep).drop count ++ text.dropWhile keep := by
    rw [← List.drop_append_of_le_length inside, List.takeWhile_append_dropWhile]
  rw [parts]
  exact takeWhile_run (fun byte among => List.mem_takeWhile_imp (List.mem_of_mem_drop among)) stops

theorem isTyped_single {first : UInt8} (named : isNameByte first = true) :
    Name.IsTyped ⟨upper first, 0⟩ where
  named := (isNameByte_upper first).trans named
  first := upper_upper first
  second := .inl rfl

theorem isTyped_digit {first digit : UInt8} (named : isNameByte first = true)
    (digital : isDigit digit = true) : Name.IsTyped ⟨upper first, digit⟩ where
  named := (isNameByte_upper first).trans named
  first := upper_upper first
  second := .inr (.inl digital)

/-- Two letters that are all of a run are a name. -/
theorem isTyped_pair {first second : UInt8} {rest : Bytes} (named : isNameByte first = true)
    (run : rest.takeWhile isNameByte = [second])
    (wordless : longestWord? (first :: rest.takeWhile isNameByte) = none) :
    Name.IsTyped ⟨upper first, upper second⟩ ∧ upper second ≠ 0 := by
  have letter : isNameByte second = true :=
    List.mem_takeWhile_imp (l := rest) (by rw [run]; exact List.mem_cons_self)
  have capital : isNameByte (upper second) = true := (isNameByte_upper second).trans letter
  rw [run, ← longestWord?_inUpperCase] at wordless
  exact ⟨⟨(isNameByte_upper first).trans named, upper_upper first,
    .inr (.inr ⟨capital, upper_upper second, wordless⟩)⟩, (lt_of_isNameByte capital).2⟩

/-- **What begins with a letter** is a reserved word, a name, or the letter alone. -/
theorem reads_readLetters {first : UInt8} (rest : Bytes) (named : isNameByte first = true) :
    ReadsLetters (readLetters first rest).1 (readLetters first rest).2 := by
  have capital : isNameByte (upper first) = true := (isNameByte_upper first).trans named
  unfold readLetters
  simp only
  split
  · rename_i length word found
    obtain ⟨spelling, member, rfl, starts⟩ := longestWord?_mem found
    refine .word member ?_
    -- the run is the word and the name bytes behind it, in letters of either case
    have long : 2 ≤ spelling.length := (lettered_spelling _ member).2
    have short := (startsWith_iff.mp starts).length_le
    have behind := List.prefix_iff_eq_append.mp (startsWith_iff.mp starts)
    rw [List.length_map, List.length_cons] at short
    rw [← List.map_drop, show spelling.length = spelling.length - 1 + 1 by omega,
      List.drop_succ_cons, ← takeWhile_drop (by omega)] at behind
    rw [← found, ← longestWord?_inUpperCase (first :: _), Bytes.inUpperCase, ← behind,
      ← longestWord?_inUpperCase, Bytes.inUpperCase_append, inUpperCase_lettered member]
    rfl
  · rename_i wordless
    rcases run : rest.takeWhile isNameByte with _ | ⟨second, _ | ⟨third, more⟩⟩
    · rcases rest with _ | ⟨next, rest⟩
      · exact .scalar (isTyped_single named) rfl
      have unnamed : isNameByte next = false := by
        cases letter : isNameByte next with
        | false => rfl
        | true => simp [letter] at run
      by_cases digit : isDigit next = true
      · simp only [digit, if_true]
        refine reads_readVariable (isTyped_digit named digit) ?_
        cases rest <;> simp [Name.goesOn, digit, (lt_of_isDigit digit).2]
      · simp only [digit, Bool.false_eq_true, if_false]
        refine reads_readVariable (isTyped_single named) ?_
        simp [Name.goesOn, digit, unnamed]
    · obtain ⟨typed, present⟩ := isTyped_pair named run wordless
      have behind : (rest.drop 1).takeWhile isNameByte = [] := by
        rw [takeWhile_drop (by rw [run]; exact Nat.le_refl _), run]
        rfl
      refine reads_readVariable typed ?_
      rcases further : rest.drop 1 with _ | ⟨next, more⟩
      · rfl
      have unnamed : isNameByte next = false := by
        cases letter : isNameByte next with
        | false => rfl
        | true => simp [further, letter] at behind
      simp [Name.goesOn, unnamed, present]
    · refine .letter capital (upper_upper first) (by rw [run]; simp) ?_
      rw [← longestWord?_inUpperCase] at wordless ⊢
      rw [Bytes.inUpperCase_cons, upper_upper]
      exact wordless

/-- Every other byte is a token of its own; what is not ASCII reads as a question mark. -/
theorem exists_isMark : ∀ byte : UInt8, isBlank byte = false → isNameByte byte = false →
    isDigit byte = false → byte ≠ 34 → byte ≠ 60 → byte ≠ 61 → byte ≠ 62 →
    isMark byte = true ∨ Token.ofByte byte = Token.ofByte 63 := by
  decide +kernel

/-- **Every token that is read is of one of the kinds.** -/
theorem reads_readAfter (fractions : Bool) {first : UInt8} (rest : Bytes)
    (solid : isBlank first = false) :
    Reads (readAfter fractions first rest).1 (readAfter fractions first rest).2 := by
  unfold readAfter
  split
  · exact .number (isNegative_splitNumber ‹_›)
  split
  · exact .literal fun byte among =>
      of_decide_eq_true (List.mem_takeWhile_imp (l := rest) among)
  split
  · exact reads_readComparison first rest
  split
  · exact .letters (reads_readLetters rest ‹_›)
  · rename_i unnumbered unquoted unrelated unnamed
    simp only [beginsNumber, Bool.or_eq_true, decide_eq_true_eq, not_or] at unnumbered unrelated
    rcases exists_isMark first solid (Bool.eq_false_iff.mpr unnamed)
      (Bool.eq_false_iff.mpr unnumbered.1) unquoted unrelated.1.2 unrelated.1.1 unrelated.2 with
      alone | question
    · exact .mark alone
    · rw [question]
      exact @Reads.mark 63 rest rfl

end Lexer

/-! ### Tokens that run together -/

/-- Whether a token would be read with a byte that is listed right behind it. -/
def Listing.joins (fractions : Bool) (token : Token) (next : UInt8) : Bool :=
  match token with
  | .number _ => isDigit next || (fractions && next = 46)
  | .scalar name => next = 36 || next = 40 || name.goesOn next
  | .operator .equal => next = 60 || next = 62
  | .operator .less => next = 61 || next = 62
  | .operator .greater => next = 61
  | .symbol byte => fractions && byte = 46 && isDigit next
  | _ => false

namespace Lexer

/-- Whether the listed text of a token is read as that token, with the text behind it left. -/
def IsReadBack (fractions : Bool) (token : Token) (more : Bytes) : Prop :=
  ∃ first tail, token.spelling ++ more = first :: tail ∧ isBlank first = false ∧
    readAfter fractions first tail = (token, more)

variable {fractions : Bool} {name : Name} {spelling rest more : Bytes} {token : Token}

/-! ### Marks and letters -/

theorem spelling_mark : ∀ byte, isMark byte = true → (Token.ofByte byte).spelling = [byte] := by
  decide +kernel

theorem readAfter_mark {byte : UInt8} (alone : isMark byte = true)
    (apart : more.head?.any (Listing.joins fractions (.ofByte byte)) = false) :
    IsReadBack fractions (.ofByte byte) more := by
  have parts : (((((isBlank byte = false ∧ isNameByte byte = false) ∧ isDigit byte = false) ∧
      byte ≠ 34) ∧ byte ≠ 60) ∧ byte ≠ 61) ∧ byte ≠ 62 := by
    simp only [isMark, Bool.and_eq_true, Bool.not_eq_true', decide_eq_true_eq] at alone
    exact alone.1.1
  obtain ⟨⟨⟨⟨⟨⟨solid, unnamed⟩, undigital⟩, unquoted⟩, less⟩, equal⟩, greater⟩ := parts
  have unnumbered : beginsNumber fractions byte more = false := by
    by_cases point : byte = 46
    · subst point
      cases fractions with
      | false => rfl
      | true => exact apart
    · simp [beginsNumber, undigital, point]
  refine ⟨byte, more, by rw [spelling_mark byte alone]; rfl, solid, ?_⟩
  simp [readAfter, unnumbered, unquoted, less, equal, greater, unnamed]

theorem spelling_letter : ∀ byte, isNameByte byte = true →
    (Token.symbol byte).spelling = [byte] ∧ isBlank byte = false := by
  decide +kernel

/-- **A letter that stood alone stands alone again** in front of a part of its run. -/
theorem readAfter_letter {byte : UInt8} (named : isNameByte byte = true)
    (capital : upper byte = byte)
    (wordless : longestWord? (byte :: rest.takeWhile isNameByte) = none)
    (long : 2 ≤ (more.takeWhile isNameByte).length)
    (part : (more.takeWhile isNameByte).map upper <+: (rest.takeWhile isNameByte).map upper) :
    IsReadBack fractions (.symbol byte) more := by
  have alone : longestWord? (byte :: more.takeWhile isNameByte) = none :=
    longestWord?_none_of_prefix wordless ((List.prefix_cons_inj _).mpr part)
  obtain ⟨spelling, solid⟩ := spelling_letter byte named
  refine ⟨byte, more, by rw [spelling]; rfl, solid, ?_⟩
  rw [readAfter_name fractions more named]
  unfold readLetters
  simp only [alone]
  rcases run : more.takeWhile isNameByte with _ | ⟨second, _ | ⟨third, further⟩⟩
  · simp [run] at long
  · simp [run] at long
  · simp only [capital]

/-! ### Words and names -/

/-- **A reserved word is read back** where it is the longest one that its run begins with. -/
theorem readAfter_word (member : (spelling, token) ∈ lettered)
    (found : longestWord? (spelling ++ more.takeWhile isNameByte) =
      some (spelling.length, token)) : IsReadBack fractions token more := by
  have letters := isNameByte_lettered member
  have long := (lettered_spelling _ member).2
  rw [IsReadBack, (mem_lettered member).2.1]
  rcases spelling with _ | ⟨first, tail⟩
  · simp at long
  have named := letters first List.mem_cons_self
  refine ⟨first, tail ++ more, rfl, (spelling_letter first named).2, ?_⟩
  have run : first :: (tail ++ more).takeWhile isNameByte =
      first :: tail ++ more.takeWhile isNameByte := by
    rw [List.takeWhile_append_of_pos fun byte among => letters byte (List.mem_cons_of_mem _ among)]
    rfl
  rw [readAfter_name fractions _ named]
  unfold readLetters
  simp only [run, found, List.length_cons, Nat.add_sub_cancel, List.drop_left]

/-- With no letter behind it, a word is read back. -/
theorem readAfter_word_of_ends (member : (spelling, token) ∈ lettered)
    (ends : more.head?.any isNameByte = false) : IsReadBack fractions token more := by
  have none : more.takeWhile isNameByte = [] := @takeWhile_run isNameByte [] more nofun ends
  refine readAfter_word member ?_
  rw [none, List.append_nil]
  exact longestWord?_spelling member

theorem readAfter_typed (typed : name.IsTyped) (ends : more.head?.any name.goesOn = false) :
    readAfter fractions name.first (name.tail ++ more) = readVariable name more := by
  rw [readAfter_name fractions _ typed.named, readLetters_name typed ends]

theorem readAfter_scalar (typed : name.IsTyped)
    (apart : more.head?.any (Listing.joins fractions (.scalar name)) = false) :
    IsReadBack fractions (.scalar name) more := by
  refine ⟨name.first, name.tail ++ more, ?_, (spelling_letter _ typed.named).2, ?_⟩
  · rw [Token.spelling, typed.spelling_eq]
    rfl
  cases more with
  | nil => exact readAfter_typed typed rfl
  | cons next more =>
    have parts : (next ≠ 36 ∧ next ≠ 40) ∧ name.goesOn next = false := by
      simpa [Listing.joins] using apart
    rw [@readAfter_typed fractions name (next :: more) typed parts.2, readVariable_cons,
      if_neg parts.1.1, if_neg parts.1.2]

/-- Neither `$` nor a bracket goes on with a name. -/
theorem goesOn_of_unnamed {byte : UInt8} (undigital : isDigit byte = false)
    (unnamed : isNameByte byte = false) : name.goesOn byte = false := by
  simp [Name.goesOn, undigital, unnamed]

theorem readAfter_string (typed : name.IsTyped) : IsReadBack fractions (.string name) more := by
  refine ⟨name.first, name.tail ++ 36 :: more, ?_, (spelling_letter _ typed.named).2, ?_⟩
  · rw [Token.spelling, typed.spelling_eq, List.append_assoc]
    rfl
  · rw [@readAfter_typed fractions name (36 :: more) typed (goesOn_of_unnamed rfl rfl)]
    rfl

theorem readAfter_array (typed : name.IsTyped) :
    IsReadBack fractions (.array name) (40 :: more) := by
  refine ⟨name.first, name.tail ++ 40 :: more, ?_, (spelling_letter _ typed.named).2, ?_⟩
  · rw [Token.spelling, typed.spelling_eq]
    rfl
  · rw [@readAfter_typed fractions name (40 :: more) typed (goesOn_of_unnamed rfl rfl)]
    rfl

/-! ### Comparisons, literals and numbers -/

theorem readAfter_relational {first : UInt8} (text : Bytes)
    (relational : first = 61 ∨ first = 60 ∨ first = 62) :
    readAfter fractions first text = readComparison first text := by
  rcases relational with rfl | rfl | rfl <;>
    simp [readAfter, beginsNumber, isDigit]

/-- **A comparison is read back** where what is listed behind it is no part of one. -/
theorem readAfter_comparison {op : Operator} (relational : op.isRelational = true)
    (solid : more.head?.any isBlank = false)
    (apart : more.head?.any (Listing.joins fractions (.operator op)) = false) :
    IsReadBack fractions (.operator op) more := by
  have skipped : skipBlanks more = more := @dropWhile_run isBlank [] more nofun solid
  have single (first : UInt8) (mark : first = 61 ∨ first = 60 ∨ first = 62)
      (unpaired : ∀ next, more.head? = some next →
        ¬ (first = 61 ∧ next = 62 ∨ first = 62 ∧ next = 61) ∧
        ¬ (first = 61 ∧ next = 60 ∨ first = 60 ∧ next = 61) ∧ ¬ (first = 60 ∧ next = 62)) :
      readAfter fractions first more = ((readComparison first []).1, more) := by
    rw [readAfter_relational more mark]
    rcases more with _ | ⟨next, more⟩
    · rcases mark with rfl | rfl | rfl <;> rfl
    · obtain ⟨greater, less, different⟩ := unpaired next rfl
      rw [readComparison_of_skipped skipped, if_neg greater, if_neg less, if_neg different]
  cases op with
  | equal =>
    refine ⟨61, more, rfl, rfl, single 61 (.inl rfl) fun next head => ?_⟩
    simpa [head, Listing.joins, and_comm] using apart
  | less =>
    refine ⟨60, more, rfl, rfl, single 60 (.inr (.inl rfl)) fun next head => ?_⟩
    simpa [head, Listing.joins] using apart
  | greater =>
    refine ⟨62, more, rfl, rfl, single 62 (.inr (.inr rfl)) fun next head => ?_⟩
    simpa [head, Listing.joins] using apart
  | notEqual => exact ⟨60, 62 :: more, rfl, rfl, readAfter_relational _ (.inr (.inl rfl))⟩
  | lessEqual => exact ⟨60, 61 :: more, rfl, rfl, readAfter_relational _ (.inr (.inl rfl))⟩
  | greaterEqual => exact ⟨62, 61 :: more, rfl, rfl, readAfter_relational _ (.inr (.inr rfl))⟩
  | _ => cases relational

theorem readAfter_literal {text : Bytes} (unquoted : ∀ byte ∈ text, byte ≠ 34)
    (legible : Unicode.repaired text = text) : IsReadBack fractions (.literal text) more := by
  refine ⟨34, text ++ 34 :: more, ?_, rfl, ?_⟩
  · rw [Token.spelling, legible]
    simp
  have inside : ∀ byte ∈ text, decide (byte ≠ 34) = true := fun byte among =>
    decide_eq_true (unquoted byte among)
  rw [readAfter_quote, readLiteral, takeWhile_run inside rfl, dropWhile_run inside rfl]
  rfl

theorem readAfter_number {value : Single} (positive : value.isNegative = false)
    (written : IsWritten fractions value) (ends : EndsNumber fractions more) :
    IsReadBack fractions (.number value) more := by
  obtain ⟨digit, rest, text, digital⟩ := exists_text positive written.1
  refine ⟨digit, rest ++ more, ?_, ?_, ?_⟩
  · rw [Token.spelling, text]
    rfl
  · grind [isDigit, isBlank]
  · have begins : beginsNumber fractions digit (rest ++ more) = true := by
      rw [beginsNumber, digital, Bool.true_or]
    rw [readAfter, if_pos begins, ← List.cons_append, ← text, readNumber_text positive written ends]

/-! ### What a token leaves -/

theorem spelling_readVariable (typed : name.IsTyped) (rest : Bytes) :
    (readVariable name rest).1.spelling ++ (readVariable name rest).2.map upper =
      name.first :: name.tail ++ rest.map upper := by
  unfold readVariable
  split <;> simp [Token.spelling, typed.spelling_eq, show upper 36 = 36 from rfl,
    show upper 40 = 40 from rfl]

/-- **A word, a name or a letter is listed as it was typed**, in upper case. -/
theorem spelling_readLetters {first : UInt8} (rest : Bytes) (named : isNameByte first = true) :
    (readLetters first rest).1.spelling ++ (readLetters first rest).2.map upper =
      upper first :: rest.map upper := by
  have capital : isNameByte (upper first) = true := (isNameByte_upper first).trans named
  unfold readLetters
  simp only
  split
  · rename_i length word found
    obtain ⟨spelling, member, rfl, starts⟩ := longestWord?_mem found
    have long : 2 ≤ spelling.length := (lettered_spelling _ member).2
    have front : spelling <+: (first :: rest).map upper :=
      (startsWith_iff.mp starts).trans
        (((List.prefix_cons_inj first).mpr (List.takeWhile_prefix _)).map upper)
    have behind := List.prefix_iff_eq_append.mp front
    rw [← List.map_drop, show spelling.length = spelling.length - 1 + 1 by omega,
      List.drop_succ_cons] at behind
    rw [(mem_lettered member).2.1]
    exact behind
  · rename_i wordless
    rcases run : rest.takeWhile isNameByte with _ | ⟨second, _ | ⟨third, more⟩⟩
    · rcases rest with _ | ⟨next, rest⟩
      · simp [Token.spelling, (isTyped_single named).spelling_eq, Name.tail]
      by_cases digit : isDigit next = true
      · have typed := isTyped_digit named digit
        have same := upper_of_not_isLetter next (not_isLetter_of_isDigit next digit)
        simp only [digit, if_true, spelling_readVariable typed]
        simp [Name.tail, (lt_of_isDigit digit).2, same]
      · simp only [digit, Bool.false_eq_true, if_false,
          spelling_readVariable (isTyped_single named)]
        rfl
    · obtain ⟨typed, present⟩ := isTyped_pair named run wordless
      obtain ⟨rest, rfl⟩ : ∃ tail, rest = second :: tail := by
        have front := List.takeWhile_prefix (l := rest) isNameByte
        rw [run] at front
        exact front.imp fun tail split => split.symm
      simp only [List.drop_succ_cons, List.drop_zero, spelling_readVariable typed]
      simp [Name.tail, present]
    · simp only [(spelling_letter _ capital).1]
      rfl

end Lexer

end PocketBasic
