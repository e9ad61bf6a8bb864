/-
**Words and names in a run of letters.** A reserved word is recognised by its own letters, and a
name by bytes that no reserved word begins.

* `exists_longestWord?`: of the words that a run begins with, the longest is recognised;
* `longestWord?_none_of_prefix`: a run that begins with no word has none in front of a shorter one;
* **`longestWord?_spelling`**: the letters of a word are recognised as that word;
* `Name.IsTyped`: the names that can be typed, which begin with no reserved word;
* **`Lexer.readLetters_name`**: such a name is read back, unless what stands behind it goes on with
  it.
-/

import Mathlib.Data.List.Basic
import Mathlib.Data.List.Infix
import Mathlib.Data.List.Nodup
import Mathlib.Tactic.Common
import PocketBasic.Proofs.Token.UpperCase

namespace PocketBasic

/-! ### Reserved words -/

/-- One of `A` to `Z`. -/
def isUpperLetter (byte : UInt8) : Bool := 65 ≤ byte && byte ≤ 90

theorem upper_of_isUpperLetter {byte : UInt8} (letter : isUpperLetter byte = true) :
    upper byte = byte := by
  grind [isUpperLetter, upper]

theorem isNameByte_of_isUpperLetter {byte : UInt8} (letter : isUpperLetter byte = true) :
    Lexer.isNameByte byte = true := by
  grind [isUpperLetter, Lexer.isNameByte, isLetter]

/-- Every reserved word has two letters or more. -/
theorem lettered_spelling :
    ∀ word ∈ lettered, word.1.all isUpperLetter = true ∧ 2 ≤ word.1.length := by
  decide +kernel

/-- No two reserved words have the same letters. -/
theorem nodup_lettered : (lettered.map Prod.fst).Nodup := by
  decide +kernel

variable {spelling run : Bytes} {token : Token}

theorem inUpperCase_lettered (member : (spelling, token) ∈ lettered) :
    spelling.inUpperCase = spelling := by
  have letters := List.all_eq_true.mp (lettered_spelling _ member).1
  exact (List.map_congr_left fun byte among => upper_of_isUpperLetter (letters byte among)).trans
    (List.map_id _)

theorem isNameByte_lettered (member : (spelling, token) ∈ lettered) :
    ∀ byte ∈ spelling, Lexer.isNameByte byte = true := fun byte among =>
  isNameByte_of_isUpperLetter (List.all_eq_true.mp (lettered_spelling _ member).1 byte among)

theorem startsWith_iff {text start : Bytes} :
    Bytes.startsWith text start = true ↔ start <+: text :=
  List.isPrefixOf_iff_prefix

/-- What is kept of some words is at least as long as what was kept before, and as each of the words
that the letters begin with. -/
theorem exists_of_foldl_longest (letters : Bytes) (words : List (Bytes × Token))
    (best : Option (Nat × Token)) :
    let kept := words.foldl (fun longest (spelling, token) =>
      let length := spelling.length
      if Bytes.startsWith letters spelling && (longest.all fun best => best.1 < length) then
        some (length, token)
      else longest) best
    (∀ before ∈ best, ∃ found ∈ kept, before.1 ≤ found.1) ∧
      ∀ word ∈ words, word.1 <+: letters → ∃ found ∈ kept, word.1.length ≤ found.1 := by
  induction words generalizing best with
  | nil => exact ⟨fun before among => ⟨before, among, Nat.le_refl _⟩, nofun⟩
  | cons word rest ih =>
    obtain ⟨keeps, takes⟩ := ih (if Bytes.startsWith letters word.1 &&
      (best.all fun best => best.1 < word.1.length) then some (word.1.length, word.2) else best)
    refine ⟨fun before among => ?_, fun other member starts => ?_⟩
    · by_cases taken : (Bytes.startsWith letters word.1 &&
        (best.all fun best => best.1 < word.1.length)) = true
      · have longer : before.1 < word.1.length := by
          have all := (Bool.and_eq_true_iff.mp taken).2
          rw [among] at all
          exact of_decide_eq_true all
        obtain ⟨found, kept, least⟩ := keeps (word.1.length, word.2) (by rw [if_pos taken]; rfl)
        exact ⟨found, kept, (Nat.le_of_lt longer).trans least⟩
      · exact keeps before (by rw [if_neg taken]; exact among)
    · rcases List.mem_cons.mp member with rfl | member
      · by_cases taken : (Bytes.startsWith letters other.1 &&
          (best.all fun best => best.1 < other.1.length)) = true
        · exact keeps (other.1.length, other.2) (by rw [if_pos taken]; rfl)
        -- the word was not taken since one as long was kept before
        · cases best with
          | none => exact absurd (by simp [startsWith_iff.mpr starts]) taken
          | some before =>
            have least : other.1.length ≤ before.1 := by
              simpa [startsWith_iff.mpr starts] using taken
            obtain ⟨found, kept, longer⟩ := keeps before (by rw [if_neg taken]; rfl)
            exact ⟨found, kept, least.trans longer⟩
      · exact takes other member starts

/-- **Of the words that a run begins with, none is longer than the recognised one.** -/
theorem exists_longestWord? (member : (spelling, token) ∈ lettered)
    (starts : spelling <+: run.map upper) :
    ∃ found, longestWord? run = some found ∧ spelling.length ≤ found.1 :=
  (exists_of_foldl_longest (run.map upper) lettered none).2 (spelling, token) member starts

theorem longestWord?_none_of_prefix {shorter : Bytes} (wordless : longestWord? run = none)
    (front : shorter.map upper <+: run.map upper) : longestWord? shorter = none := by
  cases found : longestWord? shorter with
  | none => rfl
  | some word =>
    obtain ⟨spelling, member, _, starts⟩ := longestWord?_mem found
    obtain ⟨again, longest, _⟩ :=
      exists_longestWord? member ((startsWith_iff.mp starts).trans front)
    cases wordless.symm.trans longest

/-- A single letter is no reserved word. -/
theorem longestWord?_single (byte : UInt8) : longestWord? [byte] = none := by
  cases found : longestWord? [byte] with
  | none => rfl
  | some word =>
    obtain ⟨spelling, member, _, starts⟩ := longestWord?_mem found
    have shorter := (startsWith_iff.mp starts).length_le
    have long := (lettered_spelling _ member).2
    rw [List.length_map] at shorter
    exact absurd (long.trans shorter) (by simp)

/-- **The letters of a word are recognised as that word.** -/
theorem longestWord?_spelling (member : (spelling, token) ∈ lettered) :
    longestWord? spelling = some (spelling.length, token) := by
  have same : spelling.map upper = spelling := inUpperCase_lettered member
  have front : spelling <+: spelling.map upper := by
    rw [same]
  obtain ⟨⟨length, word⟩, found, longer⟩ := exists_longestWord? member front
  obtain ⟨other, among, measured, starts⟩ := longestWord?_mem found
  rw [same, startsWith_iff] at starts
  have whole : other = spelling :=
    starts.eq_of_length_le (by rw [measured]; exact longer)
  subst whole
  have unique : (⟨other, word⟩ : Bytes × Token) = ⟨other, token⟩ :=
    List.inj_on_of_nodup_map nodup_lettered among member rfl
  rw [found, ← measured, (Prod.mk.inj unique).2]

/-! ### Names -/

/-- Whether a name can be typed: its letters are in upper case, and no reserved word begins it. -/
structure Name.IsTyped (name : Name) : Prop where
  named : Lexer.isNameByte name.first = true
  first : upper name.first = name.first
  second : name.second = 0 ∨ isDigit name.second = true ∨
    Lexer.isNameByte name.second = true ∧ upper name.second = name.second ∧
      longestWord? [name.first, name.second] = Option.none

/-- The byte of a name behind its first one, if it has two. -/
def Name.tail (name : Name) : Bytes := if name.second = 0 then [] else [name.second]

/-- Whether a byte that stands behind a name would be read as a part of it. -/
def Name.goesOn (name : Name) (next : UInt8) : Bool :=
  (name.second = 0 && isDigit next) || (!isDigit name.second && Lexer.isNameByte next)

theorem encode_ascii : ∀ byte : UInt8, byte < 128 →
    Unicode.encode [Char.ofNat byte.toNat] = [byte] := by
  decide +kernel

/-- Bytes that are ASCII stand for themselves. -/
theorem encode_bytes {bytes : Bytes} (small : ∀ byte ∈ bytes, byte < 128) :
    Unicode.encode (bytes.map fun byte => Char.ofNat byte.toNat) = bytes := by
  induction bytes with
  | nil => rfl
  | cons byte rest ih =>
    have one := encode_ascii byte (small byte List.mem_cons_self)
    have more := ih fun byte among => small byte (List.mem_cons_of_mem _ among)
    simp only [Unicode.encode, List.flatMap_cons, List.flatMap_nil, List.append_nil] at one
    simp only [Unicode.encode] at more
    simp only [Unicode.encode, List.map_cons, List.flatMap_cons, one, more]
    rfl

theorem lt_of_isNameByte {byte : UInt8} (named : Lexer.isNameByte byte = true) :
    byte < 128 ∧ byte ≠ 0 := by
  grind [Lexer.isNameByte, isLetter]

theorem lt_of_isDigit {byte : UInt8} (digit : isDigit byte = true) : byte < 128 ∧ byte ≠ 0 := by
  grind [isDigit]

namespace Name.IsTyped

variable {name : Name}

/-- A name is listed as its bytes. -/
theorem spelling_eq (typed : name.IsTyped) : name.spelling = name.first :: name.tail := by
  obtain ⟨small, present⟩ := lt_of_isNameByte typed.named
  have bytes : [name.first, name.second].takeWhile (· ≠ 0) = name.first :: name.tail := by
    by_cases single : name.second = 0 <;> simp [Name.tail, single, present]
  have smallToo : ∀ byte ∈ name.first :: name.tail, byte < 128 := by
    intro byte among
    rcases List.mem_cons.mp among with rfl | among
    · exact small
    · rw [Name.tail] at among
      split at among
      · cases among
      rw [List.mem_singleton.mp among]
      rcases typed.second with none | digit | ⟨letter, _⟩
      · contradiction
      · exact (lt_of_isDigit digit).1
      · exact (lt_of_isNameByte letter).1
  rw [Name.spelling, bytes]
  exact encode_bytes smallToo

theorem map_upper (typed : name.IsTyped) :
    (name.first :: name.tail).map upper = name.first :: name.tail := by
  rw [List.map_cons, typed.first, Name.tail]
  split
  · rfl
  · rcases typed.second with none | digit | ⟨_, capital, _⟩
    · contradiction
    · rw [List.map_singleton, upper_of_not_isLetter _ (not_isLetter_of_isDigit _ digit)]
    · rw [List.map_singleton, capital]

/-- The letters that a name begins with are in upper case. -/
theorem run_upper (typed : name.IsTyped) :
    ((name.first :: name.tail).takeWhile Lexer.isNameByte).map upper =
      (name.first :: name.tail).takeWhile Lexer.isNameByte := by
  rw [← Bytes.inUpperCase, ← Bytes.takeWhile_inUpperCase Lexer.isNameByte_upper,
    Bytes.inUpperCase, typed.map_upper]

end Name.IsTyped

theorem Name.goesOn_upper (name : Name) (byte : UInt8) :
    name.goesOn (upper byte) = name.goesOn byte := by
  rw [Name.goesOn, Name.goesOn, isDigit_upper, Lexer.isNameByte_upper]

namespace Lexer

variable {name : Name} {more : Bytes}

/-- **A name that was typed is read back**, unless what stands behind it goes on with it. -/
theorem readLetters_name (typed : name.IsTyped) (ends : more.head?.any name.goesOn = false) :
    readLetters name.first (name.tail ++ more) = readVariable name more := by
  obtain ⟨first, second⟩ := name
  have upperFirst : upper first = first := typed.first
  rcases typed.second with rfl | digit | ⟨named, upperSecond, wordless⟩
  · have behind : more.takeWhile isNameByte = [] := by
      cases more with
      | nil => rfl
      | cons next rest =>
        have parts : isDigit next = false ∧ isNameByte next = false := by
          simpa [Name.goesOn, show isDigit 0 = false from rfl] using ends
        exact List.takeWhile_cons_of_neg (Bool.eq_false_iff.mp parts.2)
    simp only [Name.tail, if_pos, List.nil_append, readLetters, behind, longestWord?_single]
    cases more with
    | nil => simp [upperFirst, readVariable]
    | cons next rest =>
      have parts : isDigit next = false ∧ isNameByte next = false := by
        simpa [Name.goesOn, show isDigit 0 = false from rfl] using ends
      simp [parts.1, upperFirst]
  · have unnamed : isNameByte second = false := by
      grind [isDigit, isNameByte, isLetter]
    have present : second ≠ 0 := (lt_of_isDigit digit).2
    have behind : (second :: more).takeWhile isNameByte = [] :=
      List.takeWhile_cons_of_neg (Bool.eq_false_iff.mp unnamed)
    simp only [Name.tail, if_neg present, List.cons_append, List.nil_append, readLetters, behind,
      longestWord?_single, digit, if_true, upperFirst]
  · have present : second ≠ 0 := (lt_of_isNameByte named).2
    have undigital : isDigit second = false := by
      grind [isDigit, isNameByte, isLetter]
    have behind : (second :: more).takeWhile isNameByte = [second] := by
      refine @takeWhile_run isNameByte [second] more (by simpa using named) ?_
      cases more with
      | nil => rfl
      | cons next rest => simpa [Name.goesOn, present, undigital] using ends
    have same : upper second = second := upperSecond
    simp only [Name.tail, if_neg present, List.cons_append, List.nil_append, readLetters, behind]
    rw [show longestWord? [first, second] = none from wordless]
    simp [upperFirst, same]

end Lexer

end PocketBasic
