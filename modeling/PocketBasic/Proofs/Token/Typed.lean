/-
**Typed tokens.** What a typed line splits into can be stored.

* `longestWord?_mem`: a reserved word that is recognised is one of the vocabulary;
* `Token.IsTyped`: the tokens that some typed line has at some place;
* **`Token.IsTyped.isStorable`**: each of them is the same after it was stored.
-/

import Mathlib.Data.List.Basic
import Mathlib.Tactic.Common
import PocketBasic.Proofs.Program.Decoding
import PocketBasic.Proofs.Text.Classes
import PocketBasic.Token.Lexer

namespace PocketBasic

/-! ### Reserved words -/

theorem mem_lettered {spelling : Bytes} {token : Token} (member : (spelling, token) ∈ lettered) :
    token ∈ vocabulary ∧ token.spelling = spelling ∧ isLetter (spelling.headD 0) = true := by
  obtain ⟨word, among, kept⟩ := List.mem_filterMap.mp member
  split at kept
  · cases kept
    exact ⟨among, rfl, ‹_›⟩
  · cases kept

/-- What is kept of some words is one of them, or what was kept before. -/
theorem mem_of_foldl_longest {run : Bytes} {length : Nat} {token : Token}
    (words : List (Bytes × Token)) (best : Option (Nat × Token))
    (folded : words.foldl (fun longest (spelling, token) =>
      let length := spelling.length
      if Bytes.startsWith (run.map upper) spelling &&
          (longest.all fun best => best.1 < length) then some (length, token)
      else longest) best = some (length, token)) :
    best = some (length, token) ∨ ∃ spelling, (spelling, token) ∈ words ∧
      spelling.length = length ∧ Bytes.startsWith (run.map upper) spelling = true := by
  induction words generalizing best with
  | nil => exact .inl folded
  | cons word rest ih =>
    rcases ih _ folded with now | ⟨spelling, member, same, starts⟩
    · simp only at now
      split at now
      · rename_i taken
        cases now
        exact .inr ⟨word.1, List.mem_cons_self, rfl, (Bool.and_eq_true_iff.mp taken).1⟩
      · exact .inl now
    · exact .inr ⟨spelling, List.mem_cons_of_mem _ member, same, starts⟩

/-- **A recognised word is spelled at the front of the run**, in letters of either case. -/
theorem longestWord?_mem {run : Bytes} {length : Nat} {token : Token}
    (found : longestWord? run = some (length, token)) :
    ∃ spelling, (spelling, token) ∈ lettered ∧ spelling.length = length ∧
      Bytes.startsWith (run.map upper) spelling = true := by
  rw [longestWord?] at found
  rcases mem_of_foldl_longest lettered none found with none | word
  · cases none
  · exact word

/-! ### Storable tokens -/

namespace Token

theorem isStorable_ofByte : ∀ byte, (ofByte byte).IsStorable := by
  decide +kernel

theorem isStorable_of_mem_vocabulary {token : Token} (member : token ∈ vocabulary) :
    token.IsStorable := by
  cases token with
  | endOfText => exact absurd member (by decide)
  | lineNumber line => exact absurd member (by simp [vocabulary, shortVocabulary, longVocabulary])
  | symbol byte => exact absurd member (by simp [vocabulary, shortVocabulary, longVocabulary])
  | _ => exact trivial

end Token

namespace Lexer

open Token (IsStorable)

theorem isStorable_readComparison (first : UInt8) (rest : Bytes) :
    (readComparison first rest).1.IsStorable := by
  unfold readComparison
  simp only
  split <;> exact trivial

theorem isStorable_readVariable (name : Name) (rest : Bytes) :
    (readVariable name rest).1.IsStorable := by
  unfold readVariable
  split <;> exact trivial

/-- A name byte in upper case is a character of its own. -/
theorem ofByte_upper : ∀ byte, isNameByte byte = true →
    Token.ofByte (upper byte) = .symbol (upper byte) := by
  decide +kernel

theorem isStorable_readLetters {first : UInt8} (rest : Bytes) (named : isNameByte first = true) :
    (readLetters first rest).1.IsStorable := by
  unfold readLetters
  simp only
  split
  · obtain ⟨_, member, _⟩ := longestWord?_mem ‹_›
    exact Token.isStorable_of_mem_vocabulary (mem_lettered member).1
  · split
    · split
      · exact isStorable_readVariable _ _
      · exact isStorable_readVariable _ _
    · exact isStorable_readVariable _ _
    · exact trivial
    · exact ofByte_upper first named

/-- **Every token that is read can be stored.** -/
theorem isStorable_readAfter (fractions : Bool) (first : UInt8) (rest : Bytes) :
    (readAfter fractions first rest).1.IsStorable := by
  unfold readAfter
  split
  · exact trivial
  · split
    · exact trivial
    · split
      · exact isStorable_readComparison first rest
      · split
        · exact isStorable_readLetters rest ‹_›
        · exact Token.isStorable_ofByte first

end Lexer

/-! ### Typed tokens -/

/-- Whether some typed line has the token at some place. -/
def Token.IsTyped (token : Token) : Prop :=
  token ≠ .endOfText ∧ ∃ line : TypedLine, line.next.1 = token

/-- **What is typed can be stored.** -/
theorem Token.IsTyped.isStorable {token : Token} (typed : token.IsTyped) : token.IsStorable := by
  obtain ⟨some, line, rfl⟩ := typed
  unfold TypedLine.next at some ⊢
  split at some <;> rename_i verbatim
  · rw [if_pos verbatim]
    split at some
    · exact absurd rfl some
    · rename_i byte _ _
      exact isStorable_ofByte byte
  · rw [if_neg verbatim]
    simp only [Lexer.read] at some ⊢
    split
    · rename_i blank
      rw [blank] at some
      exact absurd rfl some
    · exact Lexer.isStorable_readAfter line.fractions _ _

end PocketBasic
