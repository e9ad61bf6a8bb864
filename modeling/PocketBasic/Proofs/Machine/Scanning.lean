/-
**Scanning forward.** No statement is read ahead of time: the end of a statement, of a line or of a
block is found by reading tokens until it comes. The scans have fuel for every text, so what they
find depends on the tokens alone.

* `Machine.IsFirst`: the first token with a property;
* **`Machine.skipTo_eq`**: reading on stops at the first token with a property;
* `Balanced`: tokens in which every block that is opened is closed;
* **`Machine.runOn_findBracket`**: the end of a block is found behind what is balanced.
-/

import Mathlib.Data.Nat.Find
import Mathlib.Tactic.Common
import PocketBasic.Proofs.Attempt
import PocketBasic.Proofs.Machine.Ahead

namespace PocketBasic

/-! ### Balanced tokens -/

/-- Tokens in which every word that opens a block is followed by the word that closes it, and the
other way round. The text goes on behind them. -/
inductive Balanced (opening closing : Keyword) : List Token → Prop
  | nil : Balanced opening closing []
  | other {token : Token} {rest : List Token} (goesOn : token ≠ .endOfText)
    (opens : token ≠ .word opening) (closes : token ≠ .word closing) :
    Balanced opening closing rest → Balanced opening closing (token :: rest)
  | block {inner rest : List Token} : Balanced opening closing inner →
    Balanced opening closing rest →
      Balanced opening closing (.word opening :: (inner ++ .word closing :: rest))

theorem Balanced.goesOn {opening closing : Keyword} {tokens : List Token}
    (balanced : Balanced opening closing tokens) : .endOfText ∉ tokens := by
  induction balanced with
  | nil => exact List.not_mem_nil
  | other goesOn _ _ _ ih =>
    intro member
    rcases List.mem_cons.mp member with rfl | member
    · exact goesOn rfl
    · exact ih member
  | block _ _ innerIh restIh =>
    intro member
    simp only [List.mem_cons, List.mem_append, reduceCtorEq, false_or] at member
    exact member.elim innerIh restIh

/-- Tokens without the words are balanced. -/
theorem Balanced.of_forall {opening closing : Keyword} {tokens : List Token}
    (plain : ∀ token ∈ tokens, token ≠ .endOfText ∧ token ≠ .word opening ∧
      token ≠ .word closing) : Balanced opening closing tokens := by
  induction tokens with
  | nil => exact .nil
  | cons token rest ih =>
    obtain ⟨goesOn, opens, closes⟩ := plain token (.head _)
    exact .other goesOn opens closes (ih fun token member => plain token (.tail _ member))

theorem Token.isWord_word (word expected : Keyword) :
    (Token.word word).isWord expected = decide (word = expected) := rfl

theorem Token.isWord_eq_false {token : Token} {word : Keyword} (other : token ≠ .word word) :
    token.isWord word = false := by
  cases token with
  | word found => exact decide_eq_false fun same => other (congrArg Token.word same)
  | _ => rfl

namespace Machine

variable {machine : Machine} {stops : Token → Bool} {count other : Nat} {tokens rest : List Token}

/-! ### Tokens by their places -/

theorem cursorAt_add (count other : Nat) :
    (nextToken^[count] machine).cursorAt other = machine.cursorAt (count + other) := by
  have further := congrArg cursor (iterate_nextToken (nextToken^[count] machine) other)
  rw [← Function.iterate_add_apply, Nat.add_comm, iterate_nextToken] at further
  exact further.symm

theorem token_iterate (count : Nat) :
    (nextToken^[count] machine).cursor.token = (machine.cursorAt count).token := by
  rw [iterate_nextToken]

theorem reads_append : machine.Reads (tokens ++ rest) ↔
    machine.Reads tokens ∧ (nextToken^[tokens.length] machine).Reads rest := by
  have split := @readsAt_append machine 0 tokens rest
  rwa [Nat.zero_add] at split

/-- What is read ahead can be computed. -/
instance decidableReads : (tokens : List Token) → (machine : Machine) →
    Decidable (machine.Reads tokens)
  | [], _ => .isTrue trivial
  | token :: rest, machine =>
    have := decidableReads rest machine.nextToken
    inferInstanceAs (Decidable (machine.cursor.token = token ∧ machine.nextToken.Reads rest))

/-- The tokens of a text from a place on. -/
theorem readsAt_map (machine : Machine) (count : Nat) (places : Nat) :
    machine.ReadsAt count
      ((List.range' count places).map fun place => (machine.cursorAt place).token) := by
  induction places generalizing count with
  | zero => exact trivial
  | succ places ih =>
    rw [List.range'_succ, List.map_cons, readsAt_cons]
    exact ⟨rfl, ih (count + 1)⟩

/-- A token of the list by its place. -/
theorem Reads.token_of_lt (reads : machine.Reads tokens) {place : Nat}
    (inside : place < tokens.length) : (machine.cursorAt place).token = tokens[place] := by
  have split := reads
  rw [← List.take_append_drop place tokens, reads_append] at split
  obtain ⟨-, later⟩ := split
  rw [List.length_take, Nat.min_eq_left (Nat.le_of_lt inside), List.drop_eq_getElem_cons inside]
    at later
  rw [← token_iterate]
  exact later.1

/-! ### The first token with a property -/

/-- Whether the token at a place ahead is the first one with a property. -/
def IsFirst (machine : Machine) (stops : Token → Bool) (count : Nat) : Prop :=
  stops (machine.cursorAt count).token = true ∧
    ∀ earlier < count, stops (machine.cursorAt earlier).token = false

theorem IsFirst.unique (first : machine.IsFirst stops count) (again : machine.IsFirst stops other) :
    count = other := by
  rcases Nat.lt_trichotomy count other with before | same | behind
  · exact absurd (again.2 count before) (by rw [first.1]; exact Bool.noConfusion)
  · exact same
  · exact absurd (first.2 other behind) (by rw [again.1]; exact Bool.noConfusion)

/-- What is first from a later place on is first if nothing comes before that place. -/
theorem isFirst_iterate
    (passes : ∀ earlier < count, stops (machine.cursorAt earlier).token = false) :
    (nextToken^[count] machine).IsFirst stops other ↔ machine.IsFirst stops (count + other) := by
  unfold IsFirst
  rw [cursorAt_add]
  refine and_congr_right fun _ => ⟨fun first earlier before => ?_, fun first earlier before => ?_⟩
  · by_cases near : earlier < count
    · exact passes earlier near
    · obtain ⟨further, rfl⟩ := Nat.exists_eq_add_of_le (Nat.not_lt.mp near)
      rw [← cursorAt_add]
      exact first further (by omega)
  · rw [cursorAt_add]
    exact first _ (by omega)

/-- **A text has an end**, and a property that the end has comes no later. -/
theorem exists_isFirst (ends : stops .endOfText = true) (machine : Machine) :
    ∃ count ≤ machine.textLength + 1, machine.IsFirst stops count := by
  have somewhere : ∃ count, count ≤ machine.textLength + 1 ∧
      stops (machine.cursorAt count).token = true := by
    by_contra nowhere
    have passes (place : Nat) (near : place ≤ machine.textLength + 1) :
        (machine.cursorAt place).token ≠ .endOfText := by
      intro last
      refine nowhere ⟨place, near, ?_⟩
      rw [last]
      exact ends
    -- So many tokens do not fit into the text.
    have reads := readsAt_map machine 0 (machine.textLength + 2)
    rw [List.range'_succ, List.map_cons] at reads
    have short := reads.length_le (by
      intro member
      rw [List.mem_map] at member
      obtain ⟨place, among, last⟩ := member
      rw [List.mem_range'_1] at among
      exact passes place (by omega) last)
    rw [List.length_map, List.length_range'] at short
    omega
  classical
  have found := Nat.find_spec somewhere
  refine ⟨Nat.find somewhere, found.1, found.2, fun earlier before => ?_⟩
  have missed := Nat.find_min somewhere before
  by_contra stopped
  exact missed ⟨by omega, by simpa using stopped⟩

theorem skipWithin_eq {fuel : Nat} (first : machine.IsFirst stops count) (enough : count ≤ fuel) :
    skipWithin stops fuel machine = nextToken^[count] machine := by
  induction fuel generalizing machine count with
  | zero =>
    obtain rfl : count = 0 := by omega
    rfl
  | succ fuel ih =>
    rw [skipWithin]
    cases count with
    | zero => exact if_pos first.1
    | succ count =>
      have passes : stops machine.cursor.token = false := first.2 0 (Nat.succ_pos count)
      rw [passes, if_neg Bool.false_ne_true, Function.iterate_succ_apply]
      refine ih ?_ (by omega)
      have later := @isFirst_iterate machine stops 1 count fun earlier before => by
        obtain rfl : earlier = 0 := by omega
        exact passes
      rw [Nat.add_comm] at later
      exact later.mpr first

/-- **Reading on stops at the first token with a property.** -/
theorem skipTo_eq (ends : stops .endOfText = true) (first : machine.IsFirst stops count) :
    skipTo stops machine = nextToken^[count] machine := by
  obtain ⟨other, near, again⟩ := exists_isFirst ends machine
  obtain rfl := first.unique again
  exact skipWithin_eq first near

/-- Reading on over tokens without a property, to one that has it. -/
theorem skipTo_eq_of_reads {last : Token} (ends : stops .endOfText = true)
    (reads : machine.Reads (tokens ++ last :: rest))
    (passes : ∀ token ∈ tokens, stops token = false) (found : stops last = true) :
    skipTo stops machine = nextToken^[tokens.length] machine := by
  refine skipTo_eq ends ⟨?_, fun earlier before => ?_⟩
  · rw [← token_iterate, (reads_append.mp reads).2.1]
    exact found
  · rw [(reads_append.mp reads).1.token_of_lt before]
    exact passes _ (List.getElem_mem before)

/-! ### Blocks -/

section Blocks

variable {opening closing : Keyword}

/-- A token that is neither of the two words is read over. -/
theorem runOn_findBracketWithin_other (fuel depth : Nat)
    (goesOn : machine.cursor.token ≠ .endOfText) (opens : machine.cursor.token ≠ .word opening)
    (closes : machine.cursor.token ≠ .word closing) :
    (findBracketWithin opening closing (fuel + 1) depth).runOn machine =
      (findBracketWithin opening closing fuel depth).runOn machine.nextToken := by
  conv_lhs => unfold findBracketWithin
  have looked : token.runOn machine = (.ok machine.cursor.token, machine) := rfl
  rw [Attempt.runOn_bind_ok looked]
  rw [if_neg goesOn, Token.isWord_eq_false opens, Token.isWord_eq_false closes,
    if_neg Bool.false_ne_true, if_neg Bool.false_ne_true]
  rfl

theorem runOn_findBracketWithin_opening (fuel depth : Nat)
    (here : machine.cursor.token = .word opening) :
    (findBracketWithin opening closing (fuel + 1) depth).runOn machine =
      (findBracketWithin opening closing fuel (depth + 1)).runOn machine.nextToken := by
  conv_lhs => unfold findBracketWithin
  have looked : token.runOn machine = (.ok (.word opening), machine) := by rw [← here]; rfl
  rw [Attempt.runOn_bind_ok looked]
  rw [if_neg (by exact nofun), Token.isWord_word, decide_eq_true rfl, if_pos rfl]
  rfl

theorem runOn_findBracketWithin_closing (fuel depth : Nat) (different : opening ≠ closing)
    (here : machine.cursor.token = .word closing) :
    (findBracketWithin opening closing (fuel + 1) (depth + 1)).runOn machine =
      (findBracketWithin opening closing fuel depth).runOn machine.nextToken := by
  conv_lhs => unfold findBracketWithin
  have looked : token.runOn machine = (.ok (.word closing), machine) := by rw [← here]; rfl
  rw [Attempt.runOn_bind_ok looked]
  dsimp only
  rw [if_neg (by exact nofun), Token.isWord_word, decide_eq_false different.symm,
    if_neg Bool.false_ne_true, Token.isWord_word, decide_eq_true rfl, if_pos rfl]
  rfl

theorem runOn_findBracketWithin_found (fuel : Nat) (different : opening ≠ closing)
    (here : machine.cursor.token = .word closing) :
    (findBracketWithin opening closing (fuel + 1) 0).runOn machine = (.ok (), machine) := by
  unfold findBracketWithin
  have looked : token.runOn machine = (.ok (.word closing), machine) := by rw [← here]; rfl
  rw [Attempt.runOn_bind_ok looked]
  dsimp only
  rw [if_neg (by exact nofun), Token.isWord_word, decide_eq_false different.symm,
    if_neg Bool.false_ne_true, Token.isWord_word, decide_eq_true rfl, if_pos rfl]
  rfl

/-- Reading over a block is reading over its words and what is between them and behind it. -/
theorem iterate_block (inner rest : List Token) (machine : Machine) :
    nextToken^[(Token.word opening :: (inner ++ .word closing :: rest)).length] machine =
      nextToken^[rest.length] (nextToken^[inner.length] machine.nextToken).nextToken := by
  rw [← Function.iterate_succ_apply, ← Function.iterate_add_apply, List.length_cons,
    Function.iterate_succ_apply, List.length_append, List.length_cons, Nat.add_comm]

theorem length_block_add (inner rest : List Token) (fuel : Nat) :
    (Token.word opening :: (inner ++ .word closing :: rest)).length + fuel =
      inner.length + (rest.length + fuel + 1) + 1 := by
  simp only [List.length_cons, List.length_append]
  omega

/-- **What is balanced is read over**, at any depth, and takes as much fuel as it has tokens. -/
theorem runOn_findBracketWithin_balanced (different : opening ≠ closing)
    (balanced : Balanced opening closing tokens) (fuel depth : Nat) (reads : machine.Reads tokens) :
    (findBracketWithin opening closing (tokens.length + fuel) depth).runOn machine =
      (findBracketWithin opening closing fuel depth).runOn (nextToken^[tokens.length] machine) := by
  induction balanced generalizing machine fuel depth with
  | nil => rw [List.length_nil, Nat.zero_add, Function.iterate_zero_apply]
  | @other token rest goesOn opens closes _ ih =>
    obtain ⟨here, later⟩ := reads
    rw [List.length_cons, Nat.add_right_comm, runOn_findBracketWithin_other _ _ (here ▸ goesOn)
      (here ▸ opens) (here ▸ closes), ih _ _ later, Function.iterate_succ_apply]
  | @block inner rest _ _ innerIh restIh =>
    obtain ⟨here, inside⟩ := reads
    obtain ⟨inside, closed, later⟩ := reads_append.mp inside
    rw [length_block_add, iterate_block, runOn_findBracketWithin_opening _ _ here,
      innerIh _ _ inside,
      runOn_findBracketWithin_closing _ _ different closed, restIh _ _ later]

/-- **The end of a block is found** behind its balanced body. -/
theorem runOn_findBracket (different : opening ≠ closing)
    (balanced : Balanced opening closing tokens)
    (reads : machine.Reads (tokens ++ .word closing :: rest)) :
    (findBracket opening closing).runOn machine =
      (.ok (), nextToken^[tokens.length] machine) := by
  obtain ⟨inside, closed, -⟩ := reads_append.mp reads
  have enough : tokens.length ≤ machine.textLength := by
    cases tokens with
    | nil => exact Nat.zero_le _
    | cons first others =>
      have ahead : machine.ReadsAt 0 (first :: (others ++ [.word closing])) :=
        (@reads_append machine (first :: others) [.word closing]).mpr ⟨inside, closed, trivial⟩
      have short := ahead.length_le (by
        intro member
        rcases List.mem_append.mp member with member | member
        · exact balanced.goesOn (List.mem_cons_of_mem _ member)
        · cases List.mem_singleton.mp member)
      rwa [List.length_append, List.length_singleton] at short
  obtain ⟨spare, total⟩ := Nat.exists_eq_add_of_le enough
  rw [findBracket, Attempt.runOn_get_bind, total, Nat.add_assoc,
    runOn_findBracketWithin_balanced different balanced _ _ inside,
    runOn_findBracketWithin_found _ different closed]

end Blocks

end Machine

end PocketBasic
