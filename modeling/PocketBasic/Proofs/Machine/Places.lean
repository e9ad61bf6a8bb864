/-
**Places in a text.** Two cursors are at the same place if they read on alike, whatever is behind
them. A cursor that has read its token where it says that the token begins comes back to that place
when it is sent there, which is what loops and functions rely on.

* `Cursor.SamePlace`: two cursors at one place of a text;
* `Cursor.IsSettled`: a cursor that is sent to its own place stays there; tokens that are read, or
  jumped to, leave it settled, and so does everything but a `REM`;
* `Token.isOfExpression`: the tokens that an evaluation may read over;
* `Machine.IsAhead`: a machine some tokens further on in its text, with the texts as they were.
-/

import PocketBasic.Proofs.Expression.Soundness
import PocketBasic.Proofs.Machine.KeptTexts
import PocketBasic.Proofs.Machine.Scanning

namespace PocketBasic

/-! ### Tokens and lines -/

/-- Whether the token is a word or the name of a scalar, which are never read byte by byte. -/
def Token.isWhole : Token → Bool
  | word _ | scalar _ => true
  | _ => false

theorem Token.isWhole_ofByte (byte : UInt8) : (ofByte byte).isWhole = false := by
  unfold ofByte
  split_ifs <;> rfl

/-- What a line gives when it is read again from where it is. -/
theorem TypedLine.seek_position {line : TypedLine} (plain : line.verbatim = false)
    (inside : line.position ≤ line.text.length) : line.seek line.position = line := by
  unfold seek
  rw [Nat.min_eq_left inside, ← plain]

theorem TypedLine.plain_of_isWhole {line : TypedLine} (whole : line.next.1.isWhole = true) :
    line.verbatim = false ∧ line.position ≤ line.text.length := by
  have goesOn : line.next.1 ≠ .endOfText := by
    intro last
    rw [last] at whole
    cases whole
  have bounds := position_lt_next goesOn
  refine ⟨?_, by omega⟩
  by_contra verbatim
  rw [Bool.not_eq_false] at verbatim
  unfold next at whole
  rw [if_pos verbatim] at whole
  split at whole
  · cases whole
  · rw [Token.isWhole_ofByte] at whole
    cases whole

/-! ### Cursors -/

namespace Cursor

variable {texts : Mode → ProgramText} {width : AddressWidth} {first second third : Cursor}

/-- Whether two cursors have read the same token at the same place of one text. -/
@[mk_iff]
structure SamePlace (first second : Cursor) : Prop where
  mode : second.mode = first.mode
  token : second.token = first.token
  tokenOffset : second.tokenOffset = first.tokenOffset
  line : first.mode = .interactive → second.line = first.line
  offset : first.mode ≠ .interactive → second.offset = first.offset

instance : Decidable (first.SamePlace second) := decidable_of_iff' _ (samePlace_iff first second)

namespace SamePlace

theorem refl (cursor : Cursor) : cursor.SamePlace cursor :=
  ⟨rfl, rfl, rfl, fun _ => rfl, fun _ => rfl⟩

theorem symm (same : first.SamePlace second) : second.SamePlace first :=
  ⟨same.mode.symm, same.token.symm, same.tokenOffset.symm,
    fun typed => (same.line (same.mode ▸ typed)).symm,
    fun stored => (same.offset (same.mode ▸ stored)).symm⟩

theorem trans (same : first.SamePlace second) (again : second.SamePlace third) :
    first.SamePlace third :=
  ⟨again.mode.trans same.mode, again.token.trans same.token,
    again.tokenOffset.trans same.tokenOffset,
    fun typed => (again.line (same.mode ▸ typed)).trans (same.line typed),
    fun stored => (again.offset (same.mode ▸ stored)).trans (same.offset stored)⟩

theorem location (same : first.SamePlace second) : second.location = first.location := by
  unfold Cursor.location
  rw [same.mode, same.tokenOffset]

/-- Cursors at the same place read on alike. -/
theorem next (same : first.SamePlace second) :
    (first.next texts width).SamePlace (second.next texts width) := by
  cases typed : first.mode with
  | interactive =>
    have alike : second.line = first.line := same.line typed
    unfold Cursor.next
    rw [same.mode, typed]
    dsimp only
    rw [alike]
    exact ⟨rfl, rfl, rfl, fun _ => rfl, fun stored => absurd rfl stored⟩
  | run | runStore =>
    have alike : second.offset = first.offset := same.offset (by rw [typed]; exact nofun)
    unfold Cursor.next
    rw [same.mode, typed]
    dsimp only
    rw [alike]
    exact ⟨rfl, rfl, rfl, nofun, fun _ => rfl⟩

/-- Wherever they come from, cursors that go to one place of one text are there. -/
theorem movedTo (text : second.line.text = first.line.text)
    (fractions : second.line.fractions = first.line.fractions) (place : Location) :
    ((first.movedTo place).next texts width).SamePlace
      ((second.movedTo place).next texts width) := by
  rcases place with ⟨_ | _ | _, offset⟩
  · have alike : second.line.seek offset = first.line.seek offset := by
      unfold TypedLine.seek
      rw [text, fractions]
    unfold Cursor.movedTo Cursor.next
    dsimp only
    rw [alike]
    exact ⟨rfl, rfl, rfl, fun _ => rfl, fun stored => absurd rfl stored⟩
  · exact ⟨rfl, rfl, rfl, nofun, fun _ => rfl⟩
  · exact ⟨rfl, rfl, rfl, nofun, fun _ => rfl⟩

end SamePlace

/-- Whether two cursors are at one place, with the same typed line behind them. -/
structure ReadsAlike (first second : Cursor) : Prop where
  place : first.SamePlace second
  text : second.line.text = first.line.text
  fractions : second.line.fractions = first.line.fractions

namespace ReadsAlike

theorem refl (cursor : Cursor) : cursor.ReadsAlike cursor := ⟨.refl _, rfl, rfl⟩

theorem next (alike : first.ReadsAlike second) :
    (first.next texts width).ReadsAlike (second.next texts width) where
  place := alike.place.next
  text := by rw [(sharesText_next second).text, alike.text, (sharesText_next first).text]
  fractions := by
    rw [(sharesText_next second).fractions, alike.fractions, (sharesText_next first).fractions]

/-- Where cursors go, what matters of the text behind them is the typed line. -/
theorem movedTo (text : second.line.text = first.line.text)
    (fractions : second.line.fractions = first.line.fractions) (place : Location) :
    ((first.movedTo place).next texts width).ReadsAlike
      ((second.movedTo place).next texts width) where
  place := .movedTo text fractions place
  text := by
    rw [(sharesText_next _).text, (sharesText_next _).text, (line_movedTo _ _).1, text,
      (line_movedTo _ _).1]
  fractions := by
    rw [(sharesText_next _).fractions, (sharesText_next _).fractions, (line_movedTo _ _).2,
      fractions, (line_movedTo _ _).2]

end ReadsAlike

/-- Whether the current token is the one that stands where the cursor says that it begins. -/
def IsSettled (texts : Mode → ProgramText) (width : AddressWidth) (cursor : Cursor) : Prop :=
  cursor.SamePlace ((cursor.movedTo cursor.location).next texts width)

/-- What is read on is what stands at the place where the cursor reads on. -/
theorem next_eq_movedTo {cursor : Cursor} (plain : cursor.mode = .interactive →
      cursor.line.verbatim = false ∧ cursor.line.position ≤ cursor.line.text.length) :
    cursor.next texts width =
      (cursor.movedTo { mode := cursor.mode, offset := cursor.position }).next texts width := by
  cases typed : cursor.mode with
  | interactive =>
    obtain ⟨whole, inside⟩ := plain typed
    unfold movedTo position
    simp only [typed, TypedLine.seek_position whole inside]
    rw [← typed]
  | run | runStore =>
    unfold movedTo position
    simp only [typed]
    rw [← typed]

/-- A cursor that was sent to a place is settled. -/
theorem isSettled_movedTo (cursor : Cursor) (place : Location) :
    ((cursor.movedTo place).next texts width).IsSettled texts width := by
  rcases place with ⟨_ | _ | _, offset⟩
  · have shares : (cursor.movedTo ⟨.interactive, offset⟩).SharesText
        ((cursor.movedTo ⟨.interactive, offset⟩).next texts width) := sharesText_next _
    have alike : cursor.line.seek (min offset cursor.line.text.length) =
        cursor.line.seek offset := by
      unfold TypedLine.seek
      rw [Nat.min_assoc, Nat.min_self]
    have same := @SamePlace.movedTo texts width cursor
      ((cursor.movedTo ⟨.interactive, offset⟩).next texts width) shares.text shares.fractions
      ⟨.interactive, min offset cursor.line.text.length⟩
    refine SamePlace.trans ?_ same
    unfold movedTo Cursor.next
    dsimp only
    rw [alike]
    exact .refl _
  · exact ⟨rfl, rfl, rfl, nofun, fun _ => rfl⟩
  · exact ⟨rfl, rfl, rfl, nofun, fun _ => rfl⟩

/-- What is settled does not depend on what is behind a cursor. -/
theorem IsSettled.of_samePlace (settled : first.IsSettled texts width)
    (same : first.SamePlace second) : second.IsSettled texts width := by
  refine same.symm.trans (settled.trans ?_)
  rw [same.location]
  cases typed : first.mode with
  | interactive =>
    have alike : second.line = first.line := same.line typed
    exact .movedTo (by rw [alike]) (by rw [alike]) _
  | run | runStore =>
    unfold location movedTo
    rw [typed]
    dsimp only
    exact ⟨rfl, rfl, rfl, nofun, fun _ => rfl⟩

/-- **A settled cursor reads on settled**, but over a `REM`. -/
theorem IsSettled.next {cursor : Cursor} (settled : cursor.IsSettled texts width)
    (plain : cursor.token ≠ .word .rem) : (cursor.next texts width).IsSettled texts width := by
  rw [next_eq_movedTo fun typed => ?_]
  · exact isSettled_movedTo _ _
  have read : (cursor.line.seek cursor.tokenOffset).next.2 = cursor.line ∧
      (cursor.line.seek cursor.tokenOffset).next.1 = cursor.token := by
    have line := settled.line typed
    have token := settled.token
    unfold location movedTo Cursor.next at line token
    simp only [typed] at line token
    exact ⟨line, token⟩
  have plainly : (cursor.line.seek cursor.tokenOffset).verbatim = false := rfl
  generalize cursor.line.seek cursor.tokenOffset = line at read plainly
  obtain ⟨behind, token⟩ := read
  rw [← token] at plain
  rw [← behind]
  unfold TypedLine.next at plain ⊢
  rw [plainly] at plain ⊢
  simp only [Bool.false_eq_true, if_false] at plain ⊢
  exact ⟨Token.isWord_eq_false plain, Nat.sub_le _ _⟩

/-- A cursor that has read a word or a name is settled: neither is read byte by byte. -/
theorem isSettled_next {cursor : Cursor} (whole : (cursor.next texts width).token.isWhole = true) :
    (cursor.next texts width).IsSettled texts width := by
  rw [next_eq_movedTo fun typed => ?_]
  · exact isSettled_movedTo _ _
  unfold Cursor.next at whole
  simp only [typed] at whole
  exact TypedLine.plain_of_isWhole whole

end Cursor

/-! ### Tokens of expressions -/

theorem Keyword.isFunction_of_string {word : Keyword} (begins : word.isStringFunction = true) :
    word.isFunction = true := by
  cases word <;> first | rfl | cases begins

theorem Keyword.isFunction_of_arity {word : Keyword} {arity : Nat}
    (takes : Builtin.arity? word = some arity) : word.isFunction = true := by
  cases word <;> first | rfl | cases takes

/-- Whether an evaluation may read over the token. -/
def Token.isOfExpression : Token → Bool
  | endOfText | lineNumber _ => false
  | word keyword => keyword.isFunction
  | symbol byte => byte ≠ 58
  | _ => true

theorem Token.not_isTerminator {token : Token} (inside : token.isOfExpression = true) :
    token.isTerminator = false := by
  cases token with
  | endOfText | lineNumber _ => cases inside
  | symbol byte => simpa [isOfExpression, isTerminator] using inside
  | _ => rfl

theorem Token.isOfExpression_symbol {token : Token} {symbol : Char}
    (found : token.isSymbol symbol = true) (other : symbol.toUInt8 ≠ 58) :
    token.isOfExpression = true := by
  cases token with
  | symbol byte =>
    obtain rfl : byte = symbol.toUInt8 := of_decide_eq_true found
    exact decide_eq_true other
  | _ => cases found

theorem Token.isOfExpression_operator {token : Token} {operator : Operator}
    (found : token.isOperator operator = true) : token.isOfExpression = true := by
  cases token with
  | operator _ => rfl
  | _ => cases found

theorem Token.isOfExpression_relation {token : Token} {operator : Operator}
    (found : token.relation? = some operator) : token.isOfExpression = true := by
  cases token with
  | operator _ => rfl
  | _ => cases found

theorem Token.isOfExpression_oneOf {token : Token} {choices : List Operator}
    (found : (Machine.oneOf choices token).isSome = true) : token.isOfExpression = true := by
  cases token with
  | operator _ => rfl
  | _ => cases found

/-- Evaluations do not read over words that are no functions. -/
theorem Token.ne_word {token : Token} (inside : token.isOfExpression = true) {word : Keyword}
    (other : word.isFunction = false) : token ≠ .word word := by
  rintro rfl
  exact absurd (inside.symm.trans other) Bool.noConfusion

namespace Machine

variable {before middle after machine other : Machine} {count more : Nat}

/-- A machine that comes back is where the text before it says. -/
theorem KeepsTexts.readsAlike_jump
    (keeps : machine.KeepsTexts (jump machine.cursor.location after)) :
    ((machine.cursor.movedTo machine.cursor.location).next machine.programText
      machine.memory.width).ReadsAlike (jump machine.cursor.location after).cursor := by
  have texts := keeps.programText
  have width := keeps.width
  have shares := keeps.cursor
  rw [jump_eq] at texts width shares ⊢
  have returns := @Cursor.sharesText_next after.programText after.memory.width
    (after.cursor.movedTo machine.cursor.location)
  have line := Cursor.line_movedTo machine.cursor.location after.cursor
  rw [← texts, ← width]
  refine .movedTo ?_ ?_ _
  · rw [← shares.text, returns.text, line.1]
  · rw [← shares.fractions, returns.fractions, line.2]

/-! ### Settled machines -/

/-- Whether the current token is the one that stands where the cursor says that it begins. -/
def IsSettled (machine : Machine) : Prop :=
  machine.cursor.IsSettled machine.programText machine.memory.width

instance (machine : Machine) : Decidable machine.IsSettled :=
  inferInstanceAs (Decidable (Cursor.SamePlace _ _))

theorem isSettled_jump (place : Location) (machine : Machine) : (jump place machine).IsSettled := by
  rw [jump_eq]
  exact Cursor.isSettled_movedTo _ _

/-! ### Tokens further on -/

theorem width_iterate (count : Nat) :
    (nextToken^[count] machine).memory.width = machine.memory.width := by
  rw [iterate_nextToken]

/-- Machines at one place of one text read on alike. -/
theorem samePlace_cursorAt (texts : other.programText = machine.programText)
    (width : other.memory.width = machine.memory.width)
    (place : machine.cursor.SamePlace other.cursor) (count : Nat) :
    (machine.cursorAt count).SamePlace (other.cursorAt count) := by
  induction count with
  | zero => exact place
  | succ count ih =>
    rw [cursorAt_succ, cursorAt_succ, texts, width]
    exact ih.next

/-- Whether a machine has read on over some tokens of an expression. Texts, loops and the heap above
the program are as they were. -/
structure IsAhead (before after : Machine) (count : Nat) : Prop where
  keeps : before.KeepsTexts after
  guarded : after.memory.IsGuarded
  place : (before.cursorAt count).SamePlace after.cursor
  passes : ∀ earlier < count, (before.cursorAt earlier).token.isOfExpression = true

namespace IsAhead

/-- What stays where it is in the text. -/
theorem of_place (keeps : before.KeepsTexts after) (guarded : after.memory.IsGuarded)
    (place : before.cursor.SamePlace after.cursor) : before.IsAhead after 0 :=
  ⟨keeps, guarded, place, nofun⟩

/-- One token is read over. -/
theorem nextToken (guarded : machine.memory.IsGuarded)
    (inside : machine.cursor.token.isOfExpression = true) :
    machine.IsAhead machine.nextToken 1 := by
  rw [nextToken_eq]
  refine ⟨.of_cursor (Cursor.sharesText_next _), guarded, .refl _, fun earlier before => ?_⟩
  obtain rfl : earlier = 0 := by omega
  exact inside

theorem cursorAt (ahead : before.IsAhead after count) (more : Nat) :
    (before.cursorAt (count + more)).SamePlace (after.cursorAt more) := by
  rw [← cursorAt_add]
  refine samePlace_cursorAt ?_ ?_ ?_ more
  · rw [iterate_nextToken]
    exact ahead.keeps.programText
  · rw [width_iterate]
    exact ahead.keeps.width
  · rw [iterate_nextToken]
    exact ahead.place

theorem trans (first : before.IsAhead middle count) (second : middle.IsAhead after more) :
    before.IsAhead after (count + more) := by
  refine ⟨first.keeps.trans second.keeps, second.guarded,
    (first.cursorAt more).trans second.place, fun earlier less => ?_⟩
  by_cases near : earlier < count
  · exact first.passes earlier near
  · obtain ⟨further, rfl⟩ := Nat.exists_eq_add_of_le (Nat.not_lt.mp near)
    rw [← (first.cursorAt further).token]
    exact second.passes further (by omega)

/-- **An expression ends settled** if it begins so. -/
theorem isSettled (ahead : before.IsAhead after count) (settled : before.IsSettled) :
    after.IsSettled := by
  have there (place : Nat) (near : place ≤ count) :
      (before.cursorAt place).IsSettled before.programText before.memory.width := by
    induction place with
    | zero => exact settled
    | succ place ih =>
      rw [cursorAt_succ]
      exact (ih (by omega)).next (Token.ne_word (ahead.passes place (by omega)) rfl)
  unfold IsSettled
  rw [ahead.keeps.programText, ahead.keeps.width]
  exact (there count (Nat.le_refl count)).of_samePlace ahead.place

end IsAhead

/-- Whether two machines are settled at one place of the same texts, with their heaps above the
program. What variables they have does not matter. -/
structure IsAbreast (first second : Machine) : Prop where
  config : second.config = first.config
  texts : second.programText = first.programText
  width : second.memory.width = first.memory.width
  place : first.cursor.SamePlace second.cursor
  settled : first.IsSettled
  guarded : first.memory.IsGuarded
  others : second.memory.IsGuarded

namespace IsAbreast

variable {first second firstAfter secondAfter : Machine}

theorem symm (abreast : first.IsAbreast second) : second.IsAbreast first where
  config := abreast.config.symm
  texts := abreast.texts.symm
  width := abreast.width.symm
  place := abreast.place.symm
  settled := by
    unfold IsSettled
    rw [abreast.texts, abreast.width]
    exact Cursor.IsSettled.of_samePlace abreast.settled abreast.place
  guarded := abreast.others
  others := abreast.guarded

theorem refl (settled : machine.IsSettled) (guarded : machine.memory.IsGuarded) :
    machine.IsAbreast machine :=
  ⟨rfl, rfl, rfl, .refl _, settled, guarded, guarded⟩

theorem textLength (abreast : first.IsAbreast second) : second.textLength = first.textLength := by
  unfold Machine.textLength
  rw [abreast.place.mode, abreast.texts]
  split
  · rename_i typed
    rw [abreast.place.line typed]
  · rfl

/-- Machines that read on equally far stay at one place. -/
theorem ahead (abreast : first.IsAbreast second) (one : first.IsAhead firstAfter count)
    (two : second.IsAhead secondAfter count) : firstAfter.IsAbreast secondAfter where
  config := by rw [two.keeps.config, one.keeps.config, abreast.config]
  texts := by rw [two.keeps.programText, one.keeps.programText, abreast.texts]
  width := by rw [two.keeps.width, one.keeps.width, abreast.width]
  place := one.place.symm.trans
    ((samePlace_cursorAt abreast.texts abreast.width abreast.place count).trans two.place)
  settled := one.isSettled abreast.settled
  guarded := one.guarded
  others := two.guarded

end IsAbreast

end Machine

end PocketBasic
