/-
**Tokens ahead.** What the machine will read is settled by its cursor and its texts; no other part
of its state matters.

* `Cursor.next`, `Machine.nextToken_eq`: reading a token moves the cursor and nothing else;
* `Machine.Reads`: the tokens that the machine reads from the current one on;
* **`Machine.Reads.length_le`**: there are no more of them than bytes in the text, which is why the
  scans over a text have fuel enough.
-/

import Mathlib.Data.List.Basic
import Mathlib.Logic.Function.Iterate
import Mathlib.Tactic.Common
import PocketBasic.Machine.Reading
import PocketBasic.Proofs.Program.Walking

namespace PocketBasic

/-! ### Lines -/

namespace TypedLine

theorem length_rest (line : TypedLine) :
    line.rest.length = line.text.length - line.position := List.length_drop

@[simp]
theorem text_next (line : TypedLine) : line.next.2.text = line.text := by
  unfold next
  split
  · split <;> rfl
  · rfl

@[simp]
theorem fractions_next (line : TypedLine) : line.next.2.fractions = line.fractions := by
  unfold next
  split
  · split <;> rfl
  · rfl

/-- A token of a line takes a byte at least. -/
theorem position_lt_next {line : TypedLine} (some : line.next.1 ≠ .endOfText) :
    line.position < line.next.2.position ∧ line.next.2.position ≤ line.text.length := by
  have ahead := line.length_rest
  unfold next at some ⊢
  split at some <;> rename_i verbatim
  · rw [if_pos verbatim]
    split at some
    · exact absurd rfl some
    · rename_i byte rest begins
      rw [begins, List.length_cons] at ahead
      constructor <;> simp only <;> omega
  · rw [if_neg verbatim]
    simp only [Lexer.read] at some ⊢
    split
    · rename_i blank
      rw [blank] at some
      exact absurd rfl some
    · rename_i first rest skipped
      have skippedLe := Lexer.dropWhile_length_le Lexer.isBlank line.rest
      have readLe := Lexer.readAfter_length line.fractions first rest
      rw [show line.rest.dropWhile Lexer.isBlank = first :: rest from skipped,
        List.length_cons] at skippedLe
      constructor <;> omega

end TypedLine

/-! ### The cursor by itself -/

namespace Cursor

/-- The cursor behind the current token, for the texts of a machine. -/
def next (texts : Mode → ProgramText) (width : AddressWidth) (cursor : Cursor) : Cursor :=
  match cursor.mode with
  | .interactive =>
    { cursor with
      line := cursor.line.next.2, token := cursor.line.next.1
      tokenOffset := cursor.line.position }
  | mode =>
    let read := (texts mode).decode width cursor.offset
    { cursor with offset := read.2, token := read.1, tokenOffset := cursor.offset }

@[simp]
theorem mode_next (texts : Mode → ProgramText) (width : AddressWidth) (cursor : Cursor) :
    (cursor.next texts width).mode = cursor.mode := by
  rw [next]
  split <;> simp only [*]

variable {texts : Mode → ProgramText} {width : AddressWidth}

/-- Whether a cursor is in the text that another one is in; in a program, the typed line stays. -/
structure SharesText (before after : Cursor) : Prop where
  mode : after.mode = before.mode
  text : after.line.text = before.line.text
  fractions : after.line.fractions = before.line.fractions

theorem sharesText_next (cursor : Cursor) : cursor.SharesText (cursor.next texts width) := by
  unfold next
  split
  · exact ⟨rfl, cursor.line.text_next, cursor.line.fractions_next⟩
  · exact ⟨rfl, rfl, rfl⟩

/-- The length of the text that a cursor reads. -/
def textLength (texts : Mode → ProgramText) (cursor : Cursor) : Nat :=
  match cursor.mode with
  | .interactive => cursor.line.text.length
  | mode => (texts mode).length

/-- The position from which the next token is read. -/
def position (cursor : Cursor) : Nat :=
  match cursor.mode with
  | .interactive => cursor.line.position
  | _ => cursor.offset

@[simp]
theorem textLength_next (cursor : Cursor) :
    (cursor.next texts width).textLength texts = cursor.textLength texts := by
  unfold next
  split <;> rename_i mode <;> simp [textLength, mode]

/-- Reading a token takes a byte at least, and no token ends behind its text. -/
theorem position_lt_next {cursor : Cursor}
    (some : (cursor.next texts width).token ≠ .endOfText) :
    cursor.position < (cursor.next texts width).position ∧
      (cursor.next texts width).position ≤ cursor.textLength texts := by
  unfold next at some ⊢
  split at some <;> rename_i mode
  · simpa [position, textLength, mode] using TypedLine.position_lt_next some
  · simp only [position, textLength]
    simp only [ProgramText.decode] at some ⊢
    have moves := (texts cursor.mode).one_le_extent width cursor.offset
    split_ifs at some ⊢
    · exact absurd rfl some
    · exact absurd rfl some
    · constructor <;> simp only <;> omega

end Cursor

namespace Machine

variable (machine : Machine)

/-- Reading a token moves the cursor and nothing else. -/
theorem nextToken_eq :
    machine.nextToken =
      { machine with
        cursor := machine.cursor.next machine.programText machine.memory.width } := by
  unfold nextToken Cursor.next
  split <;> rename_i mode <;> simp only [mode]

theorem textLength_eq : machine.textLength = machine.cursor.textLength machine.programText := rfl

/-- The cursor `count` tokens further. -/
def cursorAt (count : Nat) : Cursor :=
  (Cursor.next machine.programText machine.memory.width)^[count] machine.cursor

theorem cursorAt_succ (count : Nat) :
    machine.cursorAt (count + 1) =
      (machine.cursorAt count).next machine.programText machine.memory.width :=
  Function.iterate_succ_apply' _ _ _

theorem iterate_nextToken (count : Nat) :
    nextToken^[count] machine = { machine with cursor := machine.cursorAt count } := by
  induction count with
  | zero => rfl
  | succ count ih =>
    rw [Function.iterate_succ_apply', ih, nextToken_eq, cursorAt_succ]
    rfl

theorem textLength_cursorAt (count : Nat) :
    (machine.cursorAt count).textLength machine.programText = machine.textLength := by
  induction count with
  | zero => rfl
  | succ count ih => rw [cursorAt_succ, Cursor.textLength_next, ih]

/-- Whether the machine reads these tokens, the current one first. -/
def Reads (machine : Machine) : List Token → Prop
  | [] => True
  | token :: rest => machine.cursor.token = token ∧ machine.nextToken.Reads rest

/-- Whether the machine reads these tokens once it has read `count` others. -/
def ReadsAt (count : Nat) (tokens : List Token) : Prop :=
  (nextToken^[count] machine).Reads tokens

variable {machine} {count : Nat} {token : Token} {tokens others : List Token}

@[simp]
theorem readsAt_cons :
    machine.ReadsAt count (token :: tokens) ↔
      (machine.cursorAt count).token = token ∧ machine.ReadsAt (count + 1) tokens := by
  rw [ReadsAt, Reads, ← Function.iterate_succ_apply' nextToken, iterate_nextToken]
  rfl

theorem readsAt_append :
    machine.ReadsAt count (tokens ++ others) ↔
      machine.ReadsAt count tokens ∧ machine.ReadsAt (count + tokens.length) others := by
  induction tokens generalizing count with
  | nil => simp [ReadsAt, Reads]
  | cons token tokens ih =>
    rw [List.cons_append, readsAt_cons, readsAt_cons, ih, and_assoc, List.length_cons,
      Nat.add_right_comm, Nat.add_assoc]

/-- **There are no more tokens ahead than bytes in the text.** The current token was read
already. -/
theorem ReadsAt.length_le (reads : machine.ReadsAt count (token :: tokens))
    (some : .endOfText ∉ tokens) : tokens.length ≤ machine.textLength := by
  suffices ahead : tokens = [] ∨
      tokens.length + (machine.cursorAt count).position ≤ machine.textLength by
    rcases ahead with rfl | ahead
    · exact Nat.zero_le _
    · omega
  induction tokens generalizing count token with
  | nil => exact .inl rfl
  | cons second tokens ih =>
    right
    obtain ⟨_, later⟩ := readsAt_cons.mp reads
    have here : (machine.cursorAt (count + 1)).token ≠ .endOfText := fun ends =>
      some (by simp [← (readsAt_cons.mp later).1, ends])
    rw [cursorAt_succ] at here
    obtain ⟨moves, inside⟩ := Cursor.position_lt_next here
    rw [textLength_cursorAt] at inside
    rw [List.length_cons]
    rcases ih later (fun ends => some (List.mem_cons_of_mem _ ends)) with rfl | ahead
    · simp only [List.length_nil]
      omega
    · rw [cursorAt_succ] at ahead
      omega

end Machine

end PocketBasic
