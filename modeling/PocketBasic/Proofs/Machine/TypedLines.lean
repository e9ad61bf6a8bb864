/-
**Lines that keep to themselves.** The cursor leaves a typed line where a user function is called,
and where a statement goes on elsewhere: at `GOTO` and its like, at `IF` and `SWITCH`, and where a
loop or a subroutine ends. All other statements keep it in the line, so that the errors of such
lines are reported, whatever handler the program has left.

* `Cursor.KeepsToLine`: a cursor in a typed line, with no call and none of some words ahead;
* `Conduct.keepsToLine`, `Machine.performs_keepsToLine`: what keeps the cursor there, and that all
  statements do but those that go elsewhere;
* `Machine.runOn_stepUnless_goesAway`: where no statement goes elsewhere;
* **`Machine.holds_of_statement`**: which statements keep the cursor in the typed line;
* **`Machine.line_reports_errors`**: what becomes of an error in a line of such statements.
-/

import PocketBasic.Proofs.Machine.Resuming
import PocketBasic.Proofs.Token.Readings

namespace PocketBasic

/-! ### Cursors in a typed line -/

/-- Whether the token calls a user function, or is one of some words. -/
def Token.strays (avoided : Keyword → Bool) : Token → Bool
  | .word begins => begins = .fn || avoided begins
  | _ => false

/-- Whether the cursor is in a typed line that has, from the current token on, no call of a user
function and none of some words. -/
structure Cursor.KeepsToLine (avoided : Keyword → Bool) (cursor : Cursor) : Prop where
  mode : cursor.mode = .interactive
  here : cursor.token.strays avoided = false
  ahead : ∀ reading ∈ cursor.line.readings, reading.1.strays avoided = false

/-- What keeps the cursor in the typed line, whether it fails or not. -/
def Conduct.keepsToLine (avoided : Keyword → Bool) : Conduct Machine :=
  .keeps fun machine => machine.cursor.KeepsToLine avoided

namespace Cursor.KeepsToLine

variable {avoided : Keyword → Bool} {cursor : Cursor}

/-- The next token of a line keeps to it, if all that are ahead do. -/
theorem of_ahead (mode : cursor.mode = .interactive)
    (ahead : ∀ reading ∈ cursor.line.readings, reading.1.strays avoided = false)
    (texts : Mode → ProgramText) (width : AddressWidth) :
    (cursor.next texts width).KeepsToLine avoided := by
  have read : cursor.next texts width =
      { cursor with
        line := cursor.line.next.2, token := cursor.line.next.1
        tokenOffset := cursor.line.position } := by
    rw [Cursor.next, mode]
  rw [read]
  by_cases ends : cursor.line.next.1 = .endOfText
  · have ended : cursor.line.next.2.readings = [] :=
      TypedLine.readings_of_end (TypedLine.next_next_of_end ends)
    exact ⟨mode, by rw [ends]; rfl, by simp [ended]⟩
  · rw [TypedLine.readings_of_token ends] at ahead
    exact ⟨mode, ahead _ (List.mem_cons_self ..),
      fun reading among => ahead reading (List.mem_cons_of_mem _ among)⟩

/-- The current token calls nothing. -/
theorem not_fn (keeps : cursor.KeepsToLine avoided) : cursor.token ≠ .word .fn := by
  intro calls
  have here := keeps.here
  rw [calls] at here
  cases here

end Cursor.KeepsToLine

namespace Machine

open Conduct (keepsToLine)

variable {avoided : Keyword → Bool} {machine middle moment failed : Machine} {error : Error}
  {count cycles : Nat}

/-! ### Evaluations -/

/-- **Reading on keeps to the line.** -/
theorem keepsToLine_nextToken (mode : machine.cursor.mode = .interactive)
    (ahead : ∀ reading ∈ machine.cursor.line.readings, reading.1.strays avoided = false) :
    machine.nextToken.cursor.KeepsToLine avoided := by
  rw [nextToken_eq]
  exact .of_ahead mode ahead _ _

theorem ignoresMemory_keepsToLine : (keepsToLine avoided).IgnoresMemory :=
  ⟨fun _ _ => id, fun _ _ _ _ => id⟩

instance reads_keepsToLine : (keepsToLine avoided).Reads where
  toAccesses := ignoresMemory_keepsToLine.usesMemory.toMayFail.accesses
    ignoresMemory_keepsToLine.usesMemory.lookup (fun _ _ _ _ _ _ _ _ _ _ _ => id) (fun _ => id)
    fun _ => id
  fails_stalled _ := id
  moves_next _ keeps := keepsToLine_nextToken keeps.mode keeps.ahead

/-- Nothing is said where a user function is called. -/
theorem ignores_keepsToLine : (keepsToLine avoided).Ignores (.word .fn) :=
  fun _ calls _ => ⟨fun keeps => absurd calls keeps.not_fn,
    fun _ keeps => absurd calls keeps.not_fn⟩

instance calls_keepsToLine : (keepsToLine avoided).Calls where
  reads := reads_keepsToLine
  allocateBuffer _ := ignoresMemory_keepsToLine.usesMemory.allocate .buffer
  loadElement name row column _ _ :=
    ignoresMemory_keepsToLine.usesMemory.makes.loadElement name row column
  userFunction heeded := (heeded ignores_keepsToLine).elim

/-! ### Statements -/

/-- The end of a line is in it. -/
theorem keepsToLine_halt : machine.halt.cursor.KeepsToLine avoided := by
  have ended : TypedLine.empty.readings = [] := TypedLine.readings_of_end (by decide)
  refine ⟨rfl, rfl, ?_⟩
  show ∀ reading ∈ TypedLine.empty.readings, _
  rw [ended]
  exact nofun

instance remains_keepsToLine : (keepsToLine avoided).Remains where
  toFollows := inferInstance
  storeScalar := ignoresMemory_keepsToLine.usesMemory.storeScalar
  deleteScalar := ignoresMemory_keepsToLine.usesMemory.delete .scalar
  toComputes := inferInstance
  moves_cleared _ _ _ := id
  named := obeys_named obeys_text id
  moves_settings {_ after} _ same keeps := by
    show after.cursor.KeepsToLine avoided
    rwa [same]
  moves_host _ _ _ := id
  findLine _ := ignoresMemory_keepsToLine.onMemory (Memory.ordinary_always _)
  fails_interrupted _ _ _ := id
  moves_halt _ _ := keepsToLine_halt
  moves_loops _ _ _ := id
  fails_empty _ := id

instance (repeats : Bool) : (keepsToLine avoided).SetsTimer repeats := ⟨fun _ _ => id⟩

instance : (keepsToLine avoided).SeeksData := ⟨fun _ _ => id⟩

instance : (keepsToLine avoided).StartsStatements := ⟨fun _ => id⟩

theorem obeys_push_keepsToLine (loop : Loop) :
    (onLoops (BoundedStack.push loop)).Obeys (keepsToLine avoided) :=
  obeys_pushLoop_of (fun _ _ => id) (fun _ => id) loop

/-- **Statements keep to the line** unless they go elsewhere. -/
instance performs_keepsToLine : (keepsToLine avoided).Performs where
  toEdits := ignoresMemory_keepsToLine.edits
  forbids := goesAway
  remains := remains_keepsToLine
  editsProgram _ _ := ignoresMemory_keepsToLine.editsProgram
  departs away allowed := by
    rw [away] at allowed
    cases allowed
  clear _ _ := (ignoresMemory_keepsToLine.onMemory Memory.obeys_clearHeap).bind
    fun _ => .modify fun _ => id
  watchPins _ _ _ := id
  takeDatum _ _ := obeys_takeDatum
  seekData _ _ _ _ := id
  setTimer _ _ _ := obeys_timerStatement
  clearTimer _ := obeys_clearTimer
  holdPins _ _ := id
  releasePins _ _ := id
  clearReturns _ _ _ := id
  poke _ _ := ignoresMemory_keepsToLine.usesMemory.pokeStatement
  forStatement _ _ := obeys_forStatement obeys_push_keepsToLine _
  whileStatement _ _ := obeys_whileStatement obeys_push_keepsToLine _
  repeatStatement _ _ := obeys_repeatStatement obeys_push_keepsToLine _

/-- Only `IF` begins other statements. -/
theorem wordStatement_eq {word : Keyword} (other : word ≠ .if) (first second : Action Unit) :
    wordStatement first word = wordStatement second word := by
  cases word <;> first | rfl | exact absurd rfl other

/-- A statement that does not go elsewhere does so where those are forbidden that do. -/
theorem runOn_statementUnless_goesAway (stays : machine.goesAway = false) :
    (statementUnless goesAway).runOn machine = statement.runOn machine := by
  have same (first second : Action Unit) :
      (statementWith first).runOn machine = (statementWith second).runOn machine := by
    rw [statementWith, statementWith, token, bind_assoc, bind_assoc, Attempt.runOn_get_bind,
      Attempt.runOn_get_bind, pure_bind, pure_bind]
    split
    · rename_i word begins
      rw [wordStatement_eq]
      rintro rfl
      rw [goesAway, begins] at stays
      cases stays
    all_goals rfl
  rw [statementUnless, statement, Attempt.runOn_get_bind, Attempt.runOn_get_bind,
    statementUnlessWithin, Attempt.runOn_get_bind, stays, if_neg Bool.false_ne_true,
    statementWithin]
  exact same _ _

/-- **A statement that calls no user function and does not go elsewhere keeps the cursor in the
typed line**, whether it fails or not. -/
theorem holds_of_statement (keeps : machine.cursor.KeepsToLine avoided)
    (stays : machine.goesAway = false) :
    (statement.runOn machine).2.cursor.KeepsToLine avoided := by
  have obeys : (statementUnless goesAway).Obeys (keepsToLine avoided) := obeys_statementUnless
  rw [← runOn_statementUnless_goesAway stays]
  exact holds_after obeys keeps

/-! ### Steps -/

/-- A step keeps to the line, unless a statement goes elsewhere. -/
theorem obeys_stepUnless_goesAway : (stepUnless goesAway).Obeys (keepsToLine avoided) := by
  intro machine
  rw [stepUnless_eq]
  have obeys : (stepToDispatch goesAway).Obeys (keepsToLine avoided) := obeys_stepToDispatch
  refine (obeys machine).bind_of_ran fun reached moment ran => ?_
  cases reached with
  | none => exact .pure _
  | some mayFire =>
    cases mayFire with
    | false => exact .bind (.pure _) fun _ => .pure _
    | true =>
      -- Nothing fires in a typed line.
      have elsewhere : ¬ moment.cursor.KeepsToLine avoided := fun keeps =>
        (place_of_dispatches ran).1 keeps.mode
      rcases fired : (dispatch >>= fun _ => pure true : Action Bool).runOn moment with
        ⟨failure | value, after⟩
      · exact Attempt.obeysFrom_of_error fired fun keeps => absurd keeps elsewhere
      · exact Attempt.obeysFrom_of_ok fired fun keeps => absurd keeps elsewhere

/-- Where no word goes elsewhere, no statement does. -/
theorem goesAway_of_keepsToLine (keeps : machine.cursor.KeepsToLine Keyword.goesAway) :
    machine.goesAway = false := by
  have here := keeps.here
  rw [goesAway]
  split
  · rename_i word begins
    rw [begins] at here
    exact (Bool.or_eq_false_iff.mp here).2
  · rfl

/-- A statement that is found keeps to the line. -/
theorem keepsToLine_of_found (keeps : machine.cursor.KeepsToLine avoided) {fuel : Nat}
    {reached : Except Failure Bool} (looked : (findStatementWithin fuel).runOn machine =
      (reached, middle)) : middle.cursor.KeepsToLine avoided := by
  have obeys : (findStatementWithin fuel).Obeys (keepsToLine avoided) :=
    obeys_findStatementWithin fuel
  have kept := holds_after obeys keeps
  rwa [looked] at kept

theorem runOn_stepUnless_goesAway (keeps : machine.cursor.KeepsToLine Keyword.goesAway) :
    (stepUnless goesAway).runOn machine = step.runOn machine := by
  rw [stepUnless, step, Attempt.runOn_get_bind, Attempt.runOn_get_bind]
  rcases looked : (findStatementWithin (machine.textLength + 2)).runOn machine with
    ⟨failure | (_ | _), found⟩
  · rw [Attempt.runOn_bind_error looked, Attempt.runOn_bind_error looked]
  · rw [Attempt.runOn_bind_ok looked, Attempt.runOn_bind_ok looked]
    rfl
  · have kept := keepsToLine_of_found keeps looked
    have stays : goesAway { found with statementStart := found.cursor.location } = false :=
      goesAway_of_keepsToLine kept
    rw [Attempt.runOn_bind_ok looked, Attempt.runOn_bind_ok looked, if_pos rfl, if_pos rfl,
      Attempt.runOn_modify_bind, Attempt.runOn_modify_bind, Attempt.runOn_bind,
      runOn_statementUnless_goesAway stays, ← Attempt.runOn_bind]

/-- **A step keeps to a line without words that go elsewhere.** -/
theorem keepsToLine_step (keeps : machine.cursor.KeepsToLine Keyword.goesAway) :
    (step.runOn machine).2.cursor.KeepsToLine Keyword.goesAway := by
  rw [← runOn_stepUnless_goesAway keeps]
  exact holds_after obeys_stepUnless_goesAway keeps

/-! ### Runs -/

/-- So does every turn, as no handler takes an error of the line. -/
theorem keepsToLine_of_turn (keeps : machine.cursor.KeepsToLine Keyword.goesAway)
    (turn : Turn machine middle) : middle.cursor.KeepsToLine Keyword.goesAway := by
  have kept := keepsToLine_step keeps
  cases turn with
  | done ran => rwa [ran] at kept
  | handled ran taken =>
    rw [ran] at kept
    exact absurd kept.mode (takes_of_unwind taken).1

theorem keepsToLine_of_turns (keeps : machine.cursor.KeepsToLine Keyword.goesAway)
    (turns : Turns count machine middle) : middle.cursor.KeepsToLine Keyword.goesAway := by
  induction turns with
  | none => exact keeps
  | next turn _ ih => exact ih (keepsToLine_of_turn keeps turn)

/-- A line that was entered keeps to itself, if all its tokens do. -/
theorem keepsToLine_enter {text : Bytes} {first : Token} {rest : List Token}
    (line : (TypedLine.ofText text (!machine.config.wholeNumbers)).tokens = first :: rest)
    (unnumbered : ∀ number, first ≠ .number number)
    (avoids : ∀ token ∈ first :: rest, token.strays avoided = false) :
    let entered := ((enter text).runOn machine).2
    entered.cursor.KeepsToLine avoided ∧ entered.isIdle = false ∧
      entered.pending = machine.pending := by
  have prepared : ((enter text).runOn machine).2 = nextToken
      { machine with
        cursor := { machine.cursor with
          line := TypedLine.ofText text (!machine.config.wholeNumbers), mode := .interactive }
        isIdle := false } := by
    rw [enter, Attempt.runOn_get_bind]
    dsimp only
    rw [line]
    split
    · rename_i none
      cases none
    · rename_i numbered
      cases numbered
      exact absurd rfl (unnumbered _)
    · rfl
  rw [prepared]
  refine ⟨keepsToLine_nextToken rfl fun reading among => avoids _ ?_, by rw [nextToken_eq],
    by rw [nextToken_eq]⟩
  rw [← line, TypedLine.tokens_ofText]
  exact List.mem_map_of_mem among

/-- **The errors of a line that keeps to itself are reported.** When a line is typed without a
number, without calls of user functions and without words that go elsewhere, then the host is told
of every error of its statements, exactly as it is, and the machine waits for a line with its
handler and its memory as they were. -/
theorem line_reports_errors (told : machine.pending = none) {text : Bytes} {first : Token}
    {rest : List Token}
    (line : (TypedLine.ofText text (!machine.config.wholeNumbers)).tokens = first :: rest)
    (unnumbered : ∀ number, first ≠ .number number)
    (avoids : ∀ token ∈ first :: rest, token.strays Keyword.goesAway = false)
    (turns : Turns count ((enter text).runOn machine).2 middle) (enough : count < cycles)
    (fails : step.runOn middle = (.error (.reported error), failed)) :
    ∃ after, (execute cycles).runOn ((enter text).runOn machine).2 =
        (.ok (.failed error), after) ∧ failed.WaitsBehind after := by
  obtain ⟨keeps, busy, same⟩ := keepsToLine_enter line unnumbered avoids
  have kept := keepsToLine_of_turns keeps turns
  obtain ⟨found, looked, began, -⟩ := fails_cases fails
  have typed : failed.statementStart.mode = .interactive := by
    rw [began]
    exact (keepsToLine_of_found kept looked).mode
  have left := keepsToLine_step kept
  rw [fails] at left
  exact exists_execute (same.trans told) busy turns enough fails typed fun takes =>
    takes.1 left.mode

/-- The second statement of this line fails, and none of them goes elsewhere. -/
example : ∀ token ∈ (TypedLine.ofText (ascii "A=1:B=A/0") true).tokens,
    token.strays Keyword.goesAway = false := by
  decide +kernel

end Machine

end PocketBasic
