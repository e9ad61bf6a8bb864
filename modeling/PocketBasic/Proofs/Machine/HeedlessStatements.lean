/-
**Statements are heedless of guises.** A statement goes to lines, to what it finds in its text, and
to where a loop or a subroutine comes back to. So it does the same in any guise that goes unnoticed,
if lookups of lines do. A statement that ends the program drops the typed line, and says anew where
the program goes on.

* `Disguise.Evaluates`, `Disguise.Evaluates.value` and the others: what statements do to variables
  and to the program;
* `Disguise.Performs`: disguises that lookups of lines do not see through;
* `Machine.heedless_findBracket`: looking for the end of a block;
* `Machine.gives_onLoops`, `Machine.gives_onReturns`: loops and subroutines;
* `Machine.heedless_dispatch`: what timers and pins do;
* **`Machine.heedless_statementUnless`**: every statement.
-/

import PocketBasic.Proofs.Machine.Executing
import PocketBasic.Proofs.Machine.Heedless
import PocketBasic.Proofs.Machine.PinDispatch

namespace PocketBasic

/-! ### Variables and the program -/

/-- A disguise that is not seen through by what changes variables or the program by name. -/
class Disguise.Evaluates (disguise : Disguise) : Prop extends disguise.Lawful where
  /-- What memory is used for may see to it that the disguise holds. -/
  access {α : Type} {step : Action α} :
    (∀ {other : Disguise} [other.Accesses], other.Heedless step) →
    (∀ {conduct : Conduct Machine} [conduct.Executes], step.Obeys conduct) →
    disguise.Heedless step

instance Disguise.Accesses.evaluates {disguise : Disguise} [disguise.Accesses] :
    disguise.Evaluates where
  access heedless _ := heedless

/-- A disguise that is not seen through by lookups of lines, either. -/
class Disguise.Performs (disguise : Disguise) : Prop extends disguise.Evaluates where
  findLine : ∀ line, disguise.Heedless
    (Machine.onMemory (Attempt.always fun memory => memory.findLine line))

/-- Whether what is forbidden is the same in any guise, and a `POKE` that is not goes unnoticed. -/
structure Disguise.Spares (disguise : Disguise) (forbids : Machine → Bool) : Prop where
  alike {machine : Machine} {guise : Guise} :
    disguise.hides machine guise → forbids (machine.wearing guise) = forbids machine
  poke {machine : Machine} :
    machine.cursor.token = .word .poke → forbids machine = false →
      disguise.Heedless Machine.pokeStatement

namespace Machine

open Disguise

variable {α : Type} {disguise : Disguise} {machine after : Machine} {guise : Guise}

section Accesses

variable [accesses : disguise.Accesses]

theorem heedless_createFunction (name : Name) (entry : Nat) (parameter : Name) :
    disguise.Heedless
      (storeFunction name entry parameter (modify (skipTo Token.isTerminator))) := by
  have write (start : Nat) : disguise.Heedless (do
      let width ← addressSize
      onMemory (Memory.writeAddress start entry)
      onMemory (Memory.write (start + width) parameter.bytes)
      modify (skipTo Token.isTerminator) : Action Unit) :=
    heedless_addressSize.bind fun _ => (heedless_writeAddress _ _).bind fun _ =>
      (heedless_writeMemory _ _).bind fun _ => heedless_skipTo _
  refine (heedless_lookup _ _).bind fun payload => ?_
  cases payload with
  | some payload => exact write _
  | none => exact (heedless_allocate _ _ _).bind fun _ => write _

theorem heedless_dimension : disguise.Heedless dimension := by
  refine heedless_token.bind fun token => ?_
  split
  · refine heedless_advance.bind fun _ => ?_
    refine (heedless_evaluate Evaluator.IsHeedless.subscripts).bind fun bounds => ?_
    refine (heedless_elementCount _).bind fun rows => ?_
    split
    · exact (heedless_elementCount _).bind fun columns => heedless_createArray _ _ _
    · exact heedless_createArray _ _ _
  · have create (name : Name) (capacity : Single) (count : Nat) : disguise.Heedless (do
        expect ')'
        createString name capacity.toSize count : Action Unit) :=
      (heedless_expect _).bind fun _ => heedless_createString _ _ _
    refine heedless_advance.bind fun _ => (heedless_expect _).bind fun _ => ?_
    refine (heedless_evaluate Evaluator.IsHeedless.value).bind fun capacity =>
      .ite ((heedless_fail _).bind fun _ => ?_) ?_
    all_goals
      refine (heedless_evaluate Evaluator.IsHeedless.valueAfterComma).bind fun count => ?_
      cases count with
      | some count => exact (heedless_elementCount _).bind fun count => create _ _ count
      | none => exact create _ _ 1
  · exact gives_fail _

theorem heedless_clear : disguise.Heedless clear := by
  refine Heedless.bind (accesses.memory Memory.ignores_clearHeap) fun _ => ?_
  refine heedless_modify fun machine guise hides => ⟨guise, rfl, ?_⟩
  have goesOn := accesses.goesOn hides
  exact hides_anew hides rfl ⟨goesOn.mode, nofun, nofun, nofun, goesOn.start⟩

/-- `POKE` looks no line up; but it may move lines, and then they are not where they are
remembered. -/
theorem heedless_pokeStatement : disguise.Heedless pokeStatement := by
  refine heedless_advance.bind fun _ =>
    (heedless_evaluate Evaluator.IsHeedless.value).bind fun address => ?_
  refine (heedless_expect _).bind fun _ =>
    (heedless_evaluate Evaluator.IsHeedless.value).bind fun byte => .ite (gives_fail _) ?_
  exact Heedless.bind (accesses.memory (Memory.ignores_poke _ _)) fun _ =>
    .ite (gives_fail _) (.pure trivial)

end Accesses

end Machine

namespace Disguise.Evaluates

open Machine

variable {disguise : Disguise} [evaluates : disguise.Evaluates]

theorem value : disguise.Heedless value :=
  evaluates.access (heedless_evaluate Evaluator.IsHeedless.value) obeys_value

theorem text : disguise.Heedless text :=
  evaluates.access (heedless_evaluate Evaluator.IsHeedless.text) obeys_text

theorem string? : disguise.Heedless string? :=
  evaluates.access (heedless_evaluate Evaluator.IsHeedless.string?) obeys_string?

theorem target : disguise.Heedless target :=
  evaluates.access (heedless_evaluate Evaluator.IsHeedless.target) obeys_target

theorem concatenation : disguise.Heedless (evaluate Evaluator.concatenation) :=
  evaluates.access (heedless_evaluate Evaluator.IsHeedless.concatenation) obeys_concatenation

theorem objectName : disguise.Heedless (evaluate Evaluator.objectName) :=
  evaluates.access (heedless_evaluate Evaluator.IsHeedless.objectName) obeys_objectName

theorem getScalar (name : Name) : disguise.Heedless (getScalar name) :=
  evaluates.access (heedless_getScalar name) (obeys_getScalar name)

theorem setScalar (name : Name) (value : Single) : disguise.Heedless (setScalar name value) :=
  evaluates.access (heedless_setScalar name value) (obeys_setScalar name value)

theorem assignNumber (target : Target) (value : Single) :
    disguise.Heedless (assignNumber target value) :=
  evaluates.access (heedless_assignNumber target value) (obeys_assignNumber target value)

theorem assignText (target : Target) (text : Bytes) : disguise.Heedless (assignText target text) :=
  evaluates.access (heedless_assignText target text) (obeys_assignText target text)

theorem dimension : disguise.Heedless dimension :=
  evaluates.access heedless_dimension obeys_dimension

theorem storeFunction (name : Name) (entry : Nat) (parameter : Name) :
    disguise.Heedless
      (storeFunction name entry parameter (modify (skipTo Token.isTerminator))) :=
  evaluates.access (heedless_createFunction name entry parameter)
    (Conduct.Edits.storeFunction name entry parameter (obeys_skipTo _))

theorem delete (kind : ObjectKind) (name : Name) :
    disguise.Heedless (onMemory (Memory.delete kind name)) :=
  evaluates.access (heedless_delete kind name) (Conduct.Edits.delete kind name)

theorem clear : disguise.Heedless clear :=  evaluates.access heedless_clear Conduct.Executes.clear

theorem clearProgram : disguise.Heedless (onMemory Memory.clearProgram) :=
  evaluates.access (Accesses.memory Memory.ignores_clearProgram)
    Conduct.EditsProgram.clearProgram

theorem loadProgram (image : Bytes) : disguise.Heedless (onMemory (Memory.loadProgram image)) :=
  evaluates.access (Accesses.memory (Memory.ignores_loadProgram image))
    (Conduct.EditsProgram.loadProgram image)

theorem storeLine (line : LineNumber) (body : List Token) :
    disguise.Heedless (onMemory (Memory.storeLine line body)) :=
  evaluates.access (Accesses.memory (Memory.ignores_storeLine line body))
    (Conduct.EditsProgram.storeLine line body)

end Disguise.Evaluates

namespace Machine

open Disguise

variable {α : Type} {disguise : Disguise} [performs : disguise.Performs] {machine after : Machine}
  {guise : Guise}

/-! ### Lines -/

/-- A line is found alike in any guise, and is a place to go to. -/
theorem gives_findLine (line : LineNumber) :
    disguise.Gives (disguise.admits ·.mode) (findLine line) := by
  refine .get_bind (fun _ _ _ => rfl) fun machine _ _ => ?_
  split
  · refine (heedless_orFail _ _).bind fun _ => .pure (performs.stored ?_)
    exact Mode.noConfusion
  · refine (performs.findLine line).bind fun found => (heedless_orFail _ _).bind fun _ => ?_
    refine .pure (performs.stored ?_)
    exact Mode.noConfusion

theorem heedless_gotoLine (line : LineNumber) : disguise.Heedless (gotoLine line) :=
  (gives_findLine line).bind fun _ admitted => heedless_moveTo admitted

theorem heedless_gotoNumber (number : Single) : disguise.Heedless (gotoNumber number) :=
  (heedless_orFail _ _).bind fun line => heedless_gotoLine line

/-! ### Scanning -/

theorem heedless_findBracketWithin (opening closing : Keyword) (fuel depth : Nat) :
    disguise.Heedless (findBracketWithin opening closing fuel depth) := by
  induction fuel generalizing depth with
  | zero => exact gives_throw _
  | succ fuel ih =>
    refine heedless_token.bind fun token => .ite (gives_fail _) (.ite ?_ (.ite ?_ ?_))
    · exact heedless_advance.bind fun _ => ih _
    · cases depth with
      | zero => exact .pure trivial
      | succ depth => exact heedless_advance.bind fun _ => ih _
    · exact heedless_advance.bind fun _ => ih _

theorem heedless_findBracket (opening closing : Keyword) :
    disguise.Heedless (findBracket opening closing) :=
  heedless_scan fun length => heedless_findBracketWithin opening closing (length + 2) 0

/-! ### Stacks of places -/

/-- What holds of the entries of a stack holds of those that are left, and of what is taken off. -/
theorem pop_keeps {stack : BoundedStack α} {holds : α → Prop}
    (all : ∀ entry ∈ stack.entries, holds entry) :
    (∀ entry ∈ (BoundedStack.pop.runOn stack).2.entries, holds entry) ∧
      ∀ entry, (BoundedStack.pop.runOn stack).1 = .ok entry → holds entry := by
  cases entries : stack.entries with
  | nil =>
    rw [BoundedStack.runOn_pop_of_nil entries]
    exact ⟨all, nofun⟩
  | cons newest older =>
    rw [BoundedStack.runOn_pop_of_cons entries]
    rw [entries] at all
    exact ⟨fun entry member => all entry (List.mem_cons_of_mem _ member),
      fun _ same => Except.ok.inj same ▸ all newest List.mem_cons_self⟩

theorem push_keeps {stack : BoundedStack α} {holds : α → Prop} {newest : α}
    (all : ∀ entry ∈ stack.entries, holds entry) (new : holds newest) :
    ∀ entry ∈ ((BoundedStack.push newest).runOn stack).2.entries, holds entry := by
  cases room : stack.isFull with
  | true =>
    rw [BoundedStack.runOn_push_of_full room]
    exact all
  | false =>
    rw [BoundedStack.runOn_push_of_room room]
    exact List.forall_mem_cons.mpr ⟨new, all⟩

/-! ### Loops -/

/-- A step on the loops that keeps their places admitted. -/
theorem gives_onLoops {good : α → Prop} {step : Attempt (BoundedStack Loop) α}
    (keeps : ∀ loops : BoundedStack Loop,
      (∀ loop ∈ loops.entries, disguise.admits loop.resume.mode) →
        (∀ loop ∈ (step.runOn loops).2.entries, disguise.admits loop.resume.mode) ∧
          ∀ value, (step.runOn loops).1 = .ok value → good value) :
    disguise.Gives good (onLoops step) :=
  fun machine guise hides =>
    have goesOn := performs.goesOn hides
    have kept := keeps machine.loops goesOn.loops
    .hidden guise (hides_anew hides rfl ⟨goesOn.mode, kept.1, goesOn.returns, goesOn.bookmark,
      goesOn.start⟩) kept.2

theorem gives_popLoop :
    disguise.Gives (fun loop => disguise.admits loop.resume.mode) (onLoops BoundedStack.pop) :=
  gives_onLoops fun _ stored => pop_keeps stored

theorem heedless_pushLoop {loop : Loop} (stored : disguise.admits loop.resume.mode) :
    disguise.Heedless (onLoops (BoundedStack.push loop)) :=
  gives_onLoops fun _ others => ⟨push_keeps others stored, fun _ _ => trivial⟩

/-- A change of the loops that adds none. -/
theorem heedless_dropLoops {change : BoundedStack Loop → BoundedStack Loop}
    (drops : ∀ loops, ∀ loop ∈ (change loops).entries, loop ∈ loops.entries) :
    disguise.Heedless (modify fun machine => { machine with loops := change machine.loops } :
      Action Unit) :=
  heedless_modify fun _ guise hides =>
    have goesOn := performs.goesOn hides
    ⟨guise, rfl, hides_anew hides rfl ⟨goesOn.mode,
      fun loop member => goesOn.loops loop (drops _ loop member), goesOn.returns, goesOn.bookmark,
      goesOn.start⟩⟩

theorem heedless_unwindLoops (property : Loop → Bool) :
    disguise.Heedless (modify fun machine =>
      { machine with loops := (machine.loops.unwindTo property).2 } : Action Unit) := by
  refine @heedless_dropLoops _ _ (fun loops => (loops.unwindTo property).2)
    fun loops loop member => ?_
  obtain ⟨entries, older, same⟩ := loops.unwindTo_eq property
  rw [same] at member
  exact older.mem member

/-! ### Subroutines -/

/-- A step on the subroutines that keeps their places admitted. -/
theorem gives_onReturns {good : α → Prop} {step : Attempt (BoundedStack Return) α}
    (keeps : ∀ returns : BoundedStack Return,
      (∀ frame ∈ returns.entries, disguise.admits frame.resume.mode) →
        (∀ frame ∈ (step.runOn returns).2.entries, disguise.admits frame.resume.mode) ∧
          ∀ value, (step.runOn returns).1 = .ok value → good value) :
    disguise.Gives good (onReturns step) :=
  fun machine guise hides =>
    have goesOn := performs.goesOn hides
    have kept := keeps machine.returns goesOn.returns
    .hidden guise (hides_anew hides rfl ⟨goesOn.mode, goesOn.loops, kept.1, goesOn.bookmark,
      goesOn.start⟩) kept.2

theorem heedless_pushReturn {frame : Return} (stored : disguise.admits frame.resume.mode) :
    disguise.Heedless (onReturns (BoundedStack.push frame)) :=
  gives_onReturns fun _ others => ⟨push_keeps others stored, fun _ _ => trivial⟩

theorem heedless_callNumber (line : Single) : disguise.Heedless (callNumber line) :=
  gives_location.bind fun _ stored => (heedless_pushReturn stored).bind fun _ =>
    heedless_gotoNumber line

theorem heedless_returnStatement : disguise.Heedless returnStatement := by
  have popped : disguise.Gives (fun frame => disguise.admits frame.resume.mode)
      (onReturns BoundedStack.pop) :=
    gives_onReturns fun _ stored => pop_keeps stored
  refine popped.bind fun frame stored => .ite ?_ (heedless_moveTo stored)
  exact Heedless.bind (heedless_registers (fun _ _ => rfl) fun _ => ⟨rfl⟩) fun _ =>
    heedless_moveTo stored

/-! ### Ending -/

/-- What ends a program drops the typed line. -/
theorem heedless_endStatement : disguise.Heedless endStatement := by
  refine heedless_advance.bind fun _ machine guise hides => ?_
  by_cases typed : machine.cursor.mode = .interactive
  · have ends (other : Machine) (typed : other.cursor.mode = .interactive) : (do
        if !(← isInteractive) then
          modify fun machine => { machine with continuation := some machine.cursor.location }
        modify halt : Action Unit).runOn other = (.ok (), other.halt) := by
      rw [isInteractive, bind_assoc, Attempt.runOn_get_bind, pure_bind, decide_eq_true typed]
      rfl
    rw [ends machine typed, ends (machine.wearing guise) typed]
    exact performs.halt hides (typed_of_interactive hides typed).2
  · have ends (other : Machine) (runs : other.cursor.mode ≠ .interactive) : (do
        if !(← isInteractive) then
          modify fun machine => { machine with continuation := some machine.cursor.location }
        modify halt : Action Unit).runOn other =
          (.ok (), halt { other with continuation := some other.cursor.location }) := by
      rw [isInteractive, bind_assoc, Attempt.runOn_get_bind, pure_bind, decide_eq_false runs]
      rfl
    rw [ends machine typed, ends (machine.wearing guise) typed]
    exact performs.halt (hides_continuing hides (some machine.cursor.location)) rfl

theorem heedless_newStatement : disguise.Heedless newStatement :=
  Evaluates.clearProgram.bind fun _ => Evaluates.clear.bind fun _ =>
    fun _ _ hides => performs.halt (hides_continuing hides none) rfl

theorem heedless_gotoStatement : disguise.Heedless gotoStatement :=
  heedless_advance.bind fun _ => Evaluates.value.bind fun _ => heedless_gotoNumber _

theorem heedless_gosubStatement : disguise.Heedless gosubStatement :=
  heedless_advance.bind fun _ => Evaluates.value.bind fun _ => heedless_callNumber _

theorem heedless_valuesWithin (fuel : Nat) : disguise.Heedless (valuesWithin fuel) := by
  induction fuel with
  | zero => exact gives_throw _
  | succ fuel ih =>
    refine Evaluates.value.bind fun first => (heedless_accept _).bind fun _ => ?_
    exact .ite (ih.bind fun _ => .pure trivial) (.pure trivial)

/-- The lines of `ON`, of which the chosen one is gone to. -/
theorem heedless_chosenLine (choice : Single) (isCall : Bool) : disguise.Heedless (do
    advance
    let lines ← values
    let chosen := if Single.one.atMost choice then lines[choice.toSize - 1]? else none
    match chosen with
    | none => return ()
    | some line => if isCall then callNumber line else gotoNumber line : Action Unit) := by
  refine heedless_advance.bind fun _ => ?_
  refine (heedless_scan fun length => heedless_valuesWithin (length + 1)).bind fun lines => ?_
  dsimp only
  split
  · exact .pure trivial
  · exact .ite (heedless_callNumber _) (heedless_gotoNumber _)

theorem heedless_onStatement : disguise.Heedless onStatement := by
  refine heedless_advance.bind fun _ => Evaluates.value.bind fun value => ?_
  refine heedless_token.bind fun token => ?_
  dsimp only
  split
  · exact heedless_chosenLine _ _
  · exact heedless_chosenLine _ _
  · exact (heedless_fail _).bind fun _ => heedless_chosenLine _ _

theorem heedless_errorStatement : disguise.Heedless errorStatement := by
  have handle (handler : Option Handler) :
      disguise.Heedless (modify fun machine => { machine with handler } : Action Unit) :=
    heedless_registers (fun _ _ => rfl) fun _ => ⟨rfl⟩
  refine heedless_advance.bind fun _ => heedless_token.bind fun token => ?_
  split
  · refine heedless_advance.bind fun _ => Evaluates.value.bind fun _ => ?_
    exact (heedless_line _).bind fun _ => handle _
  · exact heedless_advance.bind fun _ => handle _
  · exact heedless_advance.bind fun _ => handle _
  · exact gives_fail _

/-! ### Conditions -/

theorem heedless_branch {statement : Action Unit} (heedless : disguise.Heedless statement) :
    disguise.Heedless (branch statement) := by
  refine heedless_token.bind fun token => ?_
  split
  · exact heedless_advance.bind fun _ => heedless_gotoNumber _
  · exact .ite (.pure trivial) heedless

theorem heedless_skipBlock : disguise.Heedless skipBlock :=
  heedless_advance.bind fun _ => (heedless_findBracket _ _).bind fun _ => heedless_advance

theorem heedless_alternative {statement : Action Unit} (heedless : disguise.Heedless statement) :
    disguise.Heedless (alternative statement) :=
  heedless_token.bind fun _ => .ite
    (heedless_advance.bind fun _ => heedless_branch heedless) (.pure trivial)

theorem heedless_ifStatement {statement : Action Unit} (heedless : disguise.Heedless statement) :
    disguise.Heedless (ifStatement statement) := by
  have choose (condition : Single) : disguise.Heedless (do
      if !condition.equals Single.zero then branch statement
      else
        if (← token).isWord .do then skipBlock
        else modify (skipTo fun token => token.endsLine || token.isWord .else)
        alternative statement : Action Unit) := by
    refine .ite (heedless_branch heedless) (heedless_token.bind fun _ => .ite ?_ ?_)
    · exact heedless_skipBlock.bind fun _ => heedless_alternative heedless
    · exact (heedless_skipTo _).bind fun _ => heedless_alternative heedless
  refine heedless_advance.bind fun _ => Evaluates.value.bind fun condition => ?_
  refine heedless_token.bind fun _ => .ite ?_ (choose condition)
  exact heedless_advance.bind fun _ => choose condition

theorem heedless_elseStatement : disguise.Heedless elseStatement :=
  heedless_advance.bind fun _ => heedless_token.bind fun _ => .ite heedless_skipBlock
    (heedless_skipTo _)

/-! ### Bookmarks -/

theorem heedless_mark :
    disguise.Heedless
      (modify fun machine => { machine with bookmark := some machine.cursor.location } :
        Action Unit) :=
  heedless_modify fun _ guise hides =>
    have goesOn := performs.goesOn hides
    ⟨guise, rfl, hides_anew hides rfl ⟨goesOn.mode, goesOn.loops, goesOn.returns,
      fun _ marked => Option.some.inj marked ▸ goesOn.mode, goesOn.start⟩⟩

theorem heedless_unmark :
    disguise.Heedless (modify fun machine => { machine with bookmark := none } : Action Unit) :=
  heedless_modify fun _ guise hides =>
    have goesOn := performs.goesOn hides
    ⟨guise, rfl, hides_anew hides rfl ⟨goesOn.mode, goesOn.loops, goesOn.returns, nofun,
      goesOn.start⟩⟩

theorem heedless_takeBookmark (detail : String) : disguise.Heedless (takeBookmark detail) := by
  refine .get_bind (fun _ _ _ => rfl) fun machine _ hides => ?_
  split
  · rename_i place marked
    exact heedless_unmark.bind fun _ =>
      heedless_moveTo ((performs.goesOn hides).bookmark place marked)
  · exact gives_failWith _ _

/-! ### SWITCH -/

theorem heedless_caseMatchesWithin (wanted : Single) (fuel : Nat) :
    disguise.Heedless (caseMatchesWithin wanted fuel) := by
  induction fuel with
  | zero => exact gives_throw _
  | succ fuel ih =>
    refine Evaluates.value.bind fun _ => .ite (.pure trivial) ?_
    exact (heedless_accept _).bind fun _ => .ite ih (.pure trivial)

theorem heedless_findCaseWithin (wanted : Single) (fuel depth : Nat) :
    disguise.Heedless (findCaseWithin wanted fuel depth) := by
  induction fuel generalizing depth with
  | zero => exact gives_throw _
  | succ fuel ih =>
    refine heedless_token.bind fun token => ?_
    split
    · exact .pure trivial
    · exact heedless_advance.bind fun _ => ih _
    · exact .pure trivial
    · exact heedless_advance.bind fun _ => ih _
    · refine heedless_advance.bind fun _ => ?_
      refine (heedless_caseMatchesWithin _ _).bind fun _ => .ite ?_ (ih _)
      exact (heedless_skipTo _).bind fun _ => .pure trivial
    · exact heedless_advance.bind fun _ => ih _

theorem heedless_switchStatement : disguise.Heedless switchStatement := by
  refine heedless_advance.bind fun _ => Evaluates.value.bind fun wanted => ?_
  have choose (found : Bool) : disguise.Heedless (do
      if found then modify fun machine => { machine with bookmark := none }
      else takeBookmark "SWITCH" : Action Unit) :=
    .ite heedless_unmark (heedless_takeBookmark "SWITCH")
  exact heedless_mark.bind fun _ => heedless_scan fun length =>
    (heedless_findCaseWithin wanted (length + 1) 0).bind choose

theorem heedless_caseStatement : disguise.Heedless caseStatement :=
  heedless_advance.bind fun _ => (heedless_findBracket _ _).bind fun _ => heedless_advance

/-! ### FOR -/

theorem heedless_leaveFor : disguise.Heedless leaveFor := by
  refine (heedless_findBracket _ _).bind fun _ => heedless_advance.bind fun _ => ?_
  refine heedless_token.bind fun token => ?_
  split
  · exact heedless_advance
  · exact .pure trivial

theorem heedless_valueAfter (word : Keyword) (missing : Single) :
    disguise.Heedless (valueAfter word missing) :=
  heedless_token.bind fun _ => .ite (heedless_advance.bind fun _ => Evaluates.value) (.pure trivial)

theorem heedless_beginFor (counter : Name) (limit step : Single) :
    disguise.Heedless (beginFor counter limit step) := by
  refine (heedless_unwindLoops _).bind fun _ => (Evaluates.getScalar _).bind fun _ => ?_
  exact .ite heedless_leaveFor (gives_location.bind fun _ stored => heedless_pushLoop stored)

theorem heedless_forStatement : disguise.Heedless forStatement := by
  have begins (counter : Name) : disguise.Heedless (do
      let limit ← valueAfter .to Single.largest
      let step ← valueAfter .step Single.one
      if !(← token).isTerminator then Attempt.fail .syntaxError
      else beginFor counter limit step : Action Unit) := by
    refine (heedless_valueAfter _ _).bind fun _ => (heedless_valueAfter _ _).bind fun _ => ?_
    exact heedless_token.bind fun _ => .ite (gives_fail _) (heedless_beginFor _ _ _)
  have counts (counter : Name) : disguise.Heedless (do
      advance
      if (← token).isOperator .equal then
        advance
        setScalar counter (← value)
      let limit ← valueAfter .to Single.largest
      let step ← valueAfter .step Single.one
      if !(← token).isTerminator then Attempt.fail .syntaxError
      else beginFor counter limit step : Action Unit) := by
    refine heedless_advance.bind fun _ => heedless_token.bind fun _ => .ite ?_ (begins counter)
    refine heedless_advance.bind fun _ => Evaluates.value.bind fun _ => ?_
    exact (Evaluates.setScalar _ _).bind fun _ => begins counter
  refine heedless_advance.bind fun _ => heedless_token.bind fun token => ?_
  dsimp only
  split
  · exact counts _
  · exact (heedless_fail _).bind counts

/-- The place where the next round of a `FOR` begins is in a program. -/
theorem gives_counterWithin (wanted : Option Name) (fuel : Nat) :
    disguise.Gives (fun found => disguise.admits found.2.2.2.mode) (counterWithin wanted fuel) := by
  induction fuel with
  | zero => exact gives_throw _
  | succ fuel ih =>
    refine .get_bind (fun _ _ _ => rfl) fun machine _ hides => ?_
    split
    · rename_i counter limit step resume top
      refine .ite (.pure ?_) (gives_popLoop.bind fun _ _ => ih)
      exact (performs.goesOn hides).loops _ (List.mem_of_mem_head? top)
    · exact gives_fail _

/-- The next round of a loop, or its end. -/
theorem heedless_nextRound (wanted : Option Name) : disguise.Heedless (do
    let (counter, limit, step, resume) ← counterWithin wanted ((← get).loops.size + 1)
    let value := (← getScalar counter).add step
    setScalar counter value
    if isPast value limit step then
      let _ ← onLoops BoundedStack.pop
    else moveTo resume : Action Unit) := by
  refine .get_bind (fun _ _ _ => rfl) fun _ _ _ => (gives_counterWithin _ _).bind
    fun found stored => (Evaluates.getScalar _).bind fun _ => ?_
  refine (Evaluates.setScalar _ _).bind fun _ => .ite ?_ (heedless_moveTo stored)
  exact gives_popLoop.bind fun _ _ => .pure trivial

theorem heedless_nextStatement : disguise.Heedless nextStatement := by
  refine heedless_advance.bind fun _ => heedless_token.bind fun token => ?_
  dsimp only
  split
  · exact heedless_advance.bind fun _ => heedless_nextRound _
  · exact heedless_nextRound _

/-! ### WHILE and REPEAT -/

theorem heedless_whileStatement : disguise.Heedless whileStatement := by
  refine heedless_advance.bind fun _ => gives_location.bind fun resume stored => ?_
  refine Evaluates.value.bind fun condition => (heedless_unwindLoops _).bind fun _ => ?_
  refine .ite (heedless_pushLoop stored) ?_
  exact (heedless_findBracket _ _).bind fun _ => heedless_advance

theorem heedless_wendStatement : disguise.Heedless wendStatement := by
  refine .get_bind (fun _ _ _ => rfl) fun machine _ hides => ?_
  split
  · rename_i resume top
    refine heedless_advance.bind fun _ => heedless_mark.bind fun _ => ?_
    have stored := (performs.goesOn hides).loops _ (List.mem_of_mem_head? top)
    refine (heedless_moveTo stored).bind fun _ => Evaluates.value.bind fun _ => ?_
    exact .ite heedless_unmark (gives_popLoop.bind fun _ _ => heedless_takeBookmark "WEND")
  · exact gives_fail _

theorem heedless_repeatStatement : disguise.Heedless repeatStatement :=
  heedless_advance.bind fun _ => gives_location.bind fun _ stored =>
    (heedless_unwindLoops _).bind fun _ => heedless_pushLoop stored

theorem heedless_untilStatement : disguise.Heedless untilStatement := by
  refine .get_bind (fun _ _ _ => rfl) fun machine _ hides => ?_
  split
  · rename_i resume top
    have stored := (performs.goesOn hides).loops _ (List.mem_of_mem_head? top)
    refine heedless_advance.bind fun _ => Evaluates.value.bind fun _ => ?_
    exact .ite (gives_popLoop.bind fun _ _ => .pure trivial) (heedless_moveTo stored)
  · exact gives_fail _

/-! ### BREAK and CONT -/

theorem heedless_breakStatement : disguise.Heedless breakStatement := by
  refine gives_popLoop.bind fun loop _ => heedless_advance.bind fun _ => ?_
  split
  · exact heedless_leaveFor
  · exact (heedless_findBracket _ _).bind fun _ => heedless_advance
  · refine (heedless_findBracket _ _).bind fun _ => heedless_advance.bind fun _ => ?_
    exact Evaluates.value.bind fun _ => .pure trivial

theorem heedless_continueLoop : disguise.Heedless continueLoop := by
  refine .get_bind (fun _ _ _ => rfl) fun machine _ _ => ?_
  split
  · exact gives_fail _
  · refine heedless_advance.bind fun _ => ?_
    split
    · exact (heedless_findBracket _ _).bind fun _ => heedless_nextStatement
    · exact (heedless_findBracket _ _).bind fun _ => heedless_wendStatement
    · exact (heedless_findBracket _ _).bind fun _ => heedless_untilStatement

/-- A typed `CONT` goes on where the program was stopped. -/
theorem heedless_contStatement : disguise.Heedless contStatement := by
  refine heedless_ifTyped (fun machine guise hides typed => ?_) heedless_continueLoop
  have anywhere (mode : Mode) : disguise.admits mode := by
    by_cases reads : mode = .interactive
    · exact reads ▸ typed ▸ (performs.goesOn hides).mode
    · exact performs.stored reads
  have goesOn (continuation : Option Location) : disguise.Heedless (do
      let location ← Attempt.orFail .cannotContinue continuation
      modify fun machine => { machine with continuation := none }
      moveTo location : Action Unit) := by
    refine (heedless_orFail _ _).bind fun place => Heedless.bind ?_ fun _ =>
      heedless_moveTo (anywhere place.mode)
    exact heedless_modify fun _ guise hides =>
      ⟨{ guise with continuation := none }, rfl, hides_continuing hides none⟩
  rw [continueProgram, Attempt.runOn_get_bind, Attempt.runOn_get_bind]
  rw [show (machine.wearing guise).continuation = machine.continuation from
    (typed_of_interactive hides typed).2]
  exact goesOn machine.continuation machine guise hides

/-! ### Data -/

theorem heedless_setData (data : DataCursor) :
    disguise.Heedless (modify fun machine => { machine with data } : Action Unit) :=
  heedless_registers (fun _ _ => rfl) fun _ => ⟨rfl⟩

theorem heedless_takeDatum : disguise.Heedless takeDatum := by
  refine .get_bind (fun _ _ _ => rfl) fun machine _ _ => (heedless_lift _).bind fun found => ?_
  exact (heedless_setData _).bind fun _ => .pure trivial

theorem heedless_assignDatum (target : Target) (datum : Datum) :
    disguise.Heedless (assignDatum target datum) := by
  unfold assignDatum
  split
  · exact Evaluates.assignText _ _
  · exact Evaluates.assignNumber _ _
  · exact Evaluates.assignText _ _
  · exact gives_fail _

theorem heedless_readItemsWithin (fuel : Nat) : disguise.Heedless (readItemsWithin fuel) := by
  induction fuel with
  | zero => exact gives_throw _
  | succ fuel ih =>
    refine Evaluates.target.bind fun _ => heedless_takeDatum.bind fun _ => ?_
    refine (heedless_assignDatum _ _).bind fun _ => (heedless_accept _).bind fun _ => ?_
    exact .ite ih (.pure trivial)

theorem heedless_readStatement : disguise.Heedless readStatement :=
  heedless_advance.bind fun _ => heedless_scan fun length => heedless_readItemsWithin (length + 1)

theorem heedless_restoreStatement : disguise.Heedless restoreStatement := by
  refine heedless_advance.bind fun _ => heedless_atEnd.bind fun _ => ?_
  refine .ite (heedless_setData _) (Evaluates.value.bind fun _ => ?_)
  exact (heedless_line _).bind fun _ => (gives_findLine _).bind fun _ _ => heedless_setData _

/-! ### Printing and input -/

theorem heedless_setOutput (output : UInt8) :
    disguise.Heedless (modify fun machine => { machine with output } : Action Unit) :=
  heedless_registers (fun _ _ => rfl) fun _ => ⟨rfl⟩

theorem heedless_setInput (input : UInt8) :
    disguise.Heedless (modify fun machine => { machine with input } : Action Unit) :=
  heedless_registers (fun _ _ => rfl) fun _ => ⟨rfl⟩

theorem heedless_channelPrefix? : disguise.Heedless channelPrefix? := by
  refine (heedless_accept _).bind fun _ => .ite (.pure trivial) ?_
  refine Evaluates.value.bind fun _ => (heedless_channel _).bind fun _ => ?_
  refine .get_bind (fun _ _ _ => rfl) fun _ _ _ => .ite (gives_fail _) ?_
  exact (heedless_accept _).bind fun _ => .pure trivial

theorem heedless_selectOutput : disguise.Heedless selectOutput := by
  refine heedless_channelPrefix?.bind fun channel => ?_
  cases channel with
  | none => exact .pure trivial
  | some channel => exact heedless_setOutput channel

theorem heedless_selectInput : disguise.Heedless selectInput := by
  refine heedless_channelPrefix?.bind fun channel => ?_
  cases channel with
  | none => exact .pure trivial
  | some channel => exact heedless_setInput channel

theorem heedless_printNumber (number : Single) : disguise.Heedless (printNumber number) := by
  refine .get_bind (fun _ _ _ => rfl) fun _ _ _ => (heedless_writeTimes _ _).bind fun _ => ?_
  exact heedless_write _

theorem heedless_printItem : disguise.Heedless printItem := by
  refine heedless_token.bind fun _ => .ite ?_ (Evaluates.string?.bind fun text => ?_)
  · refine heedless_advance.bind fun _ => Evaluates.value.bind fun _ => ?_
    exact heedless_writeTimes _ _
  · cases text with
    | some text => exact heedless_write text
    | none => exact Evaluates.value.bind fun _ => heedless_printNumber _

theorem heedless_printItemsWithin (fuel : Nat) (newline : Bool) :
    disguise.Heedless (printItemsWithin fuel newline) := by
  induction fuel generalizing newline with
  | zero => exact gives_throw _
  | succ fuel ih =>
    refine heedless_atEnd.bind fun _ => .ite (.ite (heedless_writeByte _) (.pure trivial)) ?_
    refine heedless_token.bind fun _ => .ite (heedless_selectOutput.bind fun _ => ih _) ?_
    refine (heedless_accept _).bind fun _ => .ite ?_ (heedless_printItem.bind fun _ => ?_)
    · refine Evaluates.value.bind fun width => Heedless.bind ?_ fun _ =>
        (heedless_accept _).bind fun _ => ih _
      exact heedless_registers (fun _ _ => rfl) fun _ => ⟨rfl⟩
    · refine (heedless_accept _).bind fun _ => .ite
        ((heedless_writeByte _).bind fun _ => ih _) ?_
      refine (heedless_accept _).bind fun _ => .ite (ih _) ?_
      exact heedless_atEnd.bind fun _ => .ite (ih _) (gives_fail _)

/-- A statement whose last change is one of registers. -/
theorem heedless_restoring {step : Action α} (heedless : disguise.Heedless step)
    {change : Machine → Machine}
    (same : ∀ (machine : Machine) guise,
      change (machine.wearing guise) = (change machine).wearing guise)
    (shares : ∀ machine : Machine, machine.SharesReading (change machine)) :
    disguise.Heedless (step.ensuring change) :=
  heedless.ensuring fun machine guise hides =>
    ⟨same machine guise, hides_of_shares hides (shares machine)⟩

theorem heedless_printStatement : disguise.Heedless printStatement := by
  refine heedless_advance.bind fun _ => .get_bind (fun _ _ hides => ?_) fun machine _ _ => ?_
  · simp only [textLength_wearing hides]
    rfl
  · exact heedless_restoring (heedless_printItemsWithin _ _) (fun _ _ => rfl) fun _ => ⟨rfl⟩

theorem heedless_putItemsWithin (fuel : Nat) : disguise.Heedless (putItemsWithin fuel) := by
  induction fuel with
  | zero => exact gives_throw _
  | succ fuel ih =>
    have rest : disguise.Heedless (do if ← accept ',' then putItemsWithin fuel : Action Unit) :=
      (heedless_accept _).bind fun _ => .ite ih (.pure trivial)
    refine Evaluates.string?.bind fun text => ?_
    cases text with
    | some text => exact (heedless_write text).bind fun _ => rest
    | none =>
      refine Evaluates.value.bind fun _ => (heedless_byte _).bind fun _ => ?_
      exact (heedless_writeByte _).bind fun _ => rest

theorem heedless_putStatement : disguise.Heedless putStatement := by
  refine heedless_advance.bind fun _ => .get_bind (fun _ _ _ => rfl) fun machine _ _ => ?_
  refine heedless_selectOutput.bind fun _ => .get_bind (fun _ _ hides => ?_) fun _ _ _ => ?_
  · rw [textLength_wearing hides]
  · exact heedless_restoring (heedless_putItemsWithin _) (fun _ _ => rfl) fun _ => ⟨rfl⟩

theorem heedless_prompt : disguise.Heedless prompt := by
  refine heedless_token.bind fun token => ?_
  split
  · refine (heedless_write _).bind fun _ => heedless_advance.bind fun _ => ?_
    refine (heedless_accept _).bind fun _ => .ite ?_ (.pure trivial)
    exact (heedless_accept _).bind fun _ => .pure trivial
  · exact .pure trivial

theorem heedless_assignInput (target : Target) (item : Bytes) :
    disguise.Heedless (assignInput target item) := by
  unfold assignInput
  split
  · exact Evaluates.assignText _ _
  · refine .get_bind (fun _ _ _ => rfl) fun _ _ _ => ?_
    split
    · exact Evaluates.assignNumber _ _
    · exact (heedless_setFailed true).bind fun _ => Evaluates.assignNumber _ _

/-- A line, as the fields that a target takes. -/
theorem heedless_readFieldsOf (target : Target) : disguise.Heedless (do
    let line ← readLine
    match target with
    | .text _ _ => return [line]
    | _ => return fieldsOf line : Action (List Bytes)) := by
  refine heedless_readLine.bind fun line => ?_
  split <;> exact .pure trivial

theorem heedless_readFields (target : Target) (prompted : Bool) :
    disguise.Heedless (readFields target prompted) := by
  refine .get_bind (fun _ _ _ => rfl) fun _ _ _ => .ite ?_ (heedless_readFieldsOf target)
  exact (heedless_write _).bind fun _ => heedless_readFieldsOf target

theorem heedless_inputItemsWithin (fuel : Nat) (waiting : List Bytes) :
    disguise.Heedless (inputItemsWithin fuel waiting) := by
  induction fuel generalizing waiting with
  | zero => exact gives_throw _
  | succ fuel ih =>
    have rest (target : Target) (fields : List Bytes) : disguise.Heedless (do
        assignInput target (fields.headD [])
        if ← accept ',' then inputItemsWithin fuel fields.tail : Action Unit) := by
      refine (heedless_assignInput _ _).bind fun _ => (heedless_accept _).bind fun _ => ?_
      exact .ite (ih _) (.pure trivial)
    refine heedless_prompt.bind fun prompted => Evaluates.target.bind fun target => ?_
    exact .ite ((heedless_readFields _ _).bind fun _ => rest _ _) (rest _ _)

theorem heedless_inputStatement : disguise.Heedless inputStatement := by
  refine heedless_advance.bind fun _ => .get_bind (fun _ _ _ => rfl) fun machine _ _ => ?_
  refine heedless_selectInput.bind fun _ => .get_bind (fun _ _ hides => ?_) fun _ _ _ => ?_
  · rw [textLength_wearing hides]
  · exact heedless_restoring (heedless_inputItemsWithin _ _) (fun _ _ => rfl) fun _ => ⟨rfl⟩

/-- A byte that was read, or none, is assigned to a target. -/
theorem heedless_assignByte (target : Target) (byte : Option UInt8) :
    disguise.Heedless (match target with
      | .text _ _ => assignText target byte.toList
      | _ => assignNumber target ((byte.map fun code => Single.ofNat code.toNat).getD Single.zero) :
        Action Unit) := by
  split
  · exact Evaluates.assignText _ _
  · exact Evaluates.assignNumber _ _

theorem heedless_getItem : disguise.Heedless getItem := by
  refine Evaluates.target.bind fun target => .get_bind (fun _ _ _ => rfl) fun machine _ _ => ?_
  refine .ite ?_ (heedless_assignByte target none)
  exact (heedless_onHost _).bind fun byte => heedless_assignByte target byte

theorem heedless_getStatement : disguise.Heedless getStatement := by
  refine heedless_advance.bind fun _ => .get_bind (fun _ _ _ => rfl) fun machine _ _ => ?_
  refine heedless_selectInput.bind fun _ => ?_
  exact heedless_restoring heedless_getItem (fun _ _ => rfl) fun _ => ⟨rfl⟩

/-! ### Timers and pins -/

theorem heedless_respond (response : Response) (fromPin : Bool) :
    disguise.Heedless (respond response fromPin) := by
  cases response with
  | goto line => exact heedless_gotoLine line
  | gosub line =>
    exact gives_location.bind fun _ stored => (heedless_pushReturn stored).bind fun _ =>
      heedless_gotoLine line

/-- A change of the registers of a machine that was looked at, and what follows it. -/
theorem heedless_get_set {change : Machine → Machine} {next : Machine → Action α}
    (same : ∀ (machine : Machine) guise,
      change (machine.wearing guise) = (change machine).wearing guise)
    (shares : ∀ machine : Machine, machine.SharesReading (change machine))
    (again : ∀ (machine : Machine) guise, next (machine.wearing guise) = next machine)
    (heedless : ∀ machine, disguise.Heedless (next machine)) :
    disguise.Heedless (get >>= fun machine => set (change machine) >>= fun _ => next machine) := by
  intro machine guise hides
  show disguise.EndsAlike _ ((next machine).runOn (change machine))
    ((next (machine.wearing guise)).runOn (change (machine.wearing guise)))
  rw [same, again]
  exact heedless machine _ guise (hides_of_shares hides (shares machine))

/-- The response of a pin, if one is served. -/
theorem heedless_serve (response : Option Response) : disguise.Heedless (match response with
    | some response => answerPin response
    | none => return () : Action Unit) := by
  cases response with
  | none => exact .pure trivial
  | some response =>
    refine .ite ?_ (heedless_respond response true)
    exact Heedless.bind (heedless_registers (fun _ _ => rfl) fun _ => ⟨rfl⟩) fun _ =>
      heedless_respond response true

theorem heedless_servePins : disguise.Heedless servePins := by
  intro machine guise hides
  by_cases serves : machine.pins.isEnabled = true ∧ machine.pins.slots ≠ []
  · rw [runOn_servePins serves.1 serves.2,
      @runOn_servePins (machine.wearing guise) serves.1 serves.2]
    exact heedless_serve _ _ guise (hides_of_shares hides ⟨rfl⟩)
  · rw [runOn_servePins_of_held serves, @runOn_servePins_of_held (machine.wearing guise) serves]
    exact .hidden guise hides fun _ _ => trivial

/-- The response of a timer, if it has one. -/
theorem heedless_answer (response : Option Response) : disguise.Heedless (match response with
    | some response => respond response false
    | none => return () : Action Unit) := by
  cases response with
  | none => exact .pure trivial
  | some response => exact heedless_respond response false

/-- **What timers and pins do is heedless of guises.** -/
theorem heedless_dispatch : disguise.Heedless dispatch := by
  refine heedless_get_ite (fun _ _ => rfl) ?_ (heedless_get_ite (fun _ _ => rfl) ?_ ?_)
  · exact heedless_get_set (fun _ _ => rfl) (fun _ => ⟨rfl⟩) (fun _ _ => rfl)
      fun _ => heedless_answer _
  · exact heedless_get_set (fun _ _ => rfl) (fun _ => ⟨rfl⟩) (fun _ _ => rfl)
      fun _ => heedless_answer _
  · exact .get_bind (fun _ _ _ => rfl) fun _ _ _ => heedless_servePins

theorem heedless_response? : disguise.Heedless response? := by
  refine heedless_token.bind fun token => ?_
  split
  · refine heedless_advance.bind fun _ => Evaluates.value.bind fun _ => ?_
    exact (heedless_line _).bind fun _ => .pure trivial
  · refine heedless_advance.bind fun _ => Evaluates.value.bind fun _ => ?_
    exact (heedless_line _).bind fun _ => .pure trivial
  · exact .pure trivial

theorem heedless_timerStatement (repeats : Bool) : disguise.Heedless (timerStatement repeats) := by
  refine heedless_advance.bind fun _ => Evaluates.value.bind fun _ => .ite (gives_fail _) ?_
  exact heedless_response?.bind fun _ => heedless_registers (fun _ _ => rfl) fun _ => ⟨rfl⟩

theorem heedless_clearTimer (repeats : Bool) : disguise.Heedless (clearTimer repeats) :=
  heedless_registers (fun _ _ => rfl) fun _ => ⟨rfl⟩

theorem heedless_enablePins (enabled : Bool) : disguise.Heedless (enablePins enabled) :=
  heedless_registers (fun _ _ => rfl) fun _ => ⟨rfl⟩

theorem heedless_watchPin : disguise.Heedless watchPin := by
  have removes (pin : UInt8) :
      disguise.Heedless (modify fun machine => { machine with pins := machine.pins.remove pin } :
        Action Unit) := heedless_registers (fun _ _ => rfl) fun _ => ⟨rfl⟩
  refine Evaluates.value.bind fun number => Heedless.bind (.ite (gives_fail _) (.pure trivial))
    fun pin => ?_
  refine heedless_atEnd.bind fun _ => .ite (removes pin) ((heedless_expect _).bind fun _ => ?_)
  refine Evaluates.value.bind fun _ => .ite (gives_fail _) (heedless_response?.bind fun _ => ?_)
  refine (heedless_orFail _ _).bind fun response => ?_
  refine .get_bind (fun _ _ _ => rfl) fun machine _ _ => ?_
  split
  · exact heedless_registers (fun _ _ => rfl) fun _ => ⟨rfl⟩
  · exact (removes pin).bind fun _ => gives_failWith _ _

theorem heedless_eventStatement : disguise.Heedless eventStatement := by
  refine heedless_advance.bind fun _ => heedless_token.bind fun token => ?_
  split
  · exact heedless_advance.bind fun _ => heedless_enablePins false
  · exact heedless_advance.bind fun _ => heedless_enablePins true
  · exact heedless_watchPin

/-! ### Waiting -/

theorem heedless_unlessBroken {next : Action α} (heedless : disguise.Heedless next) :
    disguise.Heedless
      (do if ← breakRequested then Attempt.fail .interrupted else next : Action α) :=
  heedless_breakRequested.bind fun _ => .ite (gives_fail _) heedless

theorem heedless_delayWithin (start milliseconds : UInt64) (fuel : Nat) :
    disguise.Heedless (delayWithin start milliseconds fuel) := by
  induction fuel with
  | zero => exact gives_throw _
  | succ fuel ih =>
    refine .get_bind (fun _ _ _ => rfl) fun _ _ _ => .ite ?_ (.pure trivial)
    exact heedless_yield.bind fun _ => heedless_unlessBroken ih

theorem heedless_delayStatement : disguise.Heedless delayStatement := by
  refine heedless_advance.bind fun _ => Evaluates.value.bind fun _ => .ite (gives_fail _) ?_
  exact .get_bind (fun _ _ _ => rfl) fun _ _ _ => heedless_delayWithin _ _ _

/-! ### Keeping programs and files -/

theorem heedless_onFiles (step : Files → α × Files) : disguise.Heedless (onFiles step) :=
  (heedless_onHost _).bind fun _ => heedless_orFail _ _

theorem heedless_fileName : disguise.Heedless fileName :=
  (Evaluates.text.reportingAs .syntaxError).bind fun _ => .pure trivial

theorem heedless_saveImage : disguise.Heedless saveImage := by
  intro machine guise hides
  rw [saveImage, Attempt.runOn_get_bind, Attempt.runOn_get_bind]
  dsimp only [wearing, Memory.width_withSlots, Memory.program_withSlots]
  cases machine.host.store with
  | none => exact .hidden guise hides fun _ => nofun
  | some store =>
    dsimp only
    generalize ProgramImage.write? store machine.memory.width _ _ = written
    cases written with
    | none => exact .hidden guise hides fun _ => nofun
    | some store =>
      exact .hidden guise (hides_of_shares hides ⟨rfl⟩) fun _ _ => trivial

theorem heedless_saveListing (name : Bytes) : disguise.Heedless (saveListing name) := by
  refine .get_bind (fun _ _ _ => rfl) fun _ _ _ => (heedless_onFiles _).bind fun _ => ?_
  exact .ite (gives_fail _) (.pure trivial)

theorem heedless_saveStatement : disguise.Heedless saveStatement :=
  heedless_advance.bind fun _ => heedless_fileName.bind fun _ =>
    .ite heedless_saveImage (heedless_saveListing _)

theorem heedless_setStatement : disguise.Heedless setStatement := by
  have mark (flag : Single) (store : ByteStore) : disguise.Heedless (get >>= fun machine =>
      if ProgramImage.isPresent store machine.memory.width then
        let mark := if flag.equals Single.zero then ProgramImage.plainFlag
          else ProgramImage.autorunFlag
        set { machine with host := { machine.host with store := some (store.write 0 mark) } }
      else Attempt.failWith .storeError "NO PROGRAM" : Action Unit) := by
    refine heedless_get_ite (fun _ _ => rfl) (fun _ guise hides => ?_)
      (.get_bind (fun _ _ _ => rfl) fun _ _ _ => gives_failWith _ _)
    exact .hidden guise (hides_of_shares hides ⟨rfl⟩) fun _ _ => trivial
  refine heedless_advance.bind fun _ => Evaluates.value.bind fun _ => ?_
  refine (heedless_expect _).bind fun _ => Evaluates.value.bind fun flag => ?_
  refine .ite (gives_fail _) fun machine guise hides => ?_
  rw [Attempt.runOn_get_bind, Attempt.runOn_get_bind]
  dsimp only [wearing]
  cases machine.host.store with
  | none => exact .hidden guise hides nofun
  | some store => exact mark flag store machine guise hides

theorem heedless_loadImage : disguise.Heedless loadImage := by
  refine .get_bind (fun _ _ _ => rfl) fun machine _ _ => ?_
  split
  · exact gives_failWith _ _
  · split
    · exact gives_failWith _ _
    · exact .ite (Evaluates.loadProgram _) (gives_failWith _ _)

theorem heedless_storeLines (fractions : Bool) (lines : List Bytes) :
    disguise.Heedless (storeLines fractions lines) := by
  induction lines with
  | nil => exact .pure trivial
  | cons line rest ih =>
    rw [storeLines]
    split
    · exact ih
    · exact (heedless_line _).bind fun number => (Evaluates.storeLine _ _).bind fun _ => ih
    · exact Heedless.bind (gives_failWith _ _) fun _ => ih

theorem heedless_loadListing (name : Bytes) : disguise.Heedless (loadListing name) := by
  refine (heedless_onFiles _).bind fun _ => (heedless_orFail _ _).bind fun content => ?_
  refine Evaluates.clearProgram.bind fun _ => .get_bind (fun _ _ _ => rfl) fun _ _ _ => ?_
  exact heedless_storeLines _ _

theorem heedless_loadProgram (name : Bytes) : disguise.Heedless (loadProgram name) :=
  .ite heedless_loadImage (heedless_loadListing name)

theorem heedless_loadStatement : disguise.Heedless loadStatement := by
  have chain (chained : Bool) : disguise.Heedless (do
      if chained then
        modify fun machine =>
          { machine with
            operands := machine.operands.clear
            loops := machine.loops.clear
            returns := machine.returns.clear
            bookmark := none }
        startOf .run : Action Unit) := by
    refine .ite (Heedless.bind (heedless_modify fun _ guise hides => ⟨guise, rfl, ?_⟩) fun _ => ?_)
      (.pure trivial)
    · have goesOn := performs.goesOn hides
      exact hides_anew hides rfl ⟨goesOn.mode, nofun, nofun, nofun, goesOn.start⟩
    · exact heedless_moveTo (performs.stored nofun)
  refine heedless_advance.bind fun _ => heedless_fileName.bind fun name => ?_
  refine heedless_isInteractive.bind fun reading => (heedless_loadProgram name).bind fun _ => ?_
  refine Heedless.bind (heedless_modify fun _ guise hides => ?_) fun _ => chain _
  exact ⟨{ guise with continuation := none }, rfl,
    hides_of_shares (hides_continuing hides none) ⟨rfl⟩⟩

theorem heedless_loadNamed : disguise.Heedless loadNamed := by
  refine heedless_token.bind fun token => ?_
  split
  · exact heedless_advance.bind fun _ => (heedless_loadProgram _).bind fun _ => .pure trivial
  · exact .pure trivial

/-- A program that starts from new drops the place to go on. -/
theorem heedless_goAfresh {mode : Mode} (stored : mode ≠ .interactive) (line : Option LineNumber) :
    disguise.Heedless (goAfresh mode line) := by
  refine Heedless.bind (heedless_modify fun _ guise hides => ?_) fun _ => ?_
  · have goesOn := performs.goesOn hides
    exact ⟨{ guise with continuation := none }, rfl, hides_moved (hides_continuing hides none)
      (performs.stored stored) id rfl rfl⟩
  cases line with
  | some line => exact heedless_gotoLine line
  | none => exact heedless_moveTo (performs.stored stored)

theorem heedless_startAfresh (loaded : Bool) (line : Option LineNumber) :
    disguise.Heedless (startAfresh loaded line) := by
  refine .get_bind (fun _ _ _ => rfl) fun machine _ _ => Evaluates.clear.bind fun _ => ?_
  refine heedless_goAfresh ?_ line
  split <;> decide

theorem heedless_runStatement : disguise.Heedless runStatement := by
  refine heedless_advance.bind fun _ => heedless_loadNamed.bind fun loaded => ?_
  refine heedless_atEnd.bind fun _ => .ite (heedless_startAfresh loaded none) ?_
  have named : disguise.Heedless (do Range.line (← value) : Action LineNumber) :=
    Evaluates.value.bind fun _ => heedless_line _
  exact (named.map some).bind fun line => heedless_startAfresh loaded line

/-! ### Files -/

theorem heedless_catalogStatement : disguise.Heedless catalogStatement := by
  have list (start : Bytes) : disguise.Heedless (do
      let entries ← onFiles fun files => (files.catalog, files)
      let chosen := entries.filter fun entry => Bytes.startsWith entry.name start
      write (chosen.flatMap catalogLine) : Action Unit) :=
    (heedless_onFiles _).bind fun _ => heedless_write _
  refine heedless_advance.bind fun _ => heedless_atEnd.bind fun _ => .ite (list _) ?_
  exact heedless_fileName.bind fun _ => list _

theorem heedless_deleteStatement : disguise.Heedless deleteStatement := by
  refine heedless_advance.bind fun _ => heedless_fileName.bind fun name => ?_
  exact (heedless_onFiles _).bind fun _ => .ite (gives_fail _) (.pure trivial)

theorem heedless_openStatement : disguise.Heedless openStatement := by
  have openAs (step : Files → Option Bool × Files) : disguise.Heedless (do
      let opened ← Attempt.orFail .illegalFunctionCall <| ← onFiles step
      modify fun machine => { machine with deviceFailed := !opened } : Action Unit) := by
    refine (heedless_onFiles _).bind fun _ => (heedless_orFail _ _).bind fun opened => ?_
    exact heedless_setFailed _
  refine heedless_advance.bind fun _ => heedless_fileName.bind fun name => ?_
  refine (heedless_accept _).bind fun _ => .ite ?_ (openAs _)
  exact Evaluates.value.bind fun _ => openAs _

theorem heedless_closeStatement : disguise.Heedless closeStatement := by
  have close (step : Files → Bool × Files) : disguise.Heedless (do
      if ← onFiles step then modify deselectFiles else Attempt.fail .illegalFunctionCall :
        Action Unit) := by
    refine (heedless_onFiles _).bind fun _ => .ite ?_ (gives_fail _)
    exact heedless_registers (fun _ _ => rfl) fun _ => ⟨rfl⟩
  refine heedless_advance.bind fun _ => heedless_atEnd.bind fun _ => ?_
  refine .ite (Heedless.bind (.pure trivial) fun _ => close _) ?_
  exact (Evaluates.value.map some).bind fun _ => close _

theorem heedless_formatStatement : disguise.Heedless formatStatement :=
  heedless_advance.bind fun _ => (heedless_onFiles _).bind fun _ =>
    .ite (gives_fail _) (.pure trivial)

/-! ### Assignments and definitions -/

theorem heedless_assignment : disguise.Heedless assignment := by
  refine Evaluates.target.bind fun target => heedless_token.bind fun _ => .ite (gives_fail _) ?_
  refine heedless_advance.bind fun _ => ?_
  split
  · refine Evaluates.concatenation.bind fun _ => ?_
    exact Evaluates.assignText _ _
  · exact Evaluates.value.bind fun _ => Evaluates.assignNumber _ _

theorem heedless_parameter : disguise.Heedless parameter := by
  refine (heedless_accept _).bind fun _ => .ite (.pure trivial) ?_
  refine heedless_token.bind fun token => ?_
  dsimp only
  split
  · exact heedless_advance.bind fun _ => (heedless_expect _).bind fun _ => .pure trivial
  · exact (heedless_expect _).bind fun _ => .pure trivial

theorem heedless_defStatement : disguise.Heedless defStatement := by
  have store (name parameter : Name) : disguise.Heedless (do
      let entry := (← location).offset
      storeFunction name entry parameter (modify (skipTo Token.isTerminator)) : Action Unit) :=
    gives_location.bind fun _ _ => Evaluates.storeFunction _ _ _
  have rest (name : Name) : disguise.Heedless (do
      advance
      let parameter ← parameter
      if !(← token).isOperator .equal then Attempt.fail .syntaxError
      let entry := (← location).offset
      storeFunction name entry parameter (modify (skipTo Token.isTerminator)) : Action Unit) := by
    refine heedless_advance.bind fun _ => heedless_parameter.bind fun parameter => ?_
    refine heedless_token.bind fun _ => .ite ?_ (store _ _)
    exact (heedless_fail _).bind fun _ => store _ _
  refine heedless_isInteractive.bind fun _ => .ite (gives_fail _) ?_
  refine heedless_advance.bind fun _ => ?_
  refine heedless_token.bind fun _ => .ite ((heedless_fail _).bind fun _ => ?_) ?_
  all_goals
    refine heedless_advance.bind fun _ => heedless_token.bind fun token => ?_
    dsimp only
    split
    · exact rest _
    · exact rest _
    · exact (heedless_fail _).bind fun _ => rest _

theorem heedless_dimensionsWithin (fuel : Nat) : disguise.Heedless (dimensionsWithin fuel) := by
  induction fuel with
  | zero => exact gives_throw _
  | succ fuel ih =>
    refine Evaluates.dimension.bind fun _ => (heedless_accept _).bind fun _ => ?_
    exact .ite ih (.pure trivial)

theorem heedless_dimStatement : disguise.Heedless dimStatement :=
  heedless_advance.bind fun _ => heedless_scan fun length => heedless_dimensionsWithin (length + 1)

theorem heedless_clrStatement : disguise.Heedless clrStatement := by
  refine heedless_advance.bind fun _ => heedless_atEnd.bind fun _ => .ite Evaluates.clear ?_
  refine heedless_token.bind fun token => ?_
  split
  · refine heedless_advance.bind fun _ => heedless_modify fun _ guise hides => ⟨guise, rfl, ?_⟩
    have goesOn := performs.goesOn hides
    exact hides_anew hides rfl ⟨goesOn.mode, goesOn.loops, nofun, goesOn.bookmark, goesOn.start⟩
  · exact heedless_advance.bind fun _ => @heedless_dropLoops _ _ (·.clear) fun _ _ => nofun
  · exact heedless_advance.bind fun _ => heedless_clearTimer false
  · exact heedless_advance.bind fun _ => heedless_clearTimer true
  · refine Evaluates.objectName.bind fun object => ?_
    exact (Evaluates.delete _ _).bind fun _ => .pure trivial

/-! ### Machine and program -/

theorem heedless_printLines (lines : List Bytes) : disguise.Heedless (printLines lines) := by
  induction lines with
  | nil => exact .pure trivial
  | cons line rest ih =>
    refine (heedless_write _).bind fun _ => (heedless_writeByte _).bind fun _ => ?_
    exact heedless_unlessBroken ih

theorem heedless_rangeEnd (missing : LineNumber) : disguise.Heedless (rangeEnd missing) := by
  refine (heedless_accept _).bind fun _ => .ite (heedless_atEnd.bind fun _ => ?_) (.pure trivial)
  exact .ite (.pure trivial) (Evaluates.value.bind fun _ => heedless_line _)

theorem heedless_lineRange : disguise.Heedless lineRange := by
  refine heedless_atEnd.bind fun _ => .ite (.pure trivial) (heedless_token.bind fun _ => .ite ?_ ?_)
  · exact (heedless_rangeEnd _).bind fun _ => .pure trivial
  · refine Evaluates.value.bind fun _ => (heedless_line _).bind fun first => ?_
    exact (heedless_rangeEnd _).bind fun _ => .pure trivial

theorem heedless_listStatement : disguise.Heedless listStatement := by
  refine heedless_advance.bind fun _ => heedless_lineRange.bind fun range => ?_
  exact .get_bind (fun _ _ _ => rfl) fun _ _ _ => heedless_printLines _

theorem heedless_traceStatement (isTracing : Bool) : disguise.Heedless (traceStatement isTracing) :=
  heedless_advance.bind fun _ => heedless_registers (fun _ _ => rfl) fun _ => ⟨rfl⟩

/-! ### Statements -/

theorem heedless_wordStatement {statement : Action Unit} (heedless : disguise.Heedless statement)
    {word : Keyword} (pokes : word = .poke → disguise.Heedless pokeStatement) :
    disguise.Heedless (wordStatement statement word) := by
  cases word
  case print => exact heedless_printStatement
  case «let» => exact heedless_advance.bind fun _ => heedless_assignment
  case input => exact heedless_inputStatement
  case get => exact heedless_getStatement
  case put => exact heedless_putStatement
  case goto => exact heedless_gotoStatement
  case gosub => exact heedless_gosubStatement
  case «return» => exact heedless_returnStatement
  case «if» => exact heedless_ifStatement heedless
  case «else» => exact heedless_elseStatement
  case on => exact heedless_onStatement
  case «for» => exact heedless_forStatement
  case next => exact heedless_nextStatement
  case «break» => exact heedless_breakStatement
  case cont => exact heedless_contStatement
  case «while» => exact heedless_whileStatement
  case wend => exact heedless_wendStatement
  case «repeat» => exact heedless_repeatStatement
  case «until» => exact heedless_untilStatement
  case switch => exact heedless_switchStatement
  case case => exact heedless_caseStatement
  case swend | «do» | dend => exact heedless_advance
  case data => exact heedless_skipTo _
  case read => exact heedless_readStatement
  case restore => exact heedless_restoreStatement
  case define => exact heedless_defStatement
  case dim => exact heedless_dimStatement
  case clr => exact heedless_clrStatement
  case new => exact heedless_newStatement
  case run => exact heedless_runStatement
  case «end» | stop => exact heedless_endStatement
  case rem => exact heedless_skipTo _
  case list => exact heedless_listStatement
  case poke => exact pokes rfl
  case tab =>
    exact heedless_advance.bind fun _ => Evaluates.value.bind fun _ => heedless_writeTimes _ _
  case cls => exact heedless_advance.bind fun _ => heedless_writeByte _
  case delay => exact heedless_delayStatement
  case tron => exact heedless_traceStatement true
  case troff => exact heedless_traceStatement false
  case set => exact heedless_setStatement
  case error => exact heedless_errorStatement
  case after => exact heedless_timerStatement false
  case every => exact heedless_timerStatement true
  case event => exact heedless_eventStatement
  case save => exact heedless_saveStatement
  case load => exact heedless_loadStatement
  case catalog => exact heedless_catalogStatement
  case delete => exact heedless_deleteStatement
  case «open» => exact heedless_openStatement
  case close => exact heedless_closeStatement
  case fdisk => exact heedless_formatStatement
  all_goals exact gives_fail _

theorem heedless_statementWith {statement : Action Unit} (heedless : disguise.Heedless statement)
    (hides : disguise.hides machine guise)
    (pokes : machine.cursor.token = .word .poke → disguise.Heedless pokeStatement) :
    disguise.EndsAlike (fun _ => True) ((statementWith statement).runOn machine)
      ((statementWith statement).runOn (machine.wearing guise)) := by
  rw [statementWith, token, bind_assoc, Attempt.runOn_get_bind, Attempt.runOn_get_bind, pure_bind,
    pure_bind, show (machine.wearing guise).cursor.token = machine.cursor.token from rfl]
  split
  · rename_i word begins
    have goesBy : disguise.Heedless (wordStatement statement word) :=
      heedless_wordStatement heedless fun same => pokes (same ▸ begins)
    exact goesBy machine guise hides
  · exact heedless_assignment machine guise hides
  · exact heedless_assignment machine guise hides
  · exact heedless_assignment machine guise hides
  · exact heedless_printStatement machine guise hides
  · exact gives_fail _ machine guise hides

variable {forbids : Machine → Bool} (spares : disguise.Spares forbids)

include spares

theorem heedless_statementUnlessWithin (fuel : Nat) :
    disguise.Heedless (statementUnlessWithin forbids fuel) := by
  induction fuel with
  | zero => exact gives_throw _
  | succ fuel ih =>
    intro machine guise hides
    rw [statementUnlessWithin, Attempt.runOn_get_bind, Attempt.runOn_get_bind, spares.alike hides]
    cases allowed : forbids machine with
    | true => exact gives_throw _ machine guise hides
    | false => exact heedless_statementWith ih hides (spares.poke · allowed)

/-- **Every statement that is not forbidden is done in the same way in any guise.** -/
theorem heedless_statementUnless : disguise.Heedless (statementUnless forbids) :=
  heedless_scan fun length => heedless_statementUnlessWithin spares (length + 1)

end Machine

end PocketBasic
