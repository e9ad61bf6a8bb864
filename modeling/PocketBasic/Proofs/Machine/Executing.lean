/-
**What a statement leaves alone.** A statement evaluates expressions and changes the registers of
the machine; beyond that it edits memory, calls subroutines and comes back from them, and holds and
serves pins, each in a few places. A conduct that allows these few is obeyed by every statement, but
for the hazards that it refuses.

* `Hazard`, `Machine.hazard?`: the statements that some conducts refuse;
* `Machine.statementUnless`: the statement at the cursor, which stalls where one is forbidden;
* `Machine.statementWithout`: the same for the refused ones;
* `Machine.clearsAll`, `Machine.setsTimer` and the others: what the statement at the cursor begins;
  `Machine.goesAway`: whether it may go on elsewhere;
* `Conduct.EditsProgram`, `Conduct.Edits`: conducts that allow the program to be edited, and memory
  to change behind it;
* `Conduct.Departs`: a conduct that is obeyed where statements go elsewhere;
* `Conduct.Performs`: a conduct that allows what the other statements are made of;
* `Conduct.Executes`: one that refuses hazards only;
* **`Machine.obeys_statementUnless`**: every statement obeys it.
-/

import Mathlib.Tactic.Common
import PocketBasic.Machine.Statement
import PocketBasic.Proofs.Machine.Jumping
import PocketBasic.Proofs.Machine.Lenient
import PocketBasic.Proofs.Number.Order

namespace PocketBasic

/-! ### Hazards -/

/-- Statements, and what can happen to them, that undo what all others keep. -/
inductive Hazard where
  /-- `POKE`. -/
  | poke
  /-- `EVENT STOP`. -/
  | eventStop
  /-- `CLR GOSUB`. -/
  | clearReturns
  /-- `LOAD` in a running program. -/
  | chain
  /-- An error, other than a break, while pins are held. -/
  | heldError
  deriving DecidableEq

/-- Whether a statement that begins with these tokens edits the program: `NEW`, `LOAD`, or `RUN`
with the name of another one. -/
def Token.editsProgram : Token → Token → Bool
  | .word .new, _ | .word .load, _ => true
  | .word .run, .literal _ => true
  | _, _ => false

/-- Whether a statement that begins with this word may go on elsewhere than behind itself. -/
def Keyword.goesAway : Keyword → Bool
  | .goto | .gosub | .return | .if | .on | .next | .cont | .wend | .until | .switch => true
  | .run | .load => true
  | _ => false

namespace Machine

/-- The hazard of the statement that begins at the cursor. -/
def hazard? (machine : Machine) : Option Hazard :=
  match machine.cursor.token, machine.nextToken.cursor.token with
  | .word .poke, _ => some .poke
  | .word .event, .word .stop => some .eventStop
  | .word .clr, .word .gosub => some .clearReturns
  | .word .load, _ => if machine.cursor.mode = .interactive then none else some .chain
  | _, _ => none

/-- Whether the statement at the cursor is refused. -/
def refuses (refused : List Hazard) (machine : Machine) : Bool :=
  machine.hazard?.any (· ∈ refused)

/-- The statement at the cursor, in which at most `fuel` others begin behind `THEN` and `ELSE`. It
stalls where a refused one would begin. -/
def statementWithoutWithin (refused : List Hazard) : Nat → Action Unit
  | 0 => throw .stalled
  | fuel + 1 => do
    if (← get).refuses refused then throw .stalled
    else statementWith fun machine => statementWithoutWithin refused fuel machine

/-- The statement at the cursor, which stalls where a refused one would begin. -/
def statementWithout (refused : List Hazard) : Action Unit := do
  statementWithoutWithin refused ((← get).textLength + 1)

/-- The statement at the cursor, in which at most `fuel` others begin behind `THEN` and `ELSE`. It
stalls where one would begin that is forbidden there. -/
def statementUnlessWithin (forbids : Machine → Bool) : Nat → Action Unit
  | 0 => throw .stalled
  | fuel + 1 => do
    if forbids (← get) then throw .stalled
    else statementWith fun machine => statementUnlessWithin forbids fuel machine

/-- The statement at the cursor, which stalls where one would begin that is forbidden there. -/
def statementUnless (forbids : Machine → Bool) : Action Unit := do
  statementUnlessWithin forbids ((← get).textLength + 1)

/-- Refusing is forbidding hazards. -/
theorem statementWithoutWithin_eq (refused : List Hazard) (fuel : Nat) :
    statementWithoutWithin refused fuel = statementUnlessWithin (refuses refused) fuel := by
  induction fuel with
  | zero => rfl
  | succ fuel ih =>
    rw [statementWithoutWithin, statementUnlessWithin, ih]

/-- Whether the statement at the cursor is the form of a word that another word makes of it. -/
def commands (machine : Machine) (word form : Keyword) : Bool :=
  machine.cursor.token = .word word && machine.nextToken.cursor.token = .word form

/-- Whether the statement at the cursor starts the machine afresh: `RUN`, `NEW`, or `CLR` alone. -/
def clearsAll (machine : Machine) : Bool :=
  match machine.cursor.token with
  | .word .run | .word .new => true
  | .word .clr => isStatementEnd machine.nextToken.cursor.token
  | _ => false

/-- Whether the statement at the cursor drops the subroutines under way: `CLR GOSUB`, or `LOAD` in a
running program. -/
def dropsReturns (machine : Machine) : Bool :=
  machine.commands .clr .gosub ||
    machine.cursor.token = .word .load && machine.cursor.mode ≠ .interactive

/-- Whether the statement at the cursor lets the data be read on from another place: `RESTORE` or
`LOAD`. -/
def seeksData (machine : Machine) : Bool :=
  machine.cursor.token = .word .restore || machine.cursor.token = .word .load

/-- Whether the statement at the cursor sets one of the timers: `EVERY` or `AFTER`. -/
def setsTimer (repeats : Bool) (machine : Machine) : Bool :=
  machine.cursor.token = .word (if repeats then .every else .after)

/-- Whether the statement at the cursor edits the program. -/
def editsProgram (machine : Machine) : Bool :=
  machine.cursor.token.editsProgram machine.nextToken.cursor.token

/-- Whether the statement at the cursor may go on elsewhere. -/
def goesAway (machine : Machine) : Bool :=
  match machine.cursor.token with
  | .word word => word.goesAway
  | _ => false

/-- Remembers where the expression of a user function begins, and its parameter, and goes on. -/
def storeFunction (name : Name) (entry : Nat) (parameter : Name) (next : Action Unit) :
    Action Unit := do
  let start ← match ← lookup .function name with
    | some payload => pure payload.start
    | none => onMemory (Memory.allocate .function name 0)
  let width ← addressSize
  onMemory (Memory.writeAddress start entry)
  onMemory (Memory.write (start + width) parameter.bytes)
  next

/-- What is remembered of a user function does not depend on how it goes on. -/
theorem storeFunction_eq_bind (name : Name) (entry : Nat) (parameter : Name) (next : Action Unit) :
    storeFunction name entry parameter next =
      storeFunction name entry parameter (pure ()) >>= fun _ => next := by
  unfold storeFunction
  rw [bind_assoc]
  congr 1
  funext found
  cases found <;> simp [bind_assoc]

end Machine

namespace Conduct.UsesMemory

variable {conduct : Conduct Machine} (uses : conduct.UsesMemory)

include uses

theorem storeFunction (name : Name) (entry : Nat) (parameter : Name) {next : Action Unit}
    (goesOn : next.Obeys conduct) :
    (Machine.storeFunction name entry parameter next).Obeys conduct := by
  have write (start : Nat) : (do
      let width ← Machine.addressSize
      Machine.onMemory (Memory.writeAddress start entry)
      Machine.onMemory (Memory.write (start + width) parameter.bytes)
      next : Action Unit).Obeys conduct := by
    refine .bind (Attempt.Obeys.get.bind fun _ => .pure _) fun width => ?_
    refine (uses.writeAddress _ _).bind fun _ => ?_
    exact (uses.write _ _).bind fun _ => goesOn
  refine (uses.lookup _ _).bind fun found => ?_
  cases found with
  | some payload => exact write _
  | none => exact (uses.allocate _ _ _).bind fun _ => write _

theorem pokeStatement [conduct.Operates] : Machine.pokeStatement.Obeys conduct := by
  refine Machine.obeys_advance.bind fun _ => Machine.obeys_value.bind fun address => ?_
  refine (Machine.obeys_expect _).bind fun _ => Machine.obeys_value.bind fun byte => ?_
  refine .ite (uses.fail (by decide)) ((uses.poke _ _).bind fun poked => ?_)
  exact .ite (uses.fail (by decide)) (.pure _)

end Conduct.UsesMemory

/-! ### Loops that begin -/

namespace Machine

/-- The last part of `FOR`: the loop begins, or is left if it is past its limit. -/
def beginFor (counter : Name) (limit step : Single) : Action Unit := do
  modify fun machine =>
    { machine with loops := (machine.loops.unwindTo (·.countsWith counter)).2 }
  if isPast (← getScalar counter) limit step then leaveFor
  else
    let resume ← location
    onLoops (BoundedStack.push { kind := .for counter limit step, resume })

/-- The last part of `WHILE` and `REPEAT`: the loop begins. -/
def beginLoop (loop : Loop) : Action Unit := do
  modify fun machine => { machine with loops := (machine.loops.unwindTo (· = loop)).2 }
  onLoops (BoundedStack.push loop)

theorem obeys_valueAfter {conduct : Conduct Machine} [conduct.Follows] [conduct.Computes]
    (word : Keyword) (missing : Single) : (valueAfter word missing).Obeys conduct :=
  obeys_token.bind fun _ => .ite
    (obeys_advance.bind fun _ => obeys_value) (.pure _)

variable {conduct : Conduct Machine} [lawful : conduct.Remains] {machine : Machine}

theorem obeys_skipCounter : skipCounter.Obeys conduct := by
  refine obeys_token.bind fun token => ?_
  split
  · exact obeys_advance
  · exact .pure _

theorem obeys_leaveFor : leaveFor.Obeys conduct := by
  refine (obeys_findBracket _ _).bind fun _ => obeys_advance.bind fun _ => ?_
  exact obeys_skipCounter

/-- `FOR` obeys what the beginning of its loop obeys. -/
theorem obeysFrom_forStatement (begins : ∀ counter limit step,
      machine.nextToken.cursor.token = .scalar counter →
        (beginFor counter limit step).Obeys conduct) :
    forStatement.ObeysFrom conduct machine := by
  have begin (counter : Name) (among : machine.nextToken.cursor.token = .scalar counter) : (do
      let limit ← valueAfter .to Single.largest
      let step ← valueAfter .step Single.one
      if !(← token).isTerminator then Attempt.fail .syntaxError
      else beginFor counter limit step : Action Unit).Obeys conduct := by
    refine (obeys_valueAfter _ _).bind fun limit => (obeys_valueAfter _ _).bind fun step => ?_
    exact obeys_token.bind fun _ => .ite (obeys_fail (by decide)) (begins counter limit step among)
  have rest (counter : Name) (among : machine.nextToken.cursor.token = .scalar counter) : (do
      advance
      if (← token).isOperator .equal then
        advance
        setScalar counter (← value)
      let limit ← valueAfter .to Single.largest
      let step ← valueAfter .step Single.one
      if !(← token).isTerminator then Attempt.fail .syntaxError
      else beginFor counter limit step : Action Unit).Obeys conduct := by
    refine obeys_advance.bind fun _ => obeys_token.bind fun _ => .ite ?_ (begin counter among)
    refine obeys_advance.bind fun _ => obeys_value.bind fun _ => ?_
    exact (obeys_setScalar _ _).bind fun _ => begin counter among
  refine (obeys_advance machine).bind_of_ran fun _ after ran => ?_
  cases ran
  refine (obeys_token machine.nextToken).bind_of_ran fun token after ran => ?_
  cases ran
  dsimp only
  split
  · rename_i among
    exact rest _ among _
  · exact (obeys_fail (by decide) _).bind_of_ran fun _ _ ran => nomatch ran

/-- `WHILE` obeys what the beginning of its loop obeys. -/
theorem obeysFrom_whileStatement
    (begins : (beginLoop { kind := .while, resume := machine.nextToken.cursor.location }).Obeys
      conduct) : whileStatement.ObeysFrom conduct machine := by
  refine (obeys_advance machine).bind_of_ran fun _ after ran => ?_
  cases ran
  refine (obeys_location machine.nextToken).bind_of_ran fun resume after ran => ?_
  cases ran
  refine (obeys_value machine.nextToken).bind fun condition => ?_
  by_cases holds : (!condition.equals Single.zero) = true
  · simp only [if_pos holds]
    exact begins
  · simp only [if_neg holds]
    refine (obeys_unwindLoops _).bind fun _ => (obeys_findBracket _ _).bind fun _ => ?_
    exact obeys_advance

/-- `REPEAT` obeys what the beginning of its loop obeys. -/
theorem obeysFrom_repeatStatement
    (begins : (beginLoop { kind := .repeat, resume := machine.nextToken.cursor.location }).Obeys
      conduct) : repeatStatement.ObeysFrom conduct machine := by
  refine (obeys_advance machine).bind_of_ran fun _ after ran => ?_
  cases ran
  refine (obeys_location machine.nextToken).bind_of_ran fun resume after ran => ?_
  cases ran
  exact begins _

variable (pushes : ∀ loop, (onLoops (BoundedStack.push loop)).Obeys conduct)

include pushes

theorem obeys_beginFor (counter : Name) (limit step : Single) :
    (beginFor counter limit step).Obeys conduct := by
  refine (obeys_unwindLoops _).bind fun _ => (obeys_getScalar _).bind fun _ => ?_
  exact .ite obeys_leaveFor (obeys_location.bind fun _ => pushes _)

theorem obeys_beginLoop (loop : Loop) : (beginLoop loop).Obeys conduct :=
  (obeys_unwindLoops _).bind fun _ => pushes loop

theorem obeys_forStatement : forStatement.Obeys conduct := fun _ =>
  obeysFrom_forStatement fun _ _ _ _ => obeys_beginFor pushes _ _ _

theorem obeys_whileStatement : whileStatement.Obeys conduct := fun _ =>
  obeysFrom_whileStatement (obeys_beginLoop pushes _)

theorem obeys_repeatStatement : repeatStatement.Obeys conduct := fun _ =>
  obeysFrom_repeatStatement (obeys_beginLoop pushes _)

end Machine

/-! ### Subroutines and pins -/

namespace Machine

variable {conduct : Conduct Machine} [diverts : conduct.Diverts]

theorem obeys_enablePins (enabled : Bool) : (enablePins enabled).Obeys conduct :=
  .modify fun machine => diverts.moves_pins machine _

/-- **Coming back from a subroutine obeys what lets subroutines end.** -/
theorem obeys_returnStatement [conduct.Goes] : returnStatement.Obeys conduct := by
  refine obeys_popReturn.bind fun frame => .ite (.bind ?_ fun _ => obeys_moveTo _) (obeys_moveTo _)
  exact obeys_enablePins true

end Machine

/-! ### Data -/

namespace Machine

theorem isPlain_nextDatumWithin (text : ProgramText) (width : AddressWidth) (fuel offset : Nat)
    (inside negative : Bool) :
    IsPlain (text.nextDatumWithin width fuel offset inside negative) := by
  induction fuel generalizing offset inside negative with
  | zero => exact IsPlain.kind (by decide)
  | succ fuel ih =>
    rw [ProgramText.nextDatumWithin]
    dsimp only
    split
    · exact IsPlain.kind (by decide)
    · split
      · exact ih _ _ _
      · split
        · exact IsPlain.ok _
        · exact IsPlain.ok _
        · exact ih _ _ _
        · exact ih _ _ _
        · exact ih _ _ _
        · split
          · exact ih _ _ _
          · exact IsPlain.kind (by decide)

theorem isPlain_nextDatum (text : ProgramText) (width : AddressWidth) (place : DataCursor) :
    IsPlain (text.nextDatum width place) := by
  cases place <;> exact isPlain_nextDatumWithin _ _ _ _ _ _

theorem obeys_takeDatum {conduct : Conduct Machine} [conduct.Remains] [seeks : conduct.SeeksData] :
    takeDatum.Obeys conduct := by
  refine Attempt.Obeys.get.bind fun machine => ?_
  refine (obeys_lift (isPlain_nextDatum _ _ _)).bind fun found => ?_
  exact .bind (.modify fun machine => seeks.moves_data machine _) fun _ => .pure _

end Machine

/-! ### Going elsewhere -/

namespace Machine

/-- The next round of a loop, or its end. -/
def nextRound (wanted : Option Name) : Action Unit := do
  let (counter, limit, step, resume) ← counterWithin wanted ((← get).loops.size + 1)
  let value := (← getScalar counter).add step
  setScalar counter value
  if isPast value limit step then
    let _ ← onLoops BoundedStack.pop
  else moveTo resume

/-- What `RUN` does once nothing is left of the program that ran: it goes to a line, or to the
beginning. -/
def goAfresh (mode : Mode) (line : Option LineNumber) : Action Unit := do
  modify fun machine =>
    { machine with continuation := none, cursor := { machine.cursor with mode } }
  match line with
  | some line => gotoLine line
  | none => startOf mode

variable {conduct : Conduct Machine}

section Computes

variable [conduct.Follows] [conduct.Computes]

theorem obeys_caseMatchesWithin (wanted : Single) (fuel : Nat) :
    (caseMatchesWithin wanted fuel).Obeys conduct := by
  induction fuel with
  | zero => exact obeys_stalled
  | succ fuel ih =>
    refine obeys_value.bind fun _ => .ite (.pure _) ?_
    exact (obeys_accept _).bind fun _ => .ite ih (.pure _)

theorem obeys_findCaseWithin (wanted : Single) (fuel depth : Nat) :
    (findCaseWithin wanted fuel depth).Obeys conduct := by
  induction fuel generalizing depth with
  | zero => exact obeys_stalled
  | succ fuel ih =>
    refine obeys_token.bind fun token => ?_
    split
    · exact .pure _
    · exact obeys_advance.bind fun _ => ih _
    · exact .pure _
    · exact obeys_advance.bind fun _ => ih _
    · refine obeys_advance.bind fun _ => ?_
      refine (obeys_caseMatchesWithin _ _).bind fun _ => .ite ?_ (ih _)
      exact (obeys_skipTo _).bind fun _ => .pure _
    · exact obeys_advance.bind fun _ => ih _

end Computes

section Remains

variable [conduct.Remains]

theorem obeys_setBookmark (bookmark : Machine → Option Location) :
    (modify fun machine => { machine with bookmark := bookmark machine } :
      Action Unit).Obeys conduct :=
  obeys_settings (fun _ => ⟨rfl⟩) fun _ => rfl

theorem obeys_counterWithin (wanted : Option Name) (fuel : Nat) :
    (counterWithin wanted fuel).Obeys conduct := by
  induction fuel with
  | zero => exact obeys_stalled
  | succ fuel ih =>
    refine Attempt.Obeys.get.bind fun machine => ?_
    split
    · exact .ite (.pure _) (obeys_popLoop.bind fun _ => ih)
    · exact obeys_fail (by decide)

end Remains

variable [conduct.Steers]

theorem obeys_takeBookmark {detail : String} (other : detail ∉ Error.blamingDetails) :
    (takeBookmark detail).Obeys conduct := by
  refine Attempt.Obeys.get.bind fun machine => ?_
  split
  · exact (obeys_setBookmark fun _ => none).bind fun _ => obeys_moveTo _
  · exact obeys_failWith other

theorem obeys_switchStatement : switchStatement.Obeys conduct := by
  refine obeys_advance.bind fun _ => obeys_value.bind fun wanted => ?_
  refine (obeys_setBookmark fun machine => some machine.cursor.location).bind fun _ => ?_
  refine Attempt.Obeys.get.bind fun _ => (obeys_findCaseWithin _ _ _).bind fun _ => ?_
  exact .ite (obeys_setBookmark fun _ => none) (obeys_takeBookmark (by decide))

theorem obeys_nextRound (wanted : Option Name) : (nextRound wanted).Obeys conduct := by
  refine Attempt.Obeys.get.bind fun _ => (obeys_counterWithin _ _).bind fun found => ?_
  refine (obeys_getScalar _).bind fun _ => ?_
  refine (obeys_setScalar _ _).bind fun _ => .ite ?_ (obeys_moveTo _)
  exact obeys_popLoop.bind fun _ => .pure _

theorem obeys_wendStatement : wendStatement.Obeys conduct := by
  refine Attempt.Obeys.get.bind fun machine => ?_
  split
  · refine obeys_advance.bind fun _ => ?_
    refine (obeys_setBookmark fun machine => some machine.cursor.location).bind fun _ => ?_
    refine (obeys_moveTo _).bind fun _ => obeys_value.bind fun _ => ?_
    refine .ite (obeys_setBookmark fun _ => none) (obeys_popLoop.bind fun _ => ?_)
    exact obeys_takeBookmark (by decide)
  · exact obeys_fail (by decide)

theorem obeys_untilStatement : untilStatement.Obeys conduct := by
  refine Attempt.Obeys.get.bind fun machine => ?_
  split
  · refine obeys_advance.bind fun _ => obeys_value.bind fun _ => ?_
    exact .ite (obeys_popLoop.bind fun _ => .pure _) (obeys_moveTo _)
  · exact obeys_fail (by decide)

theorem obeys_continueProgram : continueProgram.Obeys conduct := by
  refine Attempt.Obeys.get.bind fun _ => (obeys_orFail (by decide) _).bind fun location => ?_
  refine .bind ?_ fun _ => obeys_moveTo location
  exact obeys_registers fun _ => ⟨rfl⟩

theorem obeys_startOf (mode : Mode) : (startOf mode).Obeys conduct := obeys_moveTo _

theorem obeys_goAfresh (mode : Mode) (line : Option LineNumber) :
    (goAfresh mode line).Obeys conduct := by
  refine .bind (obeys_registers fun _ => ⟨rfl⟩) fun _ => ?_
  cases line with
  | some line => exact obeys_gotoLine line
  | none => exact obeys_startOf _

variable (calls : ∀ resume, (onReturns (BoundedStack.push
  { resume, fromPin := false })).Obeys conduct)

include calls

theorem obeys_callNumber (line : Single) : (callNumber line).Obeys conduct :=
  obeys_location.bind fun resume => (calls resume).bind fun _ => obeys_gotoNumber line

theorem obeys_respond (response : Response) : (respond response false).Obeys conduct := by
  cases response with
  | goto line => exact obeys_gotoLine line
  | gosub line =>
    exact obeys_location.bind fun resume => (calls resume).bind fun _ => obeys_gotoLine line

end Machine

/-! ### Conducts of statements -/

/-- A conduct that allows the program to be edited. -/
class Conduct.EditsProgram (conduct : Conduct Machine) : Prop where
  clearProgram : (Machine.onMemory Memory.clearProgram).Obeys conduct
  loadProgram : ∀ image, (Machine.onMemory (Memory.loadProgram image)).Obeys conduct
  storeLine : ∀ line body, (Machine.onMemory (Memory.storeLine line body)).Obeys conduct

/-- A conduct that allows statements to change memory behind the program. -/
class Conduct.Edits (conduct : Conduct Machine) : Prop where
  storeFunction : ∀ name entry parameter {next : Action Unit}, next.Obeys conduct →
    (Machine.storeFunction name entry parameter next).Obeys conduct
  createArray : ∀ name {rows columns : Nat}, 0 < rows → 0 < columns →
    (Machine.createArray name rows columns).Obeys conduct
  createString : ∀ name capacity {count : Nat}, 0 < count →
    (Machine.createString name capacity count).Obeys conduct
  storeElement : ∀ name row column value, (do
    Machine.setNumberAt (← Machine.elementAddress name row column) value :
      Action Unit).Obeys conduct
  storeFreeCell : ∀ index value,
    (do Machine.setNumberAt (← Machine.freeCell index) value : Action Unit).Obeys conduct
  storeText : ∀ name selector source, (do
    Machine.writeSlot (← Machine.assignableSlot name selector.index) selector source :
      Action Unit).Obeys conduct
  delete : ∀ kind name, (Machine.onMemory (Memory.delete kind name)).Obeys conduct

/-- What a stricter conduct allows is allowed. -/
theorem Conduct.Refines.edits {stricter conduct : Conduct Machine} [lawful : stricter.Edits]
    (refines : stricter.Refines conduct) : conduct.Edits where
  storeFunction name entry parameter _ goesOn := by
    rw [Machine.storeFunction_eq_bind]
    exact ((lawful.storeFunction name entry parameter (.pure _)).of_refines refines).bind
      fun _ => goesOn
  createArray name _ _ rowsPositive columnsPositive :=
    (lawful.createArray name rowsPositive columnsPositive).of_refines refines
  createString name capacity _ positive :=
    (lawful.createString name capacity positive).of_refines refines
  storeElement name row column value :=
    (lawful.storeElement name row column value).of_refines refines
  storeFreeCell index value := (lawful.storeFreeCell index value).of_refines refines
  storeText name selector source := (lawful.storeText name selector source).of_refines refines
  delete kind name := (lawful.delete kind name).of_refines refines

theorem Conduct.UsesMemory.edits {conduct : Conduct Machine} (uses : conduct.UsesMemory) :
    conduct.Edits where
  storeFunction name entry parameter _ goesOn := uses.storeFunction name entry parameter goesOn
  createArray name _ _ _ _ := uses.createArray name _ _
  createString name capacity _ _ := uses.createString name capacity _
  storeElement name row column _ :=
    (uses.elementAddress name row column).bind fun _ => uses.setNumberAt _ _
  storeFreeCell index _ := (uses.freeCell index).bind fun _ => uses.setNumberAt _ _
  storeText name selector _ :=
    (uses.assignableSlot name selector.index).bind fun _ => uses.writeSlot _ _ _
  delete := uses.delete

theorem Conduct.IgnoresMemory.edits {conduct : Conduct Machine} (ignores : conduct.IgnoresMemory) :
    conduct.Edits := ignores.usesMemory.edits

theorem Conduct.IgnoresMemory.editsProgram {conduct : Conduct Machine}
    (ignores : conduct.IgnoresMemory) : conduct.EditsProgram where
  clearProgram := ignores.onMemory Memory.obeys_clearProgram
  loadProgram image := ignores.onMemory (Memory.obeys_loadProgram image)
  storeLine line body := ignores.onMemory (Memory.obeys_storeLine line body)

/-- A conduct that is obeyed where statements go elsewhere. -/
class Conduct.Departs (conduct : Conduct Machine) : Prop where
  gotoLine : ∀ line, (Machine.gotoLine line).Obeys conduct
  callNumber : ∀ line, (Machine.callNumber line).Obeys conduct
  returnStatement : Machine.returnStatement.Obeys conduct
  nextRound : ∀ wanted, (Machine.nextRound wanted).Obeys conduct
  wendStatement : Machine.wendStatement.Obeys conduct
  untilStatement : Machine.untilStatement.Obeys conduct
  switchStatement : Machine.switchStatement.Obeys conduct
  /-- Only a typed `CONT` goes on with the program. -/
  continueProgram : ∀ {machine : Machine}, machine.cursor.token = .word .cont →
    machine.cursor.mode = .interactive → Machine.continueProgram.ObeysFrom conduct machine
  startOf : (Machine.startOf .run).Obeys conduct
  /-- The program in the store is only started where it runs. -/
  goAfresh : ∀ {machine : Machine} (mode : Mode) line,
    mode = .run ∨ mode = machine.cursor.mode ∧ mode = .runStore →
      (Machine.goAfresh mode line).ObeysFrom conduct machine
  /-- What timers do when they fire. -/
  respond : ∀ response, (Machine.respond response false).Obeys conduct

theorem Conduct.Steers.departs {conduct : Conduct Machine} (steers : conduct.Steers)
    (calls : ∀ resume, (Machine.onReturns (BoundedStack.push
      { resume, fromPin := false })).Obeys conduct)
    (comesBack : Machine.returnStatement.Obeys conduct) : conduct.Departs where
  gotoLine := Machine.obeys_gotoLine
  callNumber := Machine.obeys_callNumber calls
  returnStatement := comesBack
  nextRound := Machine.obeys_nextRound
  wendStatement := Machine.obeys_wendStatement
  untilStatement := Machine.obeys_untilStatement
  switchStatement := Machine.obeys_switchStatement
  continueProgram _ _ := Machine.obeys_continueProgram _
  startOf := Machine.obeys_startOf .run
  goAfresh mode line _ := Machine.obeys_goAfresh mode line _
  respond := Machine.obeys_respond calls

instance Conduct.Diverts.departs {conduct : Conduct Machine} [steers : conduct.Steers]
    [conduct.Diverts] : conduct.Departs :=
  steers.departs (fun _ => Machine.obeys_pushReturn _) Machine.obeys_returnStatement

/-- A conduct that allows what statements are made of, apart from those that it forbids. -/
class Conduct.Performs (conduct : Conduct Machine) extends conduct.Edits where
  /-- Whether the statement at the cursor is forbidden. -/
  forbids : Machine → Bool
  remains : conduct.Remains
  editsProgram : ∀ {machine : Machine}, machine.editsProgram = true → forbids machine = false →
    conduct.EditsProgram
  departs : ∀ {machine : Machine}, machine.goesAway = true → forbids machine = false →
    conduct.Departs
  clear : ∀ {machine : Machine}, machine.clearsAll = true → forbids machine = false →
    Machine.clear.Obeys conduct
  watchPins : ∀ (machine : Machine) (pins : PinTable),
    pins.isEnabled = machine.pins.isEnabled → conduct.moves machine { machine with pins }
  takeDatum : ∀ {machine : Machine}, machine.cursor.token = .word .read → forbids machine = false →
    Machine.takeDatum.Obeys conduct
  seekData : ∀ {machine : Machine}, machine.seeksData = true → forbids machine = false →
    ∀ (later : Machine) data, conduct.moves later { later with data }
  setTimer : ∀ {machine : Machine} (repeats : Bool), machine.setsTimer repeats = true →
    forbids machine = false → (Machine.timerStatement repeats).Obeys conduct
  clearTimer : ∀ repeats, (Machine.clearTimer repeats).Obeys conduct
  holdPins : ∀ {machine : Machine}, machine.commands .event .stop = true →
    forbids machine = false →
      (Machine.enablePins false).ObeysFrom conduct machine.nextToken.nextToken
  releasePins : ∀ {machine : Machine}, machine.commands .event .cont = true →
    forbids machine = false →
      (Machine.enablePins true).ObeysFrom conduct machine.nextToken.nextToken
  clearReturns : ∀ {machine : Machine}, machine.dropsReturns = true → forbids machine = false →
    ∀ later : Machine, conduct.moves later { later with returns := later.returns.clear }
  poke : ∀ {machine : Machine}, machine.cursor.token = .word .poke → forbids machine = false →
    Machine.pokeStatement.Obeys conduct
  forStatement : ∀ {machine : Machine}, machine.cursor.token = .word .for →
    forbids machine = false → Machine.forStatement.ObeysFrom conduct machine
  whileStatement : ∀ {machine : Machine}, machine.cursor.token = .word .while →
    forbids machine = false → Machine.whileStatement.ObeysFrom conduct machine
  repeatStatement : ∀ {machine : Machine}, machine.cursor.token = .word .repeat →
    forbids machine = false → Machine.repeatStatement.ObeysFrom conduct machine

attribute [instance] Conduct.Performs.remains

namespace Machine

variable {conduct : Conduct Machine} {repeats : Bool}

theorem obeys_response? [conduct.Remains] : response?.Obeys conduct := by
  refine obeys_token.bind fun token => ?_
  split
  · refine obeys_advance.bind fun _ => obeys_value.bind fun _ => ?_
    exact (obeys_line _).bind fun _ => .pure _
  · refine obeys_advance.bind fun _ => obeys_value.bind fun _ => ?_
    exact (obeys_line _).bind fun _ => .pure _
  · exact .pure _

theorem obeys_timerStatement [conduct.Remains] [sets : conduct.SetsTimer repeats] :
    (timerStatement repeats).Obeys conduct := by
  refine obeys_advance.bind fun _ => obeys_value.bind fun interval =>
    .ite (obeys_fail (by decide)) ?_
  refine obeys_response?.bind fun response => .modify fun machine => ?_
  have moves := sets.moves_timer machine
    ((machine.timer repeats).set interval response machine.host.millis)
  cases repeats <;> exact moves

theorem obeys_clearTimer [sets : conduct.SetsTimer repeats] : (clearTimer repeats).Obeys conduct :=
  .modify fun machine => sets.moves_timer machine {}

end Machine

/-- A conduct that allows what statements are made of, whatever loops do, and apart from the
hazards that it refuses. -/
class Conduct.Executes (conduct : Conduct Machine) extends conduct.Edits, conduct.EditsProgram where
  refused : List Hazard
  jumps : conduct.Jumps
  seeks : conduct.SeeksData
  timers : ∀ repeats, conduct.SetsTimer repeats
  clear : Machine.clear.Obeys conduct
  call : ∀ resume, (Machine.onReturns (BoundedStack.push { resume, fromPin := false })).Obeys
    conduct
  comeBack : Machine.returnStatement.Obeys conduct
  moves_pins : ∀ (machine : Machine) (pins : PinTable),
    pins.isEnabled = machine.pins.isEnabled ∨ pins.isEnabled = true →
      conduct.moves machine { machine with pins }
  poke : .poke ∉ refused → Machine.pokeStatement.Obeys conduct
  holdPins : .eventStop ∉ refused → (Machine.enablePins false).Obeys conduct
  clearReturns : .clearReturns ∉ refused ∨ .chain ∉ refused → ∀ machine : Machine,
    conduct.moves machine { machine with returns := machine.returns.clear }

attribute [instance] Conduct.Executes.jumps Conduct.Executes.seeks Conduct.Executes.timers

instance Conduct.Executes.departs {conduct : Conduct Machine} [lawful : conduct.Executes] :
    conduct.Departs :=
  Conduct.Steers.departs inferInstance lawful.call lawful.comeBack

instance Conduct.Executes.performs {conduct : Conduct Machine} [lawful : conduct.Executes] :
    conduct.Performs where
  toEdits := lawful.toEdits
  forbids := Machine.refuses lawful.refused
  remains := inferInstance
  editsProgram _ _ := lawful.toEditsProgram
  departs _ _ := inferInstance
  clear _ _ := lawful.clear
  watchPins machine pins same := lawful.moves_pins machine pins (.inl same)
  takeDatum _ _ := Machine.obeys_takeDatum
  seekData _ _ := lawful.seeks.moves_data
  setTimer _ _ _ := Machine.obeys_timerStatement
  clearTimer _ := Machine.obeys_clearTimer
  holdPins {machine} stops allowed := by
    refine lawful.holdPins ?_ _
    simp only [Machine.commands, Bool.and_eq_true, decide_eq_true_eq] at stops
    rw [Machine.refuses, Machine.hazard?, stops.1, stops.2] at allowed
    simpa using allowed
  releasePins _ _ := lawful.moves_pins _ _ (.inr rfl)
  clearReturns {machine} drops allowed := by
    refine lawful.clearReturns ?_
    simp only [Machine.dropsReturns, Machine.commands, Bool.or_eq_true, Bool.and_eq_true,
      decide_eq_true_eq] at drops
    rcases drops with ⟨clears, calls⟩ | ⟨loads, running⟩
    · rw [Machine.refuses, Machine.hazard?, clears, calls] at allowed
      exact .inl (by simpa using allowed)
    · rw [Machine.refuses, Machine.hazard?, loads] at allowed
      exact .inr (by simpa [running] using allowed)
  poke {machine} pokes allowed := by
    refine lawful.poke ?_
    rw [Machine.refuses, Machine.hazard?, pokes] at allowed
    simpa using allowed
  forStatement _ _ := Machine.obeys_forStatement Machine.obeys_pushLoop _
  whileStatement _ _ := Machine.obeys_whileStatement Machine.obeys_pushLoop _
  repeatStatement _ _ := Machine.obeys_repeatStatement Machine.obeys_pushLoop _

namespace Machine

variable {α β : Type} {conduct : Conduct Machine} [lawful : conduct.Performs]

/-! ### Jumps -/

theorem obeys_halt : (modify halt : Action Unit).Obeys conduct :=
  .modify lawful.remains.moves_halt

theorem obeys_newStatement (edits : conduct.EditsProgram) (clears : clear.Obeys conduct) :
    newStatement.Obeys conduct := by
  refine edits.clearProgram.bind fun _ => clears.bind fun _ => .modify fun machine => ?_
  have dropped : conduct.moves machine { machine with continuation := none } :=
    lawful.remains.moves_settings ⟨rfl⟩ rfl
  exact conduct.trans dropped (lawful.remains.moves_halt _)

theorem obeys_endStatement : endStatement.Obeys conduct := by
  refine obeys_advance.bind fun _ => obeys_isInteractive.bind fun _ => ?_
  refine .ite (.bind ?_ fun _ => obeys_halt) obeys_halt
  exact obeys_settings (fun _ => ⟨rfl⟩) fun _ => rfl

theorem obeys_toLine (departs : conduct.Departs) (number : Single) :
    (gotoNumber number).Obeys conduct :=
  (obeys_orFail (by decide) _).bind fun line => departs.gotoLine line

theorem obeys_gotoStatement (departs : conduct.Departs) : gotoStatement.Obeys conduct :=
  obeys_advance.bind fun _ => obeys_value.bind fun _ => obeys_toLine departs _

theorem obeys_gosubStatement (departs : conduct.Departs) : gosubStatement.Obeys conduct :=
  obeys_advance.bind fun _ => obeys_value.bind fun _ => departs.callNumber _

theorem obeys_valuesWithin (fuel : Nat) : (valuesWithin fuel).Obeys conduct := by
  induction fuel with
  | zero => exact obeys_stalled
  | succ fuel ih =>
    refine obeys_value.bind fun first => (obeys_accept _).bind fun _ => ?_
    exact .ite (ih.bind fun _ => .pure _) (.pure _)

/-- The lines of `ON`, of which the chosen one is gone to. -/
theorem obeys_chosenLine (departs : conduct.Departs) (choice : Single) (isCall : Bool) : (do
    advance
    let lines ← values
    let chosen := if Single.one.atMost choice then lines[choice.toSize - 1]? else none
    match chosen with
    | none => return ()
    | some line => if isCall then callNumber line else gotoNumber line :
      Action Unit).Obeys conduct := by
  refine obeys_advance.bind fun _ => ?_
  refine .bind (Attempt.Obeys.get.bind fun _ => obeys_valuesWithin _) fun lines => ?_
  dsimp only
  split
  · exact .pure _
  · exact .ite (departs.callNumber _) (obeys_toLine departs _)

theorem obeys_onStatement (departs : conduct.Departs) : onStatement.Obeys conduct := by
  refine obeys_advance.bind fun _ => obeys_value.bind fun value => ?_
  refine obeys_token.bind fun token => ?_
  dsimp only
  split
  · exact obeys_chosenLine departs _ _
  · exact obeys_chosenLine departs _ _
  · exact (obeys_fail (by decide)).bind fun _ => obeys_chosenLine departs _ _

theorem obeys_setHandler (handler : Option Handler) :
    (modify fun machine => { machine with handler } : Action Unit).Obeys conduct :=
  obeys_settings (fun _ => ⟨rfl⟩) fun _ => rfl

theorem obeys_errorStatement : errorStatement.Obeys conduct := by
  refine obeys_advance.bind fun _ => obeys_token.bind fun token => ?_
  split
  · refine obeys_advance.bind fun _ => obeys_value.bind fun _ => ?_
    exact (obeys_line _).bind fun line => obeys_setHandler (some (.goto line))
  · exact obeys_advance.bind fun _ => obeys_setHandler (some .resume)
  · exact obeys_advance.bind fun _ => obeys_setHandler none
  · exact obeys_fail (by decide)

/-! ### Conditions -/

theorem obeys_branch (departs : conduct.Departs) {statement : Action Unit}
    (obeys : statement.Obeys conduct) : (branch statement).Obeys conduct := by
  refine obeys_token.bind fun token => ?_
  split
  · exact obeys_advance.bind fun _ => obeys_toLine departs _
  · exact .ite (.pure _) obeys

omit lawful in
theorem obeys_skipBlock [conduct.Remains] : skipBlock.Obeys conduct := by
  refine obeys_advance.bind fun _ => (obeys_findBracket _ _).bind fun _ => ?_
  exact obeys_advance

theorem obeys_alternative (departs : conduct.Departs) {statement : Action Unit}
    (obeys : statement.Obeys conduct) : (alternative statement).Obeys conduct :=
  obeys_token.bind fun _ => .ite
    (obeys_advance.bind fun _ => obeys_branch departs obeys) (.pure _)

theorem obeys_ifStatement (departs : conduct.Departs) {statement : Action Unit}
    (obeys : statement.Obeys conduct) : (ifStatement statement).Obeys conduct := by
  have choose (condition : Single) : (do
      if !condition.equals Single.zero then branch statement
      else
        if (← token).isWord .do then skipBlock
        else modify (skipTo fun token => token.endsLine || token.isWord .else)
        alternative statement : Action Unit).Obeys conduct := by
    refine .ite (obeys_branch departs obeys) (obeys_token.bind fun _ => .ite ?_ ?_)
    · exact obeys_skipBlock.bind fun _ => obeys_alternative departs obeys
    · exact (obeys_skipTo _).bind fun _ => obeys_alternative departs obeys
  refine obeys_advance.bind fun _ => obeys_value.bind fun condition => ?_
  refine obeys_token.bind fun _ => .ite ?_ (choose condition)
  exact obeys_advance.bind fun _ => choose condition

theorem obeys_elseStatement : elseStatement.Obeys conduct :=
  obeys_advance.bind fun _ => obeys_token.bind fun _ => .ite obeys_skipBlock
    (obeys_skipTo _)

/-! ### SWITCH -/

theorem obeys_caseStatement : caseStatement.Obeys conduct := by
  refine obeys_advance.bind fun _ => (obeys_findBracket _ _).bind fun _ => ?_
  exact obeys_advance

/-! ### Loops -/

theorem obeys_nextStatement (departs : conduct.Departs) : nextStatement.Obeys conduct := by
  refine obeys_advance.bind fun _ => obeys_token.bind fun token => ?_
  dsimp only
  split
  · exact obeys_advance.bind fun _ => departs.nextRound _
  · exact departs.nextRound _

theorem obeys_breakStatement : breakStatement.Obeys conduct := by
  refine obeys_popLoop.bind fun loop => obeys_advance.bind fun _ => ?_
  split
  · exact obeys_leaveFor
  · exact (obeys_findBracket _ _).bind fun _ => obeys_advance
  · refine (obeys_findBracket _ _).bind fun _ => obeys_advance.bind fun _ => ?_
    exact obeys_value.bind fun _ => .pure _

theorem obeys_continueLoop (departs : conduct.Departs) : continueLoop.Obeys conduct := by
  refine Attempt.Obeys.get.bind fun machine => ?_
  split
  · exact obeys_fail (by decide)
  · refine obeys_advance.bind fun _ => ?_
    split
    · exact (obeys_findBracket _ _).bind fun _ => obeys_nextStatement departs
    · exact (obeys_findBracket _ _).bind fun _ => departs.wendStatement
    · exact (obeys_findBracket _ _).bind fun _ => departs.untilStatement

theorem obeysFrom_contStatement (departs : conduct.Departs) {machine : Machine}
    (begins : machine.cursor.token = .word .cont) : contStatement.ObeysFrom conduct machine := by
  refine (obeys_isInteractive machine).bind_of_ran fun _ after ran => ?_
  cases ran
  refine .ite (fun typed => ?_) fun _ => obeys_continueLoop departs machine
  exact departs.continueProgram begins (by simpa using typed)

/-! ### Data -/

theorem obeys_setElement (name : Name) (row : Single) (column : Option Single) (value : Single) :
    (setElement name row column value).Obeys conduct := by
  refine .ite (.ite (lawful.storeFreeCell row value) (.ite ?_ (.ite ?_ (obeys_fail (by decide)))))
    (lawful.storeElement name row column value)
  · exact (obeys_storeCell _).bind fun _ => obeys_onHost fun _ => .of_same rfl rfl rfl
  · exact (obeys_clockField _).bind fun _ => obeys_onHost fun _ => .of_same rfl rfl rfl

theorem obeys_writeString (name : Name) (selector : Selector) (source : Bytes) :
    (writeString name selector source).Obeys conduct :=
  .ite (obeys_fail (by decide)) (lawful.storeText name selector source)

theorem obeys_assignNumber (target : Target) (value : Single) :
    (assignNumber target value).Obeys conduct := by
  cases target with
  | scalar name => exact obeys_setScalar name value
  | element name row column => exact obeys_setElement name row column value
  | text name selector => exact obeys_fail (by decide)

theorem obeys_assignText (target : Target) (text : Bytes) :
    (assignText target text).Obeys conduct := by
  cases target with
  | scalar name => exact obeys_fail (by decide)
  | element name row column => exact obeys_fail (by decide)
  | text name selector => exact obeys_writeString name selector text

theorem obeys_assignDatum (target : Target) (datum : Datum) :
    (assignDatum target datum).Obeys conduct := by
  unfold assignDatum
  split
  · exact obeys_assignText _ _
  · exact obeys_assignNumber _ _
  · exact obeys_assignText _ _
  · exact obeys_fail (by decide)

theorem obeys_readItemsWithin (takes : takeDatum.Obeys conduct) (fuel : Nat) :
    (readItemsWithin fuel).Obeys conduct := by
  induction fuel with
  | zero => exact obeys_stalled
  | succ fuel ih =>
    refine obeys_target.bind fun _ => takes.bind fun _ => ?_
    refine (obeys_assignDatum _ _).bind fun _ => (obeys_accept _).bind fun _ => ?_
    exact .ite ih (.pure _)

theorem obeys_readStatement (takes : takeDatum.Obeys conduct) : readStatement.Obeys conduct := by
  refine obeys_advance.bind fun _ => Attempt.Obeys.get.bind fun _ => ?_
  exact obeys_readItemsWithin takes _

theorem obeys_restoreStatement
    (seeks : ∀ (machine : Machine) data, conduct.moves machine { machine with data }) :
    restoreStatement.Obeys conduct := by
  refine obeys_advance.bind fun _ => obeys_atEnd.bind fun _ => ?_
  refine .ite (.modify fun machine => seeks machine _) (obeys_value.bind fun _ => ?_)
  refine (obeys_line _).bind fun _ => (obeys_findLine _).bind fun location => ?_
  exact .modify fun machine => seeks machine _

/-! ### Printing and input -/

theorem obeys_channelPrefix? : channelPrefix?.Obeys conduct := by
  refine (obeys_accept _).bind fun _ => .ite (.pure _) ?_
  refine obeys_value.bind fun _ => (obeys_channel _).bind fun _ => ?_
  refine Attempt.Obeys.get.bind fun _ => .ite (obeys_fail (by decide)) ?_
  exact (obeys_accept _).bind fun _ => .pure _

theorem obeys_select (input output : UInt8 → Machine → UInt8) (channel : UInt8) :
    (modify fun machine =>
      { machine with input := input channel machine, output := output channel machine } :
      Action Unit).Obeys conduct :=
  obeys_settings (fun _ => ⟨rfl⟩) fun _ => rfl

theorem obeys_selectOutput : selectOutput.Obeys conduct := by
  refine obeys_channelPrefix?.bind fun channel => ?_
  cases channel with
  | none => exact .pure _
  | some channel => exact obeys_select (fun _ machine => machine.input) (fun code _ => code) channel

theorem obeys_selectInput : selectInput.Obeys conduct := by
  refine obeys_channelPrefix?.bind fun channel => ?_
  cases channel with
  | none => exact .pure _
  | some channel =>
    exact obeys_select (fun code _ => code) (fun _ machine => machine.output) channel

theorem obeys_tab (count : Single) : (tab count).Obeys conduct := obeys_writeTimes _ _

theorem obeys_printNumber (number : Single) : (printNumber number).Obeys conduct := by
  refine Attempt.Obeys.get.bind fun _ => (obeys_writeTimes _ _).bind fun _ => ?_
  exact obeys_write _

theorem obeys_printItem : printItem.Obeys conduct := by
  refine obeys_token.bind fun _ => .ite ?_ (obeys_string?.bind fun text => ?_)
  · exact obeys_advance.bind fun _ => obeys_value.bind fun _ => obeys_tab _
  · cases text with
    | some text => exact obeys_write text
    | none => exact obeys_value.bind fun _ => obeys_printNumber _

theorem obeys_printItemsWithin (fuel : Nat) (newline : Bool) :
    (printItemsWithin fuel newline).Obeys conduct := by
  induction fuel generalizing newline with
  | zero => exact obeys_stalled
  | succ fuel ih =>
    refine obeys_atEnd.bind fun _ => .ite (.ite (obeys_writeByte _) (.pure _)) ?_
    refine obeys_token.bind fun _ => .ite (obeys_selectOutput.bind fun _ => ih _) ?_
    refine (obeys_accept _).bind fun _ => .ite ?_ (obeys_printItem.bind fun _ => ?_)
    · refine obeys_value.bind fun width => .bind ?_ fun _ =>
        (obeys_accept _).bind fun _ => ih _
      exact obeys_settings (fun _ => ⟨rfl⟩) fun _ => rfl
    · refine (obeys_accept _).bind fun _ => .ite
        ((obeys_writeByte _).bind fun _ => ih _) ?_
      refine (obeys_accept _).bind fun _ => .ite (ih _) ?_
      exact obeys_atEnd.bind fun _ => .ite (ih _) (obeys_fail (by decide))

theorem obeys_printStatement : printStatement.Obeys conduct := by
  refine obeys_advance.bind fun _ => Attempt.Obeys.get.bind fun machine => ?_
  exact (obeys_printItemsWithin _ _).ensuring fun _ =>
    lawful.remains.moves_settings ⟨rfl⟩ rfl

theorem obeys_putItemsWithin (fuel : Nat) : (putItemsWithin fuel).Obeys conduct := by
  induction fuel with
  | zero => exact obeys_stalled
  | succ fuel ih =>
    have rest : (do if ← accept ',' then putItemsWithin fuel : Action Unit).Obeys conduct :=
      (obeys_accept _).bind fun _ => .ite ih (.pure _)
    refine obeys_string?.bind fun text => ?_
    cases text with
    | some text => exact (obeys_write text).bind fun _ => rest
    | none =>
      refine obeys_value.bind fun _ => (obeys_byte _).bind fun _ => ?_
      exact (obeys_writeByte _).bind fun _ => rest

theorem obeys_putStatement : putStatement.Obeys conduct := by
  refine obeys_advance.bind fun _ => Attempt.Obeys.get.bind fun machine => ?_
  refine obeys_selectOutput.bind fun _ => Attempt.Obeys.get.bind fun _ => ?_
  refine (obeys_putItemsWithin _).ensuring fun _ => ?_
  exact lawful.remains.moves_settings ⟨rfl⟩ rfl

theorem obeys_prompt : prompt.Obeys conduct := by
  refine obeys_token.bind fun token => ?_
  split
  · refine (obeys_write _).bind fun _ => obeys_advance.bind fun _ => ?_
    refine (obeys_accept _).bind fun _ => .ite ?_ (.pure _)
    exact (obeys_accept _).bind fun _ => .pure _
  · exact .pure _

theorem obeys_assignInput (target : Target) (item : Bytes) :
    (assignInput target item).Obeys conduct := by
  unfold assignInput
  split
  · exact obeys_assignText _ _
  · refine Attempt.Obeys.get.bind fun _ => ?_
    split
    · exact obeys_assignNumber _ _
    · exact (obeys_setFailed true).bind fun _ => obeys_assignNumber _ _

/-- A line, as the fields that a target takes. -/
theorem obeys_readFieldsOf (target : Target) : (do
    let line ← readLine
    match target with
    | .text _ _ => return [line]
    | _ => return fieldsOf line : Action (List Bytes)).Obeys conduct := by
  refine obeys_readLine.bind fun line => ?_
  split <;> exact .pure _

theorem obeys_readFields (target : Target) (prompted : Bool) :
    (readFields target prompted).Obeys conduct := by
  refine Attempt.Obeys.get.bind fun _ => .ite ?_ (obeys_readFieldsOf target)
  exact (obeys_write _).bind fun _ => obeys_readFieldsOf target

theorem obeys_inputItemsWithin (fuel : Nat) (waiting : List Bytes) :
    (inputItemsWithin fuel waiting).Obeys conduct := by
  induction fuel generalizing waiting with
  | zero => exact obeys_stalled
  | succ fuel ih =>
    have rest (target : Target) (fields : List Bytes) : (do
        assignInput target (fields.headD [])
        if ← accept ',' then inputItemsWithin fuel fields.tail : Action Unit).Obeys conduct :=
      (obeys_assignInput _ _).bind fun _ => (obeys_accept _).bind fun _ => .ite (ih _) (.pure _)
    refine obeys_prompt.bind fun prompted => obeys_target.bind fun target => .ite ?_ (rest _ _)
    exact (obeys_readFields _ _).bind fun _ => rest _ _

theorem obeys_inputStatement : inputStatement.Obeys conduct := by
  refine obeys_advance.bind fun _ => Attempt.Obeys.get.bind fun machine => ?_
  refine obeys_selectInput.bind fun _ => Attempt.Obeys.get.bind fun _ => ?_
  refine (obeys_inputItemsWithin _ _).ensuring fun _ => ?_
  exact lawful.remains.moves_settings ⟨rfl⟩ rfl

/-- A byte that was read, or none, is assigned to a target. -/
theorem obeys_assignByte (target : Target) (byte : Option UInt8) : (match target with
    | .text _ _ => assignText target byte.toList
    | _ => assignNumber target ((byte.map fun code => Single.ofNat code.toNat).getD Single.zero) :
      Action Unit).Obeys conduct := by
  split
  · exact obeys_assignText _ _
  · exact obeys_assignNumber _ _

theorem obeys_getItem : getItem.Obeys conduct := by
  refine obeys_target.bind fun target => Attempt.Obeys.get.bind fun machine => ?_
  refine .ite (.bind ?_ fun byte => obeys_assignByte target byte) (obeys_assignByte target none)
  exact obeys_onHost fun host => (host.consulted_read machine.input).toKeepsInterrupts

theorem obeys_getStatement : getStatement.Obeys conduct := by
  refine obeys_advance.bind fun _ => Attempt.Obeys.get.bind fun machine => ?_
  refine obeys_selectInput.bind fun _ => ?_
  exact obeys_getItem.ensuring fun _ =>
    lawful.remains.moves_settings ⟨rfl⟩ rfl

/-! ### Pins and waiting -/

theorem obeys_removePin (pin : UInt8) :
    (modify fun machine => { machine with pins := machine.pins.remove pin } :
      Action Unit).Obeys conduct :=
  .modify fun machine => lawful.watchPins machine _ rfl

theorem isEnabled_of_add? {table others : PinTable} {pin : UInt8} {response : Response}
    (added : table.add? pin response = some others) : others.isEnabled = table.isEnabled := by
  rw [PinTable.add?] at added
  split at added
  · cases added
    rfl
  · cases added

theorem obeys_watchPin : watchPin.Obeys conduct := by
  refine obeys_value.bind fun number => .bind (.ite (obeys_fail (by decide)) (.pure _))
    fun pin => ?_
  refine obeys_atEnd.bind fun _ => .ite (obeys_removePin pin) ((obeys_expect _).bind fun _ => ?_)
  refine obeys_value.bind fun _ => .ite (obeys_fail (by decide)) (obeys_response?.bind fun _ => ?_)
  refine (obeys_orFail (by decide) _).bind fun response => .get_bind fun machine => ?_
  split
  · rename_i added
    exact lawful.watchPins machine _ (isEnabled_of_add? added)
  · exact ((obeys_removePin pin).bind fun _ => obeys_failWith (by decide)) machine

theorem obeysFrom_eventStatement {machine : Machine} (begins : machine.cursor.token = .word .event)
    (allowed : lawful.forbids machine = false) : eventStatement.ObeysFrom conduct machine := by
  refine (obeys_advance machine).bind_of_ran fun _ after ran => ?_
  cases ran
  refine (obeys_token machine.nextToken).bind_of_ran fun _ after ran => ?_
  cases ran
  split
  · rename_i stops
    refine (obeys_advance _).bind_of_ran fun _ after ran => ?_
    cases ran
    exact lawful.holdPins (by simp [commands, begins, stops]) allowed
  · rename_i goesOn
    refine (obeys_advance _).bind_of_ran fun _ after ran => ?_
    cases ran
    exact lawful.releasePins (by simp [commands, begins, goesOn]) allowed
  · exact obeys_watchPin _

theorem obeys_delayWithin (start milliseconds : UInt64) (fuel : Nat) :
    (delayWithin start milliseconds fuel).Obeys conduct := by
  induction fuel with
  | zero => exact obeys_stalled
  | succ fuel ih =>
    refine Attempt.Obeys.get.bind fun _ => .ite (obeys_yield.bind fun _ => ?_) (.pure _)
    exact obeys_unlessBroken ih

theorem obeys_delayStatement : delayStatement.Obeys conduct := by
  refine obeys_advance.bind fun _ => obeys_value.bind fun interval =>
    .ite (obeys_fail (by decide)) ?_
  exact Attempt.Obeys.get.bind fun _ => obeys_delayWithin _ _ _

/-! ### Keeping programs and files -/

theorem obeys_onFiles (step : Files → α × Files) : (onFiles step).Obeys conduct :=
  (obeys_onHost fun host => (host.consulted_onFiles none _).toKeepsInterrupts).bind fun _ =>
    obeys_orFail (by decide) _

/-- Writing to the byte store. -/
theorem obeysFrom_setStore {machine : Machine} (store : Option ByteStore) :
    (set { machine with host := { machine.host with store } } : Action Unit).ObeysFrom conduct
      machine :=
  lawful.remains.moves_host machine (.of_same rfl rfl rfl)

theorem obeys_saveImage : saveImage.Obeys conduct := by
  refine .get_bind fun machine => ?_
  split
  · exact obeys_failWith (by decide) machine
  · dsimp only
    split
    · exact obeys_failWith (by decide) machine
    · exact obeysFrom_setStore _

theorem obeys_saveListing (name : Bytes) : (saveListing name).Obeys conduct := by
  refine Attempt.Obeys.get.bind fun _ => (obeys_onFiles _).bind fun _ => ?_
  exact .ite (obeys_fail (by decide)) (.pure _)

theorem obeys_saveStatement : saveStatement.Obeys conduct := by
  refine obeys_advance.bind fun _ => obeys_fileName.bind fun _ => ?_
  exact .ite obeys_saveImage (obeys_saveListing _)

theorem obeys_setStatement : setStatement.Obeys conduct := by
  refine obeys_advance.bind fun _ => obeys_value.bind fun _ => (obeys_expect _).bind fun _ => ?_
  refine obeys_value.bind fun _ => .ite (obeys_fail (by decide)) (.get_bind fun machine => ?_)
  split
  · exact obeys_failWith (by decide) machine
  · refine .ite (fun _ => ?_) fun _ => obeys_failWith (by decide) machine
    exact obeysFrom_setStore _

section Loading

variable (edits : conduct.EditsProgram)

include edits

theorem obeys_loadImage : loadImage.Obeys conduct := by
  refine Attempt.Obeys.get.bind fun machine => ?_
  split
  · exact obeys_failWith (by decide)
  · split
    · exact obeys_failWith (by decide)
    · exact .ite (edits.loadProgram _) (obeys_failWith (by decide))

theorem obeys_storeLines (fractions : Bool) (lines : List Bytes) :
    (storeLines fractions lines).Obeys conduct := by
  induction lines with
  | nil => exact .pure _
  | cons line rest ih =>
    rw [storeLines]
    split
    · exact ih
    · exact (obeys_line _).bind fun number => (edits.storeLine number _).bind fun _ => ih
    · exact (obeys_failWith (by decide)).bind fun _ => ih

theorem obeys_loadListing (name : Bytes) : (loadListing name).Obeys conduct := by
  refine (obeys_onFiles _).bind fun _ => (obeys_orFail (by decide) _).bind fun content => ?_
  refine edits.clearProgram.bind fun _ => Attempt.Obeys.get.bind fun _ => ?_
  exact obeys_storeLines edits _ _

theorem obeys_loadProgram (name : Bytes) : (loadProgram name).Obeys conduct :=
  .ite (obeys_loadImage edits) (obeys_loadListing edits name)

end Loading

/-- A program is loaded where a name stands. -/
theorem obeysFrom_loadNamed {machine : Machine}
    (edits : ∀ name, machine.cursor.token = .literal name → conduct.EditsProgram) :
    loadNamed.ObeysFrom conduct machine := by
  refine (obeys_token machine).bind_of_ran fun _ after ran => ?_
  cases ran
  split
  · rename_i name begins
    have loads := obeys_loadProgram (edits name begins) (Unicode.repaired name)
    exact (obeys_advance.bind fun _ => loads.bind fun _ => .pure _) _
  · exact .pure _

omit lawful in
/-- Dropping the variables moves nothing. -/
theorem cursor_clear {machine after : Machine} {value : Unit}
    (ran : clear.runOn machine = (.ok value, after)) : after.cursor = machine.cursor := by
  obtain ⟨_, cleared, dropped, ran⟩ := Attempt.exists_of_runOn_bind ran
  cases ran
  exact congrArg (·.2.cursor) dropped.symm

/-- The last part of `RUN`: a program starts from new. -/
def startAfresh (loaded : Bool) (line : Option LineNumber) : Action Unit := do
  let mode := if (← get).cursor.mode = .runStore && !loaded then Mode.runStore else .run
  clear
  goAfresh mode line

omit lawful in
theorem obeys_startAfresh (departs : conduct.Departs) (clears : clear.Obeys conduct)
    (loaded : Bool) (line : Option LineNumber) : (startAfresh loaded line).Obeys conduct := by
  refine .get_bind fun machine => (clears machine).bind_of_ran fun _ after ran => ?_
  refine departs.goAfresh _ line ?_
  rw [cursor_clear ran]
  split
  · rename_i stored
    simp only [Bool.and_eq_true, decide_eq_true_eq] at stored
    exact .inr ⟨stored.1.symm, rfl⟩
  · exact .inl rfl

theorem obeysFrom_runStatement (departs : conduct.Departs) (clears : clear.Obeys conduct)
    {machine : Machine}
    (edits : ∀ name, machine.nextToken.cursor.token = .literal name → conduct.EditsProgram) :
    runStatement.ObeysFrom conduct machine := by
  refine (obeys_advance machine).bind_of_ran fun _ after ran => ?_
  cases ran
  refine (obeysFrom_loadNamed edits).bind fun loaded => obeys_atEnd.bind fun _ => ?_
  refine .ite (obeys_startAfresh departs clears loaded none) ?_
  refine .bind ?_ fun line => obeys_startAfresh departs clears loaded line
  exact (obeys_value.bind fun _ => obeys_line _).map some

theorem obeys_catalogStatement : catalogStatement.Obeys conduct := by
  have list (start : Bytes) : (do
      let entries ← onFiles fun files => (files.catalog, files)
      let chosen := entries.filter fun entry => Bytes.startsWith entry.name start
      write (chosen.flatMap catalogLine) : Action Unit).Obeys conduct :=
    (obeys_onFiles _).bind fun _ => obeys_write _
  refine obeys_advance.bind fun _ => obeys_atEnd.bind fun _ => .ite (list _) ?_
  exact obeys_fileName.bind fun _ => list _

theorem obeys_deleteStatement : deleteStatement.Obeys conduct := by
  refine obeys_advance.bind fun _ => obeys_fileName.bind fun name => ?_
  exact (obeys_onFiles _).bind fun _ => .ite (obeys_fail (by decide)) (.pure _)

theorem obeys_openStatement : openStatement.Obeys conduct := by
  have openAs (step : Files → Option Bool × Files) : (do
      let opened ← Attempt.orFail .illegalFunctionCall <| ← onFiles step
      modify fun machine => { machine with deviceFailed := !opened } :
        Action Unit).Obeys conduct := by
    refine (obeys_onFiles _).bind fun _ => (obeys_orFail (by decide) _).bind fun opened => ?_
    exact obeys_setFailed _
  refine obeys_advance.bind fun _ => obeys_fileName.bind fun name => ?_
  refine (obeys_accept _).bind fun _ => .ite ?_ (openAs _)
  exact obeys_value.bind fun _ => openAs _

theorem obeys_closeStatement : closeStatement.Obeys conduct := by
  have close (step : Files → Bool × Files) : (do
      if ← onFiles step then modify deselectFiles else Attempt.fail .illegalFunctionCall :
        Action Unit).Obeys conduct := by
    refine (obeys_onFiles _).bind fun _ => .ite ?_ (obeys_fail (by decide))
    exact obeys_settings (fun _ => ⟨rfl⟩) fun _ => rfl
  refine obeys_advance.bind fun _ => obeys_atEnd.bind fun _ => ?_
  refine .ite (.bind (.pure _) fun _ => close _) ?_
  exact (obeys_value.map some).bind fun _ => close _

theorem obeys_formatStatement : formatStatement.Obeys conduct := by
  refine obeys_advance.bind fun _ => (obeys_onFiles _).bind fun _ => ?_
  exact .ite (obeys_fail (by decide)) (.pure _)

/-! ### Assignments and definitions -/

theorem obeys_assignment : assignment.Obeys conduct := by
  refine obeys_target.bind fun target => obeys_token.bind fun _ => .ite (obeys_fail (by decide)) ?_
  refine obeys_advance.bind fun _ => ?_
  split
  · refine obeys_concatenation.bind fun _ => ?_
    exact obeys_assignText _ _
  · exact obeys_value.bind fun _ => obeys_assignNumber _ _

theorem obeys_letStatement : letStatement.Obeys conduct :=
  obeys_advance.bind fun _ => obeys_assignment

theorem obeys_parameter : parameter.Obeys conduct := by
  refine (obeys_accept _).bind fun _ => .ite (.pure _) (obeys_token.bind fun token => ?_)
  dsimp only
  split
  · exact obeys_advance.bind fun _ => (obeys_expect _).bind fun _ => .pure _
  · exact (obeys_expect _).bind fun _ => .pure _

theorem obeys_defStatement : defStatement.Obeys conduct := by
  have store (name parameter : Name) : (do
      let entry := (← location).offset
      storeFunction name entry parameter (modify (skipTo Token.isTerminator)) :
        Action Unit).Obeys conduct :=
    obeys_location.bind fun _ => lawful.storeFunction _ _ _ (obeys_skipTo _)
  have rest (name : Name) : (do
      advance
      let parameter ← parameter
      if !(← token).isOperator .equal then Attempt.fail .syntaxError
      let entry := (← location).offset
      storeFunction name entry parameter (modify (skipTo Token.isTerminator)) :
        Action Unit).Obeys conduct := by
    refine obeys_advance.bind fun _ => obeys_parameter.bind fun parameter => ?_
    refine obeys_token.bind fun _ => .ite ?_ (store _ _)
    exact (obeys_fail (by decide)).bind fun _ => store _ _
  refine obeys_isInteractive.bind fun _ => .ite (obeys_fail (by decide)) ?_
  refine obeys_advance.bind fun _ => ?_
  refine obeys_token.bind fun _ => .ite ((obeys_fail (by decide)).bind fun _ => ?_) ?_
  all_goals
    refine obeys_advance.bind fun _ => obeys_token.bind fun token => ?_
    dsimp only
    split
    · exact rest _
    · exact rest _
    · exact (obeys_fail (by decide)).bind fun _ => rest _

theorem elementCount_positive {bound : Single} {machine after : Machine} {count : Nat}
    (ran : (elementCount bound).runOn machine = (.ok count, after)) : 0 < count := by
  rw [elementCount, Attempt.runOn_get_bind] at ran
  dsimp only at ran
  split at ran
  · cases ran
  · rename_i refused
    cases ran
    refine Single.one_le_toSize ?_
    simp only [Bool.or_eq_true, Bool.not_eq_true', not_or] at refused
    simpa using refused.1

theorem obeys_elementCount (bound : Single) : (elementCount bound).Obeys conduct :=
  Attempt.Obeys.get.bind fun _ => .ite (obeys_fail (by decide)) (.pure _)

/-- What follows a count of elements may take it to be positive. -/
theorem obeys_elementCount_bind {bound : Single} {next : Nat → Action α}
    (goesOn : ∀ count, 0 < count → (next count).Obeys conduct) :
    (elementCount bound >>= next).Obeys conduct := fun machine =>
  (obeys_elementCount bound machine).bind_of_ran fun count after ran =>
    goesOn count (elementCount_positive ran) after

theorem obeys_dimension : dimension.Obeys conduct := by
  refine obeys_token.bind fun token => ?_
  split
  · refine obeys_advance.bind fun _ => ?_
    refine obeys_subscripts.bind fun bounds => ?_
    refine obeys_elementCount_bind fun rows rowsPositive => ?_
    split
    · exact obeys_elementCount_bind fun columns columnsPositive =>
        lawful.createArray _ rowsPositive columnsPositive
    · exact lawful.createArray _ rowsPositive Nat.one_pos
  · have create (name : Name) (capacity : Single) (count : Nat) (positive : 0 < count) : (do
        expect ')'
        createString name capacity.toSize count : Action Unit).Obeys conduct :=
      (obeys_expect _).bind fun _ => lawful.createString name _ positive
    refine obeys_advance.bind fun _ => (obeys_expect _).bind fun _ => ?_
    refine obeys_value.bind fun capacity => .ite ((obeys_fail (by decide)).bind fun _ => ?_) ?_
    all_goals
      refine obeys_valueAfterComma.bind fun count => ?_
      cases count with
      | some count => exact obeys_elementCount_bind fun count => create _ _ count
      | none => exact create _ _ 1 Nat.one_pos
  · exact obeys_fail (by decide)

theorem obeys_dimensionsWithin (fuel : Nat) : (dimensionsWithin fuel).Obeys conduct := by
  induction fuel with
  | zero => exact obeys_stalled
  | succ fuel ih =>
    exact obeys_dimension.bind fun _ => (obeys_accept _).bind fun _ => .ite ih (.pure _)

theorem obeys_dimStatement : dimStatement.Obeys conduct :=
  obeys_advance.bind fun _ => Attempt.Obeys.get.bind fun _ => obeys_dimensionsWithin _

/-! ### Machine and program -/

theorem obeysFrom_clrStatement {machine : Machine} (begins : machine.cursor.token = .word .clr)
    (allowed : lawful.forbids machine = false) : clrStatement.ObeysFrom conduct machine := by
  refine (obeys_advance machine).bind_of_ran fun _ after ran => ?_
  cases ran
  refine (obeys_atEnd machine.nextToken).bind_of_ran fun ends after ran => ?_
  cases ran
  refine .ite (fun alone => ?_) fun _ => ?_
  · exact lawful.clear (by simpa only [clearsAll, begins] using alone) allowed machine.nextToken
  refine (obeys_token machine.nextToken).bind_of_ran fun _ after ran => ?_
  cases ran
  split
  · rename_i calls
    have drops : machine.dropsReturns = true := by simp [dropsReturns, commands, begins, calls]
    exact (obeys_advance.bind fun _ => .modify (lawful.clearReturns drops allowed)) _
  · exact (obeys_advance.bind fun _ => obeys_clearLoops) _
  · exact (obeys_advance.bind fun _ => lawful.clearTimer _) _
  · exact (obeys_advance.bind fun _ => lawful.clearTimer _) _
  · refine (obeys_objectName.bind fun object => ?_) _
    exact (lawful.delete object.1 object.2).bind fun _ => .pure _

/-- `LOAD` clears the stacks of the program that it ends. -/
theorem obeysFrom_loadStatement {machine : Machine} (begins : machine.cursor.token = .word .load)
    (allowed : lawful.forbids machine = false) : loadStatement.ObeysFrom conduct machine := by
  have departs := lawful.departs (by simp [goesAway, begins, Keyword.goesAway]) allowed
  have edits := lawful.editsProgram (by simp [editsProgram, begins, Token.editsProgram]) allowed
  refine (obeys_advance machine).bind_of_ran fun _ begun ran => ?_
  cases ran
  refine (obeys_fileName _).bind_of_ran fun name after named => ?_
  have mode := (mode_fileName named).trans (mode_nextToken machine)
  have rest (chained : Bool) (chains : chained = true → machine.dropsReturns = true) : (do
      loadProgram name
      modify fun machine => { machine with continuation := none, data := .search 0 }
      if chained then
        modify fun machine =>
          { machine with
            operands := machine.operands.clear
            loops := machine.loops.clear
            returns := machine.returns.clear
            bookmark := none }
        startOf .run : Action Unit).Obeys conduct := by
    refine (obeys_loadProgram edits name).bind fun _ => .bind (.modify fun later => ?_) fun _ => ?_
    · have seeks := lawful.seekData (by simp [seeksData, begins]) allowed later (.search 0)
      exact conduct.trans seeks
        (lawful.remains.moves_settings ⟨rfl⟩ rfl)
    · cases chained with
      | false => exact .pure _
      | true =>
        refine .bind (.modify fun later => ?_) fun _ => departs.startOf
        refine conduct.trans (lawful.clearReturns (chains rfl) allowed later) ?_
        refine conduct.trans (lawful.remains.moves_loops _ List.nil_suffix) ?_
        refine conduct.trans (lawful.remains.moves_cleared _ (.inl rfl)) ?_
        exact lawful.remains.moves_settings ⟨rfl⟩ rfl
  refine rest _ (fun chained => ?_) after
  have running : machine.cursor.mode ≠ .interactive := by simpa [mode] using chained
  simp [dropsReturns, begins, running]

theorem obeys_printLines (lines : List Bytes) : (printLines lines).Obeys conduct := by
  induction lines with
  | nil => exact .pure _
  | cons line rest ih =>
    refine (obeys_write _).bind fun _ => (obeys_writeByte _).bind fun _ => ?_
    exact obeys_unlessBroken ih

theorem obeys_rangeEnd (missing : LineNumber) : (rangeEnd missing).Obeys conduct := by
  refine (obeys_accept _).bind fun _ => .ite (obeys_atEnd.bind fun _ => ?_) (.pure _)
  exact .ite (.pure _) (obeys_value.bind fun _ => obeys_line _)

theorem obeys_lineRange : lineRange.Obeys conduct := by
  refine obeys_atEnd.bind fun _ => .ite (.pure _) (obeys_token.bind fun _ => .ite ?_ ?_)
  · exact (obeys_rangeEnd _).bind fun _ => .pure _
  · refine obeys_value.bind fun _ => (obeys_line _).bind fun first => ?_
    exact (obeys_rangeEnd _).bind fun _ => .pure _

theorem obeys_listStatement : listStatement.Obeys conduct := by
  refine obeys_advance.bind fun _ => obeys_lineRange.bind fun range => ?_
  exact Attempt.Obeys.get.bind fun _ => obeys_printLines _

theorem obeys_traceStatement (isTracing : Bool) : (traceStatement isTracing).Obeys conduct := by
  refine obeys_advance.bind fun _ => ?_
  exact obeys_settings (fun _ => ⟨rfl⟩) fun _ => rfl

/-! ### Statements -/

theorem obeysFrom_wordStatement {statement : Action Unit} (obeys : statement.Obeys conduct)
    {machine : Machine} {word : Keyword} (begins : machine.cursor.token = .word word)
    (allowed : lawful.forbids machine = false) :
    (wordStatement statement word).ObeysFrom conduct machine := by
  have departs (away : word.goesAway = true) : conduct.Departs :=
    lawful.departs (by rwa [goesAway, begins]) allowed
  cases word
  case poke => exact lawful.poke begins allowed machine
  case event => exact obeysFrom_eventStatement begins allowed
  case clr => exact obeysFrom_clrStatement begins allowed
  case load => exact obeysFrom_loadStatement begins allowed
  case print => exact obeys_printStatement machine
  case «let» => exact obeys_letStatement machine
  case input => exact obeys_inputStatement machine
  case get => exact obeys_getStatement machine
  case put => exact obeys_putStatement machine
  case goto => exact obeys_gotoStatement (departs rfl) machine
  case gosub => exact obeys_gosubStatement (departs rfl) machine
  case «return» => exact (departs rfl).returnStatement machine
  case «if» => exact obeys_ifStatement (departs rfl) obeys machine
  case «else» => exact obeys_elseStatement machine
  case on => exact obeys_onStatement (departs rfl) machine
  case «for» => exact lawful.forStatement begins allowed
  case next => exact obeys_nextStatement (departs rfl) machine
  case «break» => exact obeys_breakStatement machine
  case cont => exact obeysFrom_contStatement (departs rfl) begins
  case «while» => exact lawful.whileStatement begins allowed
  case wend => exact (departs rfl).wendStatement machine
  case «repeat» => exact lawful.repeatStatement begins allowed
  case «until» => exact (departs rfl).untilStatement machine
  case switch => exact (departs rfl).switchStatement machine
  case case => exact obeys_caseStatement machine
  case swend | «do» | dend => exact obeys_advance machine
  case data => exact obeys_skipTo _ machine
  case read => exact obeys_readStatement (lawful.takeDatum begins allowed) machine
  case restore =>
    exact obeys_restoreStatement (lawful.seekData (by simp [seeksData, begins]) allowed) machine
  case define => exact obeys_defStatement machine
  case dim => exact obeys_dimStatement machine
  case new =>
    have edits := lawful.editsProgram (by simp [editsProgram, begins, Token.editsProgram]) allowed
    exact obeys_newStatement edits (lawful.clear (by simp only [clearsAll, begins]) allowed) machine
  case run =>
    have clears := lawful.clear (by simp only [clearsAll, begins]) allowed
    exact obeysFrom_runStatement (departs rfl) clears fun name literal =>
      lawful.editsProgram (by simp [editsProgram, begins, literal, Token.editsProgram]) allowed
  case «end» | stop => exact obeys_endStatement machine
  case rem => exact obeys_skipTo _ machine
  case list => exact obeys_listStatement machine
  case tab => exact (obeys_advance.bind fun _ => obeys_value.bind fun _ => obeys_tab _) machine
  case cls => exact (obeys_advance.bind fun _ => obeys_writeByte _) machine
  case delay => exact obeys_delayStatement machine
  case tron => exact obeys_traceStatement true machine
  case troff => exact obeys_traceStatement false machine
  case set => exact obeys_setStatement machine
  case error => exact obeys_errorStatement machine
  case after => exact lawful.setTimer false (by simpa [setsTimer]) allowed machine
  case every => exact lawful.setTimer true (by simpa [setsTimer]) allowed machine
  case save => exact obeys_saveStatement machine
  case catalog => exact obeys_catalogStatement machine
  case delete => exact obeys_deleteStatement machine
  case «open» => exact obeys_openStatement machine
  case close => exact obeys_closeStatement machine
  case fdisk => exact obeys_formatStatement machine
  all_goals exact obeys_fail (by decide) machine

theorem obeysFrom_statementWith {statement : Action Unit} (obeys : statement.Obeys conduct)
    {machine : Machine} (allowed : lawful.forbids machine = false) :
    (statementWith statement).ObeysFrom conduct machine := by
  refine (obeys_token machine).bind_of_ran fun _ after ran => ?_
  cases ran
  split
  · exact obeysFrom_wordStatement obeys ‹_› allowed
  · exact obeys_assignment machine
  · exact obeys_assignment machine
  · exact obeys_assignment machine
  · exact obeys_printStatement machine
  · exact obeys_fail (by decide) machine

theorem obeys_statementUnlessWithin (fuel : Nat) :
    (statementUnlessWithin lawful.forbids fuel).Obeys conduct := by
  induction fuel with
  | zero => exact obeys_stalled
  | succ fuel ih =>
    refine .get_bind fun machine => .ite (fun _ => obeys_stalled machine) fun allowed => ?_
    exact obeysFrom_statementWith ih (by simpa using allowed)

/-- **Every statement obeys a conduct that allows what statements are made of**, as long as none
begins that the conduct forbids. -/
theorem obeys_statementUnless : (statementUnless lawful.forbids).Obeys conduct :=
  Attempt.Obeys.get.bind fun _ => obeys_statementUnlessWithin _

end Machine

end PocketBasic
