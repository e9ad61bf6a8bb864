/-
**Jumps**: statements that go to a line, call a subroutine or end the program, and what is set back
when a program starts or ends.

* `Machine.clear`, `Machine.halt`: forget the variables and stacks; leave the running text;
* `Machine.callNumber`, `Machine.returnStatement`: subroutines;
* `Machine.endStatement`, `Machine.errorStatement`: the end of a program and the handling of errors.
-/

import PocketBasic.Machine.Expression

namespace PocketBasic.Machine

/-! ### Starting and ending -/

/-- Drops variables, stacks, handlers, timers and pins, and starts the data anew. -/
def clear : Action Unit := do
  onMemory Memory.clearHeap
  modify fun machine =>
    { machine with
      operands := machine.operands.clear
      loops := machine.loops.clear
      returns := machine.returns.clear
      bookmark := none
      handler := none
      lastError := 0
      deviceFailed := false
      timers := machine.timers.disabled
      pins := {}
      data := .search 0 }

/-- Leaves the text that is read, as if a typed line had ended. -/
def halt (machine : Machine) : Machine :=
  { machine with
    cursor :=
      { machine.cursor with mode := .interactive, line := TypedLine.empty, token := .endOfText } }

/-- Whether a typed line is read. -/
def isInteractive : Action Bool := do return (← get).cursor.mode = .interactive

/-- `NEW`: drops the program and everything that belongs to it. -/
def newStatement : Action Unit := do
  onMemory Memory.clearProgram
  clear
  modify fun machine => halt { machine with continuation := none }

/-- `END` and `STOP`: the program can go on with `CONT` from here. -/
def endStatement : Action Unit := do
  advance
  if !(← isInteractive) then
    modify fun machine => { machine with continuation := some machine.cursor.location }
  modify halt

/-! ### Lines and subroutines -/

/-- `GOTO`. -/
def gotoStatement : Action Unit := do
  advance
  gotoNumber (← value)

/-- Calls the subroutine at the line that a number denotes; it comes back to the current token. -/
def callNumber (line : Single) : Action Unit := do
  let resume ← location
  onReturns (BoundedStack.push { resume, fromPin := false })
  gotoNumber line

/-- `GOSUB`. -/
def gosubStatement : Action Unit := do
  advance
  callNumber (← value)

/-- `RETURN`: comes back from a subroutine. The end of one that a pin called lets pins be served
again. -/
def returnStatement : Action Unit := do
  let frame ← onReturns BoundedStack.pop
  if frame.fromPin then
    modify fun machine => { machine with pins := { machine.pins with isEnabled := true } }
  moveTo frame.resume

/-- Values separated by commas, at most `fuel` of them. -/
def valuesWithin : Nat → Action (List Single)
  | 0 => throw .stalled
  | fuel + 1 => do
    let first ← value
    if ← accept ',' then return first :: (← valuesWithin fuel) else return [first]

/-- Values separated by commas. -/
def values : Action (List Single) := do valuesWithin ((← get).textLength + 1)

/-- `ON number GOTO lines` and `ON number GOSUB lines`: the line with the place that the whole part
of the number gives, counted from one. Without such a line the program goes on. -/
def onStatement : Action Unit := do
  advance
  let choice := (← value).truncate
  let isCall ← match ← token with
    | .word .goto => pure false
    | .word .gosub => pure true
    | _ => Attempt.fail .syntaxError
  advance
  let lines ← values
  let chosen := if Single.one.atMost choice then lines[choice.toSize - 1]? else none
  match chosen with
  | none => return ()
  | some line => if isCall then callNumber line else gotoNumber line

/-! ### Errors of a running program -/

/-- `ERROR GOTO line`, `ERROR CONT` and `ERROR STOP`: what happens to errors from now on. -/
def errorStatement : Action Unit := do
  advance
  match ← token with
  | .word .goto =>
    advance
    let line ← Range.line (← value)
    modify fun machine => { machine with handler := some (.goto line) }
  | .word .cont =>
    advance
    modify fun machine => { machine with handler := some .resume }
  | .word .stop =>
    advance
    modify fun machine => { machine with handler := none }
  | _ => Attempt.fail .syntaxError

end PocketBasic.Machine
