/-
**Running.** The host gives the machine lines and lets it do statements, some at a time; the machine
tells whether it waits for a line, has more to do, or stopped at an error.

* `Machine.enter`: stores a line with a number, or makes another one ready;
* `Machine.execute`: does statements;
* `Machine.autorun`, `Machine.restart`: power on.
-/

import PocketBasic.Machine.Statement

namespace PocketBasic

/-- What the machine tells the host after it has done statements. -/
inductive Outcome where
  /-- It waits for a line. -/
  | stopped
  /-- It has more to do. -/
  | running
  /-- It stopped at an error or a break. -/
  | failed (error : Error)
  deriving DecidableEq, Inhabited

namespace Machine

/-! ### Stopping -/

/-- Waits for a typed line. -/
def stop (machine : Machine) : Machine :=
  { machine.halt with
    isIdle := true
    input := Channel.console
    output := Channel.console
    fieldWidth := 0 }

/-- An error with the line it happened in. -/
def located (line : Option LineNumber) (error : Error) : Error :=
  match line with
  | some line => if error.isDirect then error.inLine line else error
  | none => error

/-- What an error leaves of the statement that caused it. A break leaves loops and subroutines. -/
def abandon (isBreak : Bool) (machine : Machine) : Machine :=
  let machine := { machine with operands := machine.operands.clear, depth := 0 }
  if isBreak then machine
  else
    { machine with
      loops := machine.loops.clear
      returns := machine.returns.clear
      timers := machine.timers.disabled
      bookmark := none }

/-- A break: the program can go on at the end of the statement if it is done, or else at its
start. -/
def unwindBreak (error : Error) : Action Outcome := do
  let machine ← get
  if machine.cursor.mode ≠ .interactive then
    let location := if machine.cursor.token.isTerminator then machine.cursor.location
      else machine.statementStart
    modify fun machine => { machine with continuation := some location }
  modify fun machine => (machine.abandon true).stop
  return .failed error

/-- Stops at an error. A program that was running cannot go on. -/
def stopAt (error : Error) : Action Outcome := do
  let running := !(← isInteractive)
  modify fun machine =>
    ({ machine with continuation := if running then none else machine.continuation }).stop
  return .failed error

/-- What an error does: a running program may have a handler for it, and goes on then. -/
def unwind (error : Error) : Action (Option Outcome) := do
  let machine ← get
  let running := machine.cursor.mode ≠ .interactive
  let line := if running then machine.lineOf? machine.statementStart else none
  if error.kind = .interrupted then return some (← unwindBreak (located line error))
  else
    modify (abandon false)
    match if running then machine.handler else none with
    | some (.goto target) =>
      modify fun machine => { machine with lastError := error.kind.code, handler := none }
      match ← Attempt.caught (gotoLine target) with
      | .ok _ => return none
      | .error missing => return some (← stopAt (located line missing))
    | some .resume =>
      modify fun machine => { machine with lastError := error.kind.code }
      moveTo machine.statementStart
      modify (skipTo Token.isTerminator)
      return none
    | none => return some (← stopAt (located line error))

/-! ### Statements -/

/-- Reads over colons and line numbers, at most `fuel` of them, and tells whether a statement begins
behind them. -/
def findStatementWithin : Nat → Action Bool
  | 0 => throw .stalled
  | fuel + 1 => do
    match ← token with
    | .endOfText => return false
    | .symbol 58 =>
      advance
      findStatementWithin fuel
    | .lineNumber line =>
      if (← get).isTracing then write (91 :: decimal line.toNat ++ [93])
      advance
      findStatementWithin fuel
    | _ => return true

/-- What happens between two statements: the host runs, a break is looked for, and in a program that
goes on timers and pins fire. -/
def checkpoint : Action Unit := do
  yield
  if ← breakRequested then Attempt.fail .interrupted
  else
    let cursor := (← get).cursor
    if cursor.mode ≠ .interactive && cursor.token.isTerminator && cursor.token ≠ .endOfText then
      dispatch

/-- Does a statement, if there is another one, and tells whether there was. -/
def step : Action Bool := do
  if ← findStatementWithin ((← get).textLength + 2) then
    modify fun machine => { machine with statementStart := machine.cursor.location }
    statement
    if !(← atEnd) then Attempt.fail .syntaxError
    checkpoint
    return true
  else return false

/-- The end of the text: a program that ran to its end cannot go on. -/
def finish : Action Outcome := do
  let running := !(← isInteractive)
  modify fun machine =>
    ({ machine with continuation := if running then none else machine.continuation }).stop
  return .stopped

/-- Does at most `cycles` statements. -/
def run : Nat → Action Outcome
  | 0 => return .running
  | cycles + 1 => do
    match ← Attempt.caught step with
    | .ok true => run cycles
    | .ok false => finish
    | .error error =>
      match ← unwind error with
      | some outcome => return outcome
      | none => run cycles

/-- Lets the machine do at most `cycles` statements. An error of the last line is told first. -/
def execute (cycles : Nat) : Action Outcome := do
  let machine ← get
  match machine.pending with
  | some error =>
    set { machine with pending := none }
    return .failed error
  | none => if machine.isIdle then return .stopped else run cycles

/-! ### Lines -/

/-- Makes a line without number ready to run. -/
def prepare (line : TypedLine) : Action Unit :=
  modify fun machine =>
    nextToken { machine with
      cursor := { machine.cursor with line, mode := .interactive }
      isIdle := false }

/-- Stores a line of the program. What could not be stored is told at the next chance; after that
the program cannot go on where it was, and its data start anew. -/
def enterNumbered (number : Single) (body : List Token) : Action Unit := do
  match LineNumber.ofSingle? number with
  | none => modify fun machine => { machine with pending := some { kind := .undefinedLine } }
  | some line =>
    match ← Attempt.caught (onMemory (Memory.storeLine line body)) with
    | .ok _ => pure ()
    | .error error => modify fun machine => { machine with pending := some error }
    modify fun machine => { machine with continuation := none, data := .search 0 }

/-- Takes a typed line, and tells whether there was anything on it. -/
def enter (text : Bytes) : Action Bool := do
  let line := TypedLine.ofText text (!(← get).config.wholeNumbers)
  match line.tokens with
  | [] => return false
  | .number number :: body =>
    enterNumbered number body
    return true
  | _ =>
    prepare line
    return true

/-! ### Power on -/

/-- Starts the program in the byte store if it is sound and marked to start at power on. -/
def autorun : Action Bool := do
  let machine ← get
  if machine.host.store.any (ProgramImage.startsAtPowerOn · machine.memory.width) then
    clear
    modify fun machine => { machine with isIdle := false }
    startOf .runStore
    return true
  else return false

/-- Switches the machine off and on. The host keeps what it has, except for its signals. -/
def restart (machine : Machine) : Machine := start machine.config machine.host

end Machine

end PocketBasic
