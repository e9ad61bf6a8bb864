/-
**The state of the machine**: its settings, its memory, the host, the place in the text that is
read, and what the statements of a program leave behind.

* `Cursor`: the text that is read, and the token that was read last;
* `Machine`: the whole state;
* `Action`: what the machine does, as a step on its state.
-/

import PocketBasic.BoundedStack
import PocketBasic.Event.PinTable
import PocketBasic.Host.Basic
import PocketBasic.Memory.Editor
import PocketBasic.Memory.Heap
import PocketBasic.Number.Random
import PocketBasic.Program.Image
import PocketBasic.Token.Lexer

namespace PocketBasic

/-! ### Settings -/

/-- The settings of a machine. -/
structure Config where
  /-- The bytes of memory, for program and variables together. -/
  memorySize : Nat := 0x10000
  /-- Whether numbers are whole: literals without fractions, results without fractions. -/
  wholeNumbers : Bool := false
  /-- The lowest subscript. -/
  arrayBase : Nat := 1
  /-- How deep expressions may nest, and how many operands may wait. -/
  stackSize : Nat := 32
  loopDepth : Nat := 16
  returnDepth : Nat := 16
  /-- The bytes of a string that was not dimensioned. -/
  stringSize : Nat := 32
  /-- The elements of an array that was not dimensioned. -/
  arraySize : Nat := 10
  /-- The byte on the console that stops a program. -/
  breakByte : Option UInt8 := some 35
  deriving DecidableEq, Inhabited

/-! ### Places in a text -/

/-- Which text is read. -/
inductive Mode where
  /-- A typed line. -/
  | interactive
  /-- The program in memory. -/
  | run
  /-- The program in the byte store. -/
  | runStore
  deriving DecidableEq, Inhabited

/-- The first byte of a token in one of the texts. -/
structure Location where
  mode : Mode
  offset : Nat
  deriving DecidableEq, Inhabited

/-- The place where the machine reads. -/
structure Cursor where
  mode : Mode := .interactive
  /-- The typed line, with its own position. -/
  line : TypedLine := TypedLine.empty
  /-- The position in the program. -/
  offset : Nat := 0
  /-- The token that was read last. -/
  token : Token := .endOfText
  /-- Where that token begins. -/
  tokenOffset : Nat := 0
  deriving DecidableEq, Inhabited

/-- Where the current token begins. -/
def Cursor.location (cursor : Cursor) : Location :=
  { mode := cursor.mode, offset := cursor.tokenOffset }

/-! ### What statements leave behind -/

/-- The kinds of loops. -/
inductive LoopKind where
  | for (counter : Name) (limit step : Single)
  | while
  | repeat
  deriving DecidableEq, Inhabited

/-- A loop that is under way, and where its next round begins. -/
structure Loop where
  kind : LoopKind
  resume : Location
  deriving DecidableEq, Inhabited

namespace Loop

/-- Whether the loop counts with a variable. -/
def countsWith (loop : Loop) (name : Name) : Bool :=
  match loop.kind with
  | .for counter _ _ => counter = name
  | _ => false

end Loop

/-- A subroutine that is under way: where it was called, and whether a pin called it. -/
structure Return where
  resume : Location
  fromPin : Bool
  deriving DecidableEq, Inhabited

/-- What happens to an error of a running program. -/
inductive Handler where
  /-- Jump to a line, once. -/
  | goto (line : LineNumber)
  /-- Go on behind the statement. -/
  | resume
  deriving DecidableEq, Inhabited

/-- Where the next value of `DATA` statements is looked for. -/
inductive DataCursor where
  /-- Outside: the next `DATA` statement is looked for first. -/
  | search (offset : Nat)
  /-- Inside a `DATA` statement. -/
  | inside (offset : Nat)
  deriving DecidableEq, Inhabited

/-! ### The machine -/

structure Machine where
  config : Config
  memory : Memory
  host : Host
  cursor : Cursor := {}
  /-- Where the current statement begins. -/
  statementStart : Location := { mode := .interactive, offset := 0 }
  /-- The operands of the expressions under way. -/
  operands : BoundedStack Single
  /-- How many evaluations are open inside each other. -/
  depth : Nat := 0
  loops : BoundedStack Loop
  returns : BoundedStack Return
  /-- Where a statement comes back to while it looks elsewhere in the text. -/
  bookmark : Option Location := none
  handler : Option Handler := none
  /-- The code of the last error that a handler took. -/
  lastError : Nat := 0
  /-- Whether input or output failed. -/
  deviceFailed : Bool := false
  timers : Timers := {}
  pins : PinTable := {}
  data : DataCursor := .search 0
  /-- The channel of input. -/
  input : UInt8 := Channel.console
  /-- The channel of output. -/
  output : UInt8 := Channel.console
  /-- The least width of a printed number. -/
  fieldWidth : Nat := 0
  random : Random := Random.ofSeed 0
  seed : Single := Single.zero
  /-- Where a stopped program goes on. -/
  continuation : Option Location := none
  isTracing : Bool := false
  /-- Whether there is nothing to do until a line is typed. -/
  isIdle : Bool := true
  /-- The error of a line that could not be stored, until it is reported. -/
  pending : Option Error := none

/-- What the machine does: a step on its state. -/
abbrev Action (α : Type) := Attempt Machine α

namespace Machine

/-- A machine at power on. -/
def start (config : Config) (host : Host) : Machine :=
  { config
    memory := Memory.ofSize config.memorySize
    host := { host with signals := {} }
    operands :=
      { capacity := config.stackSize, overflowDetail := "EXPRESSION", underflow := .internalError }
    loops :=
      { capacity := config.loopDepth, overflowDetail := "LOOP", underflow := .nextWithoutFor }
    returns :=
      { capacity := config.returnDepth, overflowDetail := "GOSUB"
        underflow := .returnWithoutGosub } }

/-! ### Steps on parts of the machine -/

/-- Does a step on the memory. -/
def onMemory {α : Type} (step : Attempt Memory α) : Action α :=
  Attempt.within (fun memory machine => (machine.memory, { machine with memory })) default step

/-- Does a step on the operands. -/
def onOperands {α : Type} (step : Attempt (BoundedStack Single) α) : Action α :=
  Attempt.within (fun operands machine => (machine.operands, { machine with operands })) default
    step

/-- Does a step on the loops. -/
def onLoops {α : Type} (step : Attempt (BoundedStack Loop) α) : Action α :=
  Attempt.within (fun loops machine => (machine.loops, { machine with loops })) default step

/-- Does a step on the subroutines under way. -/
def onReturns {α : Type} (step : Attempt (BoundedStack Return) α) : Action α :=
  Attempt.within (fun returns machine => (machine.returns, { machine with returns })) default step

/-- Does a step on the host, which cannot fail. -/
def onHost {α : Type} (step : Host → α × Host) : Action α :=
  Attempt.within (fun host machine => (machine.host, { machine with host })) {}
    (Attempt.always step)

end Machine

end PocketBasic
