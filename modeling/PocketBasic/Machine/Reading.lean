/-
**Reading tokens.** The machine reads a typed line from its text and a program from its bytes, one
token ahead.

* `Machine.nextToken`, `Machine.jump`: move the cursor;
* `Machine.skipTo`, `Machine.findBracket`: scan forward for the end of a statement or of a block;
* `Machine.gotoLine`, `Machine.lineOf?`: between lines and places.
-/

import PocketBasic.Machine.State

namespace PocketBasic.Machine

/-! ### Texts -/

/-- The program text of a mode: the image in the store, which counts as empty when there is none, or
the program in memory. -/
def programText (machine : Machine) : Mode → ProgramText
  | .runStore =>
    match machine.host.store.bind (ProgramImage.ofStore? · machine.memory.width) with
    | some image => image.text
    | none => ProgramText.ofBytes []
  | _ => machine.memory.program

/-- The length of the text that is read. A token takes a byte at least, so no scan over a text takes
more steps. -/
def textLength (machine : Machine) : Nat :=
  match machine.cursor.mode with
  | .interactive => machine.cursor.line.text.length
  | mode => (machine.programText mode).length

/-! ### The cursor -/

/-- Reads the next token. -/
def nextToken (machine : Machine) : Machine :=
  let cursor := machine.cursor
  match cursor.mode with
  | .interactive =>
    let (token, line) := cursor.line.next
    { machine with cursor := { cursor with line, token, tokenOffset := cursor.line.position } }
  | mode =>
    let (token, offset) := (machine.programText mode).decode machine.memory.width cursor.offset
    { machine with cursor := { cursor with offset, token, tokenOffset := cursor.offset } }

/-- Moves the cursor to a place and reads the token there. -/
def jump (location : Location) (machine : Machine) : Machine :=
  let cursor := { machine.cursor with mode := location.mode }
  let cursor := match location.mode with
    | .interactive => { cursor with line := cursor.line.seek location.offset }
    | _ => { cursor with offset := location.offset }
  nextToken { machine with cursor }

/-- Reads on until a token with a property, at most `fuel` tokens far. -/
def skipWithin (stops : Token → Bool) : Nat → Machine → Machine
  | 0, machine => machine
  | fuel + 1, machine =>
    if stops machine.cursor.token then machine else skipWithin stops fuel machine.nextToken

/-- Reads on until a token with a property, which the end of the text must have. -/
def skipTo (stops : Token → Bool) (machine : Machine) : Machine :=
  skipWithin stops (machine.textLength + 1) machine

/-! ### As actions -/

/-- Reads the next token. -/
def advance : Action Unit := modify nextToken

/-- The token that was read last. -/
def token : Action Token := do return (← get).cursor.token

/-- Where the current token begins. -/
def location : Action Location := do return (← get).cursor.location

def moveTo (location : Location) : Action Unit := modify (jump location)

/-- Whether a statement ends here: at a terminator, or at an `ELSE` behind the statement of
`THEN`. -/
def isStatementEnd (token : Token) : Bool := token.isTerminator || token.isWord .else

/-- Whether the current statement ends here. -/
def atEnd : Action Bool := do return isStatementEnd (← token)

/-- Reads over a character that must be there. -/
def expect (symbol : Char) : Action Unit := do
  if (← token).isSymbol symbol then advance else Attempt.fail .syntaxError

/-- Reads over a character if it is there. -/
def accept (symbol : Char) : Action Bool := do
  if (← token).isSymbol symbol then
    advance
    return true
  else return false

/-- Reads on to the word that closes a block, at most `fuel` tokens far. Blocks that are opened on
the way, `depth` of them so far, are closed first. -/
def findBracketWithin (opening closing : Keyword) : Nat → Nat → Action Unit
  | 0, _ => throw .stalled
  | fuel + 1, depth => do
    let token ← token
    if token = .endOfText then Attempt.fail .missingBlockEnd
    else if token.isWord opening then
      advance
      findBracketWithin opening closing fuel (depth + 1)
    else if token.isWord closing then
      match depth with
      | 0 => return ()
      | depth + 1 =>
        advance
        findBracketWithin opening closing fuel depth
    else
      advance
      findBracketWithin opening closing fuel depth

/-- Reads on to the word that closes a block whose opening word was read: over the current token,
over no more tokens than the text has bytes, and up to the end of the text. -/
def findBracket (opening closing : Keyword) : Action Unit := do
  findBracketWithin opening closing ((← get).textLength + 2) 0

/-! ### Lines -/

/-- The start of a line in the program that runs, or in memory when none runs. -/
def findLine (line : LineNumber) : Action Location := do
  let machine ← get
  match machine.cursor.mode with
  | .runStore =>
    let text := machine.programText .runStore
    let offset ← Attempt.orFail .undefinedLine (text.findLine? machine.memory.width line)
    return { mode := .runStore, offset }
  | _ =>
    let found ← onMemory (Attempt.always fun memory => memory.findLine line)
    return { mode := .run, offset := ← Attempt.orFail .undefinedLine found }

def gotoLine (line : LineNumber) : Action Unit := do moveTo (← findLine line)

/-- Goes to the line that a computed number denotes. -/
def gotoNumber (number : Single) : Action Unit := do
  gotoLine (← Attempt.orFail .undefinedLine (LineNumber.ofSingle? number))

/-- The line that holds a place of a program. -/
def lineOf? (machine : Machine) (location : Location) : Option LineNumber :=
  match location.mode with
  | .interactive => none
  | mode => (machine.programText mode).lineOf? machine.memory.width location.offset

end PocketBasic.Machine
