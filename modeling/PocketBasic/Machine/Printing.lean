/-
**Input and output statements.** A statement may name a channel for itself with `&`. The channel
that was selected before is selected again when the items are done, whether one of them failed or
not. `PRINT` takes `&` among its items. In front of the items of the other statements it can fail
before there is anything to undo, and a channel that its expression selected then stays selected.

* `Machine.printStatement`, `Machine.putStatement`: formatted and raw output;
* `Machine.inputStatement`, `Machine.getStatement`: a line, and a single byte of input.
-/

import PocketBasic.Machine.Expression

namespace PocketBasic.Machine

/-! ### Channels -/

/-- The channel behind `&` and the comma after it, if the current token is `&`. -/
def channelPrefix? : Action (Option UInt8) := do
  if !(← accept '&') then return none
  let channel ← Range.channel (← value)
  if !(← get).host.hasChannel channel then Attempt.fail .badFileNumber
  else
    let _ ← accept ','
    return some channel

/-- Selects the channel of output that a statement names. -/
def selectOutput : Action Unit := do
  match ← channelPrefix? with
  | some channel => modify fun machine => { machine with output := channel }
  | none => return ()

/-- Selects the channel of input that a statement names. -/
def selectInput : Action Unit := do
  match ← channelPrefix? with
  | some channel => modify fun machine => { machine with input := channel }
  | none => return ()

/-! ### PRINT and PUT -/

/-- Writes as many blanks as a number says. -/
def tab (count : Single) : Action Unit := writeTimes 32 count.toSize

/-- Writes a number, filled with blanks on the left to the width of the field. -/
def printNumber (number : Single) : Action Unit := do
  let text := number.text
  writeTimes 32 ((← get).fieldWidth - text.length)
  write text

/-- What stands between commas and semicolons: blanks, a string, or a number. -/
def printItem : Action Unit := do
  if (← token).isWord .tab then
    advance
    tab (← value)
  else
    match ← string? with
    | some text => write text
    | none => printNumber (← value)

/-- Prints items, at most `fuel` of them with their settings. `newline` tells whether the line ends
when there are no more. -/
def printItemsWithin : Nat → Bool → Action Unit
  | 0, _ => throw .stalled
  | fuel + 1, newline => do
    if ← atEnd then
      if newline then writeByte 10
    else if (← token).isSymbol '&' then
      selectOutput
      printItemsWithin fuel newline
    else if ← accept '#' then
      let width ← value
      modify fun machine => { machine with fieldWidth := width.toSize }
      let _ ← accept ','
      printItemsWithin fuel newline
    else
      printItem
      if ← accept ',' then
        writeByte 32
        printItemsWithin fuel false
      else if ← accept ';' then printItemsWithin fuel false
      else if ← atEnd then printItemsWithin fuel true
      else Attempt.fail .syntaxError

/-- `PRINT`: a comma prints a blank, and a comma or semicolon at the end keeps the line open. `#`
sets the width of the numbers behind it. -/
def printStatement : Action Unit := do
  advance
  let machine ← get
  let items := printItemsWithin (machine.textLength + 1) true
  items.ensuring fun after => { after with output := machine.output, fieldWidth := 0 }

/-- Writes strings and single bytes, at most `fuel` of them. -/
def putItemsWithin : Nat → Action Unit
  | 0 => throw .stalled
  | fuel + 1 => do
    match ← string? with
    | some text => write text
    | none => writeByte (← Range.byte (← value))
    if ← accept ',' then putItemsWithin fuel

/-- `PUT`: raw output. -/
def putStatement : Action Unit := do
  advance
  let output := (← get).output
  selectOutput
  let items := putItemsWithin ((← get).textLength + 1)
  items.ensuring fun after => { after with output }

/-! ### INPUT and GET -/

/-- The pieces of a text between commas. -/
def fieldsOf : Bytes → List Bytes
  | [] => [[]]
  | byte :: rest =>
    let fields := fieldsOf rest
    if byte = 44 then [] :: fields else (byte :: fields.headD []) :: fields.tail

/-- Prints a prompt if the current token is one, and tells whether it was. -/
def prompt : Action Bool := do
  match ← token with
  | .literal text =>
    write text
    advance
    if !(← accept ',') then
      let _ ← accept ';'
    return true
  | _ => return false

/-- Assigns a piece of input. For a number a text that is none counts as zero and sets the status
flag. -/
def assignInput (target : Target) (item : Bytes) : Action Unit := do
  match target with
  | .text _ _ => assignText target item
  | _ =>
    match numberOfText? item (← get).config.wholeNumbers with
    | some number => assignNumber target number
    | none =>
      modify fun machine => { machine with deviceFailed := true }
      assignNumber target Single.zero

/-- The pieces of a new line of input: all of it for a string, or else what stands between
commas. -/
def readFields (target : Target) (prompted : Bool) : Action (List Bytes) := do
  if !prompted && (← get).input = Channel.console then write (ascii "? ")
  let line ← readLine
  match target with
  | .text _ _ => return [line]
  | _ => return fieldsOf line

/-- Reads values for targets, at most `fuel` of them, from the pieces of input that are left; when
none is left a new line is read. -/
def inputItemsWithin : Nat → List Bytes → Action Unit
  | 0, _ => throw .stalled
  | fuel + 1, waiting => do
    let prompted ← prompt
    let target ← target
    let fields ← if waiting.isEmpty then readFields target prompted else pure waiting
    assignInput target (fields.headD [])
    if ← accept ',' then inputItemsWithin fuel fields.tail

/-- `INPUT`: reads lines and assigns their values. -/
def inputStatement : Action Unit := do
  advance
  let input := (← get).input
  selectInput
  let items := inputItemsWithin ((← get).textLength + 1) []
  items.ensuring fun after => { after with input }

/-- Assigns the next byte of input, if one is there, to a target. -/
def getItem : Action Unit := do
  let target ← target
  let machine ← get
  let byte ←
    if 0 < machine.host.available machine.input then
      onHost fun host => host.read machine.input
    else pure none
  match target with
  | .text _ _ => assignText target byte.toList
  | _ => assignNumber target ((byte.map fun code => Single.ofNat code.toNat).getD Single.zero)

/-- `GET`: takes a byte if one is waiting. -/
def getStatement : Action Unit := do
  advance
  let input := (← get).input
  selectInput
  getItem.ensuring fun after => { after with input }

end PocketBasic.Machine
