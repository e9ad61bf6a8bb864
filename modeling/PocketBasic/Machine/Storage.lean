/-
**Keeping programs and files.** The program is saved as an image in the byte store, under the name
`!`, or as a listing in a file.

* `Machine.loadProgram`, `Machine.saveStatement`: between memory, store and files;
* `Machine.loadStatement`, `Machine.runStatement`: replace the program, and start it;
* `Machine.openStatement`, `Machine.closeStatement` and the others: files.
-/

import PocketBasic.Machine.Jumps

namespace PocketBasic.Machine

/-! ### Names -/

/-- The name of the byte store among the files. -/
def storeName : Bytes := [33]

/-- The name that a string gives; malformed pieces are replaced. -/
def fileName : Action Bytes := do
  return Unicode.repaired (← Attempt.reportingAs .syntaxError text)

/-- Does a step on the files, which must be there. -/
def onFiles {α : Type} (step : Files → α × Files) : Action α := do
  Attempt.orFail .badFileNumber <| ← onHost fun host =>
    host.onFiles none fun files =>
      let (result, files) := step files
      (some result, files)

/-! ### Saving -/

/-- Writes the program into the byte store. The mark to start at power on stays. -/
def saveImage : Action Unit := do
  let machine ← get
  match machine.host.store with
  | none => Attempt.failWith .storeError "NO STORE"
  | some store =>
    let flag := if store.read 0 = ProgramImage.autorunFlag then ProgramImage.autorunFlag
      else ProgramImage.plainFlag
    let program := machine.memory.program
    match ProgramImage.write? store machine.memory.width flag (program.slice 0 program.length) with
    | none => Attempt.failWith .storeError "PROGRAM TOO BIG"
    | some store => set { machine with host := { machine.host with store := some store } }

/-- Writes the listing of the program into a file. -/
def saveListing (name : Bytes) : Action Unit := do
  let memory := (← get).memory
  let lines := memory.program.listing memory.width 0 65535
  let written ← onFiles fun files =>
    let (opened, files) := files.openWrite name false
    if opened then
      let (written, files) := files.writeAll (lines.flatMap fun line => line ++ [10])
      (written, files.closeWrite)
    else (false, files)
  if !written then Attempt.fail .diskError

/-- `SAVE`. -/
def saveStatement : Action Unit := do
  advance
  let name ← fileName
  if name = storeName then saveImage else saveListing name

/-- `SET 1, flag`: marks the stored program to start at power on, or not to. -/
def setStatement : Action Unit := do
  advance
  let what ← value
  expect ','
  let flag ← value
  if !what.equals Single.one then Attempt.fail .illegalFunctionCall
  else
    let machine ← get
    match machine.host.store with
    | none => Attempt.failWith .storeError "NO STORE"
    | some store =>
      if ProgramImage.isPresent store machine.memory.width then
        let mark := if flag.equals Single.zero then ProgramImage.plainFlag
          else ProgramImage.autorunFlag
        set { machine with host := { machine.host with store := some (store.write 0 mark) } }
      else Attempt.failWith .storeError "NO PROGRAM"

/-! ### Loading -/

/-- Reads the program from the byte store. -/
def loadImage : Action Unit := do
  let machine ← get
  match machine.host.store with
  | none => Attempt.failWith .storeError "NO STORE"
  | some store =>
    match ProgramImage.ofStore? store machine.memory.width with
    | none => Attempt.failWith .storeError "NO PROGRAM"
    | some image =>
      if image.isSound then onMemory (Memory.loadProgram image.bytes)
      else Attempt.failWith .storeError "CHECKSUM"

/-- Stores lines of text as program lines. Empty lines are passed over. -/
def storeLines (fractions : Bool) : List Bytes → Action Unit
  | [] => return ()
  | line :: rest => do
    match (TypedLine.ofText line fractions).tokens with
    | [] => pure ()
    | .number number :: body => onMemory (Memory.storeLine (← Range.line number) body)
    | _ => Attempt.failWith .syntaxError "DIRECT STATEMENT IN FILE"
    storeLines fractions rest

/-- Reads the program from the listing in a file. -/
def loadListing (name : Bytes) : Action Unit := do
  let content ← onFiles fun files =>
    let (opened, files) := files.openRead name
    if opened then (files.reader, files.closeRead) else (none, files)
  let content ← Attempt.orFail .fileNotFound content
  onMemory Memory.clearProgram
  storeLines (!(← get).config.wholeNumbers) (Unicode.lines (Unicode.repaired content))

/-- Replaces the program. -/
def loadProgram (name : Bytes) : Action Unit :=
  if name = storeName then loadImage else loadListing name

/-- Goes to the first line of a program. -/
def startOf (mode : Mode) : Action Unit := moveTo { mode, offset := 0 }

/-- `LOAD`. In a running program the new one starts at its first line with the variables kept. -/
def loadStatement : Action Unit := do
  advance
  let name ← fileName
  let chained := !(← isInteractive)
  loadProgram name
  modify fun machine => { machine with continuation := none, data := .search 0 }
  if chained then
    modify fun machine =>
      { machine with
        operands := machine.operands.clear
        loops := machine.loops.clear
        returns := machine.returns.clear
        bookmark := none }
    startOf .run

/-- Replaces the program if a name stands here, and tells whether one did. -/
def loadNamed : Action Bool := do
  match ← token with
  | .literal name =>
    advance
    loadProgram (Unicode.repaired name)
    return true
  | _ => return false

/-- `RUN`: starts the program, or the one with a name, at its first line or at a given one. -/
def runStatement : Action Unit := do
  advance
  let loaded ← loadNamed
  let line ← if ← atEnd then pure none else some <$> (do Range.line (← value))
  let mode := if (← get).cursor.mode = .runStore && !loaded then Mode.runStore else .run
  clear
  modify fun machine =>
    { machine with continuation := none, cursor := { machine.cursor with mode } }
  match line with
  | some line => gotoLine line
  | none => startOf mode

/-! ### Files -/

/-- The text of a catalog entry. -/
def catalogLine (entry : CatalogEntry) : Bytes :=
  if entry.isRegular then entry.name ++ 32 :: decimal entry.size ++ [10]
  else entry.name ++ [47, 10]

/-- `CATALOG`: lists the files whose names begin with a string. -/
def catalogStatement : Action Unit := do
  advance
  let start ← if ← atEnd then pure [] else fileName
  let entries ← onFiles fun files => (files.catalog, files)
  let chosen := entries.filter fun entry => Bytes.startsWith entry.name start
  write (chosen.flatMap catalogLine)

/-- `DELETE`: deletes a file. -/
def deleteStatement : Action Unit := do
  advance
  let name ← fileName
  if !(← onFiles fun files => files.delete name) then Attempt.fail .fileNotFound

/-- `OPEN name, mode`: for reading (0), writing (1) or appending (2). A file that cannot be opened
sets the status flag. -/
def openStatement : Action Unit := do
  advance
  let name ← fileName
  let mode ← if ← accept ',' then value else pure Single.zero
  let opened ← Attempt.orFail .illegalFunctionCall <| ← onFiles fun files =>
    let (opened, after) :=
      if mode.toInt32 = 1 then files.openWrite name false
      else if mode.toInt32 = 2 then files.openWrite name true
      else files.openRead name
    if 0 ≤ mode.toInt32 && mode.toInt32 ≤ 2 then (some opened, after) else (none, files)
  modify fun machine => { machine with deviceFailed := !opened }

/-- Selects the console again where the files were selected. -/
def deselectFiles (machine : Machine) : Machine :=
  { machine with
    input := if machine.input = Channel.file then Channel.console else machine.input
    output := if machine.output = Channel.file then Channel.console else machine.output }

/-- `CLOSE mode`: ends reading (0) or writing (1 or 2), and both without a mode. -/
def closeStatement : Action Unit := do
  advance
  let mode ← if ← atEnd then pure none else some <$> value
  let closed ← onFiles fun files =>
    match mode.map Single.toInt32 with
    | none => (true, files.closeRead.closeWrite)
    | some 0 => (true, files.closeRead)
    | some 1 | some 2 => (true, files.closeWrite)
    | some _ => (false, files)
  if closed then modify deselectFiles else Attempt.fail .illegalFunctionCall

/-- `FDISK`: erases all files. -/
def formatStatement : Action Unit := do
  advance
  if !(← onFiles Files.format) then Attempt.fail .diskError

end PocketBasic.Machine
