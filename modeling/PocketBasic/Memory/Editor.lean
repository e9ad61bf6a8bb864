/-
**The line editor** keeps the lines of the stored program in the order of their numbers.

* `Memory.storeLine`: inserts, replaces or deletes a line;
* `Memory.findLine`: the start of a line, remembered in four slots until the program changes;
* `Memory.lineTokens?`: the tokens of a line.

A new line is first written above the program and then moved into its place; room for that, and for
the copy that the move makes, is checked before anything is written.
-/

import PocketBasic.Memory.Basic

namespace PocketBasic.Memory

/-- The lines of the stored program. -/
def lines (memory : Memory) : List LineSpan := memory.program.lines memory.width

/-- The first stored line with a number. -/
def lineSpan? (memory : Memory) (line : LineNumber) : Option LineSpan :=
  memory.lines.find? fun span => span.number = line

/-- The start of a line, from the slots or from the program. -/
def findLine (memory : Memory) (line : LineNumber) : Option Nat × Memory :=
  match memory.lineCache.find? line with
  | some start => (some start, memory)
  | none =>
    match memory.lineSpan? line with
    | none => (none, memory)
    | some span =>
      (some span.start, { memory with lineCache := memory.lineCache.insert line span.start })

/-- The tokens of a stored line without its number. -/
def lineTokens? (memory : Memory) (line : LineNumber) : Option (List Token) :=
  (memory.lineSpan? line).map fun span =>
    (memory.program.truncate span.stop).lineTokens memory.width span

/-! ### Editing -/

/-- Where a line goes: the start of the first line with its number or a higher one, with the end of
that line when it is the same number, or else the end of the program. -/
def insertionPoint (memory : Memory) (line : LineNumber) : Nat × Option Nat :=
  match memory.lines.find? fun span => line ≤ span.number with
  | none => (memory.top, none)
  | some span => (span.start, if span.number = line then some span.stop else none)

/-- Removes a stored line. -/
def deleteLine (line : LineNumber) : Attempt Memory Unit := do
  let memory ← get
  match memory.lineSpan? line with
  | none => Attempt.fail .undefinedLine
  | some span =>
    moveBlock span.stop (memory.top - span.stop) span.start
    let top := memory.top - (span.stop - span.start)
    modify fun memory => { memory with top }
    zero top memory.top

/-- Puts the record of a line, which stands at `oldTop`, in the place of the bytes from `start` to
`stop`. -/
def replaceRecord (oldTop length start stop : Nat) : Attempt Memory Unit := do
  let oldLength := stop - start
  if oldLength < length then
    let growth := length - oldLength
    moveBlock stop (oldTop + length - stop) (stop + growth)
    moveBlock (oldTop + growth) length start
  else
    moveBlock oldTop length start
    if length < oldLength then moveBlock stop (oldTop - stop) (start + length)
  modify fun memory => { memory with top := oldTop + length - oldLength }

/-- Puts the record of a line, which stands at `oldTop`, in front of the bytes at `start`. -/
def insertRecord (oldTop length start : Nat) : Attempt Memory Unit := do
  moveBlock start (oldTop + length - start) (start + length)
  moveBlock (oldTop + length) length start
  modify fun memory => { memory with top := oldTop + length }

/-- The room above the program that placing a record of `length` bytes takes. -/
def scratchFor (length oldTop start : Nat) : Option Nat → Nat
  | some stop => length + (length - (stop - start))
  | none => if start = oldTop then length else 2 * length

/-- Stores a line: inserts it, replaces the one with its number, or deletes that one when there are
no tokens. -/
def storeLine (line : LineNumber) (body : List Token) : Attempt Memory Unit := do
  if line = 0 then Attempt.fail .undefinedLine
  else
    modify fun memory => { memory with lineCache := memory.lineCache.clear }
    if body.isEmpty then deleteLine line
    else
      let memory ← get
      let record ← Attempt.lift (encodeAll memory.width (.lineNumber line :: body))
      let length := record.length
      let oldTop := memory.top
      let (start, existing) := memory.insertionPoint line
      let scratch := scratchFor length oldTop start existing
      if memory.himem < oldTop + scratch then Attempt.fail .outOfMemory
      else
        write oldTop record
        modify fun memory => { memory with top := oldTop + length }
        match existing with
        | some stop => replaceRecord oldTop length start stop
        | none => if start ≠ oldTop then insertRecord oldTop length start
        zero (← get).top (oldTop + scratch)

end PocketBasic.Memory
