/-
**Data in the program**: `DATA` statements hold numbers and texts that `READ` takes one after the
other, wherever they stand in the program.

* `ProgramText.nextDatum`: the next value from a place on, and the place behind it;
* `Machine.readStatement`, `Machine.restoreStatement`: take values, and go back to earlier ones.
-/

import PocketBasic.Machine.Expression

namespace PocketBasic

/-- A value of a `DATA` statement. -/
inductive Datum where
  | number (value : Single)
  | text (value : Bytes)
  deriving DecidableEq, Inhabited

/-- The next value from an offset on, and the offset behind it, at most `fuel` tokens far. `inside`
tells whether a `DATA` statement is read, and `negative` whether an odd number of minus signs was
read there. -/
def ProgramText.nextDatumWithin (text : ProgramText) (width : AddressWidth) :
    Nat → Nat → Bool → Bool → Except Error (Datum × Nat)
  | 0, _, _, _ => .error { kind := .outOfData }
  | fuel + 1, offset, inside, negative =>
    let (token, next) := text.decode width offset
    if token = .endOfText then .error { kind := .outOfData }
    else if !inside then text.nextDatumWithin width fuel next (token.isWord .data) negative
    else
      match token with
      | .number value => .ok (.number (if negative then value.negate else value), next)
      | .literal value => .ok (.text value, next)
      | .operator .minus => text.nextDatumWithin width fuel next true (!negative)
      | .operator .plus | .symbol 44 => text.nextDatumWithin width fuel next true negative
      | token =>
        if token.isTerminator then text.nextDatumWithin width fuel next false negative
        else .error { kind := .syntaxError }

/-- The next value from a place on, and the offset behind it. -/
def ProgramText.nextDatum (text : ProgramText) (width : AddressWidth) (place : DataCursor) :
    Except Error (Datum × Nat) :=
  match place with
  | .search offset => text.nextDatumWithin width (text.length + 1) offset false false
  | .inside offset => text.nextDatumWithin width (text.length + 1) offset true false

namespace Machine

/-- Takes the next value of the program. -/
def takeDatum : Action Datum := do
  let machine ← get
  let text := machine.programText machine.cursor.mode
  let (datum, next) ← Attempt.lift (text.nextDatum machine.memory.width machine.data)
  modify fun machine => { machine with data := .inside next }
  return datum

/-- Assigns a value of the program: a number to a string as its text, but no text to a number. -/
def assignDatum (target : Target) (datum : Datum) : Action Unit :=
  match datum, target with
  | .number value, .text _ _ => assignText target value.text
  | .number value, _ => assignNumber target value
  | .text value, .text _ _ => assignText target value
  | .text _, _ => Attempt.fail .typeMismatch

/-- Reads values for targets, at most `fuel` of them. -/
def readItemsWithin : Nat → Action Unit
  | 0 => throw .stalled
  | fuel + 1 => do
    let target ← target
    assignDatum target (← takeDatum)
    if ← accept ',' then readItemsWithin fuel

/-- `READ`. -/
def readStatement : Action Unit := do
  advance
  readItemsWithin ((← get).textLength + 1)

/-- `RESTORE`: the next value is the first of the program, or the first from a line on. -/
def restoreStatement : Action Unit := do
  advance
  if ← atEnd then modify fun machine => { machine with data := .search 0 }
  else
    let line ← Range.line (← value)
    let location ← findLine line
    modify fun machine => { machine with data := .search location.offset }

end Machine

end PocketBasic
