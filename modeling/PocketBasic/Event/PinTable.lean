/-
**Watched pins.** A program can watch up to four pins. Raised pins wait in the table until it is
their turn, and they are served in turn.

* `PinTable.poll`: takes the raised pins over from the signals;
* `PinTable.take`: the response of the next waiting pin behind the one that was served last.
-/

import PocketBasic.Event.Timer
import PocketBasic.Host.Signals

namespace PocketBasic

/-- A watched pin; it is active from when it was raised until it is served. -/
structure PinSlot where
  pin : UInt8
  response : Response
  isActive : Bool := false
  deriving DecidableEq, Inhabited

structure PinTable where
  slots : List PinSlot := []
  /-- The place at which the search for the next pin begins. -/
  next : Nat := 0
  /-- Whether pins are served. -/
  isEnabled : Bool := true
  deriving DecidableEq, Inhabited

namespace PinTable

/-- How many pins can be watched at once. -/
def capacity : Nat := 4

/-- Stops watching a pin. The next search begins at the first slot. -/
def remove (table : PinTable) (pin : UInt8) : PinTable :=
  { table with slots := table.slots.filter fun slot => slot.pin ≠ pin, next := 0 }

/-- Watches a pin, with a new response if it was watched before; `none` if there is no free slot. -/
def add? (table : PinTable) (pin : UInt8) (response : Response) : Option PinTable :=
  let table := table.remove pin
  if table.slots.length < capacity then
    some { table with slots := table.slots ++ [{ pin, response }] }
  else none

/-- Takes the raised pins of the slots over from the signals, one after the other. -/
def pollSlots : List PinSlot → Signals → List PinSlot × Signals
  | [], signals => ([], signals)
  | slot :: rest, signals =>
    let (raised, signals) := signals.take slot.pin
    let (rest, signals) := pollSlots rest signals
    ({ slot with isActive := slot.isActive || raised } :: rest, signals)

/-- Takes the raised pins over from the signals. -/
def poll (table : PinTable) (signals : Signals) : PinTable × Signals :=
  let (slots, signals) := pollSlots table.slots signals
  ({ table with slots }, signals)

/-- The place of the first active slot in the order of search. -/
def nextActive? (table : PinTable) : Option Nat :=
  let count := table.slots.length
  ((List.range count).map fun step => (table.next + step) % count).find? fun place =>
    (table.slots[place]?).any (·.isActive)

/-- Serves the first active slot in the order of search, and moves the start of the next search
behind it. -/
def take (table : PinTable) : Option Response × PinTable :=
  match table.nextActive? with
  | none => (none, table)
  | some place =>
    ((table.slots[place]?).map (·.response),
      { table with
        slots := table.slots.modify place fun slot => { slot with isActive := false }
        next := (place + 1) % table.slots.length })

end PinTable

end PocketBasic
