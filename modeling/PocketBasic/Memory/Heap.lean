/-
**The heap**: objects one below the other, each a header and its payload. The header is the kind,
the two bytes of the name and, except for scalars, the length of the payload. A new object goes
below all others, so a walk from `himem` up meets the newest first.

* `Memory.heapObjects`: the objects that the bytes of the heap spell, newest first;
* `Memory.find`: the payload of an object, which is remembered until the heap shrinks;
* `Memory.allocate`: a new object, all zero; `Memory.delete`: drops an object and all newer ones.
-/

import PocketBasic.Memory.Basic

namespace PocketBasic

namespace ObjectKind

/-- The first byte of an object. -/
def tag : ObjectKind → UInt8
  | scalar => 1
  | array => 2
  | string => 3
  | function => 4
  | buffer => 5

def ofTag? (tag : UInt8) : Option ObjectKind :=
  if tag = 1 then some scalar
  else if tag = 2 then some array
  else if tag = 3 then some string
  else if tag = 4 then some function
  else if tag = 5 then some buffer
  else none

def headerLength (kind : ObjectKind) (width : AddressWidth) : Nat :=
  match kind with
  | scalar => 3
  | _ => 3 + width.byteCount

/-- The length of the payload for a size: the elements of an array, the bytes of all elements of a
string, or the bytes of a buffer. Arrays keep their second dimension, and strings their element
count, in an address at the end. `none` when the length does not fit into an address. -/
def payloadLength? (kind : ObjectKind) (size : Nat) (width : AddressWidth) : Option Nat :=
  let length := match kind with
    | scalar => numberSize
    | array => size * numberSize + width.byteCount
    | string => size + width.byteCount
    | function => width.byteCount + 2
    | buffer => size
  if length ≤ width.largest then some length else none

end ObjectKind

/-- An object of the heap as its header describes it. -/
structure HeapObject where
  kind : ObjectKind
  name : Name
  start : Nat
  payload : Extent
  deriving DecidableEq, Inhabited

namespace Memory

/-! ### Walking over objects -/

/-- The object at an address: its kind must be known, and its header inside memory. -/
def objectAt? (memory : Memory) (start : Nat) : Option HeapObject :=
  let byteAt := (memory.bytes.getD · 0)
  if memory.size < start + 3 then none
  else
    match ObjectKind.ofTag? (byteAt start) with
    | none => none
    | some kind =>
      let header := kind.headerLength memory.width
      if memory.size < start + header then none
      else
        let length := match kind with
          | .scalar => numberSize
          | _ => (memory.addressAt? (start + 3)).getD 0
        some { kind, name := ⟨byteAt (start + 1), byteAt (start + 2)⟩, start,
               payload := { start := start + header, length } }

/-- The objects from an address up, at most `fuel` of them, as far as they make sense. -/
def objectsWithin (memory : Memory) : Nat → Nat → List HeapObject
  | 0, _ => []
  | fuel + 1, start =>
    match memory.objectAt? start with
    | none => []
    | some object =>
      object :: memory.objectsWithin fuel (object.payload.start + object.payload.length)

/-- The objects of the heap, newest first. Every object takes a byte. -/
def heapObjects (memory : Memory) : List HeapObject :=
  memory.objectsWithin (memory.size - memory.himem) memory.himem

/-- The newest object of a kind and name. -/
def scan? (memory : Memory) (kind : ObjectKind) (name : Name) : Option Extent :=
  (memory.heapObjects.find? fun object => object.kind = kind && object.name = name).map (·.payload)

/-! ### Objects by name -/

/-- The payload of an object: the one that was looked up last if it is asked for again, or else the
newest in the heap, which is remembered. -/
def find (memory : Memory) (kind : ObjectKind) (name : Name) : Option Extent × Memory :=
  let remembered := memory.recent.bind fun (recentKind, recentName, payload) =>
    if recentKind = kind && recentName = name then some payload else none
  match remembered with
  | some payload => (some payload, memory)
  | none =>
    match memory.scan? kind name with
    | some payload => (some payload, { memory with recent := some (kind, name, payload) })
    | none => (none, memory)

/-- Looks an object up. -/
def lookup (kind : ObjectKind) (name : Name) : Attempt Memory (Option Extent) :=
  Attempt.always fun memory => memory.find kind name

/-- Makes an object below all others, with a payload of zeros, and gives the address of the payload.
There must be none of its kind and name. -/
def allocate (kind : ObjectKind) (name : Name) (size : Nat) : Attempt Memory Nat := do
  if (← lookup kind name).isSome then Attempt.fail .duplicateVariable
  else
    let memory ← get
    let width := memory.width
    let length ← Attempt.orFail .outOfMemory (kind.payloadLength? size width)
    let total := kind.headerLength width + length
    if memory.himem < memory.top + total then Attempt.fail .outOfMemory
    else
      let start := memory.himem - total
      let payload := start + kind.headerLength width
      write start [kind.tag, name.first, name.second]
      if kind ≠ .scalar then writeAddress (start + 3) length
      zero payload (payload + length)
      modify fun memory =>
        { memory with
          himem := start
          objects := memory.objects + 1
          recent := some (kind, name, { start := payload, length }) }
      return payload

/-- Drops an object and everything that was made after it, and gives the new start of the heap. -/
def delete (kind : ObjectKind) (name : Name) : Attempt Memory (Option Nat) := do
  let memory ← get
  match memory.scan? kind name with
  | none => return none
  | some payload =>
    let stop := payload.start + payload.length
    zero memory.himem stop
    modify fun memory => { memory with himem := stop, recent := none }
    modify fun memory => { memory with objects := memory.heapObjects.length }
    return some stop

end Memory

end PocketBasic
