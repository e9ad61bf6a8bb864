/-
**The memory of the machine**: one array of bytes that holds everything. The program grows up from
`0` to `top`, the heap grows down from the end to `himem`; the room between them is free, and
nothing is ever moved across it.

* `Memory.read?`, `Memory.write`, `Memory.zero`: access that is refused outside the array;
* `Memory.moveBlock`: moves bytes below the heap, where the two ranges may overlap;
* `Memory.clearHeap`, `Memory.clearProgram`: drop one side and leave the other alone.
-/

import PocketBasic.Attempt
import PocketBasic.Memory.Address
import PocketBasic.Program.Lines

namespace PocketBasic

/-- The kinds of objects in the heap. -/
inductive ObjectKind where
  | scalar
  | array
  | string
  | function
  | buffer
  deriving DecidableEq, Inhabited

/-- A range of bytes. -/
structure Extent where
  start : Nat
  length : Nat
  deriving DecidableEq, Inhabited

/-- The starts of lines that were looked up last: four slots, filled in turn. -/
structure LineCache where
  slots : Vector (Option (LineNumber × Nat)) 4 := Vector.replicate 4 none
  next : Fin 4 := 0
  deriving DecidableEq, Inhabited

namespace LineCache

def find? (cache : LineCache) (line : LineNumber) : Option Nat :=
  cache.slots.toList.findSome? fun slot =>
    slot.bind fun entry => if entry.1 = line then some entry.2 else none

def insert (cache : LineCache) (line : LineNumber) (start : Nat) : LineCache :=
  { slots := cache.slots.set cache.next (some (line, start)), next := cache.next + 1 }

/-- Empties the slots; the next one to fill stays. -/
def clear (cache : LineCache) : LineCache := { cache with slots := Vector.replicate 4 none }

end LineCache

structure Memory where
  bytes : Array UInt8
  /-- The end of the program. -/
  top : Nat
  /-- The start of the heap. -/
  himem : Nat
  /-- The number of objects in the heap. -/
  objects : Nat
  /-- The payload of the object that was looked up or made last. -/
  recent : Option (ObjectKind × Name × Extent) := none
  lineCache : LineCache := {}
  deriving DecidableEq, Inhabited

namespace Memory

/-- Memory of a given size, with no program and an empty heap. -/
def ofSize (size : Nat) : Memory :=
  { bytes := Array.replicate size 0, top := 0, himem := size, objects := 0 }

def size (memory : Memory) : Nat := memory.bytes.size

def width (memory : Memory) : AddressWidth := AddressWidth.forSize memory.size

/-- The bytes between program and heap. -/
def free (memory : Memory) : Nat := memory.himem - memory.top

/-- The stored program. -/
def program (memory : Memory) : ProgramText :=
  { length := memory.top
    byteAt := fun offset => if offset < memory.top then memory.bytes.getD offset 0 else 0 }

/-! ### Reading -/

/-- A single byte. -/
def peek? (memory : Memory) (address : Nat) : Option UInt8 := memory.bytes[address]?

/-- The bytes of a range that is inside memory. -/
def read? (memory : Memory) (start count : Nat) : Option Bytes :=
  if start + count ≤ memory.size then
    some ((List.range count).map fun offset => memory.bytes.getD (start + offset) 0)
  else none

/-- The address that is stored at a place. -/
def addressAt? (memory : Memory) (start : Nat) : Option Nat :=
  (memory.read? start memory.width.byteCount).map fromLittleEndian

/-- The number that is stored at a place. -/
def numberAt? (memory : Memory) (start : Nat) : Option Single :=
  match memory.read? start numberSize with
  | some [b0, b1, b2, b3] => some (Single.ofBytes b0 b1 b2 b3)
  | _ => none

/-! ### Writing -/

/-- The array with bytes written from an offset on. -/
def overwrite (bytes : Array UInt8) (start : Nat) : Bytes → Array UInt8
  | [] => bytes
  | byte :: rest => overwrite (bytes.setIfInBounds start byte) (start + 1) rest

/-- Writes bytes, which must end inside memory. -/
def write (start : Nat) (data : Bytes) : Attempt Memory Unit := do
  if start + data.length ≤ (← get).size then
    modify fun memory => { memory with bytes := overwrite memory.bytes start data }
  else throw .fault

/-- Clears the bytes from `start` to `stop`, which must be inside memory. -/
def zero (start stop : Nat) : Attempt Memory Unit := do
  if start ≤ stop && stop ≤ (← get).size then write start (List.replicate (stop - start) 0)
  else throw .fault

/-- Writes a single byte, if the address is inside memory. -/
def poke (memory : Memory) (address : Nat) (value : UInt8) : Bool × Memory :=
  (address < memory.size, { memory with bytes := memory.bytes.setIfInBounds address value })

def writeAddress (start address : Nat) : Attempt Memory Unit := do
  write start ((← get).width.encode address)

def writeNumber (start : Nat) (value : Single) : Attempt Memory Unit := write start value.toBytes

/-! ### Blocks -/

/-- Moves bytes below the heap, where the ends of both ranges, as words, must be. All of them are
read before the first one is written, so the ranges may overlap in either direction. -/
def moveBlock (source length destination : Nat) : Attempt Memory Unit := do
  let memory ← get
  if memory.himem < Address.wrap (destination + length) ||
      memory.himem < Address.wrap (source + length) then
    Attempt.fail .outOfMemory
  else if 0 < length && source ≠ destination then
    let data ← Attempt.orFault (memory.read? source length)
    write destination data

/-- Drops every object of the heap. -/
def clearHeap : Attempt Memory Unit := do
  let memory ← get
  zero memory.himem memory.size
  modify fun memory => { memory with himem := memory.size, objects := 0, recent := none }

/-- Drops the program. -/
def clearProgram : Attempt Memory Unit := do
  zero 0 (← get).top
  modify fun memory => { memory with top := 0, lineCache := memory.lineCache.clear }

/-- Replaces the program by bytes that are encoded already. -/
def loadProgram (image : Bytes) : Attempt Memory Unit := do
  if (← get).himem < image.length then Attempt.fail .outOfMemory
  else
    clearProgram
    write 0 image
    modify fun memory => { memory with top := image.length }

end Memory

end PocketBasic
