/-
**Variables** live in the heap as objects; names that begin with `@` are views of the machine
instead.

* `Machine.getScalar`, `Machine.setScalar`: scalars, zero until they are assigned;
* `Machine.elementAddress`: where an element of an array is, which is made if it does not exist;
* `Machine.readString`, `Machine.writeString`: strings, their elements and their parts.

A subscript is checked after its fraction is cut off and the base is taken away from it, and only
then turned into a whole number.
-/

import PocketBasic.Machine.Channels

namespace PocketBasic

/-- What follows the name of a string: the bounds of a part, and the index of an element, as in
`A$(2,4)(3)`. -/
structure Selector where
  lower : Option Single := none
  upper : Option Single := none
  index : Option Single := none
  deriving DecidableEq, Inhabited

/-- What a statement can assign to. -/
inductive Target where
  | scalar (name : Name)
  | element (name : Name) (row : Single) (column : Option Single)
  | text (name : Name) (selector : Selector)
  deriving DecidableEq, Inhabited

/-- One element of a string: the address of its length byte, and how many bytes fit into it. -/
structure StringSlot where
  address : Nat
  capacity : Nat
  deriving DecidableEq, Inhabited

/-! ### Numbers with a range -/

namespace Range

/-- A channel: `0` to `255`. -/
def channel (number : Single) : Action UInt8 :=
  if number.less Single.zero || (Single.ofNat 255).less number then Attempt.fail .badFileNumber
  else return number.toByte

/-- A byte: `0` to `255`. -/
def byte (number : Single) : Action UInt8 :=
  if number.less Single.zero || (Single.ofNat 255).less number then
    Attempt.fail .illegalFunctionCall
  else return number.toByte

/-- A count or an address: not negative. -/
def count (number : Single) : Action Nat :=
  if number.less Single.zero then Attempt.fail .illegalFunctionCall else return number.toSize

/-- The name of a buffer, which is a number from `0` to `65535`. -/
def bufferName (number : Single) : Action Name :=
  if number.less Single.zero || (Single.ofNat 65535).less number then
    Attempt.fail .illegalFunctionCall
  else
    let value := number.clampToNat 65535
    return ⟨value.toUInt8, (value / 256).toUInt8⟩

/-- A line number. -/
def line (number : Single) : Action LineNumber :=
  Attempt.orFail .undefinedLine (LineNumber.ofSingle? number)

end Range

namespace Machine

/-! ### Subscripts -/

/-- The lowest subscript. -/
def base (machine : Machine) : Single := Single.ofNat machine.config.arrayBase

/-- The place of a subscript among `count` elements. -/
def place (subscript : Single) (count : Nat) : Action Nat := do
  let offset := subscript.truncate.subtract (← get).base
  if offset.less Single.zero || (Single.ofNat count).atMost offset then
    Attempt.fail .subscriptOutOfRange
  else return offset.toSize

/-- How many elements a bound gives; more than there are bytes in memory are refused. -/
def elementCount (bound : Single) : Action Nat := do
  let machine ← get
  let count := (bound.truncate.add Single.one).subtract machine.base
  if !Single.one.atMost count || (Single.ofNat machine.config.memorySize).less count then
    Attempt.fail .subscriptOutOfRange
  else return count.toSize

/-! ### Memory access -/

def numberAt (address : Nat) : Action Single := do
  Attempt.orFault ((← get).memory.numberAt? address)

def addressAt (address : Nat) : Action Nat := do
  Attempt.orFault ((← get).memory.addressAt? address)

def byteAt (address : Nat) : Action UInt8 := do
  Attempt.orFault ((← get).memory.peek? address)

def setNumberAt (address : Nat) (value : Single) : Action Unit :=
  onMemory (Memory.writeNumber address value)

def lookup (kind : ObjectKind) (name : Name) : Action (Option Extent) :=
  onMemory (Memory.lookup kind name)

/-- The bytes of an address. -/
def addressSize : Action Nat := do return (← get).memory.width.byteCount

/-! ### Scalars -/

/-- The value of a scalar that exists. -/
def storedScalar? (name : Name) : Action (Option Single) := do
  match ← lookup .scalar name with
  | some payload => return some (← numberAt payload.start)
  | none => return none

/-- Assigns to a scalar, which is made if it does not exist. -/
def storeScalar (name : Name) (value : Single) : Action Unit := do
  match ← lookup .scalar name with
  | some payload => setNumberAt payload.start value
  | none => setNumberAt (← onMemory (Memory.allocate .scalar name 0)) value

/-! ### Arrays -/

/-- Makes an array. Behind its elements stands the number of its columns. -/
def createArray (name : Name) (rows columns : Nat) : Action Unit := do
  let count := rows * columns
  let start ← onMemory (Memory.allocate .array name count)
  onMemory (Memory.writeAddress (start + count * numberSize) columns)

/-- The payload of an array, which is made if it does not exist. -/
def arrayPayload (name : Name) : Action Extent := do
  match ← lookup .array name with
  | some payload => return payload
  | none =>
    createArray name (← get).config.arraySize 1
    Attempt.orFail .internalError (← lookup .array name)

/-- Where an element of an array is. -/
def elementAddress (name : Name) (row : Single) (column : Option Single) : Action Nat := do
  let payload ← arrayPayload name
  let width ← addressSize
  let columns ← addressAt (payload.start + payload.length - width)
  if columns = 0 then Attempt.failWith .internalError "ARRAY HEADER"
  else
    let rows := Address.minus payload.length width / numberSize / columns
    let row ← place row rows
    let column ← match column with
      | some column => place column columns
      | none => pure 0
    return Address.wrap (payload.start + (row * columns + column) * numberSize)

/-! ### Strings -/

/-- Makes a string with `count` elements of `capacity` bytes. Each element begins with its length,
and behind them stands their number. -/
def createString (name : Name) (capacity count : Nat) : Action Unit := do
  if 255 < capacity then Attempt.fail .stringTooLong
  else
    let size := (capacity + 1) * count
    let start ← onMemory (Memory.allocate .string name size)
    onMemory (Memory.writeAddress (start + size) count)

/-- The element of a string payload. All elements have the same room, a byte of which is the
length. -/
def slotOf (payload : Extent) (index : Option Single) : Action StringSlot := do
  let width ← addressSize
  let count ← addressAt (payload.start + payload.length - width)
  if count = 0 then Attempt.failWith .internalError "STRING HEADER"
  else
    let room := Address.minus payload.length width / count
    let place ← match index with
      | some index => place index count
      | none => pure 0
    let address := Address.wrap (payload.start + place * room)
    return { address, capacity := Address.minus room 1 }

/-- The element of a string, `none` when the string does not exist. -/
def existingSlot (name : Name) (index : Option Single) : Action (Option StringSlot) := do
  match ← lookup .string name with
  | some payload => return some (← slotOf payload index)
  | none => return none

/-- The element of a string, which is made if it does not exist. -/
def assignableSlot (name : Name) (index : Option Single) : Action StringSlot := do
  match ← lookup .string name with
  | some payload => slotOf payload index
  | none =>
    createString name (← get).config.stringSize 1
    slotOf (← Attempt.orFail .internalError (← lookup .string name)) index

/-- How many bytes an element holds. -/
def slotLength (slot : StringSlot) : Action Nat := do
  return min (← byteAt slot.address).toNat slot.capacity

/-- The part of a string element that a selector names. Bounds count from one, and what is outside
the string is cut off. -/
def readSlot (slot : StringSlot) (selector : Selector) : Action Bytes := do
  let length ← slotLength slot
  let lower ← match selector.lower with
    | some bound =>
      if Single.one.atMost bound then pure (min (bound.toSize - 1) length)
      else Attempt.fail .subscriptOutOfRange
    | none => pure 0
  let upper := match selector.upper with
    | some bound => max (min bound.toSize length) lower
    | none => length
  Attempt.orFault ((← get).memory.read? (slot.address + 1 + lower) (upper - lower))

/-- How a part of a string is assigned: the place of the first byte, how many bytes of the source
are taken, and the length of the string after that. -/
structure Splice where
  start : Nat
  count : Nat
  length : Nat
  deriving DecidableEq, Inhabited

/-- The part of a string of some length that a selector names for a source of `size` bytes. Without
bounds it is the whole string; with the lower one alone the string ends behind the source; with both
bounds what is behind the part stays. An upper bound that is no number counts as zero; from a later
start the way there leads around all words, so the whole source is taken. -/
def splice (selector : Selector) (length size : Nat) : Action Splice :=
  match selector.lower with
  | none => return { start := 0, count := size, length := size }
  | some lower =>
    if !Single.one.atMost lower || length + 1 < lower.toSize then
      Attempt.fail .subscriptOutOfRange
    else
      let start := lower.toSize - 1
      match selector.upper with
      | none => return { start, count := size, length := start + size }
      | some upper =>
        if upper.less lower then Attempt.fail .subscriptOutOfRange
        else
          let count := min size (Address.minus upper.toSize start)
          return { start, count, length := max length (start + count) }

/-- Assigns to the part of a string element that a selector names. -/
def writeSlot (slot : StringSlot) (selector : Selector) (source : Bytes) : Action Unit := do
  let part ← splice selector (← slotLength slot) source.length
  if slot.capacity < part.start + part.count then Attempt.fail .stringTooLong
  else
    onMemory (Memory.write (slot.address + 1 + part.start) (source.take part.count))
    onMemory (Memory.write slot.address [part.length.toUInt8])

/-! ### Views of the machine -/

/-- The value of a name with `@`. -/
def getSpecial (letter : UInt8) : Action Single := do
  let machine ← get
  if letter = 0 then return Single.ofNat (machine.memory.free / numberSize)
  else if letter = 'S'.toUInt8 then
    return if machine.deviceFailed then Single.one else Single.zero
  else if letter = 'I'.toUInt8 then return Single.ofNat machine.input.toNat
  else if letter = 'O'.toUInt8 then return Single.ofNat machine.output.toNat
  else if letter = 'A'.toUInt8 then return Single.ofNat (machine.host.available machine.input)
  else if letter = 'C'.toUInt8 then
    match ← onHost fun host => host.read machine.input with
    | some byte => return Single.ofNat byte.toNat
    | none => return Single.zero
  else if letter = 'E'.toUInt8 then
    return Single.ofNat ((machine.host.store.map ByteStore.size).getD 0)
  else if letter = 'R'.toUInt8 then return machine.seed
  else Attempt.fail .unknownVariable

/-- Assigns to a name with `@`. -/
def setSpecial (letter : UInt8) (value : Single) : Action Unit := do
  if letter = 'S'.toUInt8 then
    modify fun machine => { machine with deviceFailed := !value.equals Single.zero }
  else if letter = 'I'.toUInt8 then
    let channel ← Range.channel value
    modify fun machine => { machine with input := channel }
  else if letter = 'O'.toUInt8 then
    let channel ← Range.channel value
    modify fun machine => { machine with output := channel }
  else if letter = 'C'.toUInt8 then writeByte value.toByte
  else if letter = 'R'.toUInt8 then
    modify fun machine =>
      { machine with seed := value, random := Random.ofSeed value.bits.toUInt64 }
  else Attempt.fail .unknownVariable

/-- The cell `@(index)`: cells count down from the heap through free memory. -/
def freeCell (index : Single) : Action Nat := do
  let memory := (← get).memory
  let index := index.truncate
  if !Single.one.atMost index || (Single.ofNat (memory.free / numberSize)).less index then
    Attempt.fail .subscriptOutOfRange
  else return Address.minus memory.himem (numberSize * index.toSize)

/-- The cell `@E(index)`: cells count down from the end of the byte store. -/
def storeCell (index : Single) : Action Nat := do
  match (← get).host.store with
  | none => Attempt.failWith .storeError "NO STORE"
  | some store =>
    let index := index.truncate
    if !Single.one.atMost index || (Single.ofNat (store.size / numberSize)).less index then
      Attempt.fail .subscriptOutOfRange
    else return Address.minus store.size (numberSize * index.toSize)

/-- The field `@T(index)` of the clock. -/
def clockField (index : Single) : Action (Fin 7) :=
  if index.less Single.zero then Attempt.fail .subscriptOutOfRange
  else
    let field := index.toSize
    if inside : field < 7 then return ⟨field, inside⟩ else Attempt.fail .subscriptOutOfRange

/-- The value of an element of a name with `@`. -/
def getSpecialElement (letter : UInt8) (index : Single) : Action Single := do
  if letter = 0 then numberAt (← freeCell index)
  else if letter = 'E'.toUInt8 then
    let offset ← storeCell index
    match (← get).host.store with
    | some store =>
      let byteAt := fun place => store.read (Address.wrap (offset + place))
      return Single.ofBytes (byteAt 0) (byteAt 1) (byteAt 2) (byteAt 3)
    | none => return Single.zero
  else if letter = 'T'.toUInt8 then
    let field ← clockField index
    match (← get).host.clock with
    | some clock => return Single.ofInt clock[field]
    | none => return Single.zero
  else Attempt.fail .unknownVariable

/-- Assigns to an element of a name with `@`. -/
def setSpecialElement (letter : UInt8) (index value : Single) : Action Unit := do
  if letter = 0 then setNumberAt (← freeCell index) value
  else if letter = 'E'.toUInt8 then
    let offset ← storeCell index
    onHost fun host =>
      ((), { host with store := host.store.map fun store => store.writeAll offset value.toBytes })
  else if letter = 'T'.toUInt8 then
    let field ← clockField index
    onHost fun host =>
      ((), { host with clock := host.clock.map fun clock => clock.set field value.toInt32 })
  else Attempt.fail .unknownVariable

/-- The text of a string name with `@`: `@T$` is the time of day. -/
def getSpecialText (letter : UInt8) : Action Bytes := do
  if letter = 'T'.toUInt8 then
    return ((← get).host.clock.map Clock.timeOfDay).getD []
  else Attempt.fail .unknownVariable

/-! ### Variables by name -/

def getScalar (name : Name) : Action Single := do
  if name.isSpecial then getSpecial name.second
  else return (← storedScalar? name).getD Single.zero

def setScalar (name : Name) (value : Single) : Action Unit :=
  if name.isSpecial then setSpecial name.second value else storeScalar name value

def getElement (name : Name) (row : Single) (column : Option Single) : Action Single := do
  if name.isSpecial then getSpecialElement name.second row
  else numberAt (← elementAddress name row column)

def setElement (name : Name) (row : Single) (column : Option Single) (value : Single) :
    Action Unit := do
  if name.isSpecial then setSpecialElement name.second row value
  else setNumberAt (← elementAddress name row column) value

/-- The text of a string, empty when it does not exist. -/
def readString (name : Name) (selector : Selector) : Action Bytes := do
  if name.isSpecial then getSpecialText name.second
  else
    match ← existingSlot name selector.index with
    | some slot => readSlot slot selector
    | none => return []

def writeString (name : Name) (selector : Selector) (source : Bytes) : Action Unit := do
  if name.isSpecial then Attempt.fail .unknownVariable
  else writeSlot (← assignableSlot name selector.index) selector source

/-! ### Assignment -/

def assignNumber (target : Target) (value : Single) : Action Unit :=
  match target with
  | .scalar name => setScalar name value
  | .element name row column => setElement name row column value
  | .text _ _ => Attempt.fail .typeMismatch

def assignText (target : Target) (text : Bytes) : Action Unit :=
  match target with
  | .text name selector => writeString name selector text
  | _ => Attempt.fail .typeMismatch

end Machine

end PocketBasic
