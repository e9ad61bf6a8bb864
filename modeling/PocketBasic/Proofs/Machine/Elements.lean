/-
**What variables read as.** A scalar is the number in its payload, an element of an array the number
at its place, and an element of a string the bytes behind its length. So what a variable reads as
is told by the object that has it, wherever the object is.

* `Machine.placeIn`, `Machine.elementPlace`: the places of subscripts;
* `HeapRecord.textAt`: the text of an element;
* `Target.valueIn`: what a target reads as in an object;
* **`Machine.Keeps.runOn_fetch`**: reading a target gives its value in the object.
-/

import PocketBasic.Proofs.Machine.Objects
import PocketBasic.Proofs.Machine.Slots
import PocketBasic.Proofs.Number.WholeParts

namespace PocketBasic

variable {width : AddressWidth} {α : Type}

/-! ### Places of subscripts -/

namespace Machine

/-- The place of a subscript among `count` elements. -/
def placeIn (config : Config) (subscript : Single) (count : Nat) : Except Failure Nat :=
  let offset := subscript.truncate.subtract (Single.ofNat config.arrayBase)
  if offset.less Single.zero || (Single.ofNat count).atMost offset then
    .error (.reported { kind := .subscriptOutOfRange })
  else .ok offset.toSize

/-- The place of a subscript that may be left out, which is the first one then. -/
def placeOrFirst (config : Config) (count : Nat) : Option Single → Except Failure Nat
  | some subscript => placeIn config subscript count
  | none => .ok 0

/-- The place of an element among the elements of an array. -/
def elementPlace (config : Config) (rows columns : Nat) (row : Single) (column : Option Single) :
    Except Failure Nat := do
  return (← placeIn config row rows) * columns + (← placeOrFirst config columns column)

variable {config : Config} {rows columns count index : Nat} {row : Single} {column : Option Single}

theorem placeIn_lt {subscript : Single} (some : 0 < count)
    (placed : placeIn config subscript count = .ok index) : index < count := by
  rw [placeIn] at placed
  split at placed
  · cases placed
  · rename_i inside
    rw [Bool.or_eq_true, not_or, Bool.not_eq_true] at inside
    cases placed
    exact Single.toSize_lt some (by simpa using inside.2)

theorem placeOrFirst_lt {subscript : Option Single} (some : 0 < count)
    (placed : placeOrFirst config count subscript = .ok index) : index < count := by
  cases subscript with
  | none =>
    cases placed
    exact some
  | some subscript => exact placeIn_lt some placed

/-- The place of an element is told by its row and its column. -/
theorem exists_of_elementPlace (placed : elementPlace config rows columns row column = .ok index) :
    ∃ down along, placeIn config row rows = .ok down ∧
      placeOrFirst config columns column = .ok along ∧ index = down * columns + along := by
  rw [elementPlace] at placed
  rcases downed : placeIn config row rows with failure | down <;> rw [downed] at placed
  · cases placed
  · rcases alonged : placeOrFirst config columns column with failure | along <;>
      rw [alonged] at placed <;> cases placed
    exact ⟨down, along, rfl, rfl, rfl⟩

/-- The place of an element is inside of the elements. -/
theorem elementPlace_bounds (rowsPositive : 0 < rows) (columnsPositive : 0 < columns)
    (placed : elementPlace config rows columns row column = .ok index) :
    index * numberSize + numberSize ≤ rows * columns * numberSize := by
  obtain ⟨down, along, downed, alonged, rfl⟩ := exists_of_elementPlace placed
  exact element_bounds (placeIn_lt rowsPositive downed) (placeOrFirst_lt columnsPositive alonged)

theorem runOn_place (subscript : Single) (count : Nat) (machine : Machine) :
    (place subscript count).runOn machine = (placeIn machine.config subscript count, machine) := by
  rw [place, Attempt.runOn_get_bind, placeIn]
  dsimp only [base]
  split <;> rfl

/-- What follows a subscript that may be left out. -/
theorem runOn_placeOrFirst_bind (subscript : Option Single) (count : Nat) (next : Nat → Action α)
    (machine : Machine) :
    (match subscript with
      | some subscript => place subscript count >>= next
      | none => pure 0 >>= next).runOn machine =
        Attempt.goOn (placeOrFirst machine.config count subscript, machine) next := by
  cases subscript with
  | none => rfl
  | some subscript => rw [Attempt.runOn_bind_eq_goOn, runOn_place, placeOrFirst]

end Machine

/-! ### Text -/

namespace HeapRecord

/-- The text of an element of a string. -/
def textAt (record : HeapRecord width) (capacity place : Nat) : Bytes :=
  let slot := record.piece (place * (capacity + 1)) (capacity + 1)
  slot.tail.take (slot.headD 0).toNat

/-- The number of columns of an array, or of elements of a string, which is at the end of its
payload. -/
def dimension (record : HeapRecord width) : Nat :=
  fromLittleEndian (record.payload.drop (record.payload.length - width.byteCount))

/-- How many bytes of a payload are before the dimension. -/
def room (record : HeapRecord width) : Nat := record.payload.length - width.byteCount

variable {record : HeapRecord width} {rows columns capacity count : Nat}

theorem dimension_of_drop {size address : Nat}
    (ends : record.payload.drop size = width.encode address) (fits : address ≤ width.largest) :
    record.room = size ∧ record.dimension = address := by
  have total := length_of_drop ends
  have before : record.payload.length - width.byteCount = size := by omega
  rw [dimension, before, ends, AddressWidth.fromLittleEndian_encode _ fits]
  exact ⟨before, rfl⟩

theorem IsArray.parts (array : record.IsArray rows columns) :
    record.dimension = columns ∧ record.room / numberSize / columns = rows := by
  obtain ⟨room, dimension⟩ := dimension_of_drop array.columns_at array.columns_le
  rw [room, Nat.mul_div_cancel _ (by decide), Nat.mul_div_cancel _ array.columns_pos]
  exact ⟨dimension, rfl⟩

theorem IsString.parts (string : record.IsString capacity count) :
    record.dimension = count ∧ record.room / count = capacity + 1 := by
  obtain ⟨room, dimension⟩ := dimension_of_drop string.count_at string.count_le
  rw [room, Nat.mul_div_cancel _ string.count_pos]
  exact ⟨dimension, rfl⟩

/-- The room of an element and the place of its length. -/
theorem IsString.slot (string : record.IsString capacity count) {place : Nat}
    (inside : place < count) :
    place * (capacity + 1) + (capacity + 1) ≤ record.payload.length := by
  have bounds : _ ≤ (capacity + 1) * count := place_le inside
  rw [string.length]
  omega

/-- An element of a string is its length and the bytes that are there for it. -/
theorem IsString.exists_slot (string : record.IsString capacity count) {place : Nat}
    (inside : place < count) :
    ∃ length rest, record.piece (place * (capacity + 1)) (capacity + 1) = length :: rest ∧
      rest.length = capacity ∧ length.toNat ≤ capacity ∧
      record.textAt capacity place = rest.take length.toNat := by
  have long := length_piece (string.slot inside)
  rcases cut : record.piece (place * (capacity + 1)) (capacity + 1) with _ | ⟨length, rest⟩
  · rw [cut] at long
    cases long
  · rw [cut] at long
    refine ⟨length, rest, rfl, Nat.succ.inj long, ?_, by rw [textAt, cut]; rfl⟩
    have fits := string.length_le place inside
    have first : record.payload.getD (place * (capacity + 1)) 0 = length := by
      have dropped := congrArg List.head? cut
      rw [piece, List.head?_take, if_neg (Nat.succ_ne_zero _), List.head?_drop] at dropped
      rw [List.getD_eq_getElem?_getD, dropped]
      rfl
    rwa [first] at fits

end HeapRecord

/-! ### Targets -/

/-- What a target is assigned or reads as. -/
inductive Content where
  | number (value : Single)
  | text (bytes : Bytes)
  deriving DecidableEq

namespace Target

/-- The kind of the objects that have a target. -/
def kind : Target → ObjectKind
  | scalar _ => .scalar
  | element _ _ _ => .array
  | text _ _ => .string

def name : Target → Name
  | scalar name | element name _ _ | text name _ => name

/-- What a target reads as in the object that has it. -/
def valueIn (config : Config) (record : HeapRecord width) : Target → Except Failure Content
  | scalar _ => .ok (.number (record.numberAt 0))
  | element _ row column =>
    let columns := record.dimension
    let rows := record.room / numberSize / columns
    (fun place => .number (record.numberAt (place * numberSize))) <$>
      Machine.elementPlace config rows columns row column
  | text _ selector => do
    let count := record.dimension
    let place ← Machine.placeOrFirst config count selector.index
    .text <$> selector.part (record.textAt (record.room / count - 1) place)

end Target

namespace Machine

/-- Reads a target. -/
def fetch (target : Target) : Action Content := do
  match target with
  | .scalar name => return .number (← getScalar name)
  | .element name row column => return .number (← getElement name row column)
  | .text name selector => return .text (← readString name selector)

/-- Assigns to a target. -/
def assign (target : Target) : Content → Action Unit
  | .number value => assignNumber target value
  | .text bytes => assignText target bytes

/-! ### Objects where they are -/

/-- A machine with settings, and with the given well-formed objects above the program. -/
structure Keeps (config : Config) (machine : Machine)
    (records : List (HeapRecord (AddressWidth.forSize config.memorySize))) : Prop where
  config_eq : machine.config = config
  size_eq : machine.memory.size = config.memorySize
  below : machine.memory.top ≤ machine.memory.himem
  held : machine.memory.HoldsObjects records
  wellFormed : ∀ record ∈ records, record.IsWellFormed

/-- Whether the payload of an object is at a place. -/
structure Shows (machine : Machine) (payload : Extent) (record : HeapRecord width) : Prop where
  width_eq : machine.memory.width = width
  length_eq : payload.length = record.payload.length
  stop_lt : payload.start + record.payload.length < Address.modulus
  read : ∀ offset count, offset + count ≤ record.payload.length →
    machine.memory.read? (payload.start + offset) count = some (record.piece offset count)

variable {config : Config} {machine : Machine} {payload : Extent} {record : HeapRecord width}
  {rows columns capacity count : Nat}

theorem runOn_addressSize (machine : Machine) :
    addressSize.runOn machine = (.ok machine.memory.width.byteCount, machine) := rfl

/-- The dimension at the end of a payload. -/
theorem addressAt?_dimension (shows : machine.Shows payload record)
    (long : width.byteCount ≤ record.payload.length) :
    machine.memory.addressAt? (payload.start + payload.length - width.byteCount) =
      some record.dimension := by
  have start : payload.start + payload.length - width.byteCount =
      payload.start + (record.payload.length - width.byteCount) := by
    rw [shows.length_eq]
    omega
  have read := shows.read (record.payload.length - width.byteCount) width.byteCount (by omega)
  have whole : record.piece (record.payload.length - width.byteCount) width.byteCount =
      record.payload.drop (record.payload.length - width.byteCount) :=
    List.take_of_length_le (by rw [List.length_drop]; omega)
  rw [Memory.addressAt?, shows.width_eq, start, read, whole, Option.map_some, HeapRecord.dimension]

theorem runOn_dimension (shows : machine.Shows payload record)
    (long : width.byteCount ≤ record.payload.length) :
    (addressAt (payload.start + payload.length - width.byteCount)).runOn machine =
      (.ok record.dimension, machine) := by
  rw [addressAt, Attempt.runOn_get_bind, addressAt?_dimension shows long,
    Attempt.runOn_orFault_some]

/-! ### Arrays -/

/-- The address of an element of an array that was found. -/
def addressIn (payload : Extent) (row : Single) (column : Option Single) : Action Nat := do
  let width ← addressSize
  let columns ← addressAt (payload.start + payload.length - width)
  if columns = 0 then Attempt.failWith .internalError "ARRAY HEADER"
  else
    let rows := Address.minus payload.length width / numberSize / columns
    let row ← place row rows
    let column ← match column with
      | some column => place column columns
      | none => pure 0
    return Address.wrap (payload.start + (row * columns + column) * numberSize)

theorem elementAddress_eq (name : Name) (row : Single) (column : Option Single) :
    elementAddress name row column =
      arrayPayload name >>= fun payload => addressIn payload row column := rfl

theorem runOn_addressIn (shows : machine.Shows payload record)
    (array : record.IsArray rows columns) (row : Single) (column : Option Single) :
    (addressIn payload row column).runOn machine =
      ((fun place => payload.start + place * numberSize) <$>
        elementPlace machine.config rows columns row column, machine) := by
  have length := array.length
  obtain ⟨dimension, -⟩ := array.parts
  have stop := shows.stop_lt
  rw [addressIn, Attempt.runOn_bind_ok (runOn_addressSize machine), shows.width_eq,
    Attempt.runOn_bind_ok (runOn_dimension shows (by omega)), dimension,
    if_neg (Nat.ne_of_gt array.columns_pos), shows.length_eq, length,
    array_parts array.columns_pos (by omega)]
  dsimp only
  rw [Attempt.runOn_bind_eq_goOn, runOn_place, elementPlace]
  rcases downed : placeIn machine.config row rows with failure | down
  · rfl
  · rw [Attempt.goOn_ok, runOn_placeOrFirst_bind]
    rcases alonged : placeOrFirst machine.config columns column with failure | along
    · rfl
    · have bounds := element_bounds (placeIn_lt array.rows_pos downed)
        (placeOrFirst_lt array.columns_pos alonged)
      rw [Attempt.goOn_ok, Address.wrap_of_lt (by omega)]
      rfl

/-! ### Strings -/

/-- The element of a string whose number of elements is known. -/
theorem runOn_slotOf_eq (counted : machine.memory.addressAt?
      (payload.start + payload.length - machine.memory.width.byteCount) = some count)
    (some : count ≠ 0) (index : Option Single) :
    (slotOf payload index).runOn machine =
      ((fun place =>
          let room := Address.minus payload.length machine.memory.width.byteCount / count
          { address := Address.wrap (payload.start + place * room)
            capacity := Address.minus room 1 }) <$>
        placeOrFirst machine.config count index, machine) := by
  have dimension : (addressAt (payload.start + payload.length -
      machine.memory.width.byteCount)).runOn machine = (.ok count, machine) := by
    rw [addressAt, Attempt.runOn_get_bind, counted, Attempt.runOn_orFault_some]
  rw [slotOf, Attempt.runOn_bind_ok (runOn_addressSize machine), Attempt.runOn_bind_ok dimension,
    if_neg some]
  refine (runOn_placeOrFirst_bind index count (fun place => pure (StringSlot.mk (Address.wrap
    (payload.start + place * (Address.minus payload.length machine.memory.width.byteCount / count)))
    (Address.minus (Address.minus payload.length machine.memory.width.byteCount / count) 1)))
    machine).trans ?_
  rcases placeOrFirst machine.config count index with failure | place <;> rfl

theorem runOn_slotOf (shows : machine.Shows payload record)
    (string : record.IsString capacity count) (index : Option Single) :
    (slotOf payload index).runOn machine =
      ((fun place => { address := payload.start + place * (capacity + 1), capacity }) <$>
        placeOrFirst machine.config count index, machine) := by
  have length := string.length
  have stop := shows.stop_lt
  have dimension := addressAt?_dimension shows (by omega)
  rw [string.parts.1, ← shows.width_eq] at dimension
  rw [runOn_slotOf_eq dimension (Nat.ne_of_gt string.count_pos), shows.width_eq, shows.length_eq,
    length, string_parts string.count_pos (by omega)]
  rcases placed : placeOrFirst machine.config count index with failure | place
  · rfl
  · have bounds := string.slot (placeOrFirst_lt string.count_pos placed)
    dsimp only [Functor.map, Except.map]
    rw [Address.wrap_of_lt (by omega), Address.minus_of_le (by omega) (by omega),
      Nat.add_sub_cancel]

/-- An element of a string is where its place says, and its text is in it. -/
theorem Shows.slot (shows : machine.Shows payload record)
    (string : record.IsString capacity count) {place : Nat} (inside : place < count) :
    ∃ length room, machine.ShowsSlot
        { address := payload.start + place * (capacity + 1), capacity } length room ∧
      record.textAt capacity place = room.take length.toNat := by
  obtain ⟨length, room, slot, -, -, text⟩ := string.exists_slot inside
  exact ⟨length, room, (shows.read _ _ (string.slot inside)).trans (congrArg some slot), text⟩

theorem runOn_textLength (shows : machine.Shows payload record)
    (string : record.IsString capacity count) {place : Nat} (inside : place < count) :
    (slotLength { address := payload.start + place * (capacity + 1), capacity }).runOn machine =
      (.ok (record.textAt capacity place).length, machine) := by
  obtain ⟨length, room, slot, text⟩ := shows.slot string inside
  rw [runOn_slotLength slot, text]

/-- **An element of a string reads as the part of its text.** -/
theorem runOn_readText (shows : machine.Shows payload record)
    (string : record.IsString capacity count) {place : Nat} (inside : place < count)
    (selector : Selector) :
    (readSlot { address := payload.start + place * (capacity + 1), capacity } selector).runOn
      machine = (selector.part (record.textAt capacity place), machine) := by
  obtain ⟨length, room, slot, text⟩ := shows.slot string inside
  rw [runOn_readSlot slot, text]

/-! ### Reading -/

variable {records : List (HeapRecord (AddressWidth.forSize config.memorySize))}
  {kind : ObjectKind} {name : Name}

theorem Keeps.foundIn (keeps : machine.Keeps config records) (kind : ObjectKind) (name : Name) :
    (machine.foundIn kind name).Keeps config records where
  config_eq := keeps.config_eq
  size_eq := (keepsProgram_foundIn keeps.below kind name).size.trans keeps.size_eq
  below := (keepsProgram_foundIn keeps.below kind name).below
  held := holdsObjects_foundIn keeps.held kind name
  wellFormed := keeps.wellFormed

/-- The payload of an object of the list is where the object is found. -/
theorem Keeps.shows [sound : config.IsSound] (keeps : machine.Keeps config records)
    {record : HeapRecord (AddressWidth.forSize config.memorySize)} (among : record ∈ records)
    (is : record.Is kind name) (found : (machine.memory.find kind name).1 = some payload) :
    machine.Shows payload record := by
  obtain ⟨rfl, rfl⟩ := is
  obtain ⟨there, front, back, same, cut, start, long⟩ := keeps.held.exists_cut among
  obtain rfl : there = payload := Option.some.inj (same.symm.trans found)
  refine ⟨congrArg AddressWidth.forSize keeps.size_eq, long, ?_, fun offset count within =>
    keeps.held.read?_piece among found within⟩
  have size := congrArg List.length cut
  have half := sound.memorySize_lt
  rw [Memory.length_contents, keeps.size_eq] at size
  simp only [List.length_append] at size
  omega

theorem Keeps.lookup (keeps : machine.Keeps config records)
    {record : HeapRecord (AddressWidth.forSize config.memorySize)} (among : record ∈ records)
    (is : record.Is kind name) :
    ∃ payload, (lookup kind name).runOn machine = (.ok (some payload), machine.foundIn kind name) ∧
      ((machine.foundIn kind name).memory.find kind name).1 = some payload := by
  obtain ⟨rfl, rfl⟩ := is
  obtain ⟨payload, front, back, found, -⟩ := keeps.held.exists_cut among
  exact ⟨payload, by rw [runOn_lookup, found], (find_foundIn keeps.held _ _ _ _).trans found⟩

theorem Keeps.lookup_absent (keeps : machine.Keeps config records)
    (absent : ∀ record ∈ records, ¬ record.Is kind name) :
    (Machine.lookup kind name).runOn machine = (.ok none, machine.foundIn kind name) := by
  rw [runOn_lookup, keeps.held.find_eq_none_iff.mpr absent]

variable [config.IsSound] {record : HeapRecord (AddressWidth.forSize config.memorySize)}

theorem Keeps.runOn_arrayPayload (keeps : machine.Keeps config records) (among : record ∈ records)
    (is : record.Is .array name) :
    ∃ payload, (arrayPayload name).runOn machine = (.ok payload, machine.foundIn .array name) ∧
      (machine.foundIn .array name).Shows payload record := by
  obtain ⟨payload, looked, found⟩ := keeps.lookup among is
  exact ⟨payload, by rw [arrayPayload, Attempt.runOn_bind_ok looked, Attempt.runOn_pure],
    (keeps.foundIn _ _).shows among is found⟩

theorem Keeps.runOn_getElement (keeps : machine.Keeps config records) (among : record ∈ records)
    (is : record.Is .array name) (ordinary : name.isSpecial = false)
    (array : record.IsArray rows columns) (row : Single) (column : Option Single) :
    (getElement name row column).runOn machine =
      ((fun place => record.numberAt (place * numberSize)) <$>
        elementPlace config rows columns row column, machine.foundIn .array name) := by
  obtain ⟨payload, looked, shows⟩ := keeps.runOn_arrayPayload among is
  have same : (machine.foundIn .array name).config = config := keeps.config_eq
  rw [getElement, ordinary, if_neg Bool.false_ne_true, elementAddress_eq, bind_assoc,
    Attempt.runOn_bind_ok looked, Attempt.runOn_bind_eq_goOn, runOn_addressIn shows array, same]
  rcases placed : elementPlace config rows columns row column with failure | place
  · rfl
  · have bounds := elementPlace_bounds array.rows_pos array.columns_pos placed
    have length := array.length
    have inside : place * numberSize + numberSize ≤ record.payload.length := by omega
    exact runOn_numberAt (shows.read _ _ inside) inside

theorem Keeps.runOn_readString (keeps : machine.Keeps config records) (among : record ∈ records)
    (is : record.Is .string name) (ordinary : name.isSpecial = false)
    (string : record.IsString capacity count) (selector : Selector) :
    (readString name selector).runOn machine = (do
      selector.part (record.textAt capacity (← placeOrFirst config count selector.index)),
      machine.foundIn .string name) := by
  obtain ⟨payload, looked, found⟩ := keeps.lookup among is
  have shows := (keeps.foundIn .string name).shows among is found
  have same : (machine.foundIn .string name).config = config := keeps.config_eq
  rw [readString, ordinary, if_neg Bool.false_ne_true, existingSlot, bind_assoc,
    Attempt.runOn_bind_ok looked]
  dsimp only
  rw [bind_assoc, Attempt.runOn_bind_eq_goOn, runOn_slotOf shows string, same]
  rcases placed : placeOrFirst config count selector.index with failure | place
  · rfl
  · exact runOn_readText shows string (placeOrFirst_lt string.count_pos placed) selector

/-- **Reading a target gives its value in the object that has it.** -/
theorem Keeps.runOn_fetch (keeps : machine.Keeps config records) {target : Target}
    (ordinary : target.name.isSpecial = false) (among : record ∈ records)
    (is : record.Is target.kind target.name) :
    ((fetch target).runOn machine).1 = target.valueIn config record := by
  have wellFormed := keeps.wellFormed record among
  cases target <;> simp only [Target.kind, Target.name] at ordinary is
  case scalar name =>
    have read := runOn_storedScalar? keeps.held among is
    rw [fetch, getScalar, ordinary, if_neg Bool.false_ne_true, bind_assoc,
      Attempt.runOn_bind_ok read]
    rfl
  case element name row column =>
    obtain ⟨rows, columns, array⟩ := wellFormed.array is.1
    obtain ⟨dimension, down⟩ := array.parts
    rw [fetch, Attempt.runOn_bind_eq_goOn,
      keeps.runOn_getElement among is ordinary array row column, Target.valueIn, dimension, down]
    rcases elementPlace config rows columns row column with failure | place <;> rfl
  case text name selector =>
    obtain ⟨capacity, count, string⟩ := wellFormed.string is.1
    obtain ⟨dimension, room⟩ := string.parts
    rw [fetch, Attempt.runOn_bind_eq_goOn, keeps.runOn_readString among is ordinary string selector,
      Target.valueIn, dimension, room, Nat.add_sub_cancel]
    rcases placeOrFirst config count selector.index with failure | place
    · rfl
    · change (Attempt.goOn (selector.part (record.textAt capacity place), _) _).1 =
        Content.text <$> selector.part (record.textAt capacity place)
      rcases selector.part (record.textAt capacity place) with failure | text <;> rfl

end Machine

end PocketBasic
