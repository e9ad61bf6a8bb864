/-
**Subscripts are checked.** A subscript is one of a dimension if its whole part is the base or one
of the numbers that follow, as many as the dimension has; what has no whole part passes for the
first one. An access whose subscripts are all of this kind reads or writes the bytes of one element,
and every other one is refused before it reads or writes any.

* `Single.isNaN_subtract_truncate`: what becomes of a NaN;
* `Machine.placeIn_eq`, `Machine.elementPlace_eq`: places of subscripts, as long as the base and the
  dimensions are numbers that are exact;
* `Machine.Refuses`, `Machine.SameBeside`: what an access leaves alone;
* `Machine.array_access`, `Machine.string_access`: elements of arrays and of strings;
* **`Machine.subscripts_are_checked_exactly`**: both, in a program that does not poke.
-/

import PocketBasic.Proofs.Machine.Variables

namespace PocketBasic

/-! ### Distances from the base -/

namespace Single

theorem isNaN_quiet {x : Single} (nan : x.isNaN = true) : x.quiet.isNaN = true := by
  have reached : infinityMagnitude < x.magnitude := of_decide_eq_true nan
  have bits : (x.bits ||| 0x00400000).toNat = x.bits.toNat ||| 0x00400000 := UInt32.toNat_or _ _
  have more : x.magnitude ≤ x.quiet.magnitude := by
    rw [magnitude, magnitude, quiet, bits, show signUnit = 2 ^ 31 from rfl, Nat.or_mod_two_pow]
    exact Nat.left_le_or
  exact decide_eq_true (Nat.lt_of_lt_of_le reached more)

/-- A NaN has no distance from a base. -/
theorem isNaN_subtract_truncate {x : Single} (nan : x.isNaN = true) (base : Nat) :
    (x.truncate.subtract (ofNat base)).isNaN = true := by
  have whole : x.truncate.isNaN = true := by
    rw [truncate, if_pos nan]
    exact isNaN_quiet nan
  rw [subtract, whole, Bool.true_or, if_pos rfl, firstNaN, if_pos whole]
  exact isNaN_quiet whole

/-- Whole numbers that are exact are in their order. -/
theorem magnitude_ofNat_lt {lower upper : Nat} (less : lower < upper) (few : upper ≤ exactLimit) :
    (ofNat lower).magnitude < (ofNat upper).magnitude := by
  have low := (ofNat_exact (Nat.le_trans (Nat.le_of_lt less) few)).2
  have high := (ofNat_exact few).2
  rw [absoluteUnits] at low high
  refine unitsOf_strictMono.lt_iff_lt.mp ?_
  rw [low, high]
  exact Nat.mul_lt_mul_of_pos_right less (by decide)

/-- **A whole part among the numbers from a base on is at its distance from there**, and is neither
below nor above. -/
theorem distance_of_wholePart {x : Single} {base count distance : Nat}
    (finite : x.magnitude < infinityMagnitude) (small : base ≤ exactLimit)
    (few : count ≤ exactLimit) (whole : x.wholePart = base + distance) (inside : distance < count) :
    (x.truncate.subtract (ofNat base)).less zero = false ∧
      (ofNat count).atMost (x.truncate.subtract (ofNat base)) = false ∧
      (x.truncate.subtract (ofNat base)).toSize = distance := by
  have order := magnitude_ofNat_lt inside few
  have least : zero.isNaN = false ∧ zero.rank = 0 := by decide
  rw [subtract_truncate finite small]
  rcases Nat.eq_zero_or_pos distance with rfl | positive
  · -- The distance is a zero of either sign.
    rw [if_pos (by omega)]
    have none (negative : Bool) : (ofMagnitude negative 0).toSize = 0 ∧
        (ofMagnitude negative 0).isNaN = false ∧ (ofMagnitude negative 0).rank = 0 := by
      cases negative <;> decide
    obtain ⟨size, number, rank⟩ := none (x.truncate.isNegative && (ofNat base).negate.isNegative)
    refine ⟨?_, ?_, size⟩
    · rw [less, number, rank, least.1, least.2]
      rfl
    · rw [atMost, number, rank, isNaN_ofNat, rank_ofNat]
      simp only [Bool.not_false, Bool.and_self, Bool.true_and, decide_eq_false_iff_not]
      omega
  · have same : (x.wholePart - base).natAbs = distance := by omega
    rw [if_neg (by omega), decide_eq_false (by omega), same]
    change (ofNat distance).less zero = false ∧ (ofNat count).atMost (ofNat distance) = false ∧
      (ofNat distance).toSize = distance
    refine ⟨?_, ?_, toSize_ofNat (by omega)⟩
    · rw [less, isNaN_ofNat, rank_ofNat, least.1, least.2]
      simp only [Bool.not_false, Bool.and_self, Bool.true_and, decide_eq_false_iff_not]
      omega
    · rw [atMost, isNaN_ofNat, isNaN_ofNat, rank_ofNat, rank_ofNat]
      simp only [Bool.not_false, Bool.and_self, Bool.true_and, decide_eq_false_iff_not]
      omega

end Single

/-! ### Subscripts -/

namespace Config

/-- Whether a subscript is one of a dimension: its whole part is, or it is no number. -/
def Admits (config : Config) (subscript : Single) (count : Nat) : Prop :=
  subscript.isNaN = true ∨ subscript.isFinite = true ∧
    (config.arrayBase : Int) ≤ subscript.wholePart ∧
    subscript.wholePart < config.arrayBase + count

instance (config : Config) (subscript : Single) (count : Nat) :
    Decidable (config.Admits subscript count) := inferInstanceAs (Decidable (_ ∨ _ ∧ _ ∧ _))

/-- How far a subscript of a dimension is from the first one. -/
def offset (config : Config) (subscript : Single) : Nat :=
  if subscript.isNaN then 0 else (subscript.wholePart - config.arrayBase).toNat

/-- Whether the subscripts of an element are those of its dimensions. One that is left out always
is. -/
def AdmitsBoth (config : Config) (rows columns : Nat) (row : Single) (column : Option Single) :
    Prop :=
  config.Admits row rows ∧ ∀ subscript ∈ column, config.Admits subscript columns

/-- How many elements are in front of one, row by row. -/
def elementOffset (config : Config) (columns : Nat) (row : Single) (column : Option Single) : Nat :=
  config.offset row * columns + column.elim 0 config.offset

end Config

namespace Machine

variable {config : Config} {rows columns count : Nat} {row : Single} {column : Option Single}

/-- A number that is placed is one of its dimension. -/
theorem admits_of_placeIn (base : config.arrayBase ≤ Single.exactLimit) (some : 0 < count)
    (few : count ≤ Single.exactLimit) {subscript : Single} (number : subscript.isNaN = false)
    {place : Nat} (placed : placeIn config subscript count = .ok place) :
    config.Admits subscript count := by
  have inside := placeIn_lt some placed
  rw [placeIn] at placed
  split at placed
  · cases placed
  rename_i passed
  rw [Bool.or_eq_true, not_or, Bool.not_eq_true, Bool.not_eq_true] at passed
  cases placed
  have whole := Single.wholePart_of_inside number base few passed.1 passed.2
  have notInfinite : ¬ subscript.isInfinite = true := by
    intro infinite
    rcases Single.outside_of_infinite infinite base count with below | above
    · exact absurd (passed.1.symm.trans below) Bool.false_ne_true
    · exact absurd (passed.2.symm.trans above) Bool.false_ne_true
  have finite : subscript.isFinite = true := by
    have atMost : ¬ Single.infinityMagnitude < subscript.magnitude := of_decide_eq_false number
    have apart : subscript.magnitude ≠ Single.infinityMagnitude := fun reached =>
      notInfinite (decide_eq_true reached)
    exact decide_eq_true (by omega)
  exact .inr ⟨finite, by omega, by omega⟩

/-- **A subscript is placed just if it is one of its dimension.** -/
theorem placeIn_eq (base : config.arrayBase ≤ Single.exactLimit) (some : 0 < count)
    (few : count ≤ Single.exactLimit) (subscript : Single) :
    placeIn config subscript count = if config.Admits subscript count then
      .ok (config.offset subscript) else .error (.reported { kind := .subscriptOutOfRange }) := by
  cases number : subscript.isNaN with
  | true =>
    have nan := Single.isNaN_subtract_truncate number config.arrayBase
    rw [if_pos (.inl number), placeIn, Config.offset, if_pos number]
    rw [Single.less, Single.atMost, nan, Single.toSize, Single.clampToNat, nan]
    simp
  | false =>
    by_cases admitted : config.Admits subscript count
    · obtain ⟨finite, least, most⟩ := admitted.resolve_left (by rw [number]; decide)
      obtain ⟨distance, whole⟩ := Int.le.dest least
      obtain ⟨notBelow, notAbove, size⟩ := Single.distance_of_wholePart (of_decide_eq_true finite)
        base few whole.symm (by omega)
      rw [if_pos admitted, placeIn, Config.offset, number, if_neg Bool.false_ne_true]
      rw [notBelow, notAbove, size, ← whole]
      simp
    · rw [if_neg admitted]
      rcases placed : placeIn config subscript count with failure | place
      · rw [placeIn] at placed
        split at placed <;> cases placed
        rfl
      · exact absurd (admits_of_placeIn base some few number placed) admitted

theorem placeOrFirst_eq (base : config.arrayBase ≤ Single.exactLimit) (some : 0 < count)
    (few : count ≤ Single.exactLimit) (subscript : Option Single)
    [Decidable (∀ given ∈ subscript, config.Admits given count)] :
    placeOrFirst config count subscript =
      if ∀ given ∈ subscript, config.Admits given count then
        .ok (subscript.elim 0 config.offset)
      else .error (.reported { kind := .subscriptOutOfRange }) := by
  cases subscript with
  | none => simp [placeOrFirst]
  | some subscript =>
    rw [placeOrFirst, placeIn_eq base some few]
    simp

/-- **An element is placed just if its subscripts are those of its dimensions.** -/
theorem elementPlace_eq (base : config.arrayBase ≤ Single.exactLimit) (rowsPositive : 0 < rows)
    (columnsPositive : 0 < columns) (rowsFew : rows ≤ Single.exactLimit)
    (columnsFew : columns ≤ Single.exactLimit) (row : Single) (column : Option Single) :
    (config.AdmitsBoth rows columns row column → elementPlace config rows columns row column =
      .ok (config.elementOffset columns row column)) ∧
    (¬ config.AdmitsBoth rows columns row column → elementPlace config rows columns row column =
      .error (.reported { kind := .subscriptOutOfRange })) := by
  classical
  rw [elementPlace, placeIn_eq base rowsPositive rowsFew,
    placeOrFirst_eq base columnsPositive columnsFew, Config.AdmitsBoth]
  refine ⟨fun admitted => ?_, fun refused => ?_⟩
  · rw [if_pos admitted.1, if_pos admitted.2]
    rfl
  · by_cases admitted : config.Admits row rows
    · rw [if_pos admitted, if_neg fun both => refused ⟨admitted, both⟩]
      rfl
    · rw [if_neg admitted]
      rfl

/-! ### What an access leaves alone -/

/-- Whether a step reports a subscript and changes no byte of memory. -/
def Refuses {α : Type} (machine : Machine) (step : Action α) : Prop :=
  ∃ after, step.runOn machine = (.error (.reported { kind := .subscriptOutOfRange }), after) ∧
    after.memory.bytes = machine.memory.bytes

/-- Whether two machines have the same bytes in memory but for `size` of them. -/
def SameBeside (before after : Machine) (address size : Nat) : Prop :=
  ∀ other, other < address ∨ address + size ≤ other →
    after.memory.peek? other = before.memory.peek? other

variable {machine : Machine} {name : Name} {payload : Extent}

/-- A piece that was replaced by one of its length. -/
theorem sameBeside_holding {before gone data after : Bytes}
    (cut : machine.memory.contents = before ++ gone ++ after) (same : gone.length = data.length) :
    machine.SameBeside { machine with memory := machine.memory.holding (before ++ data ++ after) }
      before.length data.length := by
  intro other beside
  have known (memory : Memory) : memory.peek? other = memory.contents[other]? := by
    rw [Memory.peek?, Memory.contents, Array.getElem?_toList]
  rw [known, known, Memory.contents_holding, cut, List.append_assoc, List.append_assoc]
  rcases beside with front | back
  · rw [List.getElem?_append_left front, List.getElem?_append_left front]
  · rw [List.getElem?_append_right (by omega), List.getElem?_append_right (by omega),
      List.getElem?_append_right (by omega), List.getElem?_append_right (by omega), same]

/-! ### Objects that were found -/

section Found

variable {records : List (HeapRecord (AddressWidth.forSize config.memorySize))} {kind : ObjectKind}

theorem bytes_foundIn (kind : ObjectKind) (name : Name) (machine : Machine) :
    (machine.foundIn kind name).memory.bytes = machine.memory.bytes := by
  obtain ⟨recent, same⟩ := Memory.HoldsObjects.find_snd machine.memory kind name
  rw [foundIn, same]

theorem read?_foundIn (kind : ObjectKind) (name : Name) (machine : Machine) (start count : Nat) :
    (machine.foundIn kind name).memory.read? start count = machine.memory.read? start count := by
  obtain ⟨recent, same⟩ := Memory.HoldsObjects.find_snd machine.memory kind name
  rw [foundIn, same]
  rfl

/-- Looking up an object shows its payload. -/
theorem Keeps.exists_shown [config.IsSound] (keeps : machine.Keeps config records)
    (scanned : machine.memory.scan? kind name = some payload) :
    ∃ record ∈ records, record.Is kind name ∧
      (Machine.lookup kind name).runOn machine =
        (.ok (some payload), machine.foundIn kind name) ∧
      (machine.foundIn kind name).Shows payload record := by
  obtain ⟨record, among, is, found, -⟩ := keeps.exists_found scanned
  exact ⟨record, among, is, by rw [runOn_lookup, found],
    (keeps.foundIn kind name).shows among is ((find_foundIn keeps.held _ _ _ _).trans found)⟩

end Found

/-! ### Arrays -/

/-- Whether an array is there: its elements row by row, and the number of columns. -/
structure HasArray (machine : Machine) (name : Name) (payload : Extent) (rows columns : Nat) :
    Prop where
  found : machine.memory.scan? .array name = some payload
  rows_pos : 0 < rows
  columns_pos : 0 < columns
  length_eq : payload.length = rows * columns * numberSize + machine.memory.width.byteCount
  columns_at : machine.memory.addressAt? (payload.start + rows * columns * numberSize) =
    some columns

section Arrays

variable {records : List (HeapRecord (AddressWidth.forSize config.memorySize))}
  {record : HeapRecord (AddressWidth.forSize config.memorySize)}

theorem runOn_elementAddress
    (looked : (lookup .array name).runOn machine =
      (.ok (some payload), machine.foundIn .array name))
    (shows : (machine.foundIn .array name).Shows payload record)
    (array : record.IsArray rows columns) (row : Single) (column : Option Single) :
    (elementAddress name row column).runOn machine =
      ((fun place => payload.start + place * numberSize) <$>
        elementPlace machine.config rows columns row column, machine.foundIn .array name) := by
  have found : (arrayPayload name).runOn machine = (.ok payload, machine.foundIn .array name) := by
    rw [arrayPayload, Attempt.runOn_bind_ok looked, Attempt.runOn_pure]
  rw [elementAddress_eq, Attempt.runOn_bind_ok found, runOn_addressIn shows array]
  rfl

/-- An array that was found has rows and columns. -/
theorem hasArray_of_shows (scanned : machine.memory.scan? .array name = some payload)
    (shows : (machine.foundIn .array name).Shows payload record)
    (array : record.IsArray rows columns) : machine.HasArray name payload rows columns := by
  have sized : (machine.foundIn .array name).memory.width = machine.memory.width :=
    congrArg (AddressWidth.forSize ∘ Array.size) (bytes_foundIn .array name machine)
  have width := sized.symm.trans shows.width_eq
  have length := shows.length_eq.trans array.length
  refine ⟨scanned, array.rows_pos, array.columns_pos, by rw [width]; exact length, ?_⟩
  have dimension := addressAt?_dimension shows (array.length ▸ Nat.le_add_left _ _)
  rw [array.parts.1, length, ← Nat.add_assoc, Nat.add_sub_cancel, Memory.addressAt?, sized,
    read?_foundIn] at dimension
  exact dimension

variable [config.IsSound] (keeps : machine.Keeps config records) (ordinary : name.isSpecial = false)
  (among : record ∈ records) (is : record.Is .array name)
  (looked : (lookup .array name).runOn machine = (.ok (some payload), machine.foundIn .array name))
  (shows : (machine.foundIn .array name).Shows payload record)
  (array : record.IsArray rows columns)
include keeps ordinary among is looked shows array

/-- **An element of an array that was placed is the number at its address**: reading it changes
nothing, and writing it changes its bytes. -/
theorem accesses_element {place : Nat}
    (placed : elementPlace config rows columns row column = .ok place) :
    (∃ value after, (getElement name row column).runOn machine = (.ok value, after) ∧
      after.memory.bytes = machine.memory.bytes ∧
      machine.memory.numberAt? (payload.start + place * numberSize) = some value) ∧
    ∀ value, ∃ after, (setElement name row column value).runOn machine = (.ok (), after) ∧
      after.memory.numberAt? (payload.start + place * numberSize) = some value ∧
      machine.SameBeside after (payload.start + place * numberSize) numberSize := by
  have bounds := elementPlace_bounds array.rows_pos array.columns_pos placed
  have length := array.length
  have inside : place * numberSize + numberSize ≤ record.payload.length := by omega
  have read := shows.read _ _ inside
  refine ⟨⟨record.numberAt (place * numberSize), machine.foundIn .array name, ?_,
    bytes_foundIn .array name machine, ?_⟩, fun value => ?_⟩
  · rw [keeps.runOn_getElement among is ordinary array row column, placed]
    rfl
  · rw [read?_foundIn] at read
    rw [Memory.numberAt?_eq read]
    exact (HeapRecord.toBytes_numberAt inside).1
  · have found := runOn_elementAddress looked shows array row column
    rw [keeps.config_eq, placed] at found
    obtain ⟨before, after, cut, start, four⟩ := Memory.exists_cut_of_read? read
    have wrote := Memory.runOn_write cut (show _ = value.toBytes.length from four)
    have back := @Memory.read?_eq ((machine.foundIn .array name).memory.holding
      (before ++ value.toBytes ++ after)) before value.toBytes after (Memory.contents_holding _ _)
    have beside := @sameBeside_holding (machine.foundIn .array name) _ _ value.toBytes _ cut four
    rw [start, Single.length_toBytes] at back beside
    rw [start] at wrote
    refine ⟨_, ?_, ?_, fun other apart => (beside other apart).trans ?_⟩
    · rw [setElement, ordinary, if_neg Bool.false_ne_true]
      exact (Attempt.runOn_bind_ok found _).trans (runOn_onMemory_of wrote)
    · rw [Memory.numberAt?_eq back, numberOf?_toBytes]
    · rw [Memory.peek?, Memory.peek?, bytes_foundIn]

/-- An element of an array that has no place is refused. -/
theorem refuses_element
    (refused : elementPlace config rows columns row column =
      .error (.reported { kind := .subscriptOutOfRange })) :
    machine.Refuses (getElement name row column) ∧
      ∀ value, machine.Refuses (setElement name row column value) := by
  refine ⟨⟨machine.foundIn .array name, ?_, bytes_foundIn .array name machine⟩,
    fun value => ⟨machine.foundIn .array name, ?_, bytes_foundIn .array name machine⟩⟩
  · rw [keeps.runOn_getElement among is ordinary array row column, refused]
    rfl
  · have found := runOn_elementAddress looked shows array row column
    rw [keeps.config_eq, refused] at found
    rw [setElement, ordinary, if_neg Bool.false_ne_true]
    exact Attempt.runOn_bind_error found _

end Arrays

/-! ### Strings -/

/-- Whether a string is there: its elements, each a length and the room for a text, and the number
of elements. -/
structure HasString (machine : Machine) (name : Name) (payload : Extent) (capacity count : Nat) :
    Prop where
  found : machine.memory.scan? .string name = some payload
  count_pos : 0 < count
  length_eq : payload.length = (capacity + 1) * count + machine.memory.width.byteCount
  count_at : machine.memory.addressAt? (payload.start + (capacity + 1) * count) = some count

section Strings

variable {records : List (HeapRecord (AddressWidth.forSize config.memorySize))}
  {record : HeapRecord (AddressWidth.forSize config.memorySize)} {capacity : Nat} {index : Single}

/-- A string that was found has elements. -/
theorem hasString_of_shows (scanned : machine.memory.scan? .string name = some payload)
    (shows : (machine.foundIn .string name).Shows payload record)
    (string : record.IsString capacity count) : machine.HasString name payload capacity count := by
  have sized : (machine.foundIn .string name).memory.width = machine.memory.width :=
    congrArg (AddressWidth.forSize ∘ Array.size) (bytes_foundIn .string name machine)
  have width := sized.symm.trans shows.width_eq
  have length := shows.length_eq.trans string.length
  refine ⟨scanned, string.count_pos, by rw [width]; exact length, ?_⟩
  have dimension := addressAt?_dimension shows (string.length ▸ Nat.le_add_left _ _)
  rw [string.parts.1, length, ← Nat.add_assoc, Nat.add_sub_cancel, Memory.addressAt?, sized,
    read?_foundIn] at dimension
  exact dimension

variable (same : machine.config = config) (ordinary : name.isSpecial = false)
  (looked : (lookup .string name).runOn machine =
    (.ok (some payload), machine.foundIn .string name))
  (shows : (machine.foundIn .string name).Shows payload record)
  (string : record.IsString capacity count)
include same ordinary looked shows string

/-- **An element of a string that was placed is the text at its address**: reading it changes
nothing, and writing it changes its bytes, if there is room for the text. -/
theorem accesses_text {place : Nat} (placed : placeIn config index count = .ok place) :
    (∃ length room after, machine.memory.read? (payload.start + place * (capacity + 1))
        (capacity + 1) = some (length :: room) ∧
      (readString name { index }).runOn machine = (.ok (room.take length.toNat), after) ∧
      after.memory.bytes = machine.memory.bytes) ∧
    ∀ source : Bytes, source.length ≤ capacity →
      ∃ after, (writeString name { index } source).runOn machine = (.ok (), after) ∧
        after.memory.read? (payload.start + place * (capacity + 1)) (source.length + 1) =
          some (source.length.toUInt8 :: source) ∧
        machine.SameBeside after (payload.start + place * (capacity + 1)) (capacity + 1) := by
  have inside := placeIn_lt string.count_pos placed
  have slotted := runOn_slotOf shows string (some index)
  have config' : (machine.foundIn .string name).config = config := same
  rw [config', placeOrFirst, placed] at slotted
  obtain ⟨length, room, slot, -⟩ := shows.slot string inside
  have read : machine.memory.read? (payload.start + place * (capacity + 1)) (capacity + 1) =
      some (length :: room) := (read?_foundIn _ _ _ _ _).symm.trans slot
  refine ⟨⟨length, room, machine.foundIn .string name, read, ?_,
    bytes_foundIn .string name machine⟩, fun source fits => ?_⟩
  · have existing : (existingSlot name (some index)).runOn machine = (.ok (some
        ⟨payload.start + place * (capacity + 1), capacity⟩), machine.foundIn .string name) := by
      rw [existingSlot, Attempt.runOn_bind_ok looked]
      exact Attempt.runOn_bind_ok slotted _
    rw [readString, ordinary, if_neg Bool.false_ne_true, Attempt.runOn_bind_ok existing]
    exact (runOn_readSlot slot _).trans (by rw [Selector.part_whole ⟨rfl, rfl⟩])
  · have assignable : (assignableSlot name (some index)).runOn machine = (.ok
        ⟨payload.start + place * (capacity + 1), capacity⟩, machine.foundIn .string name) := by
      rw [assignableSlot, Attempt.runOn_bind_ok looked]
      exact slotted
    obtain ⟨before, after, cut, start, -⟩ := Memory.exists_cut_of_read? slot
    have wrote := @runOn_writeSlot _ _ _ _ source { index := some index }
      ⟨0, source.length, source.length⟩ _ _ cut start slot.length_room (Attempt.runOn_pure _ _)
      (Nat.le_refl _) (by rw [Nat.zero_add]; exact fits)
    have long : (length :: room).length = (source.length.toUInt8 ::
        Splice.filled ⟨0, source.length, source.length⟩ room source).length := by
      rw [List.length_cons, List.length_cons, Splice.length_filled (Nat.le_refl _)
        (by rw [Nat.zero_add, slot.length_room]; exact fits)]
    have beside := sameBeside_holding cut long
    rw [start, ← long, List.length_cons, slot.length_room] at beside
    refine ⟨_, ?_, ?_, fun other apart => (beside other apart).trans ?_⟩
    · rw [writeString, ordinary, if_neg Bool.false_ne_true]
      exact (Attempt.runOn_bind_ok assignable _).trans wrote
    · have cut' : before ++ (source.length.toUInt8 ::
          Splice.filled ⟨0, source.length, source.length⟩ room source) ++ after =
            before ++ (source.length.toUInt8 :: source) ++ (room.drop source.length ++ after) := by
        simp [Splice.filled]
      have there := Memory.read?_eq
        ((Memory.contents_holding (machine.foundIn .string name).memory _).trans cut')
      rwa [start, List.length_cons] at there
    · rw [Memory.peek?, Memory.peek?, bytes_foundIn]

/-- An element of a string that has no place is refused, in whole and in parts. -/
theorem refuses_text (refused : placeIn config index count =
      .error (.reported { kind := .subscriptOutOfRange })) {selector : Selector}
    (indexed : selector.index = some index) :
    machine.Refuses (readString name selector) ∧
      ∀ source, machine.Refuses (writeString name selector source) := by
  have slotted := runOn_slotOf shows string (some index)
  have config' : (machine.foundIn .string name).config = config := same
  rw [config', placeOrFirst, refused] at slotted
  refine ⟨⟨machine.foundIn .string name, ?_, bytes_foundIn .string name machine⟩,
    fun source => ⟨machine.foundIn .string name, ?_, bytes_foundIn .string name machine⟩⟩
  · have existing : (existingSlot name (some index)).runOn machine = (.error (.reported
        { kind := .subscriptOutOfRange }), machine.foundIn .string name) := by
      rw [existingSlot, Attempt.runOn_bind_ok looked]
      exact Attempt.runOn_bind_error slotted _
    rw [readString, ordinary, if_neg Bool.false_ne_true, indexed]
    exact Attempt.runOn_bind_error existing _
  · have assignable : (assignableSlot name (some index)).runOn machine = (.error (.reported
        { kind := .subscriptOutOfRange }), machine.foundIn .string name) := by
      rw [assignableSlot, Attempt.runOn_bind_ok looked]
      exact slotted
    rw [writeString, ordinary, if_neg Bool.false_ne_true, indexed]
    exact Attempt.runOn_bind_error assignable _

end Strings

/-! ### Programs -/

/-- **Subscripts are checked.** Wherever a host brings the machine, also in the middle of a
statement, as long as the base and the dimensions are numbers that are exact: an access to an
element of an array or of a string succeeds just if each subscript is one of its dimension, and then
it is one to the bytes of that element; otherwise it reports the subscript and changes nothing. -/
theorem subscripts_are_checked_exactly [config.IsSound]
    (base : config.arrayBase ≤ Single.exactLimit)
    {host : Host} (underway : Underway config host machine) (ordinary : name.isSpecial = false) :
    (∀ payload, machine.memory.scan? .array name = some payload →
      ∃ rows columns, machine.HasArray name payload rows columns ∧
        (rows ≤ Single.exactLimit → columns ≤ Single.exactLimit → ∀ row column,
          let address := payload.start + config.elementOffset columns row column * numberSize
          (config.AdmitsBoth rows columns row column →
            (∃ value after, (getElement name row column).runOn machine = (.ok value, after) ∧
              after.memory.bytes = machine.memory.bytes ∧
              machine.memory.numberAt? address = some value) ∧
            ∀ value, ∃ after, (setElement name row column value).runOn machine = (.ok (), after) ∧
              after.memory.numberAt? address = some value ∧
              machine.SameBeside after address numberSize) ∧
          (¬ config.AdmitsBoth rows columns row column →
            machine.Refuses (getElement name row column) ∧
              ∀ value, machine.Refuses (setElement name row column value)))) ∧
    ∀ payload, machine.memory.scan? .string name = some payload →
      ∃ capacity count, machine.HasString name payload capacity count ∧
        (count ≤ Single.exactLimit → ∀ index,
          let address := payload.start + config.offset index * (capacity + 1)
          (config.Admits index count →
            (∃ length room after,
              machine.memory.read? address (capacity + 1) = some (length :: room) ∧
              (readString name { index }).runOn machine = (.ok (room.take length.toNat), after) ∧
              after.memory.bytes = machine.memory.bytes) ∧
            ∀ source : Bytes, source.length ≤ capacity →
              ∃ after, (writeString name { index } source).runOn machine = (.ok (), after) ∧
                after.memory.read? address (source.length + 1) =
                  some (source.length.toUInt8 :: source) ∧
                machine.SameBeside after address (capacity + 1)) ∧
          (¬ config.Admits index count → ∀ selector : Selector, selector.index = some index →
            machine.Refuses (readString name selector) ∧
              ∀ source, machine.Refuses (writeString name selector source))) := by
  obtain ⟨records, keeps⟩ := underway.isIntact.exists_keeps
  refine ⟨fun payload scanned => ?_, fun payload scanned => ?_⟩
  · obtain ⟨record, among, is, looked, shows⟩ := keeps.exists_shown scanned
    obtain ⟨rows, columns, array⟩ := (keeps.wellFormed record among).array is.1
    refine ⟨rows, columns, hasArray_of_shows scanned shows array,
      fun rowsFew columnsFew row column => ?_⟩
    obtain ⟨placed, refused⟩ := elementPlace_eq base array.rows_pos array.columns_pos rowsFew
      columnsFew row column
    exact ⟨fun admitted => accesses_element keeps ordinary among is looked shows array
      (placed admitted), fun missed => refuses_element keeps ordinary among is looked shows array
      (refused missed)⟩
  · obtain ⟨record, among, is, looked, shows⟩ := keeps.exists_shown scanned
    obtain ⟨capacity, count, string⟩ := (keeps.wellFormed record among).string is.1
    refine ⟨capacity, count, hasString_of_shows scanned shows string, fun few index => ?_⟩
    have placed := placeIn_eq base string.count_pos few index
    refine ⟨fun admitted => ?_, fun missed selector indexed => ?_⟩
    · rw [if_pos admitted] at placed
      exact accesses_text keeps.config_eq ordinary looked shows string placed
    · rw [if_neg missed] at placed
      exact refuses_text keeps.config_eq ordinary looked shows string placed indexed

/-- An element of an array that a typed line has made, a subscript behind it, and one that is no
number, which passes for the first. -/
theorem subscripts_are_checked_exactly_three :
    let config : Config := { memorySize := 48, arraySize := 3 }
    let machine := ((execute 2).runOn ((enter (ascii "A(2)=3")).runOn (start config {})).2).2
    (∃ value after, (getElement ⟨65, 0⟩ (Single.ofNat 2) none).runOn machine = (.ok value, after) ∧
      after.memory.bytes = machine.memory.bytes ∧ machine.memory.numberAt? 38 = some value) ∧
    machine.Refuses (getElement ⟨65, 0⟩ (Single.ofNat 4) none) ∧
    ∃ value after, (getElement ⟨65, 0⟩ Single.nan none).runOn machine = (.ok value, after) ∧
      after.memory.bytes = machine.memory.bytes ∧ machine.memory.numberAt? 34 = some value := by
  intro config machine
  have sound : config.IsSound := ⟨by decide, by decide⟩
  have seen : ((executeWithout [.poke] 2).runOn
        ((enter (ascii "A(2)=3")).runOn (start config {})).2).1.toOption.isSome = true ∧
      machine.memory.scan? .array ⟨65, 0⟩ = some ⟨34, 14⟩ ∧ machine.memory.size = 48 ∧
      machine.memory.addressAt? 46 = some 1 := by
    decide +kernel
  obtain ⟨goesOn, found, size, dimension⟩ := seen
  have underway : Underway config {} machine :=
    .reached (.execute_of_isSome (.enter _ .refl) goesOn)
  have ordinary : (⟨65, 0⟩ : Name).isSpecial = false := rfl
  obtain ⟨rows, columns, array, accesses⟩ :=
    (subscripts_are_checked_exactly (by decide) underway ordinary).1 _ found
  have width : machine.memory.width.byteCount = 2 := by
    rw [Memory.width, size]
    rfl
  have cells : rows * columns * numberSize = 12 := by
    have length := array.length_eq
    rw [width] at length
    exact (Nat.succ.inj (Nat.succ.inj length)).symm
  obtain rfl : columns = 1 := by
    have stored := array.columns_at
    rw [cells, dimension] at stored
    exact (Option.some.inj stored).symm
  obtain rfl : rows = 3 := by
    unfold numberSize at cells
    omega
  have three := accesses (by decide) (by decide)
  have alone {row : Single} (admitted : config.Admits row 3) : config.AdmitsBoth 3 1 row none :=
    ⟨admitted, fun _ given => by cases given⟩
  refine ⟨((three (Single.ofNat 2) none).1 (alone (by decide +kernel))).1,
    ((three (Single.ofNat 4) none).2 fun both => ?_).1,
    ((three Single.nan none).1 (alone (by decide +kernel))).1⟩
  have outside : ¬ config.Admits (Single.ofNat 4) 3 := by decide +kernel
  exact outside both.1

/-- A subscript that is no number is in no range, and yet the first element is read. -/
theorem no_number_is_the_first_subscript :
    let typing (machine : Machine) (text : String) :=
      ((execute 2).runOn ((enter (ascii text)).runOn machine).2).2
    let host : Host := { streams := [(Channel.console, {})] }
    let machine := typing (start { memorySize := 48, arraySize := 3 } host) "A(1)=7"
    (typing machine "PRINT A(VAL(\"NAN\"))").host.takeOutput.1 =
      [(Channel.console, ascii "7\n")] := by
  decide +kernel

end Machine

end PocketBasic
