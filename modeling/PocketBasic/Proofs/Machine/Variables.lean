/-
**Variables are a map.** An assignment changes one object, which it makes if it is not there, and in
this object only what belongs to the target. So the target reads as what was assigned, and whatever
else there was reads as before.

* `Target.cell`: what a target denotes, by kind, name and distance of its subscripts from the base;
* `Changes`: what an assignment does to the object of its target;
* `Machine.exists_changed`: an assignment that succeeds does just that to the list of objects;
* **`Machine.variables_are_a_map`**: reading after an assignment.
-/

import PocketBasic.Proofs.Machine.Elements
import PocketBasic.Proofs.Machine.Undisturbed

namespace PocketBasic

variable {width : AddressWidth} {α : Type}

/-! ### Cells -/

/-- What a target denotes: two targets of one cell are the same variable. -/
structure Cell where
  kind : ObjectKind
  name : Name
  row : Int := 0
  column : Int := 0
  deriving DecidableEq

namespace Target

/-- How far the whole part of a subscript is from the base; one that is left out is the base. -/
def distance (config : Config) (subscript : Option Single) : Int :=
  subscript.elim 0 fun subscript => subscript.wholePart - config.arrayBase

def cell (config : Config) : Target → Cell
  | scalar name => { kind := .scalar, name }
  | element name row column =>
    { kind := .array, name, row := distance config row, column := distance config column }
  | text name selector => { kind := .string, name, row := distance config selector.index }

/-- Whether a target is a variable in memory whose subscripts are numbers. -/
def IsPlain : Target → Prop
  | scalar name => name.isSpecial = false
  | element name row column =>
    name.isSpecial = false ∧ row.isNaN = false ∧ column.any Single.isNaN = false
  | text name selector => name.isSpecial = false ∧ selector.index.any Single.isNaN = false

/-- Whether a target is no part of a text. -/
def IsWhole : Target → Prop
  | text _ selector => selector.lower = none ∧ selector.upper = none
  | _ => True

theorem IsPlain.isSpecial {target : Target} (plain : target.IsPlain) :
    target.name.isSpecial = false := by
  cases target with
  | scalar => exact plain
  | element => exact plain.1
  | text => exact plain.1

end Target

/-! ### Exact places -/

namespace Machine

variable {config : Config} {rows columns count index : Nat} {row : Single} {column : Option Single}

theorem distance_of_placeIn {subscript : Single} (number : subscript.isNaN = false)
    (base : config.arrayBase ≤ Single.exactLimit) (few : count ≤ Single.exactLimit)
    (placed : placeIn config subscript count = .ok index) :
    Target.distance config subscript = index := by
  rw [placeIn] at placed
  split at placed
  · cases placed
  · rename_i inside
    rw [Bool.or_eq_true, not_or, Bool.not_eq_true, Bool.not_eq_true] at inside
    cases placed
    have whole := Single.wholePart_of_inside number base few inside.1 inside.2
    rw [Target.distance, Option.elim_some, whole]
    omega

theorem distance_of_placeOrFirst {subscript : Option Single}
    (number : subscript.any Single.isNaN = false) (base : config.arrayBase ≤ Single.exactLimit)
    (few : count ≤ Single.exactLimit) (placed : placeOrFirst config count subscript = .ok index) :
    Target.distance config subscript = index := by
  cases subscript with
  | none =>
    cases placed
    rfl
  | some subscript => exact distance_of_placeIn number base few placed

/-- Elements at one place are in one row and one column. -/
theorem distances_of_elementPlace {row row' : Single} {column column' : Option Single}
    (number : row.isNaN = false ∧ column.any Single.isNaN = false)
    (number' : row'.isNaN = false ∧ column'.any Single.isNaN = false)
    (base : config.arrayBase ≤ Single.exactLimit) (rowsFew : rows ≤ Single.exactLimit)
    (columnsFew : columns ≤ Single.exactLimit) (columnsPositive : 0 < columns)
    (placed : elementPlace config rows columns row column = .ok index)
    (placed' : elementPlace config rows columns row' column' = .ok index) :
    Target.distance config row = Target.distance config row' ∧
      Target.distance config column = Target.distance config column' := by
  obtain ⟨down, along, downed, alonged, rfl⟩ := exists_of_elementPlace placed
  obtain ⟨down', along', downed', alonged', same⟩ := exists_of_elementPlace placed'
  have inside := placeOrFirst_lt columnsPositive alonged
  have inside' := placeOrFirst_lt columnsPositive alonged'
  obtain ⟨rfl, rfl⟩ : down = down' ∧ along = along' := by
    have quotients := congrArg (· / columns) same
    have rests := congrArg (· % columns) same
    simp only [Nat.mul_comm _ columns, Nat.mul_add_div columnsPositive, Nat.mul_add_mod,
      Nat.div_eq_of_lt inside, Nat.div_eq_of_lt inside', Nat.mod_eq_of_lt inside,
      Nat.mod_eq_of_lt inside', Nat.add_zero] at quotients rests
    exact ⟨quotients, rests⟩
  rw [distance_of_placeIn number.1 base rowsFew downed,
    distance_of_placeIn number'.1 base rowsFew downed',
    distance_of_placeOrFirst number.2 base columnsFew alonged,
    distance_of_placeOrFirst number'.2 base columnsFew alonged']
  exact ⟨rfl, rfl⟩

end Machine

/-! ### Changes of one object -/

/-- Whether an object was changed to another one just where a target is, to what was assigned. -/
structure Changes (config : Config) (target : Target) (content : Content)
    (record changed : HeapRecord width) : Prop where
  is : changed.Is target.kind target.name
  assigned : target.valueIn config changed = .ok content
  others : ∀ other : Target, other.IsPlain → other.kind = target.kind → other.name = target.name →
    other.cell config ≠ target.cell config →
    other.valueIn config changed = other.valueIn config record

variable {config : Config} {record : HeapRecord width} {name : Name}
  {rows columns capacity count place : Nat}

theorem changes_scalar {changed : HeapRecord width} {value : Single} (is : changed.Is .scalar name)
    (assigned : changed.numberAt 0 = value) :
    Changes config (.scalar name) (.number value) record changed where
  is := is
  assigned := by rw [Target.valueIn, assigned]
  others other _ kind sameName different := by
    cases other with
    | scalar =>
      obtain rfl : _ = name := sameName
      exact absurd rfl different
    | element => cases kind
    | text => cases kind

theorem changes_element (is : record.Is .array name) (array : record.IsArray rows columns)
    (rowsFew : rows ≤ Single.exactLimit) (columnsFew : columns ≤ Single.exactLimit)
    (base : config.arrayBase ≤ Single.exactLimit) {row : Single} {column : Option Single}
    (plain : (Target.element name row column).IsPlain)
    (placed : Machine.elementPlace config rows columns row column = .ok place) (value : Single) :
    Changes config (.element name row column) (.number value) record
      (record.written (place * numberSize) value.toBytes) := by
  have bounds := Machine.elementPlace_bounds array.rows_pos array.columns_pos placed
  have length := array.length
  have within : place * numberSize + value.toBytes.length ≤ record.payload.length := by
    rw [Single.length_toBytes]
    omega
  obtain ⟨dimension, down⟩ := array.parts
  have array' : (record.written (place * numberSize) value.toBytes).IsArray rows columns :=
    array.written bounds
  obtain ⟨dimension', down'⟩ := array'.parts
  refine ⟨HeapRecord.is_written.mpr is, ?_, fun other otherPlain kind sameName different => ?_⟩
  · rw [Target.valueIn, dimension', down', placed]
    exact congrArg (Except.ok ∘ Content.number) (HeapRecord.numberAt_written within)
  · cases other with
    | scalar => cases kind
    | text => cases kind
    | element _ row' column' =>
      obtain rfl : _ = name := sameName
      rw [Target.valueIn, Target.valueIn, dimension, down, dimension', down']
      rcases placed' : Machine.elementPlace config rows columns row' column' with failure | place'
      · rfl
      have apart : place' ≠ place := by
        rintro rfl
        obtain ⟨rows, columns⟩ := Machine.distances_of_elementPlace otherPlain.2 plain.2 base
          rowsFew columnsFew array.columns_pos placed' placed
        exact different (by simp only [Target.cell, Target.name, rows, columns])
      exact congrArg (Except.ok ∘ Content.number)
        (HeapRecord.numberAt_written_apart within (HeapRecord.place_bounds apart numberSize))

/-! ### Changes of one text -/

namespace HeapRecord

/-- A string with another text in one of its elements. -/
def withText (record : HeapRecord width) (capacity place : Nat) (text : Bytes) : HeapRecord width :=
  (record.written (place * (capacity + 1) + 1) text).written (place * (capacity + 1))
    [text.length.toUInt8]

variable {text : Bytes}

theorem is_withText {kind : ObjectKind} :
    (record.withText capacity place text).Is kind name ↔ record.Is kind name := by
  rw [withText, is_written, is_written]

theorem IsString.withText (string : record.IsString capacity count) (inside : place < count)
    (fits : text.length ≤ capacity) :
    (record.withText capacity place text).IsString capacity count := by
  have middle : (record.written (place * (capacity + 1) + 1) text).IsString capacity count :=
    @IsString.written_text _ _ _ _ _ string _ 0 inside (by omega)
  refine middle.written_length inside ?_
  have short := string.capacity_le
  rw [Nat.toUInt8, UInt8.toNat_ofNat']
  omega

/-- The text and its length stay in the element. -/
theorem IsString.within (string : record.IsString capacity count) (inside : place < count)
    (fits : text.length ≤ capacity) :
    place * (capacity + 1) + 1 + text.length ≤ record.payload.length ∧
      place * (capacity + 1) + [text.length.toUInt8].length ≤
        (record.written (place * (capacity + 1) + 1) text).payload.length := by
  have bounds := string.slot inside
  rw [length_payload_written, List.length_singleton]
  omega

/-- The text that was written reads back. -/
theorem textAt_withText (string : record.IsString capacity count) (inside : place < count)
    (fits : text.length ≤ capacity) :
    (record.withText capacity place text).textAt capacity place = text := by
  obtain ⟨within, within'⟩ := string.within inside fits
  obtain ⟨length, rest, slot, -, -, same⟩ := (string.withText inside fits).exists_slot inside
  have first : (record.withText capacity place text).piece (place * (capacity + 1)) 1 =
      [text.length.toUInt8] := piece_written within'
  have behind : (record.withText capacity place text).piece (place * (capacity + 1) + 1)
      text.length = text := by
    rw [HeapRecord.withText, piece_written_apart within' (by rw [List.length_singleton]; omega),
      piece_written within]
  have measured : length = text.length.toUInt8 := by
    have front := congrArg (List.take 1) slot
    rw [piece, List.take_take, Nat.min_eq_left (by omega), ← piece, first] at front
    exact (List.cons.inj front).1.symm
  have long : length.toNat = text.length := by
    have short := string.capacity_le
    rw [measured, Nat.toUInt8, UInt8.toNat_ofNat']
    omega
  have after := congrArg (fun bytes => (bytes.drop 1).take text.length) slot
  simp only [piece, List.drop_take, List.drop_drop, List.take_take, List.drop_succ_cons,
    List.drop_zero] at after
  rw [Nat.min_eq_left (by omega), ← piece, behind] at after
  rw [same, long, ← after]

/-- The texts of the other elements stay. -/
theorem textAt_withText_apart (string : record.IsString capacity count) (inside : place < count)
    (fits : text.length ≤ capacity) {other : Nat} (apart : other ≠ place) :
    (record.withText capacity place text).textAt capacity other = record.textAt capacity other := by
  have slots := place_bounds apart (capacity + 1)
  obtain ⟨within, within'⟩ := string.within inside fits
  rw [textAt, HeapRecord.withText, piece_written_apart within' (by
    rw [List.length_singleton]
    omega), piece_written_apart within (by omega), textAt]

end HeapRecord

theorem Selector.part_whole {selector : Selector}
    (whole : selector.lower = none ∧ selector.upper = none) (text : Bytes) :
    selector.part text = .ok text := by
  rw [part, whole.1, whole.2]
  exact congrArg Except.ok (List.take_length)

theorem changes_text (is : record.Is .string name) (string : record.IsString capacity count)
    (few : count ≤ Single.exactLimit) (base : config.arrayBase ≤ Single.exactLimit)
    {selector : Selector} (plain : (Target.text name selector).IsPlain)
    (whole : (Target.text name selector).IsWhole)
    (placed : Machine.placeOrFirst config count selector.index = .ok place) {text : Bytes}
    (fits : text.length ≤ capacity) :
    Changes config (.text name selector) (.text text) record
      (record.withText capacity place text) := by
  have inside := Machine.placeOrFirst_lt string.count_pos placed
  obtain ⟨dimension, room⟩ := string.parts
  obtain ⟨dimension', room'⟩ := (string.withText inside fits).parts
  refine ⟨HeapRecord.is_withText.mpr is, ?_, fun other otherPlain kind sameName different => ?_⟩
  · rw [Target.valueIn, dimension', room', placed, Nat.add_sub_cancel]
    change Content.text <$> selector.part _ = _
    rw [HeapRecord.textAt_withText string inside fits, Selector.part_whole whole]
    rfl
  · cases other with
    | scalar => cases kind
    | element => cases kind
    | text _ selector' =>
      obtain rfl : _ = name := sameName
      rw [Target.valueIn, Target.valueIn, dimension, room, dimension', room', Nat.add_sub_cancel]
      rcases placed' : Machine.placeOrFirst config count selector'.index with failure | place'
      · rfl
      have apart : place' ≠ place := by
        rintro rfl
        have far' := Machine.distance_of_placeOrFirst otherPlain.2 base few placed'
        have far := Machine.distance_of_placeOrFirst plain.2 base few placed
        exact different (by simp only [Target.cell, Target.name, far, far'])
      change Content.text <$> selector'.part _ = Content.text <$> selector'.part _
      rw [HeapRecord.textAt_withText_apart string inside fits apart]

/-! ### Making objects -/

namespace Machine

variable {machine middle after : Machine} {kind : ObjectKind} {payload : Extent}
  {records newer older : List (HeapRecord (AddressWidth.forSize config.memorySize))}
  {record : HeapRecord (AddressWidth.forSize config.memorySize)}

theorem Keeps.leftWith (keeps : machine.Keeps config records) (left : machine.LeftWith after newer)
    (wellFormed : ∀ record ∈ newer, record.IsWellFormed) : after.Keeps config newer where
  config_eq := by
    rw [left.same]
    exact keeps.config_eq
  size_eq := left.program.size.trans keeps.size_eq
  below := left.program.below
  held := left.held
  wellFormed := wellFormed

/-- The payload of an object, which is made if it does not exist. -/
def madePayload (kind : ObjectKind) (name : Name) (make : Action Unit) : Action Extent := do
  match ← lookup kind name with
  | some payload => return payload
  | none =>
    make
    Attempt.orFail .internalError (← lookup kind name)

theorem arrayPayload_eq (name : Name) : arrayPayload name =
    madePayload .array name (do createArray name (← get).config.arraySize 1) := by
  refine bind_congr fun found => ?_
  cases found with
  | none => exact (bind_assoc _ _ _).symm
  | some payload => rfl

theorem assignableSlot_eq (name : Name) (index : Option Single) : assignableSlot name index =
    madePayload .string name (do createString name (← get).config.stringSize 1) >>=
      fun payload => slotOf payload index := by
  rw [assignableSlot, madePayload, bind_assoc]
  refine bind_congr fun found => ?_
  cases found with
  | none => simp only [bind_assoc]
  | some payload => exact (pure_bind _ _).symm

/-- Whether a list has the objects of another one, in which one was changed or was made. -/
def ChangedAt (records newer older : List (HeapRecord width)) (record : HeapRecord width) : Prop :=
  records = newer ++ record :: older ∨ records = newer ++ older

/-- **An object that is looked up or made is in the list**, where it is found. -/
theorem Keeps.exists_made (keeps : machine.Keeps config records) {make : Action Unit}
    (makes : ∀ machine after : Machine, machine.Keeps config records →
      (∀ record ∈ records, ¬ record.Is kind name) → make.runOn machine = (.ok (), after) →
      ∃ record : HeapRecord _, record.Is kind name ∧ after.Keeps config (record :: records))
    (ran : (madePayload kind name make).runOn machine = (.ok payload, after)) :
    ∃ newer record older, ChangedAt records newer older record ∧
      record.Is kind name ∧ after.Keeps config (newer ++ record :: older) ∧
      (after.memory.find kind name).1 = some payload := by
  rw [madePayload] at ran
  by_cases there : ∃ record ∈ records, record.Is kind name
  · obtain ⟨record, among, is⟩ := there
    obtain ⟨found, looked, again⟩ := keeps.lookup among is
    rw [Attempt.runOn_bind_ok looked] at ran
    cases ran
    obtain ⟨newer, older, rfl⟩ := List.append_of_mem among
    exact ⟨newer, record, older, .inl rfl, is, keeps.foundIn _ _, again⟩
  · have absent : ∀ record ∈ records, ¬ record.Is kind name := fun record among is =>
      there ⟨record, among, is⟩
    rw [Attempt.runOn_bind_ok (keeps.lookup_absent absent), Attempt.runOn_bind_eq_goOn] at ran
    rcases made : make.runOn (machine.foundIn kind name) with ⟨failure | ⟨⟩, middle⟩
    · rw [made] at ran
      cases ran
    · obtain ⟨record, is, kept⟩ := makes _ _ (keeps.foundIn kind name) absent made
      obtain ⟨found, looked, again⟩ := kept.lookup (List.mem_cons_self ..) is
      rw [made, Attempt.goOn_ok, Attempt.runOn_bind_ok looked, Attempt.runOn_orFail_some] at ran
      cases ran
      exact ⟨[], record, records, .inr rfl, is, kept.foundIn _ _, again⟩

theorem makes_array [sound : config.IsSound] (name : Name) (keeps : machine.Keeps config records)
    (ran : (do createArray name (← get).config.arraySize 1 : Action Unit).runOn machine =
      (.ok (), after)) :
    ∃ record : HeapRecord _, record.Is .array name ∧ after.Keeps config (record :: records) := by
  rw [Attempt.runOn_get_bind, keeps.config_eq] at ran
  rcases creates_array keeps.held keeps.below name config.arraySize 1 with
    ⟨failure, left, failed, -⟩ | ⟨left, record, made, is, array, leaves⟩
  · rw [failed] at ran
    cases ran
  · rw [made] at ran
    cases ran
    have array := array sound.arraySize_pos Nat.one_pos
    exact ⟨record, is, keeps.leftWith leaves
      (List.forall_mem_cons.mpr ⟨array.isWellFormed is.1, keeps.wellFormed⟩)⟩

theorem makes_string (name : Name) (keeps : machine.Keeps config records)
    (ran : (do createString name (← get).config.stringSize 1 : Action Unit).runOn machine =
      (.ok (), after)) :
    ∃ record : HeapRecord _, record.Is .string name ∧ after.Keeps config (record :: records) := by
  rw [Attempt.runOn_get_bind, keeps.config_eq] at ran
  rcases creates_string keeps.held keeps.below name config.stringSize Nat.one_pos with
    ⟨failure, left, failed, -⟩ | ⟨left, record, made, is, string, leaves⟩
  · rw [failed] at ran
    cases ran
  · rw [made] at ran
    cases ran
    exact ⟨record, is, keeps.leftWith leaves
      (List.forall_mem_cons.mpr ⟨string.isWellFormed is.1, keeps.wellFormed⟩)⟩

/-! ### Changing objects -/

theorem Keeps.wellFormed_changed (keeps : machine.Keeps config (newer ++ record :: older))
    {changed : HeapRecord (AddressWidth.forSize config.memorySize)}
    (wellFormed : changed.IsWellFormed) :
    ∀ other ∈ newer ++ changed :: older, other.IsWellFormed := by
  have all := keeps.wellFormed
  simp only [List.forall_mem_append, List.forall_mem_cons] at all ⊢
  exact ⟨all.1, wellFormed, all.2.2⟩

/-- **Writing into a payload changes one object of the list**, which stays where it is. -/
theorem Keeps.exists_written (keeps : machine.Keeps config (newer ++ record :: older))
    (is : record.Is kind name) (found : (machine.memory.find kind name).1 = some payload)
    (offset : Nat) (data : Bytes) (within : offset + data.length ≤ record.payload.length)
    (wellFormed : (record.written offset data).IsWellFormed) :
    ∃ after, (onMemory (Memory.write (payload.start + offset) data)).runOn machine =
        (.ok (), after) ∧
      after.Keeps config (newer ++ record.written offset data :: older) ∧
      (after.memory.find kind name).1 = some payload := by
  obtain ⟨rfl, rfl⟩ := is
  obtain ⟨edited, wrote, kept, program⟩ :=
    keeps.held.write_found keeps.below found offset data within
  refine ⟨_, runOn_onMemory_of wrote, ⟨keeps.config_eq, program.size.trans keeps.size_eq,
    program.below, kept, keeps.wellFormed_changed wellFormed⟩, ?_⟩
  have there := kept.find_middle
  rw [HeapRecord.kind_written, HeapRecord.name_written, HeapRecord.length_payload_written,
    program.size, ← keeps.held.find_middle] at there
  exact there.trans found

theorem Keeps.exists_scalar (keeps : machine.Keeps config records) {value : Single}
    (ran : (storeScalar name value).runOn machine = (.ok (), after)) :
    ∃ newer record changed older, ChangedAt records newer older record ∧
      record.Is .scalar name ∧ after.Keeps config (newer ++ changed :: older) ∧
      Changes config (.scalar name) (.number value) record changed := by
  by_cases there : ∃ record ∈ records, record.Is .scalar name
  · obtain ⟨record, among, is⟩ := there
    obtain ⟨newer, older, rfl⟩ := List.append_of_mem among
    obtain ⟨left, stored, leaves⟩ := stores_present keeps.held keeps.below is value
    rw [stored] at ran
    cases ran
    have written : (record.written 0 value.toBytes).Is .scalar name := HeapRecord.is_written.mpr is
    refine ⟨newer, record, _, older, .inl rfl, is, keeps.leftWith leaves
      (keeps.wellFormed_changed (HeapRecord.isWellFormed_of_scalar written.1)),
      changes_scalar written (HeapRecord.numberAt_written ?_)⟩
    rw [record.number is.1, Nat.zero_add]
  · have absent : ∀ record ∈ records, ¬ record.Is .scalar name := fun record among is =>
      there ⟨record, among, is⟩
    rcases stores_absent keeps.held keeps.below absent value with
      ⟨failure, left, failed, -⟩ | ⟨left, changed, stored, is, assigned, leaves⟩
    · rw [failed] at ran
      cases ran
    · rw [stored] at ran
      cases ran
      exact ⟨[], changed, changed, records, .inr rfl, is, keeps.leftWith leaves
        (List.forall_mem_cons.mpr ⟨HeapRecord.isWellFormed_of_scalar is.1, keeps.wellFormed⟩),
        changes_scalar is assigned⟩

variable [config.IsSound]

theorem Keeps.exists_element (keeps : machine.Keeps config records) {row value : Single}
    {column : Option Single}
    (ran : (do setNumberAt (← elementAddress name row column) value : Action Unit).runOn machine =
      (.ok (), after)) :
    ∃ newer record older rows columns place, ChangedAt records newer older record ∧
      record.Is .array name ∧ record.IsArray rows columns ∧
      elementPlace config rows columns row column = .ok place ∧
      after.Keeps config
        (newer ++ record.written (place * numberSize) value.toBytes :: older) := by
  rw [elementAddress_eq, bind_assoc, Attempt.runOn_bind_eq_goOn, arrayPayload_eq] at ran
  rcases made : (madePayload .array name _).runOn machine with ⟨failure | payload, middle⟩ <;>
    rw [made] at ran
  · cases ran
  obtain ⟨newer, record, older, at', is, kept, found⟩ :=
    keeps.exists_made (fun _ _ keeps _ => makes_array name keeps) made
  have among : record ∈ newer ++ record :: older := by simp
  have shows := kept.shows among is found
  obtain ⟨rows, columns, array⟩ := (kept.wellFormed record among).array is.1
  rw [Attempt.goOn_ok, Attempt.runOn_bind_eq_goOn, runOn_addressIn shows array,
    kept.config_eq] at ran
  rcases placed : elementPlace config rows columns row column with failure | place <;>
    rw [placed] at ran
  · cases ran
  have bounds := elementPlace_bounds array.rows_pos array.columns_pos placed
  have length := array.length
  obtain ⟨left, wrote, again, -⟩ := kept.exists_written is found (place * numberSize)
    value.toBytes (by rw [Single.length_toBytes]; omega)
    ((array.written bounds).isWellFormed ((HeapRecord.kind_written _ _ _).trans is.1))
  obtain rfl : left = after := congrArg Prod.snd (wrote.symm.trans ran)
  exact ⟨newer, record, older, rows, columns, place, at', is, array, placed, again⟩

/-- Assigning a whole text to an element that was found. -/
theorem Keeps.exists_textWritten (keeps : machine.Keeps config (newer ++ record :: older))
    (is : record.Is .string name) (found : (machine.memory.find .string name).1 = some payload)
    (string : record.IsString capacity count) (inside : place < count) {selector : Selector}
    (whole : selector.lower = none) {text : Bytes}
    (ran : (writeSlot { address := payload.start + place * (capacity + 1), capacity } selector
      text).runOn machine = (.ok (), after)) :
    text.length ≤ capacity ∧
      after.Keeps config (newer ++ record.withText capacity place text :: older) := by
  have among : record ∈ newer ++ record :: older := by simp
  have shows := keeps.shows among is found
  have bounds := string.slot inside
  rw [writeSlot, Attempt.runOn_bind_ok (runOn_textLength shows string inside), splice, whole] at ran
  dsimp only at ran
  rw [Attempt.runOn_pure_bind] at ran
  split at ran
  · cases ran
  rename_i room
  have fits : text.length ≤ capacity := by simpa using room
  refine ⟨fits, ?_⟩
  have middle : (record.written (place * (capacity + 1) + 1) text).IsString capacity count :=
    @HeapRecord.IsString.written_text _ _ _ _ _ string _ 0 inside (by omega)
  obtain ⟨first, wrote, kept, again⟩ := keeps.exists_written is found
    (place * (capacity + 1) + 1) text (by omega)
    (middle.isWellFormed ((HeapRecord.kind_written _ _ _).trans is.1))
  obtain ⟨last, wrote', kept', -⟩ := kept.exists_written (HeapRecord.is_written.mpr is) again
    (place * (capacity + 1)) [text.length.toUInt8]
    (by rw [HeapRecord.length_payload_written, List.length_singleton]; omega)
    ((string.withText inside fits).isWellFormed (HeapRecord.is_withText.mpr is).1)
  rw [Nat.add_zero, List.take_length, Nat.add_assoc payload.start,
    Attempt.runOn_bind_ok wrote, wrote'] at ran
  cases ran
  exact kept'

theorem Keeps.exists_text (keeps : machine.Keeps config records) {selector : Selector}
    (whole : selector.lower = none) {text : Bytes}
    (ran : (do writeSlot (← assignableSlot name selector.index) selector text : Action Unit).runOn
      machine = (.ok (), after)) :
    ∃ newer record older capacity count place, ChangedAt records newer older record ∧
      record.Is .string name ∧ record.IsString capacity count ∧
      placeOrFirst config count selector.index = .ok place ∧ text.length ≤ capacity ∧
      after.Keeps config (newer ++ record.withText capacity place text :: older) := by
  rw [assignableSlot_eq, bind_assoc, Attempt.runOn_bind_eq_goOn] at ran
  rcases made : (madePayload .string name _).runOn machine with ⟨failure | payload, middle⟩ <;>
    rw [made] at ran
  · cases ran
  obtain ⟨newer, record, older, changedAt, is, kept, found⟩ :=
    keeps.exists_made (fun _ _ keeps _ => makes_string name keeps) made
  have among : record ∈ newer ++ record :: older := by simp
  obtain ⟨capacity, count, string⟩ := (kept.wellFormed record among).string is.1
  rw [Attempt.goOn_ok, Attempt.runOn_bind_eq_goOn,
    runOn_slotOf (kept.shows among is found) string, kept.config_eq] at ran
  rcases placed : placeOrFirst config count selector.index with failure | place <;>
    rw [placed] at ran
  · cases ran
  obtain ⟨fits, again⟩ := kept.exists_textWritten is found string
    (placeOrFirst_lt string.count_pos placed) whole ran
  exact ⟨newer, record, older, capacity, count, place, changedAt, is, string, placed, fits, again⟩

end Machine

/-! ### The map -/

/-- Whether arrays and strings of a memory have no more elements than numbers count exactly. -/
structure Memory.HasFewElements (memory : Memory) : Prop where
  arrays : ∀ name payload, memory.scan? .array name = some payload →
    payload.length ≤ Single.exactLimit * numberSize + memory.width.byteCount
  strings : ∀ name payload count, memory.scan? .string name = some payload →
    memory.addressAt? (payload.start + payload.length - memory.width.byteCount) = some count →
    count ≤ Single.exactLimit

namespace Machine

variable {machine after : Machine} {kind : ObjectKind} {target : Target} {content : Content}
  {records newer older : List (HeapRecord (AddressWidth.forSize config.memorySize))}
  {record : HeapRecord (AddressWidth.forSize config.memorySize)}

theorem Keeps.exists_scanned (keeps : machine.Keeps config records) (among : record ∈ records) :
    ∃ payload, (machine.memory.find record.kind record.name).1 = some payload ∧
      machine.memory.scan? record.kind record.name = some payload ∧
      payload.length = record.payload.length := by
  obtain ⟨payload, -, -, found, -, -, long⟩ := keeps.held.exists_cut among
  exact ⟨payload, found, by rw [keeps.held.scan?_eq, ← keeps.held.find_eq, found], long⟩

theorem Keeps.dimensions_le (keeps : machine.Keeps config records)
    (few : machine.memory.HasFewElements) (among : record ∈ records) (kind : record.kind = .array)
    (array : record.IsArray rows columns) :
    rows ≤ Single.exactLimit ∧ columns ≤ Single.exactLimit := by
  obtain ⟨payload, -, scanned, long⟩ := keeps.exists_scanned among
  have short := few.arrays _ payload (kind ▸ scanned)
  have width : machine.memory.width = AddressWidth.forSize config.memorySize :=
    congrArg AddressWidth.forSize keeps.size_eq
  rw [long, array.length, width, Nat.add_le_add_iff_right] at short
  have cells : rows * columns ≤ Single.exactLimit := Nat.le_of_mul_le_mul_right short (by decide)
  exact ⟨Nat.le_trans (Nat.le_mul_of_pos_right _ array.columns_pos) cells,
    Nat.le_trans (Nat.le_mul_of_pos_left _ array.rows_pos) cells⟩

theorem addressAt?_count {payload : Extent} (shows : machine.Shows payload record)
    (string : record.IsString capacity count) : machine.memory.addressAt?
      (payload.start + payload.length - machine.memory.width.byteCount) = some count := by
  have dimension := addressAt?_dimension shows (string.length ▸ Nat.le_add_left _ _)
  rwa [string.parts.1, ← shows.width_eq] at dimension

theorem Keeps.count_le [config.IsSound] (keeps : machine.Keeps config records)
    (few : machine.memory.HasFewElements) (among : record ∈ records) (kind : record.kind = .string)
    (string : record.IsString capacity count) : count ≤ Single.exactLimit := by
  obtain ⟨payload, found, scanned, long⟩ := keeps.exists_scanned among
  have shows := keeps.shows among ⟨rfl, rfl⟩ found
  exact few.strings _ payload count (kind ▸ scanned) (addressAt?_count shows string)

/-- **An assignment that succeeds changes one object** just where its target is, which it made if it
was not there. -/
theorem exists_changed [config.IsSound] (base : config.arrayBase ≤ Single.exactLimit)
    (keeps : machine.Keeps config records) (plain : target.IsPlain) (whole : target.IsWhole)
    (ran : (assign target content).runOn machine = (.ok (), after))
    (few : after.memory.HasFewElements) :
    ∃ newer record changed older, ChangedAt records newer older record ∧
      record.Is target.kind target.name ∧ after.Keeps config (newer ++ changed :: older) ∧
      Changes config target content record changed := by
  have ordinary := plain.isSpecial
  cases target <;> simp only [Target.name] at ordinary
  case scalar name =>
    cases content with
    | text => cases ran
    | number value =>
      rw [assign, assignNumber, setScalar, ordinary] at ran
      exact keeps.exists_scalar ran
  case element name row column =>
    cases content with
    | text => cases ran
    | number value =>
      rw [assign, assignNumber, setElement, ordinary] at ran
      obtain ⟨newer, record, older, rows, columns, place, changedAt, is, array, placed, kept⟩ :=
        keeps.exists_element ran
      have changed : (record.written (place * numberSize) value.toBytes).IsArray rows columns :=
        array.written (elementPlace_bounds array.rows_pos array.columns_pos placed)
      obtain ⟨rowsFew, columnsFew⟩ := kept.dimensions_le few
        (List.mem_append_right _ (List.mem_cons_self ..))
        ((HeapRecord.kind_written _ _ _).trans is.1) changed
      exact ⟨newer, record, _, older, changedAt, is, kept,
        changes_element is array rowsFew columnsFew base plain placed value⟩
  case text name selector =>
    cases content with
    | number => cases ran
    | text bytes =>
      rw [assign, assignText, writeString, ordinary] at ran
      obtain ⟨newer, record, older, capacity, count, place, changedAt, is, string, placed, fits,
        kept⟩ := keeps.exists_text whole.1 ran
      have countFew := kept.count_le few (List.mem_append_right _ (List.mem_cons_self ..))
        (HeapRecord.is_withText.mpr is).1
        (string.withText (placeOrFirst_lt string.count_pos placed) fits)
      exact ⟨newer, record, _, older, changedAt, is, kept,
        changes_text is string countFew base plain whole placed fits⟩

/-- What is found is in the list. -/
theorem Keeps.exists_found (keeps : machine.Keeps config records) {name : Name} {payload : Extent}
    (found : machine.memory.scan? kind name = some payload) :
    ∃ record ∈ records, record.Is kind name ∧ (machine.memory.find kind name).1 = some payload ∧
      payload.length = record.payload.length := by
  rw [keeps.held.scan?_eq] at found
  obtain ⟨newer, record, older, cut, is, -, -, rfl⟩ := HeapRecord.exists_of_locate? found
  exact ⟨record, by simp [cut], is, (keeps.held.find_eq _ _).trans found, rfl⟩

theorem IsIntact.exists_keeps (intact : machine.IsIntact config) :
    ∃ records, machine.Keeps config records := by
  obtain ⟨records, held, wellFormed⟩ := intact.memory.objects
  exact ⟨records, intact.config_eq, intact.memory.size_eq, intact.memory.below, held, wellFormed⟩

/-- In a small memory numbers count all elements. -/
theorem IsIntact.hasFewElements [config.IsSound] (intact : machine.IsIntact config)
    (small : config.memorySize ≤ Single.exactLimit) : machine.memory.HasFewElements := by
  obtain ⟨records, keeps⟩ := intact.exists_keeps
  have short {record : HeapRecord (AddressWidth.forSize config.memorySize)}
      (among : record ∈ records) : record.payload.length ≤ config.memorySize := by
    obtain ⟨payload, front, back, -, cut, -⟩ := keeps.held.exists_cut among
    have size := congrArg List.length cut
    rw [Memory.length_contents, keeps.size_eq] at size
    simp only [List.length_append] at size
    omega
  constructor
  · intro name payload scanned
    obtain ⟨record, among, -, -, long⟩ := keeps.exists_found scanned
    have := short among
    unfold numberSize
    omega
  · intro name payload count scanned stored
    obtain ⟨record, among, is, found, -⟩ := keeps.exists_found scanned
    obtain ⟨capacity, count', string⟩ := (keeps.wellFormed record among).string is.1
    have known := addressAt?_count (keeps.shows among is found) string
    obtain rfl : count = count' := Option.some.inj (stored.symm.trans known)
    have fewer : count ≤ (capacity + 1) * count := Nat.le_mul_of_pos_left _ (Nat.succ_pos _)
    have := short among
    have := string.length
    omega

/-- **Variables are a map.** Wherever a host brings the machine, also in the middle of a statement:
after an assignment that succeeds its target reads as what was assigned, and every other variable
that there was reads as before, be it another element of the same array or string. -/
theorem variables_are_a_map [config.IsSound] (base : config.arrayBase ≤ Single.exactLimit)
    {host : Host} (underway : Underway config host machine) (plain : target.IsPlain)
    (whole : target.IsWhole) (ran : (assign target content).runOn machine = (.ok (), after))
    (few : after.memory.HasFewElements) :
    ((fetch target).runOn after).1 = .ok content ∧
    ∀ other : Target, other.IsPlain → other.cell config ≠ target.cell config →
      (machine.memory.scan? other.kind other.name).isSome →
      ((fetch other).runOn after).1 = ((fetch other).runOn machine).1 := by
  obtain ⟨records, keeps⟩ := underway.isIntact.exists_keeps
  obtain ⟨newer, record, changed, older, changedAt, is, kept, changes⟩ :=
    exists_changed base keeps plain whole ran few
  have there : changed ∈ newer ++ changed :: older := by simp
  refine ⟨(kept.runOn_fetch plain.isSpecial there changes.is).trans changes.assigned,
    fun other otherPlain different existed => ?_⟩
  obtain ⟨payload, scanned⟩ := Option.isSome_iff_exists.mp existed
  obtain ⟨own, among, ownIs, -⟩ := keeps.exists_found scanned
  rw [keeps.runOn_fetch otherPlain.isSpecial among ownIs]
  have stays (beside : own ∈ newer ++ older) :
      ((fetch other).runOn after).1 = other.valueIn config own :=
    kept.runOn_fetch otherPlain.isSpecial (by
      rcases List.mem_append.mp beside with front | back
      · exact List.mem_append_left _ front
      · exact List.mem_append_right _ (List.mem_cons_of_mem _ back)) ownIs
  rcases changedAt with rfl | rfl
  · simp only [List.mem_append, List.mem_cons] at among
    rcases among with front | rfl | back
    · exact stays (List.mem_append_left _ front)
    · have kind : other.kind = target.kind := ownIs.1.symm.trans is.1
      have name : other.name = target.name := ownIs.2.symm.trans is.2
      rw [← changes.others other otherPlain kind name different]
      exact kept.runOn_fetch otherPlain.isSpecial there ⟨kind ▸ changes.is.1, name ▸ changes.is.2⟩
    · exact stays (List.mem_append_right _ back)
  · exact stays among

/-- Two elements of an array that a typed line has made. -/
theorem variables_are_a_map_elements :
    let config : Config := { memorySize := 48, arraySize := 3 }
    let machine := ((execute 2).runOn ((enter (ascii "A(2)=3")).runOn (start config {})).2).2
    let target : Target := .element ⟨65, 0⟩ Single.one none
    let other : Target := .element ⟨65, 0⟩ (Single.ofNat 2) none
    let after := ((assign target (.number (Single.ofNat 5))).runOn machine).2
    Reaches [.poke] (start config {}) machine ∧
      ((fetch target).runOn after).1 = .ok (.number (Single.ofNat 5)) ∧
      ((fetch other).runOn machine).1 = .ok (.number (Single.ofNat 3)) ∧
      ((fetch other).runOn after).1 = .ok (.number (Single.ofNat 3)) := by
  intro config machine target other after
  have sound : config.IsSound := ⟨by decide, by decide⟩
  have seen : ((executeWithout [.poke] 2).runOn
        ((enter (ascii "A(2)=3")).runOn (start config {})).2).1.toOption.isSome = true ∧
      ((assign target (.number (Single.ofNat 5))).runOn machine).1 = .ok () ∧
      (machine.memory.scan? .array ⟨65, 0⟩).isSome ∧
      ((fetch other).runOn machine).1 = .ok (.number (Single.ofNat 3)) := by
    decide +kernel
  obtain ⟨goesOn, assigned, existed, before⟩ := seen
  have reaches : Reaches [.poke] (start config {}) machine :=
    .execute_of_isSome (.enter _ .refl) goesOn
  have underway := Underway.reached reaches
  have few : after.memory.HasFewElements :=
    (underway.assignedNumber target (Single.ofNat 5)).isIntact.hasFewElements (by decide)
  have plain (row : Single) (number : row.isNaN = false) :
      (Target.element ⟨65, 0⟩ row none).IsPlain := ⟨rfl, number, rfl⟩
  obtain ⟨reads, others⟩ := variables_are_a_map (by decide) underway (plain Single.one (by decide))
    trivial (Prod.ext assigned rfl) few
  exact ⟨reaches, reads, before, (others other (plain (Single.ofNat 2) (by decide +kernel))
    (by decide +kernel) existed).trans before⟩

/-- Where arrays that are made by themselves have no elements, a subscript that is no number breaks
the header of another object; one that passes for a string then has no end, and a text that is
assigned to it is written over the variable behind it. -/
theorem variable_lost_without_elements :
    let config : Config := { memorySize := 32, arraySize := 0 }
    let typed := ((enter (ascii "Z=7:X=1.00000024:A(VAL(\"NAN\"))=32.75")).runOn
      (start config {})).2
    let machine := ((execute 4).runOn typed).2
    let assigned := (assign (.text ⟨66, 0⟩ {}) (.text (ascii "HELLO"))).runOn machine
    assigned.1 = .ok () ∧
      ((fetch (.scalar ⟨90, 0⟩)).runOn machine).1 = .ok (.number (Single.ofNat 7)) ∧
      ((fetch (.scalar ⟨90, 0⟩)).runOn assigned.2).1 = .ok (.number Single.zero) := by
  decide +kernel

end Machine

end PocketBasic
