/-
**Assigning keeps the heap intact.** Variables are made and assigned to by writing into the bytes of
the heap, at addresses that are worked out from numbers of the program and from the bytes
themselves. In a machine with an intact heap each such write stays in the payload it is meant for
and leaves a payload of the same sort, and no header is found broken.

* `Config.IsSound`: the settings for which this holds;
* `Machine.Leads`: where a step leads, or else it fails and leaves the heap intact;
* `Machine.leads_elementAddress`, `Machine.leads_slotOf`: where elements of arrays and strings are;
* **`Machine.leads_storeElement`**, **`Machine.leads_writeSlot`** and the others: assignments.
-/

import Mathlib.Tactic.Common
import PocketBasic.Proofs.Machine.Accessing
import PocketBasic.Proofs.Machine.Executing
import PocketBasic.Proofs.Memory.Guarded
import PocketBasic.Proofs.Memory.Integrity

namespace PocketBasic

/-- Settings under which memory takes less than half of all addresses, and arrays that are made by
themselves have elements. -/
class Config.IsSound (config : Config) : Prop where
  memorySize_lt : 2 * config.memorySize < Address.modulus
  arraySize_pos : 0 < config.arraySize

/-- Settings under which the whole parts of all numbers of elements are exact, and arrays that are
made by themselves have elements. -/
class Config.IsRoomy (config : Config) : Prop where
  memorySize_le : config.memorySize ≤ Single.exactLimit
  arraySize_pos : 0 < config.arraySize

instance Config.IsRoomy.isSound {config : Config} [roomy : config.IsRoomy] : config.IsSound where
  memorySize_lt :=
    Nat.lt_of_le_of_lt (Nat.mul_le_mul_left 2 roomy.memorySize_le) (by decide)
  arraySize_pos := roomy.arraySize_pos

/-- Whether a failure blames no header and is one that steps on variables have: an error of the
language, or an access outside memory if not all cells of memory have exact numbers. -/
def Config.Excuses (config : Config) : Failure → Prop
  | .reported error => ¬ error.BlamesHeader
  | .fault => numberSize * Single.exactLimit < config.memorySize
  | .zeroDivisor | .stalled => False

namespace Machine

variable {α β : Type} {config : Config} {machine : Machine} {payload : Extent}
  {record : HeapRecord (AddressWidth.forSize config.memorySize)} {kind : ObjectKind} {name : Name}

/-! ### Where steps lead -/

/-- A machine whose heap is made of well-formed objects, above the program. -/
structure IsIntact (config : Config) (machine : Machine) : Prop where
  config_eq : machine.config = config
  memory : machine.memory.IsIntact config.memorySize

/-- A machine with an object at a place of the heap, and well-formed objects around it. -/
structure Holds (config : Config) (machine : Machine) (payload : Extent)
    (record : HeapRecord (AddressWidth.forSize config.memorySize)) : Prop where
  config_eq : machine.config = config
  memory : machine.memory.HasRecord config.memorySize payload record

theorem Holds.isIntact (holds : machine.Holds config payload record)
    (wellFormed : record.IsWellFormed) : machine.IsIntact config :=
  ⟨holds.config_eq, holds.memory.isIntact wellFormed⟩

theorem Holds.width_eq (holds : machine.Holds config payload record) :
    machine.memory.width = AddressWidth.forSize config.memorySize :=
  congrArg AddressWidth.forSize holds.memory.size_eq

/-- Whether a machine has the program of another one, if all cells of memory have exact numbers. -/
def SparesProgram (config : Config) (before after : Machine) : Prop :=
  config.memorySize ≤ numberSize * Single.exactLimit → before.memory.SameProgram after.memory

theorem SparesProgram.refl (machine : Machine) : machine.SparesProgram config machine :=
  fun _ => ⟨rfl, rfl⟩

theorem SparesProgram.trans {before middle after : Machine}
    (first : before.SparesProgram config middle) (second : middle.SparesProgram config after) :
    before.SparesProgram config after := fun small =>
  ⟨(second small).size.trans (first small).size, (second small).program.trans (first small).program⟩

/-- Whether a step leads to what is promised, or else fails with an excuse and leaves the heap
intact. Either way it spares the program. -/
def Leads (config : Config) (step : Action α) (machine : Machine)
    (promised : α → Machine → Prop) : Prop :=
  step.Ends machine (fun value after => machine.SparesProgram config after ∧ promised value after)
    fun failure after => machine.SparesProgram config after ∧ after.IsIntact config ∧
      config.Excuses failure

theorem Leads.of_ok {step : Action α} {promised : α → Machine → Prop} {value : α} {after : Machine}
    (ran : step.runOn machine = (.ok value, after)) (spares : machine.SparesProgram config after)
    (kept : promised value after) : Leads config step machine promised :=
  Attempt.Ends.of_ok ran ⟨spares, kept⟩

theorem Leads.of_error {step : Action α} {promised : α → Machine → Prop} {failure : Failure}
    {after : Machine} (ran : step.runOn machine = (.error failure, after))
    (spares : machine.SparesProgram config after) (intact : after.IsIntact config)
    (excused : config.Excuses failure) : Leads config step machine promised :=
  Attempt.Ends.of_error ran ⟨spares, intact, excused⟩

theorem Leads.pure {promised : α → Machine → Prop} {value : α} (kept : promised value machine) :
    Leads config (pure value) machine promised := ⟨.refl machine, kept⟩

theorem Leads.fail {promised : α → Machine → Prop} (intact : machine.IsIntact config)
    (kind : ErrorKind) : Leads config (Attempt.fail kind) machine promised :=
  ⟨.refl machine, intact, Error.not_blamesHeader_of_detail rfl⟩

theorem Leads.bind {step : Action α} {next : α → Action β} {middle : α → Machine → Prop}
    {promised : β → Machine → Prop} (first : Leads config step machine middle)
    (second : ∀ value after, middle value after → Leads config (next value) after promised) :
    Leads config (step >>= next) machine promised := by
  refine Attempt.Ends.bind first fun value after reached => ?_
  exact (second value after reached.2).mono (fun _ _ ended => ⟨reached.1.trans ended.1, ended.2⟩)
    fun _ _ failed => ⟨reached.1.trans failed.1, failed.2⟩

/-- What follows a look at the machine knows the machine. -/
theorem Leads.get_bind {next : Machine → Action α} {promised : α → Machine → Prop}
    (second : Leads config (next machine) machine promised) :
    Leads config (MonadState.get >>= next) machine promised := second

theorem Leads.mono {step : Action α} {promised weaker : α → Machine → Prop}
    (leads : Leads config step machine promised)
    (weakens : ∀ value after, promised value after → weaker value after) :
    Leads config step machine weaker :=
  Attempt.Ends.mono leads (fun value after reached => ⟨reached.1, weakens value after reached.2⟩)
    fun _ _ => id

/-- What only looks leaves the heap intact. -/
theorem Looks.leads {step : Action α} {promised : α → Prop} (looks : Looks step machine promised)
    (intact : machine.IsIntact config) :
    Leads config step machine fun value after => promised value ∧ after = machine := by
  refine Attempt.Ends.mono looks (fun value after looked => ?_) fun failure after told => ?_
  · obtain ⟨promised, rfl⟩ := looked
    exact ⟨.refl _, promised, rfl⟩
  · obtain ⟨⟨kind, rfl⟩, rfl⟩ := told
    exact ⟨.refl _, intact, Error.not_blamesHeader_of_detail rfl⟩

/-! ### Objects -/

theorem runOn_onMemory_of {step : Attempt Memory α} {result : Except Failure α} {edited : Memory}
    (ran : step.runOn machine.memory = (result, edited)) :
    (onMemory step).runOn machine = (result, { machine with memory := edited }) := by
  rw [onMemory, Attempt.within, Attempt.runOn_ofRun]
  simp only [ran]

theorem IsIntact.isGuarded (intact : machine.IsIntact config) : machine.memory.IsGuarded := by
  obtain ⟨records, held, -⟩ := intact.memory.objects
  exact held.isGuarded intact.memory.below

/-- What spares the program of a memory spares that of the machine. -/
theorem spares_of_ran {step : Attempt Memory α} {result : Except Failure α} {edited : Memory}
    (obeys : step.ObeysFrom Memory.sparing machine.memory) (guarded : machine.memory.IsGuarded)
    (ran : step.runOn machine.memory = (result, edited)) :
    machine.SparesProgram config { machine with memory := edited } := by
  cases result with
  | error failure => exact fun _ => (obeys.fails ran guarded).2
  | ok value => exact fun _ => (obeys.moves ran guarded).2

theorem leads_lookup (intact : machine.IsIntact config) (kind : ObjectKind) (name : Name) :
    Leads config (lookup kind name) machine fun found after => after.IsIntact config ∧
      ∀ payload, found = some payload → ∃ record, record.Is kind name ∧ record.IsWellFormed ∧
        after.Holds config payload record := by
  refine .of_ok rfl (spares_of_ran (Memory.sparing_lookup kind name _) intact.isGuarded rfl)
    ⟨⟨intact.config_eq, intact.memory.find kind name⟩, fun payload found => ?_⟩
  obtain ⟨record, is, wellFormed, has⟩ := intact.memory.exists_record found
  exact ⟨record, is, wellFormed, intact.config_eq, has⟩

/-- A new object is a payload of zeros. -/
theorem leads_allocate (intact : machine.IsIntact config) (kind : ObjectKind) (name : Name)
    (size : Nat) :
    Leads config (onMemory (Memory.allocate kind name size)) machine fun start after =>
      ∃ record, record.Is kind name ∧
        kind.payloadLength? size (AddressWidth.forSize config.memorySize) =
          some record.payload.length ∧
        record.payload = List.replicate record.payload.length 0 ∧
        after.Holds config { start, length := record.payload.length } record := by
  have made := intact.memory.allocate kind name size
  rcases ran : (Memory.allocate kind name size).runOn machine.memory with ⟨failure | start, edited⟩
  all_goals
    rw [ran] at made
    have spares : machine.SparesProgram config _ :=
      spares_of_ran (Memory.sparing_allocate kind name size _) intact.isGuarded ran
  · obtain ⟨kept, error, rfl⟩ := made
    exact .of_error (runOn_onMemory_of ran) spares ⟨intact.config_eq, kept⟩
      (Error.not_blamesHeader_of_detail rfl)
  · obtain ⟨record, is, length, zeros, has⟩ := made
    exact .of_ok (runOn_onMemory_of ran) spares ⟨record, is, length, zeros, intact.config_eq, has⟩

/-- An object is above the program. -/
theorem Holds.spares_write (holds : machine.Holds config payload record) (offset : Nat)
    {data : Bytes} {edited : Memory}
    (ran : (Memory.write (payload.start + offset) data).runOn machine.memory = (.ok (), edited)) :
    machine.SparesProgram config { machine with memory := edited } := by
  obtain ⟨newer, older, held, -, rfl⟩ := holds.memory.held
  have total := held.size_eq
  rw [holds.memory.size_eq] at total
  simp only [HeapRecord.image_append, HeapRecord.image_cons, List.length_append,
    HeapRecord.length_bytes] at total
  have below := holds.memory.below
  refine spares_of_ran (Memory.sparing_of_writing (Memory.writing_write ?_ data))
    (held.isGuarded below) ran
  dsimp only
  omega

/-- Writing into a payload changes the record. -/
theorem leads_write (holds : machine.Holds config payload record) (offset : Nat) (data : Bytes)
    (within : offset + data.length ≤ payload.length) :
    Leads config (onMemory (Memory.write (payload.start + offset) data)) machine fun _ after =>
      after.Holds config payload (record.written offset data) := by
  obtain ⟨edited, ran, has⟩ := holds.memory.write within
  exact .of_ok (runOn_onMemory_of ran) (holds.spares_write offset ran) ⟨holds.config_eq, has⟩

theorem leads_writeAddress (holds : machine.Holds config payload record) (offset address : Nat)
    (within : offset + (AddressWidth.forSize config.memorySize).byteCount ≤ payload.length) :
    Leads config (onMemory (Memory.writeAddress (payload.start + offset) address)) machine
      fun _ after => after.Holds config payload
        (record.written offset ((AddressWidth.forSize config.memorySize).encode address)) := by
  have within' : offset + ((AddressWidth.forSize config.memorySize).encode address).length ≤
      payload.length := by
    rwa [AddressWidth.length_encode]
  obtain ⟨edited, ran, has⟩ := holds.memory.write within'
  have ran' : (Memory.writeAddress (payload.start + offset) address).runOn machine.memory =
      (.ok (), edited) := by
    rw [Memory.runOn_writeAddress, holds.width_eq]
    exact ran
  exact .of_ok (runOn_onMemory_of ran') (holds.spares_write offset ran) ⟨holds.config_eq, has⟩

/-- The address at the end of a payload. -/
theorem leads_addressAt_end (holds : machine.Holds config payload record) {start address : Nat}
    (ends : record.payload.drop start = (AddressWidth.forSize config.memorySize).encode address)
    (fits : address ≤ (AddressWidth.forSize config.memorySize).largest) :
    Leads config (addressAt (payload.start + start)) machine fun value after =>
      address = value ∧ after.Holds config payload record := by
  refine .get_bind ?_
  rw [holds.memory.addressAt?_end ends fits]
  exact .pure ⟨rfl, holds⟩

theorem leads_addressSize (holds : machine.Holds config payload record) :
    Leads config addressSize machine fun width after =>
      width = (AddressWidth.forSize config.memorySize).byteCount ∧
        after.Holds config payload record :=
  .get_bind (.pure ⟨by rw [holds.width_eq], holds⟩)

/-! ### Reading -/

theorem leads_numberAt {address : Nat} (inside : address + numberSize ≤ machine.memory.size) :
    Leads config (numberAt address) machine fun _ after => after = machine := by
  obtain ⟨value, there⟩ := Memory.exists_numberAt? inside
  refine .get_bind ?_
  rw [there]
  exact .pure rfl

theorem leads_addressAt {address : Nat}
    (inside : address + machine.memory.width.byteCount ≤ machine.memory.size) :
    Leads config (addressAt address) machine fun _ after => after = machine := by
  obtain ⟨value, there⟩ := Memory.exists_addressAt? inside
  refine .get_bind ?_
  rw [there]
  exact .pure rfl

theorem leads_byteAt {address : Nat} (inside : address < machine.memory.size) :
    Leads config (byteAt address) machine fun _ after => after = machine := by
  obtain ⟨byte, there⟩ := Memory.exists_peek? inside
  refine .get_bind ?_
  rw [there]
  exact .pure rfl

/-- A payload ends inside memory. -/
theorem Holds.stop_le (holds : machine.Holds config payload record) :
    payload.start + payload.length ≤ machine.memory.size := by
  rw [holds.memory.size_eq]
  exact holds.memory.stop_le

/-! ### Scalars -/

/-- **The number of a scalar lies inside memory.** -/
theorem leads_storedScalar? (intact : machine.IsIntact config) (name : Name) :
    Leads config (storedScalar? name) machine fun _ after => after.IsIntact config := by
  refine (leads_lookup intact .scalar name).bind fun found after there => ?_
  cases found with
  | none => exact .pure there.1
  | some payload =>
    obtain ⟨record, is, wellFormed, holds⟩ := there.2 payload rfl
    have length := holds.memory.length_eq.trans (record.number is.1)
    have stop := holds.stop_le
    refine (leads_numberAt (by omega)).bind fun _ _ same => ?_
    subst same
    exact .pure there.1

/-- Assigning to an object whose payload is a number. -/
theorem leads_setNumberAt_scalar (holds : machine.Holds config payload record)
    (kind : record.kind = .scalar) (value : Single) :
    Leads config (setNumberAt payload.start value) machine fun _ after =>
      after.IsIntact config := by
  refine (leads_write holds 0 value.toBytes ?_).mono fun _ after kept => ?_
  · rw [holds.memory.length_eq, record.number kind]
    exact Nat.le_of_eq (Nat.zero_add _)
  · exact kept.isIntact (HeapRecord.isWellFormed_of_scalar
      ((HeapRecord.kind_written _ _ _).trans kind))

theorem leads_storeScalar (intact : machine.IsIntact config) (name : Name) (value : Single) :
    Leads config (storeScalar name value) machine fun _ after => after.IsIntact config := by
  refine (leads_lookup intact .scalar name).bind fun found after there => ?_
  cases found with
  | none =>
    refine (leads_allocate there.1 .scalar name 0).bind fun start after made => ?_
    obtain ⟨record, is, -, -, holds⟩ := made
    exact leads_setNumberAt_scalar holds is.1 value
  | some payload =>
    obtain ⟨record, is, -, holds⟩ := there.2 payload rfl
    exact leads_setNumberAt_scalar holds is.1 value

/-! ### Subscripts -/

/-- A subscript that is not refused is the place of an element, also if it is no number. -/
theorem leads_place (intact : machine.IsIntact config) (subscript : Single) {count : Nat}
    (some : 0 < count) :
    Leads config (place subscript count) machine fun place after =>
      place < count ∧ after = machine :=
  (looks_place (.inl some)).leads intact

/-- Payloads are so short that words do not wrap. -/
theorem Holds.stop_lt [sound : config.IsSound] (holds : machine.Holds config payload record) :
    payload.start + payload.length < Address.modulus := by
  have stop := holds.memory.stop_le
  have half := sound.memorySize_lt
  omega

/-! ### Arrays -/

/-- The end of the payload of an array is the number of its columns, from which the number of rows
follows. -/
theorem array_parts {rows columns width : Nat} (columnsPositive : 0 < columns)
    (small : rows * columns * numberSize + width < Address.modulus) :
    Address.minus (rows * columns * numberSize + width) width / numberSize / columns = rows := by
  rw [Address.minus_of_le (Nat.le_add_left _ _) small, Nat.add_sub_cancel,
    Nat.mul_div_cancel _ (by decide), Nat.mul_div_cancel _ columnsPositive]

theorem leads_createArray (intact : machine.IsIntact config) (name : Name) {rows columns : Nat}
    (rowsPositive : 0 < rows) (columnsPositive : 0 < columns) :
    Leads config (createArray name rows columns) machine fun _ after => after.IsIntact config := by
  refine (leads_allocate intact .array name _).bind fun start after made => ?_
  obtain ⟨record, is, length, -, holds⟩ := made
  have total : record.payload.length = rows * columns * numberSize +
      (AddressWidth.forSize config.memorySize).byteCount :=
    ObjectKind.length_of_payloadLength? length
  refine (leads_writeAddress holds _ columns ?_).mono fun _ after kept => ?_
  · exact Nat.le_of_eq total.symm
  · exact kept.isIntact
      ((HeapRecord.isArray_written rowsPositive columnsPositive total).isWellFormed
        ((HeapRecord.kind_written _ _ _).trans is.1))

theorem leads_arrayPayload [sound : config.IsSound] (intact : machine.IsIntact config)
    (name : Name) :
    Leads config (arrayPayload name) machine fun payload after =>
      ∃ record rows columns, record.kind = .array ∧ record.IsArray rows columns ∧
        after.Holds config payload record := by
  refine (leads_lookup intact .array name).bind fun found after there => ?_
  have known {found : Option Extent} {after : Machine} (there : after.IsIntact config ∧
      ∀ payload, found = some payload → ∃ record, record.Is .array name ∧ record.IsWellFormed ∧
        after.Holds config payload record) {payload : Extent} (same : found = some payload) :
      ∃ record rows columns, record.kind = .array ∧ record.IsArray rows columns ∧
        after.Holds config payload record := by
    obtain ⟨record, is, wellFormed, holds⟩ := there.2 payload same
    obtain ⟨rows, columns, array⟩ := wellFormed.array is.1
    exact ⟨record, rows, columns, is.1, array, holds⟩
  cases found with
  | some payload => exact .pure (known there rfl)
  | none =>
    refine .get_bind ?_
    rw [there.1.config_eq]
    refine (leads_createArray there.1 name sound.arraySize_pos Nat.one_pos).bind
      fun _ created intact => ?_
    refine (leads_lookup intact .array name).bind fun found after there => ?_
    cases found with
    | some payload => exact .pure (known there rfl)
    | none => exact .fail there.1 _

/-- What is promised of the address of an element. -/
def IsElement (config : Config) (address : Nat) (machine : Machine) : Prop :=
  ∃ payload record rows columns offset, record.kind = .array ∧ record.IsArray rows columns ∧
    machine.Holds config payload record ∧ address = payload.start + offset ∧
    offset + numberSize ≤ rows * columns * numberSize

theorem IsElement.isIntact {address : Nat} (element : IsElement config address machine) :
    machine.IsIntact config := by
  obtain ⟨payload, record, rows, columns, offset, kind, array, holds, -⟩ := element
  exact holds.isIntact (array.isWellFormed kind)

/-- **The address of an element lies among the elements of an array.** -/
theorem leads_elementAddress [sound : config.IsSound] (intact : machine.IsIntact config)
    (name : Name) (row : Single) (column : Option Single) :
    Leads config (elementAddress name row column) machine (IsElement config) := by
  refine (leads_arrayPayload intact name).bind fun payload found there => ?_
  obtain ⟨record, rows, columns, kind, array, holds⟩ := there
  have stop := holds.stop_lt
  have length := holds.memory.length_eq.trans array.length
  have ends : payload.start + payload.length - (AddressWidth.forSize config.memorySize).byteCount =
      payload.start + rows * columns * numberSize := by
    rw [length]
    omega
  refine (leads_addressSize holds).bind fun width after sized => ?_
  obtain ⟨rfl, holds⟩ := sized
  rw [ends]
  refine (leads_addressAt_end holds array.columns_at array.columns_le).bind fun _ after read => ?_
  obtain ⟨rfl, holds⟩ := read
  rw [if_neg (Nat.ne_of_gt array.columns_pos), length,
    array_parts array.columns_pos (by omega)]
  have intact := holds.isIntact (array.isWellFormed kind)
  refine (leads_place intact row array.rows_pos).bind fun row after placed => ?_
  obtain ⟨rowInside, rfl⟩ := placed
  have finish (column : Nat) (inside : column < columns) :
      Leads config (Pure.pure (Address.wrap (payload.start +
        (row * columns + column) * numberSize)) : Action Nat) after (IsElement config) := by
    have bounds := element_bounds rowInside inside
    refine .pure ⟨payload, record, rows, columns, _, kind, array, holds, ?_, bounds⟩
    exact Address.wrap_of_lt (by omega)
  cases column with
  | none => exact finish 0 array.columns_pos
  | some column =>
    refine (leads_place intact column array.columns_pos).bind fun column _ placed => ?_
    obtain ⟨inside, rfl⟩ := placed
    exact finish column inside

/-- **The number of an element lies inside memory.** -/
theorem leads_loadElement [config.IsSound] (intact : machine.IsIntact config) (name : Name)
    (row : Single) (column : Option Single) :
    Leads config (do numberAt (← elementAddress name row column)) machine
      fun _ after => after.IsIntact config := by
  refine (leads_elementAddress intact name row column).bind fun address after element => ?_
  have intact := element.isIntact
  obtain ⟨payload, record, rows, columns, offset, kind, array, holds, rfl, inside⟩ := element
  have length := holds.memory.length_eq.trans array.length
  have stop := holds.stop_le
  refine (leads_numberAt (by omega)).mono fun _ _ same => ?_
  subst same
  exact intact

/-- **Assigning to an element writes into the elements of an array.** -/
theorem leads_storeElement [config.IsSound] (intact : machine.IsIntact config) (name : Name)
    (row : Single) (column : Option Single) (value : Single) :
    Leads config (do setNumberAt (← elementAddress name row column) value) machine
      fun _ after => after.IsIntact config := by
  refine (leads_elementAddress intact name row column).bind fun address after element => ?_
  obtain ⟨payload, record, rows, columns, offset, kind, array, holds, rfl, inside⟩ := element
  have length := holds.memory.length_eq.trans array.length
  refine (leads_write holds offset value.toBytes ?_).mono
    fun _ after kept => ?_
  · rw [length]
    exact Nat.le_trans inside (Nat.le_add_right _ _)
  · exact kept.isIntact ((array.written inside).isWellFormed
      ((HeapRecord.kind_written _ _ _).trans kind))

/-! ### Strings -/

theorem leads_createString (intact : machine.IsIntact config) (name : Name) (capacity : Nat)
    {count : Nat} (positive : 0 < count) :
    Leads config (createString name capacity count) machine
      fun _ after => after.IsIntact config := by
  rw [createString]
  split
  · exact .fail intact _
  · rename_i short
    refine (leads_allocate intact .string name _).bind fun start after made => ?_
    obtain ⟨record, is, length, zeros, holds⟩ := made
    have total : record.payload.length = (capacity + 1) * count +
        (AddressWidth.forSize config.memorySize).byteCount :=
      ObjectKind.length_of_payloadLength? length
    refine (leads_writeAddress holds _ count ?_).mono fun _ after kept => ?_
    · exact Nat.le_of_eq total.symm
    · refine kept.isIntact ((HeapRecord.isString_written positive (Nat.not_lt.mp short)
        ?_).isWellFormed ((HeapRecord.kind_written _ _ _).trans is.1))
      rw [← total]
      exact zeros

/-- What is promised of the slot of an element. -/
def IsSlot (config : Config) (slot : StringSlot) (machine : Machine) : Prop :=
  ∃ payload record capacity count place, record.kind = .string ∧
    record.IsString capacity count ∧ machine.Holds config payload record ∧ place < count ∧
    slot = { address := payload.start + place * (capacity + 1), capacity }

/-- The end of the payload of a string is the number of its elements, from which the room of each
follows. -/
theorem string_parts {capacity count width : Nat} (positive : 0 < count)
    (small : (capacity + 1) * count + width < Address.modulus) :
    Address.minus ((capacity + 1) * count + width) width / count = capacity + 1 := by
  rw [Address.minus_of_le (Nat.le_add_left _ _) small, Nat.add_sub_cancel,
    Nat.mul_div_cancel _ positive]

theorem leads_slotOf [config.IsSound] (kind : record.kind = .string) {capacity count : Nat}
    (string : record.IsString capacity count) (holds : machine.Holds config payload record)
    (index : Option Single) :
    Leads config (slotOf payload index) machine (IsSlot config) := by
  have stop := holds.stop_lt
  have length := holds.memory.length_eq.trans string.length
  have ends : payload.start + payload.length - (AddressWidth.forSize config.memorySize).byteCount =
      payload.start + (capacity + 1) * count := by
    rw [length]
    omega
  refine (leads_addressSize holds).bind fun width after sized => ?_
  obtain ⟨rfl, holds⟩ := sized
  rw [ends]
  refine (leads_addressAt_end holds string.count_at string.count_le).bind fun _ after read => ?_
  obtain ⟨rfl, holds⟩ := read
  rw [if_neg (Nat.ne_of_gt string.count_pos), length,
    string_parts string.count_pos (by omega)]
  have intact := holds.isIntact (string.isWellFormed kind)
  have finish (place : Nat) (inside : place < count) :
      Leads config (Pure.pure { address := Address.wrap (payload.start + place * (capacity + 1))
                                capacity := Address.minus (capacity + 1) 1 } : Action StringSlot)
        after (IsSlot config) := by
    have bounds : _ ≤ (capacity + 1) * count := HeapRecord.place_le inside
    refine .pure ⟨payload, record, capacity, count, place, kind, string, holds, inside, ?_⟩
    rw [Address.wrap_of_lt (by omega), Address.minus_of_le (by omega) (by omega),
      Nat.add_sub_cancel]
  cases index with
  | none => exact finish 0 string.count_pos
  | some index =>
    refine (leads_place intact index string.count_pos).bind fun place _ placed => ?_
    obtain ⟨inside, rfl⟩ := placed
    exact finish place inside

/-- The slot of a string that was found. -/
theorem leads_slotOf_found [config.IsSound] {found : Option Extent}
    (there : machine.IsIntact config ∧ ∀ payload, found = some payload → ∃ record,
      record.Is .string name ∧ record.IsWellFormed ∧ machine.Holds config payload record)
    {payload : Extent} (same : found = some payload) (index : Option Single) :
    Leads config (slotOf payload index) machine (IsSlot config) := by
  obtain ⟨record, is, wellFormed, holds⟩ := there.2 payload same
  obtain ⟨capacity, count, string⟩ := wellFormed.string is.1
  exact leads_slotOf is.1 string holds index

theorem IsSlot.isIntact {slot : StringSlot} (isSlot : IsSlot config slot machine) :
    machine.IsIntact config := by
  obtain ⟨payload, record, capacity, count, place, kind, string, holds, -⟩ := isSlot
  exact holds.isIntact (string.isWellFormed kind)

/-- A slot ends inside memory. -/
theorem IsSlot.inside {slot : StringSlot} (isSlot : IsSlot config slot machine) :
    slot.address + 1 + slot.capacity ≤ machine.memory.size := by
  obtain ⟨payload, record, capacity, count, place, kind, string, holds, inside, rfl⟩ := isSlot
  have bounds : _ ≤ (capacity + 1) * count := HeapRecord.place_le inside
  have length := holds.memory.length_eq.trans string.length
  have stop := holds.stop_le
  dsimp only
  omega

theorem leads_existingSlot [config.IsSound] (intact : machine.IsIntact config) (name : Name)
    (index : Option Single) :
    Leads config (existingSlot name index) machine fun slot after =>
      after.IsIntact config ∧ ∀ found, slot = some found → IsSlot config found after := by
  refine (leads_lookup intact .string name).bind fun found after there => ?_
  cases found with
  | some payload =>
    refine (leads_slotOf_found there rfl index).bind fun slot after isSlot => ?_
    exact .pure ⟨isSlot.isIntact, fun _ same => Option.some.inj same ▸ isSlot⟩
  | none => exact .pure ⟨there.1, nofun⟩

theorem leads_assignableSlot [config.IsSound] (intact : machine.IsIntact config) (name : Name)
    (index : Option Single) :
    Leads config (assignableSlot name index) machine (IsSlot config) := by
  refine (leads_lookup intact .string name).bind fun found after there => ?_
  cases found with
  | some payload => exact leads_slotOf_found there rfl index
  | none =>
    refine .get_bind ((leads_createString there.1 name _ Nat.one_pos).bind
      fun _ created intact => ?_)
    refine (leads_lookup intact .string name).bind fun found after there => ?_
    cases found with
    | some payload => exact leads_slotOf_found there rfl index
    | none => exact .fail there.1 _

/-- **The part of a string that is read lies inside memory.** -/
theorem leads_readSlot {slot : StringSlot} (isSlot : IsSlot config slot machine)
    (selector : Selector) :
    Leads config (readSlot slot selector) machine fun _ after => after = machine :=
  ((looks_readSlot isSlot.inside selector).leads isSlot.isIntact).mono fun _ _ => And.right

theorem leads_loadText [config.IsSound] (intact : machine.IsIntact config) (name : Name)
    (selector : Selector) : Leads config (do
      match ← existingSlot name selector.index with
      | some slot => readSlot slot selector
      | none => return []) machine fun _ after => after.IsIntact config := by
  refine (leads_existingSlot intact name _).bind fun slot after there => ?_
  cases slot with
  | none => exact .pure there.1
  | some slot =>
    refine (leads_readSlot (there.2 slot rfl) selector).mono fun _ _ same => ?_
    subst same
    exact there.1

/-- **Assigning to a part of a string writes into one element of it.** -/
theorem leads_writeSlot {slot : StringSlot} (isSlot : IsSlot config slot machine)
    (selector : Selector) (source : Bytes) :
    Leads config (writeSlot slot selector source) machine
      fun _ after => after.IsIntact config := by
  have intact := isSlot.isIntact
  have slotInside := isSlot.inside
  refine ((looks_slotLength (by omega)).leads intact).bind fun length _ measured => ?_
  obtain ⟨lengthFits, rfl⟩ := measured
  obtain ⟨payload, record, capacity, count, place, kind, string, holds, inside, rfl⟩ := isSlot
  refine ((looks_splice selector lengthFits _).leads intact).bind fun part _ spliced => ?_
  obtain ⟨partFits, rfl⟩ := spliced
  split
  · exact .fail intact _
  · rename_i room
    have fits : part.start + part.count ≤ capacity := Nat.not_lt.mp room
    have bounds : _ ≤ (capacity + 1) * count := HeapRecord.place_le inside
    have payloadLength := holds.memory.length_eq.trans string.length
    have taken : (source.take part.count).length ≤ part.count := List.length_take_le _ _
    have textFits : part.start + (source.take part.count).length ≤ capacity := by omega
    have text := string.written_text inside textFits
    have first := leads_write holds (place * (capacity + 1) + 1 + part.start)
      (source.take part.count) (by omega)
    simp only [← Nat.add_assoc] at first
    refine first.bind fun _ after kept => ?_
    have small : part.length.toUInt8.toNat ≤ capacity :=
      Nat.le_trans (Nat.mod_le _ _) (partFits fits)
    refine (leads_write kept (place * (capacity + 1)) [part.length.toUInt8]
      (by rw [List.length_singleton]; omega)).mono fun _ after kept => ?_
    exact kept.isIntact ((text.written_length inside small).isWellFormed (by
      rw [HeapRecord.kind_written, HeapRecord.kind_written, kind]))

theorem leads_storeText [config.IsSound] (intact : machine.IsIntact config) (name : Name)
    (selector : Selector) (source : Bytes) :
    Leads config (do writeSlot (← assignableSlot name selector.index) selector source) machine
      fun _ after => after.IsIntact config :=
  (leads_assignableSlot intact name _).bind fun _ _ isSlot => leads_writeSlot isSlot selector source

/-! ### Functions -/

/-- **What is known of a function lies inside memory.** -/
theorem leads_definition (intact : machine.IsIntact config) (name : Name) :
    Leads config (Evaluator.definition name) machine fun _ after => after.IsIntact config := by
  refine (leads_lookup intact .function name).bind fun found after there => ?_
  cases found with
  | none => exact .bind (.fail there.1 _) fun _ _ => False.elim
  | some payload =>
    obtain ⟨record, is, wellFormed, holds⟩ := there.2 payload rfl
    have length := holds.memory.length_eq.trans (wellFormed.function is.1)
    have stop := holds.stop_le
    have width := holds.width_eq
    show Leads config (do
      let entry ← addressAt payload.start
      let width ← addressSize
      let first ← byteAt (payload.start + width)
      let second ← byteAt (payload.start + width + 1)
      return (entry, (⟨first, second⟩ : Name))) after _
    refine (leads_addressAt (by rw [width]; omega)).bind fun _ _ same => ?_
    subst same
    refine (leads_addressSize holds).bind fun _ _ sized => ?_
    obtain ⟨rfl, holds⟩ := sized
    have stop := holds.stop_le
    refine (leads_byteAt (by omega)).bind fun _ _ same => ?_
    subst same
    refine (leads_byteAt (by omega)).bind fun _ _ same => ?_
    subst same
    exact .pure (holds.isIntact wellFormed)

theorem leads_storeFunction (intact : machine.IsIntact config) (name : Name) (entry : Nat)
    (parameter : Name) :
    Leads config (storeFunction name entry parameter (Pure.pure ())) machine
      fun _ after => after.IsIntact config := by
  have store {machine : Machine} {payload : Extent}
      {record : HeapRecord (AddressWidth.forSize config.memorySize)}
      (kind : record.kind = .function)
      (length : record.payload.length = (AddressWidth.forSize config.memorySize).byteCount + 2)
      (holds : machine.Holds config payload record) : Leads config (do
        let width ← addressSize
        onMemory (Memory.writeAddress payload.start entry)
        onMemory (Memory.write (payload.start + width) parameter.bytes)
        Pure.pure ()) machine fun _ after => after.IsIntact config := by
    have whole := holds.memory.length_eq.trans length
    refine (leads_addressSize holds).bind fun width after sized => ?_
    obtain ⟨rfl, holds⟩ := sized
    refine (leads_writeAddress holds 0 entry (by omega)).bind fun _ after kept => ?_
    refine (leads_write kept _ parameter.bytes (by rw [whole]; exact Nat.le_refl _)).bind
      fun _ after kept => .pure (kept.isIntact (HeapRecord.isWellFormed_of_function ?_ ?_))
    · rw [HeapRecord.kind_written, HeapRecord.kind_written, kind]
    · rw [HeapRecord.length_payload_written, HeapRecord.length_payload_written, length]
  refine (leads_lookup intact .function name).bind fun found after there => ?_
  cases found with
  | some payload =>
    obtain ⟨record, is, wellFormed, holds⟩ := there.2 payload rfl
    exact store is.1 (wellFormed.function is.1) holds
  | none =>
    refine (leads_allocate there.1 .function name 0).bind fun start after made => ?_
    obtain ⟨record, is, length, -, holds⟩ := made
    have stored := store is.1 (ObjectKind.length_of_payloadLength? length) holds
    exact stored

/-! ### Free cells -/

/-- From an address of a memory of less than half of all addresses, the way down by no more than
twice the address ends below it, or else around all addresses and behind the memory. -/
theorem minus_double {whole part size : Nat} (inside : whole ≤ size)
    (half : 2 * size < Address.modulus) (double : part ≤ 2 * whole) :
    Address.minus whole part + part = whole ∨ size ≤ Address.minus whole part := by
  rcases Nat.lt_or_ge whole part with far | near
  · have short : part < Address.modulus := by omega
    rw [Address.minus, Address.wrap_of_lt short, Address.wrap_of_lt (by omega)]
    omega
  · rw [Address.minus_of_le near (by omega)]
    omega

/-- Cells whose numbers are exact have room. -/
theorem cells_le {index : Single} {room : Nat} (small : room ≤ numberSize * Single.exactLimit)
    (inside : (Single.ofNat (room / numberSize)).less index = false) :
    numberSize * index.toSize ≤ room :=
  calc numberSize * index.toSize ≤ numberSize * (room / numberSize) :=
        Nat.mul_le_mul_left _ (Single.toSize_le_of_exact (Nat.div_le_of_le_mul small) inside)
    _ ≤ room := Nat.mul_div_le _ _

/-- A free cell lies below the heap, or behind a memory whose cells have no exact numbers. Where
they have, it lies above the program. -/
theorem leads_freeCell [sound : config.IsSound] (intact : machine.IsIntact config)
    (index : Single) :
    Leads config (freeCell index) machine fun address after =>
      (address + numberSize ≤ machine.memory.himem ∧
          (config.memorySize ≤ numberSize * Single.exactLimit → machine.memory.top ≤ address) ∨
        machine.memory.size ≤ address ∧ numberSize * Single.exactLimit < config.memorySize) ∧
        after = machine := by
  refine .get_bind ?_
  dsimp only
  split
  · exact .fail intact _
  · rename_i allowed
    rw [Bool.or_eq_true, not_or, Bool.not_eq_true, Bool.not_eq_true] at allowed
    have least := Single.one_le_toSize (by simpa using allowed.1)
    have most := Single.toSize_le_double allowed.2
    have free : machine.memory.free ≤ machine.memory.himem := Nat.sub_le _ _
    have exact (small : config.memorySize ≤ numberSize * Single.exactLimit) :
        numberSize * index.truncate.toSize ≤ machine.memory.free := by
      have inside := intact.memory.size_eq ▸ intact.memory.inside
      exact cells_le (by omega) allowed.2
    have cells := Nat.div_mul_le_self machine.memory.free numberSize
    generalize index.truncate.toSize = place at least most exact
    have near : numberSize * place ≤ 2 * machine.memory.himem := by
      calc numberSize * place ≤ numberSize * (2 * (machine.memory.free / numberSize)) :=
            Nat.mul_le_mul_left _ most
        _ = 2 * (machine.memory.free / numberSize * numberSize) := by ring
        _ ≤ 2 * machine.memory.himem :=
            Nat.mul_le_mul_left 2 (Nat.le_trans cells free)
    have step : numberSize ≤ numberSize * place := Nat.le_mul_of_pos_right _ least
    refine .pure ⟨?_, rfl⟩
    rcases minus_double intact.memory.inside
      (intact.memory.size_eq ▸ sound.memorySize_lt) near
      with below | outside
    · have room : machine.memory.free = machine.memory.himem - machine.memory.top := rfl
      refine .inl ⟨by omega, fun small => ?_⟩
      have above := exact small
      have tops := intact.memory.below
      omega
    · refine .inr ⟨outside, Nat.lt_of_not_le fun small => ?_⟩
      have inside := intact.memory.inside
      have fits := Nat.le_trans (exact small) free
      have half := sound.memorySize_lt
      have size := intact.memory.size_eq
      rw [Address.minus_of_le fits (by omega)] at outside
      have some : 0 < numberSize := by decide
      omega

/-- **The number of a free cell lies inside memory**, if all cells have exact numbers. -/
theorem leads_loadFreeCell [config.IsSound] (intact : machine.IsIntact config) (index : Single) :
    Leads config (do numberAt (← freeCell index)) machine fun _ after => after.IsIntact config := by
  refine (leads_freeCell intact index).bind fun address _ cell => ?_
  obtain ⟨⟨below, -⟩ | ⟨-, large⟩, rfl⟩ := cell
  · have inside := intact.memory.inside
    refine (leads_numberAt (by omega)).mono fun _ _ same => ?_
    subst same
    exact intact
  · refine .get_bind ?_
    cases (Memory.numberAt? _ address) with
    | none => exact .of_error rfl (.refl _) intact large
    | some value => exact .pure intact

/-- **Assigning to a free cell writes below the heap**, or nowhere. -/
theorem leads_storeFreeCell [config.IsSound] (intact : machine.IsIntact config)
    (index value : Single) :
    Leads config (do setNumberAt (← freeCell index) value) machine
      fun _ after => after.IsIntact config := by
  refine (leads_freeCell intact index).bind fun address _ cell => ?_
  obtain ⟨⟨below, above⟩ | ⟨outside, large⟩, rfl⟩ := cell
  · obtain ⟨edited, ran, kept⟩ := @Memory.write_keepsHeap _ intact.memory.below intact.memory.inside
      address value.toBytes below
    refine .of_ok (runOn_onMemory_of ran) (fun small => ?_)
      ⟨intact.config_eq, intact.memory.of_keepsHeap kept⟩
    have writes := Memory.sparing_of_writing (Memory.writing_write (above small) value.toBytes)
    exact (writes.moves ran intact.isGuarded).2
  · rename_i machine
    have refused : ¬ address + value.toBytes.length ≤ machine.memory.size :=
      Nat.not_le.mpr (Nat.lt_of_le_of_lt outside (Nat.lt_add_of_pos_right (Nat.succ_pos 3)))
    have ran : (Memory.writeNumber address value).runOn machine.memory =
        (.error .fault, machine.memory) := by
      rw [Memory.writeNumber, Memory.write, Attempt.runOn_get_bind, if_neg refused,
        Attempt.runOn_throw]
    exact .of_error (runOn_onMemory_of ran) (.refl machine) intact large

end Machine

end PocketBasic
