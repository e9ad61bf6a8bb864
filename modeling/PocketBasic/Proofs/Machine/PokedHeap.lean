/-
**Access to a heap that was poked.** A program can put any bytes into the heap with `POKE`, and the
headers, lengths and dimensions that elements and parts of strings go by are such bytes. Looking for
objects and making them survives all of them. What works on an object that was found survives if the
object ends inside memory and its dimensions fit into it; the walk over the heap does not check
that.

* `Machine.Survives`: where a step leads in a memory of any bytes;
* `Memory.HoldsArray`, `Memory.HoldsString`: an object that elements can be worked out from;
* `Machine.UsesHeap`: access to the heap, with what it needs of the object that it finds;
* **`Machine.heap_access_survives_pokes`**: access to a heap of any bytes.
-/

import Mathlib.Tactic.Common
import PocketBasic.Proofs.Machine.Robustness
import PocketBasic.Proofs.Memory.AnyBytes

namespace PocketBasic

/-! ### Words -/

/-- A difference is no more than without a way around zero. -/
theorem Address.minus_le {whole part : Nat} (ordered : part ≤ whole) (fits : part < modulus) :
    minus whole part ≤ whole - part := by
  have shifted : whole + (modulus - part) = whole - part + modulus := by omega
  rw [minus, wrap_of_lt fits, shifted, wrap, Nat.add_mod_right]
  exact Nat.mod_le _ _

theorem AddressWidth.byteCount_lt (width : AddressWidth) : width.byteCount < Address.modulus := by
  cases width <;> decide

theorem AddressWidth.largest_bounds (width : AddressWidth) :
    1 ≤ width.largest ∧ width.largest < Address.modulus := by
  cases width <;> decide

/-! ### Objects in any bytes -/

namespace Memory

/-- An array whose bytes are inside memory, the number of its columns among them. If the row that is
asked for need not be a number, the array has a row. -/
structure HoldsArray (memory : Memory) (number : Prop) (payload : Extent) : Prop where
  inside : payload.start + payload.length ≤ memory.size
  trailer : memory.width.byteCount ≤ payload.length
  row : number ∨ ∀ columns,
    memory.addressAt? (payload.start + payload.length - memory.width.byteCount) = some columns →
      columns * numberSize ≤ Address.minus payload.length memory.width.byteCount

/-- A string whose bytes are inside memory, the number of its elements among them, and each element
has a byte. -/
structure HoldsString (memory : Memory) (payload : Extent) : Prop where
  inside : payload.start + payload.length ≤ memory.size
  trailer : memory.width.byteCount ≤ payload.length
  slots : ∀ count,
    memory.addressAt? (payload.start + payload.length - memory.width.byteCount) = some count →
      count ≤ Address.minus payload.length memory.width.byteCount

/-- What stands at the end of a new object, and how much stands in front of it. -/
theorem counted_of_made {memory : Memory} {start bytes count : Nat}
    (small : bytes + memory.width.byteCount ≤ memory.width.largest)
    (read : memory.addressAt? (start + bytes) = some count) :
    memory.addressAt? (start + (bytes + memory.width.byteCount) - memory.width.byteCount) =
        some count ∧
      Address.minus (bytes + memory.width.byteCount) memory.width.byteCount = bytes := by
  refine ⟨?_, ?_⟩
  · rwa [← Nat.add_assoc, Nat.add_sub_cancel]
  · rw [Address.minus_of_le (Nat.le_add_left _ _)
      (Nat.lt_of_le_of_lt small memory.width.largest_bounds.2), Nat.add_sub_cancel]

theorem find_eq_recent (memory : Memory) (kind : ObjectKind) (name : Name) :
    ∃ recent, memory.find kind name = ((memory.find kind name).1, { memory with recent }) := by
  obtain ⟨recent, same⟩ := HoldsObjects.find_snd memory kind name
  exact ⟨recent, Prod.ext rfl same⟩

end Memory

namespace Machine

variable {α β : Type} {machine : Machine} {size : Nat} {kind : ObjectKind} {name : Name}
  {payload : Extent}

/-! ### Surviving -/

/-- Whether a step leads to what is promised, or to an error of the language in a memory that is
still ordered. -/
def Survives (size : Nat) (step : Action α) (machine : Machine) (promised : α → Machine → Prop) :
    Prop :=
  step.Ends machine promised fun failure after =>
    failure.IsReported ∧ after.memory.IsOrdered size

theorem Survives.fail {promised : α → Machine → Prop} (ordered : machine.memory.IsOrdered size)
    (kind : ErrorKind) : Survives size (Attempt.fail kind) machine promised := ⟨trivial, ordered⟩

theorem Survives.bind {step : Action α} {next : α → Action β} {middle : α → Machine → Prop}
    {promised : β → Machine → Prop} (first : Survives size step machine middle)
    (second : ∀ value after, middle value after → Survives size (next value) after promised) :
    Survives size (step >>= next) machine promised :=
  Attempt.Ends.bind first second

theorem Survives.mono {step : Action α} {promised weaker : α → Machine → Prop}
    (survives : Survives size step machine promised)
    (weakens : ∀ value after, promised value after → weaker value after) :
    Survives size step machine weaker :=
  Attempt.Ends.mono survives weakens fun _ _ => id

/-- What follows a look at the machine knows the machine. -/
theorem Survives.get_bind {next : Machine → Action α} {promised : α → Machine → Prop}
    (second : Survives size (next machine) machine promised) :
    Survives size (MonadState.get >>= next) machine promised := second

/-- What follows a step that looks starts from the same machine. -/
theorem Looks.survives_bind {step : Action α} {next : α → Action β} {found : α → Prop}
    {promised : β → Machine → Prop} (looks : Looks step machine found)
    (ordered : machine.memory.IsOrdered size)
    (second : ∀ value, found value → Survives size (next value) machine promised) :
    Survives size (step >>= next) machine promised :=
  looks.ends_bind (fun _ => ⟨trivial, ordered⟩) second

theorem Looks.survives {step : Action α} {found : α → Prop} (looks : Looks step machine found)
    (ordered : machine.memory.IsOrdered size) :
    Survives size step machine fun value after => found value ∧ after = machine := by
  refine Attempt.Ends.mono looks (fun _ _ => id) fun failure after told => ?_
  obtain ⟨⟨kind, rfl⟩, rfl⟩ := told
  exact ⟨trivial, ordered⟩

theorem Survives.told {step : Action α} {promised : α → Machine → Prop}
    (survives : Survives size step machine promised)
    (keeps : ∀ value after, promised value after → after.memory.IsOrdered size) :
    Told (step.runOn machine).1 ∧ (step.runOn machine).2.memory.IsOrdered size := by
  rw [Survives, Attempt.Ends] at survives
  rcases ran : step.runOn machine with ⟨failure | value, after⟩
  all_goals rw [ran] at survives
  · exact ⟨told_error.mpr survives.1, survives.2⟩
  · exact ⟨told_ok value, keeps _ _ survives⟩

/-! ### Objects -/

/-- The machine with another memory that differs in what is remembered of objects. -/
def remembering (machine : Machine) (recent : Option (ObjectKind × Name × Extent)) : Machine :=
  { machine with memory := { machine.memory with recent } }

theorem holdsArray_remembering {number : Prop} (holds : machine.memory.HoldsArray number payload)
    (recent : Option (ObjectKind × Name × Extent)) :
    (machine.remembering recent).memory.HoldsArray number payload :=
  ⟨holds.inside, holds.trailer, holds.row⟩

theorem holdsString_remembering (holds : machine.memory.HoldsString payload)
    (recent : Option (ObjectKind × Name × Extent)) :
    (machine.remembering recent).memory.HoldsString payload :=
  ⟨holds.inside, holds.trailer, holds.slots⟩

theorem ordered_remembering (ordered : machine.memory.IsOrdered size)
    (recent : Option (ObjectKind × Name × Extent)) :
    (machine.remembering recent).memory.IsOrdered size :=
  ⟨ordered.size_eq, ordered.below, ordered.inside⟩

/-- What follows a lookup: the object that was found, or none, and all bytes as they were. -/
theorem survives_lookup {next : Option Extent → Action α} {promised : α → Machine → Prop}
    (second : ∀ recent, Survives size (next (machine.memory.find kind name).1)
      (machine.remembering recent) promised) :
    Survives size (lookup kind name >>= next) machine promised := by
  obtain ⟨recent, same⟩ := machine.memory.find_eq_recent kind name
  have ran : (lookup kind name).runOn machine =
      (.ok (machine.memory.find kind name).1, machine.remembering recent) := by
    rw [lookup, runOn_onMemory_of (by rw [Memory.lookup, Attempt.runOn_always, same]), remembering]
  rw [Survives, Attempt.Ends, Attempt.runOn_bind_ok ran]
  exact second recent

/-- A write inside memory. -/
theorem survives_write (ordered : machine.memory.IsOrdered size) {start : Nat} {data : Bytes}
    (inside : start + data.length ≤ size) :
    Survives size (onMemory (Memory.write start data)) machine fun _ after =>
      after.memory.IsOrdered size := by
  rw [← ordered.size_eq] at inside
  obtain ⟨bytes, same, ran, -⟩ := Memory.exists_runOn_write inside
  exact .of_ok (runOn_onMemory_of ran) (ordered.holding same)

theorem survives_writeAddress (ordered : machine.memory.IsOrdered size) {start address : Nat}
    (inside : start + machine.memory.width.byteCount ≤ size) :
    Survives size (onMemory (Memory.writeAddress start address)) machine fun _ after =>
      ∃ bytes : Bytes, bytes.length = machine.memory.size ∧
        after = { machine with memory := machine.memory.holding bytes } ∧
        (address ≤ machine.memory.width.largest →
          after.memory.addressAt? start = some address) := by
  rw [← ordered.size_eq] at inside
  obtain ⟨bytes, same, ran, read⟩ := Memory.exists_runOn_writeAddress inside
  exact .of_ok (runOn_onMemory_of ran) ⟨bytes, same, rfl, read⟩

/-- A new object is remembered. -/
theorem survives_allocate (ordered : machine.memory.IsOrdered size) (kind : ObjectKind)
    (name : Name)
    (count : Nat) :
    Survives size (onMemory (Memory.allocate kind name count)) machine fun start after =>
      after.memory.IsOrdered size ∧ after.config = machine.config ∧
        ∃ length, kind.payloadLength? count machine.memory.width = some length ∧
          after.memory.recent = some (kind, name, ⟨start, length⟩) ∧ start + length ≤ size := by
  rcases ordered.allocate kind name count with
    ⟨error, edited, ran, kept⟩ | ⟨start, length, edited, ran, kept, made, recent, inside⟩
  · exact .of_error (runOn_onMemory_of ran) ⟨trivial, kept⟩
  · exact .of_ok (runOn_onMemory_of ran) ⟨kept, rfl, length, made, recent, inside⟩

theorem width_eq (ordered : machine.memory.IsOrdered size) :
    machine.memory.width = AddressWidth.forSize size :=
  congrArg AddressWidth.forSize ordered.size_eq

/-- A new object with an address behind its elements, as arrays and strings have it. -/
theorem survives_allocate_counted (ordered : machine.memory.IsOrdered size)
    {count bytes address : Nat}
    (sized : ∀ length, kind.payloadLength? count machine.memory.width = some length →
      length = bytes + machine.memory.width.byteCount) :
    Survives size (do
        let start ← onMemory (Memory.allocate kind name count)
        onMemory (Memory.writeAddress (start + bytes) address)) machine fun _ after =>
      after.memory.IsOrdered size ∧ after.config = machine.config ∧ ∃ start,
        after.memory.recent =
          some (kind, name, ⟨start, bytes + after.memory.width.byteCount⟩) ∧
        start + (bytes + after.memory.width.byteCount) ≤ size ∧
        bytes + after.memory.width.byteCount ≤ after.memory.width.largest ∧
        (address ≤ after.memory.width.largest →
          after.memory.addressAt? (start + bytes) = some address) := by
  refine (survives_allocate ordered kind name count).bind fun start made there => ?_
  obtain ⟨kept, settings, length, fits, recent, inside⟩ := there
  obtain rfl := sized length fits
  have small := ObjectKind.payloadLength?_le fits
  rw [width_eq ordered, ← width_eq kept] at small inside recent
  refine (survives_writeAddress kept (by omega)).mono fun _ after written => ?_
  obtain ⟨bytes, same, rfl, read⟩ := written
  rw [← Memory.width_holding same] at small inside recent read
  exact ⟨kept.holding same, settings, start, recent, inside, small, read⟩

/-! ### Scalars -/

theorem survives_storedScalar? (ordered : machine.memory.IsOrdered size)
    (whole : ∀ payload, (machine.memory.find .scalar name).1 = some payload →
      payload.start + numberSize ≤ size) :
    Survives size (storedScalar? name) machine fun _ after => after.memory.IsOrdered size := by
  refine survives_lookup fun recent => ?_
  have kept := ordered_remembering ordered recent
  cases found : (machine.memory.find .scalar name).1 with
  | none => exact .pure kept
  | some payload =>
    have inside := whole payload found
    exact (looks_numberAt (by rw [kept.size_eq]; exact inside)).survives_bind kept
      fun value _ => .pure kept

theorem survives_storeScalar (ordered : machine.memory.IsOrdered size)
    (whole : ∀ payload, (machine.memory.find .scalar name).1 = some payload →
      payload.start + numberSize ≤ size) (value : Single) :
    Survives size (storeScalar name value) machine fun _ after => after.memory.IsOrdered size := by
  refine survives_lookup fun recent => ?_
  have kept := ordered_remembering ordered recent
  cases found : (machine.memory.find .scalar name).1 with
  | some payload => exact survives_write kept (whole payload found)
  | none =>
    refine (survives_allocate kept .scalar name 0).bind fun start after made => ?_
    obtain ⟨kept, -, length, fits, -, inside⟩ := made
    obtain rfl := ObjectKind.payloadLength?_scalar fits
    exact survives_write kept inside

/-! ### Arrays -/

theorem survives_createArray (ordered : machine.memory.IsOrdered size) (name : Name)
    (rows columns : Nat) :
    Survives size (createArray name rows columns) machine fun _ after =>
      after.memory.IsOrdered size ∧ after.config = machine.config ∧ ∃ start,
        after.memory.recent = some (.array, name,
          ⟨start, rows * columns * numberSize + after.memory.width.byteCount⟩) ∧
        start + (rows * columns * numberSize + after.memory.width.byteCount) ≤ size ∧
        rows * columns * numberSize + after.memory.width.byteCount ≤ after.memory.width.largest ∧
        (columns ≤ after.memory.width.largest →
          after.memory.addressAt? (start + rows * columns * numberSize) = some columns) :=
  survives_allocate_counted ordered fun _ => ObjectKind.length_of_payloadLength?

/-- The array that an access by a row works on. -/
theorem survives_arrayPayload (ordered : machine.memory.IsOrdered size) {row : Single}
    (whole : ∀ payload, (machine.memory.find .array name).1 = some payload →
      machine.memory.HoldsArray (machine.Counts row) payload)
    (fresh : (machine.memory.find .array name).1 = none →
      machine.Counts row ∨ 0 < machine.config.arraySize) :
    Survives size (arrayPayload name) machine fun payload after =>
      after.memory.IsOrdered size ∧ after.memory.HoldsArray (after.Counts row) payload := by
  refine survives_lookup fun recent => ?_
  have kept := ordered_remembering ordered recent
  cases found : (machine.memory.find .array name).1 with
  | some payload =>
    exact .pure ⟨kept, holdsArray_remembering (whole payload found) recent⟩
  | none =>
    refine .get_bind ((survives_createArray kept name _ 1).bind fun _ after created => ?_)
    obtain ⟨kept, settings, start, made, inside, small, read⟩ := created
    have again := Memory.find_of_recent made
    refine survives_lookup fun recent => ?_
    rw [again]
    refine .pure ⟨ordered_remembering kept recent, holdsArray_remembering
      ⟨kept.size_eq ▸ inside, Nat.le_add_left _ _, ?_⟩ recent⟩
    refine (fresh found).imp (fun number => ?_) fun positive columns there => ?_
    · rw [Counts, base] at number ⊢
      rwa [remembering, settings]
    · obtain ⟨last, all⟩ := Memory.counted_of_made small (read after.memory.width.largest_bounds.1)
      rw [all]
      obtain rfl : 1 = columns := Option.some.inj (last.symm.trans there)
      refine Nat.mul_le_mul_right numberSize ?_
      rw [Nat.mul_one]
      exact positive

/-- **The address of an element lies in the array.** -/
theorem survives_elementAddress (ordered : machine.memory.IsOrdered size) {row : Single}
    (column : Option Single)
    (whole : ∀ payload, (machine.memory.find .array name).1 = some payload →
      machine.memory.HoldsArray (machine.Counts row) payload)
    (fresh : (machine.memory.find .array name).1 = none →
      machine.Counts row ∨ 0 < machine.config.arraySize) :
    Survives size (elementAddress name row column) machine fun address after =>
      after.memory.IsOrdered size ∧ address + numberSize ≤ size := by
  refine (survives_arrayPayload ordered whole fresh).bind fun payload machine there => ?_
  obtain ⟨ordered, holds⟩ := there
  have inside := holds.inside
  have trailer := holds.trailer
  have less := Address.minus_le trailer machine.memory.width.byteCount_lt
  have sized : Looks addressSize machine (· = machine.memory.width.byteCount) :=
    .get_bind (.pure rfl)
  refine sized.survives_bind ordered fun width same => ?_
  subst same
  refine (looks_addressAt (by omega)).survives_bind ordered fun columns counted => ?_
  by_cases none : columns = 0
  · rw [if_pos none]
    exact ⟨trivial, ordered⟩
  rw [if_neg none]
  have elements : Address.minus payload.length machine.memory.width.byteCount / numberSize /
      columns * columns * numberSize ≤
        Address.minus payload.length machine.memory.width.byteCount :=
    Nat.le_trans (Nat.mul_le_mul_right _ (Nat.div_mul_le_self _ _)) (Nat.div_mul_le_self _ _)
  have rowSome : 0 < Address.minus payload.length machine.memory.width.byteCount / numberSize /
      columns ∨ machine.Counts row := by
    refine holds.row.symm.imp_left fun room => ?_
    rw [Nat.div_div_eq_div_mul, Nat.mul_comm]
    exact Nat.div_pos (room columns counted) (Nat.mul_pos (Nat.pos_of_ne_zero none) (by decide))
  refine (looks_place rowSome).survives_bind ordered fun row rowInside => ?_
  have finish (column : Nat) (columnInside : column < columns) :
      Survives size (Pure.pure (Address.wrap (payload.start +
        (row * columns + column) * numberSize)) : Action Nat) machine fun address after =>
          after.memory.IsOrdered size ∧ address + numberSize ≤ size := by
    have bounds := element_bounds rowInside columnInside
    have wrapped : Address.wrap (payload.start + (row * columns + column) * numberSize) ≤
        payload.start + (row * columns + column) * numberSize := Nat.mod_le _ _
    have size_eq := ordered.size_eq
    exact .pure ⟨ordered, by omega⟩
  cases column with
  | none => exact finish 0 (Nat.pos_of_ne_zero none)
  | some column =>
    exact (looks_place (.inl (Nat.pos_of_ne_zero none))).survives_bind ordered finish

theorem survives_getElement (ordered : machine.memory.IsOrdered size) {row : Single}
    (column : Option Single) (plain : name.isSpecial = false)
    (whole : ∀ payload, (machine.memory.find .array name).1 = some payload →
      machine.memory.HoldsArray (machine.Counts row) payload)
    (fresh : (machine.memory.find .array name).1 = none →
      machine.Counts row ∨ 0 < machine.config.arraySize) :
    Survives size (getElement name row column) machine fun _ after =>
      after.memory.IsOrdered size := by
  rw [getElement, plain, if_neg Bool.false_ne_true]
  refine (survives_elementAddress ordered column whole fresh).bind fun address machine there => ?_
  obtain ⟨ordered, inside⟩ := there
  refine ((looks_numberAt (by rwa [ordered.size_eq])).survives ordered).mono fun _ _ same => ?_
  exact same.2 ▸ ordered

theorem survives_setElement (ordered : machine.memory.IsOrdered size) {row : Single}
    (column : Option Single) (value : Single) (plain : name.isSpecial = false)
    (whole : ∀ payload, (machine.memory.find .array name).1 = some payload →
      machine.memory.HoldsArray (machine.Counts row) payload)
    (fresh : (machine.memory.find .array name).1 = none →
      machine.Counts row ∨ 0 < machine.config.arraySize) :
    Survives size (setElement name row column value) machine fun _ after =>
      after.memory.IsOrdered size := by
  rw [setElement, plain, if_neg Bool.false_ne_true]
  refine (survives_elementAddress ordered column whole fresh).bind fun address machine there => ?_
  exact survives_write there.1 there.2

/-! ### Strings -/

theorem survives_createString (ordered : machine.memory.IsOrdered size) (name : Name)
    (capacity count : Nat) :
    Survives size (createString name capacity count) machine fun _ after =>
      after.memory.IsOrdered size ∧ ∃ start,
        after.memory.recent = some (.string, name,
          ⟨start, (capacity + 1) * count + after.memory.width.byteCount⟩) ∧
        start + ((capacity + 1) * count + after.memory.width.byteCount) ≤ size ∧
        (capacity + 1) * count + after.memory.width.byteCount ≤ after.memory.width.largest ∧
        (count ≤ after.memory.width.largest →
          after.memory.addressAt? (start + (capacity + 1) * count) = some count) := by
  rw [createString]
  split
  · exact .fail ordered _
  · exact (survives_allocate_counted ordered fun _ => ObjectKind.length_of_payloadLength?).mono
      fun _ _ made => ⟨made.1, made.2.2⟩

/-- **The slot of an element lies in the string.** -/
theorem survives_slotOf (ordered : machine.memory.IsOrdered size)
    (holds : machine.memory.HoldsString payload) (index : Option Single) :
    Survives size (slotOf payload index) machine fun slot after =>
      after.memory.IsOrdered size ∧ slot.address + 1 + slot.capacity ≤ size := by
  have inside := holds.inside
  have trailer := holds.trailer
  have less := Address.minus_le trailer machine.memory.width.byteCount_lt
  have sized : Looks addressSize machine (· = machine.memory.width.byteCount) :=
    .get_bind (.pure rfl)
  refine sized.survives_bind ordered fun width same => ?_
  subst same
  refine (looks_addressAt (by omega)).survives_bind ordered fun count counted => ?_
  by_cases none : count = 0
  · rw [if_pos none]
    exact ⟨trivial, ordered⟩
  rw [if_neg none]
  have roomSome : 1 ≤ Address.minus payload.length machine.memory.width.byteCount / count :=
    Nat.div_pos (holds.slots count counted) (Nat.pos_of_ne_zero none)
  have capacityLess := @Address.minus_le _ 1 roomSome (by decide)
  have all := Nat.mul_div_le (Address.minus payload.length machine.memory.width.byteCount) count
  dsimp only
  generalize Address.minus payload.length machine.memory.width.byteCount / count = room at *
  have finish (place : Nat) (placeInside : place < count) :
      Survives size (Pure.pure { address := Address.wrap (payload.start + place * room)
                                 capacity := Address.minus room 1 } : Action StringSlot) machine
        fun slot after => after.memory.IsOrdered size ∧
          slot.address + 1 + slot.capacity ≤ size := by
    have bounds : (place + 1) * room ≤ count * room := Nat.mul_le_mul_right _ placeInside
    have wrapped : Address.wrap (payload.start + place * room) ≤ payload.start + place * room :=
      Nat.mod_le _ _
    have size_eq := ordered.size_eq
    rw [Nat.succ_mul] at bounds
    exact .pure ⟨ordered, by dsimp only; omega⟩
  cases index with
  | none => exact finish 0 (Nat.pos_of_ne_zero none)
  | some index =>
    exact (looks_place (.inl (Nat.pos_of_ne_zero none))).survives_bind ordered finish

/-- The slot that a string is read from. -/
theorem survives_existingSlot (ordered : machine.memory.IsOrdered size)
    (whole : ∀ payload, (machine.memory.find .string name).1 = some payload →
      machine.memory.HoldsString payload) (index : Option Single) :
    Survives size (existingSlot name index) machine fun slot after =>
      after.memory.IsOrdered size ∧
        ∀ found, slot = some found → found.address + 1 + found.capacity ≤ size := by
  refine survives_lookup fun recent => ?_
  have kept := ordered_remembering ordered recent
  cases found : (machine.memory.find .string name).1 with
  | none => exact ⟨kept, nofun⟩
  | some payload =>
    refine (survives_slotOf kept (holdsString_remembering (whole payload found) recent) _).bind
      fun slot after there => ?_
    exact ⟨there.1, fun _ same => Option.some.inj same ▸ there.2⟩

theorem survives_readString (ordered : machine.memory.IsOrdered size)
    (whole : ∀ payload, (machine.memory.find .string name).1 = some payload →
      machine.memory.HoldsString payload) (selector : Selector) :
    Survives size (readString name selector) machine fun _ after =>
      after.memory.IsOrdered size := by
  rw [readString]
  split
  · rw [getSpecialText]
    split
    · exact .get_bind ordered
    · exact .fail ordered _
  refine (survives_existingSlot ordered whole selector.index).bind fun slot after there => ?_
  obtain ⟨kept, inside⟩ := there
  cases slot with
  | none => exact kept
  | some slot =>
    refine ((looks_readSlot (by rw [kept.size_eq]; exact inside slot rfl) selector).survives
      kept).mono fun _ _ same => ?_
    exact same.2 ▸ kept

/-- The slot that an assignment works on. -/
theorem survives_assignableSlot (ordered : machine.memory.IsOrdered size)
    (whole : ∀ payload, (machine.memory.find .string name).1 = some payload →
      machine.memory.HoldsString payload) (index : Option Single) :
    Survives size (assignableSlot name index) machine fun slot after =>
      after.memory.IsOrdered size ∧ slot.address + 1 + slot.capacity ≤ size := by
  refine survives_lookup fun recent => ?_
  have kept := ordered_remembering ordered recent
  cases found : (machine.memory.find .string name).1 with
  | some payload =>
    exact survives_slotOf kept (holdsString_remembering (whole payload found) recent) _
  | none =>
    refine .get_bind ((survives_createString kept name _ 1).bind fun _ after created => ?_)
    obtain ⟨kept, start, made, inside, small, read⟩ := created
    have again := Memory.find_of_recent made
    refine survives_lookup fun recent => ?_
    rw [again, Attempt.orFail, pure_bind]
    refine survives_slotOf (ordered_remembering kept recent) (holdsString_remembering
      ⟨kept.size_eq ▸ inside, Nat.le_add_left _ _, fun count there => ?_⟩ recent) _
    obtain ⟨last, all⟩ := Memory.counted_of_made small (read after.memory.width.largest_bounds.1)
    rw [all]
    obtain rfl : 1 = count := Option.some.inj (last.symm.trans there)
    omega

theorem survives_writeString (ordered : machine.memory.IsOrdered size)
    (whole : ∀ payload, (machine.memory.find .string name).1 = some payload →
      machine.memory.HoldsString payload) (selector : Selector) (source : Bytes) :
    Survives size (writeString name selector source) machine fun _ after =>
      after.memory.IsOrdered size := by
  rw [writeString]
  split
  · exact .fail ordered _
  refine (survives_assignableSlot ordered whole _).bind fun slot machine there => ?_
  obtain ⟨ordered, inside⟩ := there
  have size_eq := ordered.size_eq
  refine (looks_slotLength (by omega)).survives_bind ordered fun length fits => ?_
  refine (looks_splice selector fits _).survives_bind ordered fun part _ => ?_
  split
  · exact .fail ordered _
  · rename_i room
    have taken : (source.take part.count).length ≤ part.count := List.length_take_le _ _
    refine (survives_write ordered (by omega)).bind fun _ after kept => ?_
    exact survives_write kept (by rw [List.length_singleton]; omega)

/-! ### Functions -/

theorem survives_definition (ordered : machine.memory.IsOrdered size)
    (whole : ∀ payload, (machine.memory.find .function name).1 = some payload →
      payload.start + (machine.memory.width.byteCount + 2) ≤ size) :
    Survives size (Evaluator.definition name) machine fun _ after =>
      after.memory.IsOrdered size := by
  refine survives_lookup fun recent => ?_
  have kept := ordered_remembering ordered recent
  cases found : (machine.memory.find .function name).1 with
  | none => exact ⟨trivial, kept⟩
  | some payload =>
    have inside := whole payload found
    rw [← kept.size_eq] at inside
    have sized : Looks addressSize (machine.remembering recent)
        (· = (machine.remembering recent).memory.width.byteCount) := .get_bind (.pure rfl)
    have width : (machine.remembering recent).memory.width = machine.memory.width := rfl
    show Survives size (do
      let entry ← addressAt payload.start
      let width ← addressSize
      let first ← byteAt (payload.start + width)
      let second ← byteAt (payload.start + width + 1)
      return (entry, (⟨first, second⟩ : Name))) (machine.remembering recent) _
    refine (looks_addressAt (by rw [width]; omega)).survives_bind kept fun _ _ => ?_
    refine sized.survives_bind kept fun _ same => ?_
    subst same
    rw [width]
    refine (looks_byteAt (by omega)).survives_bind kept fun _ _ => ?_
    exact (looks_byteAt (by omega)).survives_bind kept fun _ _ => kept

theorem survives_storeFunction (ordered : machine.memory.IsOrdered size)
    (whole : ∀ payload, (machine.memory.find .function name).1 = some payload →
      payload.start + (machine.memory.width.byteCount + 2) ≤ size) (entry : Nat)
    (parameter : Name) :
    Survives size (storeFunction name entry parameter (pure ())) machine fun _ after =>
      after.memory.IsOrdered size := by
  have store {machine : Machine} {start : Nat} (ordered : machine.memory.IsOrdered size)
      (inside : start + (machine.memory.width.byteCount + 2) ≤ size) : Survives size (do
        let width ← addressSize
        onMemory (Memory.writeAddress start entry)
        onMemory (Memory.write (start + width) parameter.bytes)
        pure ()) machine fun _ after => after.memory.IsOrdered size := by
    have sized : Looks addressSize machine (· = machine.memory.width.byteCount) :=
      .get_bind (.pure rfl)
    refine sized.survives_bind ordered fun width same => ?_
    subst same
    refine (survives_writeAddress ordered (by omega)).bind fun _ after written => ?_
    obtain ⟨bytes, same, rfl, -⟩ := written
    have kept : Memory.IsOrdered size (machine.memory.holding bytes) := ordered.holding same
    refine (survives_write kept ?_).bind fun _ _ kept => .pure kept
    rw [Name.bytes, List.length_cons, List.length_singleton]
    omega
  refine survives_lookup fun recent => ?_
  have kept := ordered_remembering ordered recent
  cases found : (machine.memory.find .function name).1 with
  | some payload => exact store kept (whole payload found)
  | none =>
    refine (survives_allocate kept .function name 0).bind fun start after made => ?_
    obtain ⟨kept', -, length, fits, -, inside⟩ := made
    have length_eq : length = (machine.remembering recent).memory.width.byteCount + 2 :=
      ObjectKind.length_of_payloadLength? fits
    refine store kept' ?_
    rw [width_eq kept', ← width_eq kept]
    omega

/-! ### Every access -/

/-- Access to the heap, with what it needs of the object that it finds, if it finds one. Looking for
objects and making them needs nothing. -/
inductive UsesHeap (machine : Machine) : {α : Type} → Action α → Prop
  | lookup (kind : ObjectKind) (name : Name) : UsesHeap machine (lookup kind name)
  | allocate (kind : ObjectKind) (name : Name) (count : Nat) :
    UsesHeap machine (onMemory (Memory.allocate kind name count))
  | array (name : Name) (rows columns : Nat) : UsesHeap machine (createArray name rows columns)
  | string (name : Name) (capacity count : Nat) :
    UsesHeap machine (createString name capacity count)
  | delete {kind : ObjectKind} {name : Name}
    (whole : ∀ payload, machine.memory.scan? kind name = some payload →
      payload.start + payload.length ≤ machine.memory.size) :
    UsesHeap machine (onMemory (Memory.delete kind name))
  | scalar {name : Name}
    (whole : ∀ payload, (machine.memory.find .scalar name).1 = some payload →
      payload.start + numberSize ≤ machine.memory.size) :
    UsesHeap machine (storedScalar? name)
  | assignedScalar {name : Name}
    (whole : ∀ payload, (machine.memory.find .scalar name).1 = some payload →
      payload.start + numberSize ≤ machine.memory.size) (value : Single) :
    UsesHeap machine (storeScalar name value)
  | element {name : Name} {row : Single} (plain : name.isSpecial = false)
    (whole : ∀ payload, (machine.memory.find .array name).1 = some payload →
      machine.memory.HoldsArray (machine.Counts row) payload)
    (fresh : (machine.memory.find .array name).1 = none →
      machine.Counts row ∨ 0 < machine.config.arraySize) (column : Option Single) :
    UsesHeap machine (getElement name row column)
  | assignedElement {name : Name} {row : Single} (plain : name.isSpecial = false)
    (whole : ∀ payload, (machine.memory.find .array name).1 = some payload →
      machine.memory.HoldsArray (machine.Counts row) payload)
    (fresh : (machine.memory.find .array name).1 = none →
      machine.Counts row ∨ 0 < machine.config.arraySize) (column : Option Single)
    (value : Single) : UsesHeap machine (setElement name row column value)
  | text {name : Name}
    (whole : ∀ payload, (machine.memory.find .string name).1 = some payload →
      machine.memory.HoldsString payload) (selector : Selector) :
    UsesHeap machine (readString name selector)
  | assignedText {name : Name}
    (whole : ∀ payload, (machine.memory.find .string name).1 = some payload →
      machine.memory.HoldsString payload) (selector : Selector) (source : Bytes) :
    UsesHeap machine (writeString name selector source)
  | function {name : Name}
    (whole : ∀ payload, (machine.memory.find .function name).1 = some payload →
      payload.start + (machine.memory.width.byteCount + 2) ≤ machine.memory.size) :
    UsesHeap machine (Evaluator.definition name)
  | definedFunction {name : Name}
    (whole : ∀ payload, (machine.memory.find .function name).1 = some payload →
      payload.start + (machine.memory.width.byteCount + 2) ≤ machine.memory.size) (entry : Nat)
    (parameter : Name) : UsesHeap machine (storeFunction name entry parameter (pure ()))

theorem UsesHeap.survives {step : Action α} (uses : machine.UsesHeap step)
    (ordered : machine.memory.IsOrdered machine.memory.size) :
    Survives machine.memory.size step machine fun _ after =>
      after.memory.IsOrdered machine.memory.size := by
  cases uses with
  | lookup kind name => exact .of_ok rfl (ordered.find kind name)
  | allocate kind name count =>
    exact (survives_allocate ordered kind name count).mono fun _ _ made => made.1
  | array name rows columns =>
    exact (survives_createArray ordered name rows columns).mono fun _ _ made => made.1
  | string name capacity count =>
    exact (survives_createString ordered name capacity count).mono fun _ _ made => made.1
  | delete whole =>
    obtain ⟨stop, edited, ran, kept⟩ := ordered.delete whole
    exact .of_ok (runOn_onMemory_of ran) kept
  | scalar whole => exact survives_storedScalar? ordered whole
  | assignedScalar whole value => exact survives_storeScalar ordered whole value
  | element plain whole fresh column =>
    exact survives_getElement ordered column plain whole fresh
  | assignedElement plain whole fresh column value =>
    exact survives_setElement ordered column value plain whole fresh
  | text whole selector => exact survives_readString ordered whole selector
  | assignedText whole selector source =>
    exact survives_writeString ordered whole selector source
  | function whole => exact survives_definition ordered whole
  | definedFunction whole entry parameter =>
    exact survives_storeFunction ordered whole entry parameter

/-- What access takes away, and from what: an address from the end of an object and from its length,
the length byte from the room of an element of a string, the start of a part from its end, and a new
object from the start of the heap. -/
inductive ShortensInHeap (machine : Machine) : Nat → Nat → Prop
  | array {number : Prop} {payload : Extent} (holds : machine.memory.HoldsArray number payload) :
    ShortensInHeap machine payload.length machine.memory.width.byteCount
  | string {payload : Extent} (holds : machine.memory.HoldsString payload) :
    ShortensInHeap machine payload.length machine.memory.width.byteCount
  | room {payload : Extent} {count : Nat} (holds : machine.memory.HoldsString payload)
    (counted : machine.memory.addressAt?
      (payload.start + payload.length - machine.memory.width.byteCount) = some count)
    (some : count ≠ 0) :
    ShortensInHeap machine
      (Address.minus payload.length machine.memory.width.byteCount / count) 1
  | part {selector : Selector} {upper : Single} {length size : Nat} {part : Splice}
    (ends : selector.upper = some upper) (number : upper.isNaN = false)
    (ran : ((splice selector length size).runOn machine).1 = .ok part) :
    ShortensInHeap machine upper.toSize part.start

theorem ShortensInHeap.le {minuend subtrahend : Nat}
    (shortens : machine.ShortensInHeap minuend subtrahend) : subtrahend ≤ minuend := by
  cases shortens with
  | array holds => exact holds.trailer
  | string holds => exact holds.trailer
  | room holds counted some =>
    exact Nat.div_pos (holds.slots _ counted) (Nat.pos_of_ne_zero some)
  | part ends number ran => exact start_le_of_splice ends number ran

/-- **Access to the heap survives pokes.** Whatever the bytes of an ordered memory are, what is
remembered of objects included: access that looks for objects or makes them, and access to an object
whose bytes are inside memory, gives a value or an error of the language and leaves the memory
ordered. Nothing is taken away from less. Deleting an object that ends outside of memory is the
exception: the walk finds it, and what it would clear is not there. -/
theorem heap_access_survives_pokes (tops : machine.memory.top ≤ machine.memory.himem)
    (inside : machine.memory.himem ≤ machine.memory.size) :
    (∀ {α : Type} {step : Action α}, machine.UsesHeap step →
      Told (step.runOn machine).1 ∧
        (step.runOn machine).2.memory.size = machine.memory.size ∧
        (step.runOn machine).2.memory.top ≤ (step.runOn machine).2.memory.himem ∧
        (step.runOn machine).2.memory.himem ≤ (step.runOn machine).2.memory.size) ∧
    (∀ minuend subtrahend, machine.ShortensInHeap minuend subtrahend → subtrahend ≤ minuend) ∧
    ∀ kind name payload, machine.memory.scan? kind name = some payload →
      machine.memory.size < payload.start + payload.length →
        (onMemory (Memory.delete kind name)).runOn machine = (.error .fault, machine) := by
  have ordered : machine.memory.IsOrdered machine.memory.size := ⟨rfl, tops, inside⟩
  refine ⟨fun uses => ?_, fun _ _ shortens => shortens.le, ?_⟩
  · obtain ⟨told, kept⟩ := (uses.survives ordered).told fun _ _ kept => kept
    exact ⟨told, kept.size_eq, kept.below, kept.inside⟩
  · intro kind name payload found outside
    exact runOn_onMemory_of (Memory.runOn_delete_outside found outside)

/-- An array of two rows, of which a poke makes one row with two columns. -/
theorem heap_access_survives_pokes_columns :
    let config : Config := { memorySize := 64, arraySize := 2 }
    let typing (text : String) (machine : Machine) : Machine :=
      ((execute 4).runOn ((enter (ascii text)).runOn machine).2).2
    let poked := typing "POKE 62,2" (typing "A(1)=0" (start config {}))
    let access := getElement ⟨65, 0⟩ Single.one (some (Single.ofNat 2))
    poked.memory.top ≤ poked.memory.himem ∧ poked.memory.himem ≤ poked.memory.size ∧
      poked.UsesHeap access ∧ Told (access.runOn poked).1 := by
  intro config typing poked access
  have tops : poked.memory.top ≤ poked.memory.himem := by decide +kernel
  have inside : poked.memory.himem ≤ poked.memory.size := by decide +kernel
  have found : (poked.memory.find .array ⟨65, 0⟩).1 = some ⟨54, 10⟩ := by decide +kernel
  have number : poked.Counts Single.one := by
    unfold Counts
    decide +kernel
  have uses : poked.UsesHeap access := by
    refine .element rfl (fun payload same => ?_) (fun _ => .inl number) _
    obtain rfl := Option.some.inj (found.symm.trans same)
    exact ⟨by decide +kernel, by decide +kernel, .inl number⟩
  exact ⟨tops, inside, uses, ((heap_access_survives_pokes tops inside).1 uses).1⟩

/-- The length of an array is poked so that the array ends behind the memory, and deleting it leaves
the machine without a next state. -/
theorem poked_length_breaks_delete :
    let config : Config := { memorySize := 64, arraySize := 2 }
    let typing (text : String) (machine : Machine) : Except Failure Outcome × Machine :=
      (execute 4).runOn ((enter (ascii text)).runOn machine).2
    let poked := (typing "POKE 53,1" (typing "A(1)=0" (start config {})).2).2
    poked.memory.top ≤ poked.memory.himem ∧ poked.memory.himem ≤ poked.memory.size ∧
      (typing "CLR A()" poked).1 = .error .fault := by
  decide +kernel

end Machine

end PocketBasic
