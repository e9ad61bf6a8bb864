/-
**What the calls of the heap do to its objects.** The list of objects changes at its front only: a
new object is put there, and deleting drops everything up to the object that goes.

* `HeapRecord.push`, `HeapRecord.dropThrough?`, `HeapRecord.overwrite`: the calls on a list;
* `Memory.KeepsProgram`: what a call of the heap leaves of a memory;
* **`Memory.HoldsObjects.allocate`**, **`Memory.HoldsObjects.delete`**: the calls on the bytes do
  the same, and fail before they write anything.
-/

import Mathlib.Data.List.Basic
import Mathlib.Tactic.Common
import PocketBasic.Proofs.Memory.HeapRecords

namespace PocketBasic

/-! ### Calls on a list -/

theorem ObjectKind.payloadLength?_le {kind : ObjectKind} {size length : Nat} {width : AddressWidth}
    (made : kind.payloadLength? size width = some length) : length ≤ width.largest := by
  unfold payloadLength? at made
  simp only at made
  split_ifs at made with fits
  cases made
  exact fits

theorem ObjectKind.payloadLength?_scalar {size length : Nat} {width : AddressWidth}
    (made : ObjectKind.scalar.payloadLength? size width = some length) : length = numberSize := by
  unfold payloadLength? at made
  simp only at made
  split_ifs at made
  cases made
  rfl

namespace HeapRecord

variable {width : AddressWidth}

/-- A new object with a payload of zeros, if the header can tell how long that is. -/
def zeroed? (kind : ObjectKind) (name : Name) (size : Nat) : Option (HeapRecord width) :=
  match made : kind.payloadLength? size width with
  | none => none
  | some length =>
    some { kind, name, payload := List.replicate length 0
           fits := by
             rw [List.length_replicate]
             exact ObjectKind.payloadLength?_le made
           number := by
             rintro rfl
             rw [List.length_replicate]
             exact ObjectKind.payloadLength?_scalar made }

theorem zeroed?_eq_some {kind : ObjectKind} {name : Name} {size : Nat} {record : HeapRecord width}
    (made : zeroed? kind name size = some record) :
    record.Is kind name ∧ kind.payloadLength? size width = some record.payload.length ∧
      record.payload = List.replicate record.payload.length 0 := by
  unfold zeroed? at made
  split at made
  · cases made
  · cases made
    exact ⟨⟨rfl, rfl⟩, by rwa [List.length_replicate], by rw [List.length_replicate]⟩

theorem zeroed?_eq_none {kind : ObjectKind} {name : Name} {size : Nat}
    (made : (zeroed? kind name size : Option (HeapRecord width)) = none) :
    kind.payloadLength? size width = none := by
  unfold zeroed? at made
  split at made
  · assumption
  · cases made

/-- Puts a new object in front of the others, if there is none of its kind and name and it fits into
the room that is left. -/
def push (room : Nat) (kind : ObjectKind) (name : Name) (size : Nat)
    (records : List (HeapRecord width)) : Except ErrorKind (List (HeapRecord width)) :=
  if ∃ record ∈ records, record.Is kind name then .error .duplicateVariable
  else
    match zeroed? kind name size with
    | none => .error .outOfMemory
    | some record =>
      if room < record.bytes.length then .error .outOfMemory else .ok (record :: records)

/-- The object with bytes of its payload written over, if they lie in it. -/
def written (record : HeapRecord width) (offset : Nat) (data : Bytes) : HeapRecord width :=
  if inside : offset + data.length ≤ record.payload.length then
    have same : (record.payload.take offset ++ data ++
        record.payload.drop (offset + data.length)).length = record.payload.length := by
      simp only [List.length_append, List.length_take, List.length_drop]
      omega
    { record with
      payload := record.payload.take offset ++ data ++ record.payload.drop (offset + data.length)
      fits := same ▸ record.fits
      number := fun scalar => same.trans (record.number scalar) }
  else record

/-- The list with bytes of one object's payload written over. -/
def overwrite (kind : ObjectKind) (name : Name) (offset : Nat) (data : Bytes) :
    List (HeapRecord width) → List (HeapRecord width)
  | [] => []
  | record :: older =>
    if record.Is kind name then record.written offset data :: older
    else record :: overwrite kind name offset data older

@[simp]
theorem kind_written (record : HeapRecord width) (offset : Nat) (data : Bytes) :
    (record.written offset data).kind = record.kind := by
  rw [written]
  split <;> rfl

@[simp]
theorem name_written (record : HeapRecord width) (offset : Nat) (data : Bytes) :
    (record.written offset data).name = record.name := by
  rw [written]
  split <;> rfl

theorem is_written {record : HeapRecord width} {offset : Nat} {data : Bytes} {kind : ObjectKind}
    {name : Name} : (record.written offset data).Is kind name ↔ record.Is kind name := by
  rw [Is, Is, kind_written, name_written]

theorem length_payload_written (record : HeapRecord width) (offset : Nat) (data : Bytes) :
    (record.written offset data).payload.length = record.payload.length := by
  rw [written]
  split_ifs with inside
  · simp only [List.length_append, List.length_take, List.length_drop]
    omega
  · rfl

theorem length_image_overwrite (kind : ObjectKind) (name : Name) (offset : Nat) (data : Bytes)
    (records : List (HeapRecord width)) :
    (image (overwrite kind name offset data records)).length = (image records).length := by
  induction records with
  | nil => rfl
  | cons record older ih =>
    rw [overwrite]
    split
    · simp [length_payload_written]
    · simp [ih]

/-- Writing over a payload changes the newest object of that kind and name, if there is one. -/
theorem overwrite_append {newer older : List (HeapRecord width)} {record : HeapRecord width}
    {kind : ObjectKind} {name : Name} (before : ∀ other ∈ newer, ¬ other.Is kind name)
    (is : record.Is kind name) (offset : Nat) (data : Bytes) :
    overwrite kind name offset data (newer ++ record :: older) =
      newer ++ record.written offset data :: older := by
  induction newer with
  | nil => rw [List.nil_append, overwrite, if_pos is, List.nil_append]
  | cons other rest ih =>
    obtain ⟨first, others⟩ := List.forall_mem_cons.mp before
    rw [List.cons_append, overwrite, if_neg first, ih others, List.cons_append]

theorem overwrite_absent {kind : ObjectKind} {name : Name} {records : List (HeapRecord width)}
    (absent : dropThrough? kind name records = none) (offset : Nat) (data : Bytes) :
    overwrite kind name offset data records = records := by
  induction records with
  | nil => rfl
  | cons record older ih =>
    rw [dropThrough?] at absent
    split_ifs at absent with is
    rw [overwrite, if_neg is, ih absent]

/-- Writing into a payload moves no object. -/
theorem locate?_overwrite (size : Nat) (kind : ObjectKind) (name : Name) (offset : Nat)
    (data : Bytes) (records : List (HeapRecord width)) (other : ObjectKind) (called : Name) :
    locate? size other called (overwrite kind name offset data records) =
      locate? size other called records := by
  induction records with
  | nil => rfl
  | cons record older ih =>
    rw [overwrite]
    split
    · simp only [locate?, is_written, length_payload_written]
    · rw [locate?, locate?, ih, length_image_overwrite]

end HeapRecord

namespace Memory

/-- What a call of the heap leaves of a memory: the program, and room for it below the heap. -/
structure KeepsProgram (memory edited : Memory) : Prop where
  size : edited.size = memory.size
  top : edited.top = memory.top
  program : edited.contents.take edited.top = memory.contents.take memory.top
  below : edited.top ≤ edited.himem

theorem keepsProgram_of_recent {memory : Memory} (tops : memory.top ≤ memory.himem)
    (recent : Option (ObjectKind × Name × Extent)) : KeepsProgram memory { memory with recent } :=
  ⟨rfl, rfl, rfl, tops⟩

variable {memory : Memory} {width : AddressWidth}

/-! ### Making an object -/

/-- The memory with an object below all others. -/
def withObject (memory : Memory) (record : HeapRecord width) : Memory :=
  { memory.holding (memory.contents.take (memory.himem - record.bytes.length) ++
      (record.bytes ++ memory.contents.drop memory.himem)) with
    himem := memory.himem - record.bytes.length
    objects := memory.objects + 1
    recent := some (record.kind, record.name,
      { start := memory.himem - record.bytes.length + record.kind.headerLength width
        length := record.payload.length }) }

section WithObject

variable (memory : Memory) (record : HeapRecord width)

@[simp]
theorem contents_withObject : (memory.withObject record).contents =
    memory.contents.take (memory.himem - record.bytes.length) ++
      (record.bytes ++ memory.contents.drop memory.himem) := contents_holding memory _

@[simp]
theorem himem_withObject :
    (memory.withObject record).himem = memory.himem - record.bytes.length := rfl

/-- A new object takes room that was free. -/
theorem size_withObject (inside : memory.himem ≤ memory.size)
    (room : record.bytes.length ≤ memory.himem) :
    (memory.withObject record).size = memory.size := by
  rw [← length_contents] at inside ⊢
  rw [contents_withObject, List.length_append, List.length_append, List.length_take,
    List.length_drop, ← length_contents]
  omega

theorem keepsProgram_withObject (inside : memory.himem ≤ memory.size)
    (room : record.bytes.length ≤ memory.himem - memory.top) (tops : memory.top ≤ memory.himem) :
    KeepsProgram memory (memory.withObject record) where
  size := size_withObject memory record inside (by omega)
  top := rfl
  program := by
    have below : memory.top ≤
        (memory.contents.take (memory.himem - record.bytes.length)).length := by
      rw [List.length_take, length_contents]
      omega
    show (memory.withObject record).contents.take memory.top = _
    rw [contents_withObject, List.take_append_of_le_length below, List.take_take,
      Nat.min_eq_left (by omega)]
  below := by
    show memory.top ≤ memory.himem - record.bytes.length
    omega

end WithObject

/-- The header of an object is written in one or two pieces. -/
theorem runOn_writeHeader {β : Type} {before gone after : Bytes} (record : HeapRecord width)
    (widths : memory.width = width) (cut : memory.contents = before ++ gone ++ after)
    (count : gone.length = record.header.length) (next : Unit → Attempt Memory β) :
    (do
      write before.length [record.kind.tag, record.name.first, record.name.second]
      if record.kind ≠ .scalar then do
        let done ← writeAddress (before.length + 3) record.payload.length
        next done
      else next () : Attempt Memory β).runOn memory =
        (next ()).runOn (memory.holding (before ++ record.header ++ after)) := by
  have written := @runOn_write memory before (gone.take 3) (gone.drop 3 ++ after)
    [record.kind.tag, record.name.first, record.name.second]
    (by rw [← List.append_assoc, List.append_assoc before, List.take_append_drop, cut])
    (by
      have three := HeapRecord.three_le_headerLength record.kind width
      rw [HeapRecord.length_header] at count
      rw [List.length_take, count]
      exact Nat.min_eq_left three)
  rw [Attempt.runOn_bind_ok written]
  by_cases scalar : record.kind = .scalar
  · have empty : gone.drop 3 = [] := by
      rw [HeapRecord.length_header, scalar] at count
      exact List.drop_of_length_le (Nat.le_of_eq count)
    rw [if_neg (not_not_intro scalar), empty, HeapRecord.header, if_pos scalar, List.append_nil,
      List.nil_append]
  · have same : (gone.drop 3).length = (width.encode record.payload.length).length := by
      rw [HeapRecord.header, if_neg scalar, List.length_append] at count
      rw [List.length_drop, count]
      exact Nat.add_sub_cancel_left _ _
    have stored := @runOn_write
      (memory.holding (before ++ [record.kind.tag, record.name.first,
        record.name.second] ++ (gone.drop 3 ++ after)))
      (before ++ [record.kind.tag, record.name.first, record.name.second]) _ after _
      (by rw [contents_holding, ← List.append_assoc]) same
    have total : (before ++ [record.kind.tag, record.name.first, record.name.second] ++
        (gone.drop 3 ++ after)).length = memory.size := by
      rw [HeapRecord.length_header] at count
      have three := HeapRecord.three_le_headerLength record.kind width
      rw [← length_contents, cut]
      simp only [List.length_append, List.length_drop, List.length_cons, List.length_nil]
      omega
    have third : before.length + 3 =
        (before ++ [record.kind.tag, record.name.first, record.name.second]).length := by simp
    rw [if_pos scalar, Attempt.runOn_bind, runOn_writeAddress, width_holding total, widths, third,
      stored]
    simp only [holding_holding, HeapRecord.header, if_neg scalar, List.append_assoc]

namespace HoldsObjects

variable {records : List (HeapRecord width)} {kind : ObjectKind} {name : Name}

/-- What leaves the heap alone leaves its objects alone. -/
theorem of_keepsHeap {edited : Memory} (held : HoldsObjects memory records)
    (kept : KeepsHeap memory edited) : HoldsObjects edited records where
  width := by rw [Memory.width, kept.size, ← Memory.width, held.width]
  inside := by rw [kept.himem, kept.size]; exact held.inside
  heap := kept.heap.trans held.heap
  objects := kept.objects.trans held.objects
  distinct := held.distinct
  recent := by rw [kept.recent, kept.size]; exact held.recent

/-- An object that is in the list is found, and only then. -/
theorem find_eq_none_iff (held : HoldsObjects memory records) :
    (memory.find kind name).1 = none ↔ ∀ record ∈ records, ¬ record.Is kind name := by
  rw [held.find_eq]
  clear held
  induction records with
  | nil => simp [HeapRecord.locate?]
  | cons record older ih =>
    rw [HeapRecord.locate?, List.forall_mem_cons]
    split_ifs with wanted
    · simp [wanted]
    · simp [wanted, ih]

theorem find_eq_self (memory : Memory) (absent : (memory.find kind name).1 = none) :
    memory.find kind name = (none, memory) := by
  rw [Memory.find] at absent ⊢
  split at absent
  · cases absent
  · split at absent
    · cases absent
    · simp only [*]

/-- A new object goes below all others; it is all zero. -/
theorem runOn_allocate (held : HoldsObjects memory records) (tops : memory.top ≤ memory.himem)
    {size : Nat} {record : HeapRecord width} (absent : ∀ other ∈ records, ¬ other.Is kind name)
    (made : HeapRecord.zeroed? kind name size = some record)
    (room : record.bytes.length ≤ memory.himem - memory.top) :
    (allocate kind name size).runOn memory =
      (.ok ((memory.withObject record).himem + kind.headerLength width),
        memory.withObject record) := by
  obtain ⟨⟨rfl, rfl⟩, length, zeros⟩ := HeapRecord.zeroed?_eq_some made
  have found := find_eq_self memory (held.find_eq_none_iff.mpr absent)
  have inside := held.inside
  set start := memory.himem - record.bytes.length with starts
  set free := memory.contents.take start
  set gone := (memory.contents.take memory.himem).drop start
  have total := record.length_bytes
  have cut : memory.contents = free ++ gone ++ HeapRecord.image records := by
    have first : free = (memory.contents.take memory.himem).take start := by
      rw [List.take_take, Nat.min_eq_left (Nat.sub_le _ _)]
    rw [first, List.take_append_drop]
    exact held.contents_eq
  have below : free.length = start := by
    rw [List.length_take, length_contents]
    omega
  have size : gone.length = record.bytes.length := by
    rw [List.length_drop, held.length_below]
    omega
  have header := @runOn_writeHeader _ _ _ free (gone.take (record.kind.headerLength width))
    (gone.drop (record.kind.headerLength width) ++ HeapRecord.image records) record held.width
    (by rw [← List.append_assoc, List.append_assoc free, List.take_append_drop, cut])
    (by rw [List.length_take, HeapRecord.length_header]; omega)
    fun _ => do
      zero (start + record.kind.headerLength width)
        (start + record.kind.headerLength width + record.payload.length)
      modify fun memory =>
        { memory with
          himem := start
          objects := memory.objects + 1
          recent := some (record.kind, record.name,
            { start := start + record.kind.headerLength width, length := record.payload.length }) }
      return start + record.kind.headerLength width
  have cleared := @runOn_zero
    (memory.holding (free ++ record.header ++
      (gone.drop (record.kind.headerLength width) ++ HeapRecord.image records)))
    (free ++ record.header) (gone.drop (record.kind.headerLength width)) (HeapRecord.image records)
    (start + record.kind.headerLength width + record.payload.length)
    (by simp only [contents_holding, List.append_assoc])
    (by simp only [List.length_append, List.length_drop, HeapRecord.length_header]; omega)
  have payload : List.replicate (gone.drop (record.kind.headerLength width)).length 0 =
      record.payload := by
    rw [zeros]
    congr 1
    rw [List.length_drop]
    omega
  have notFull : ¬ memory.himem < memory.top + record.bytes.length := by omega
  rw [below] at header
  rw [List.length_append, below, HeapRecord.length_header, payload] at cleared
  rw [allocate, lookup, Attempt.runOn_bind, Attempt.runOn_always, found]
  simp only [Option.isSome_none, Bool.false_eq_true, if_false, Attempt.runOn_get_bind, held.width,
    length]
  rw [Attempt.runOn_bind_ok (Attempt.runOn_orFail_some ..)]
  simp only [← total, ← starts]
  rw [if_neg notFull, header, Attempt.runOn_bind_ok cleared]
  rw [withObject, held.heap]
  simp only [holding_holding, HeapRecord.bytes, List.append_assoc]
  rfl

theorem withObject (held : HoldsObjects memory records) {record : HeapRecord width}
    (absent : ∀ other ∈ records, ¬ other.Is record.kind record.name)
    (room : record.bytes.length ≤ memory.himem) :
    HoldsObjects (memory.withObject record) (record :: records) where
  width := by
    rw [Memory.width, size_withObject memory record held.inside room, ← Memory.width, held.width]
  inside := by
    rw [size_withObject memory record held.inside room]
    exact Nat.le_trans (Nat.sub_le _ _) held.inside
  heap := by
    have below : (memory.contents.take (memory.himem - record.bytes.length)).length =
        memory.himem - record.bytes.length := by
      have inside := held.inside
      rw [List.length_take, length_contents]
      omega
    rw [contents_withObject, himem_withObject, List.drop_left' below, held.heap]
    rfl
  objects := congrArg (· + 1) held.objects
  distinct := List.pairwise_cons.mpr ⟨absent, held.distinct⟩
  recent := by
    rintro _ _ _ ⟨⟩
    have size := held.size_eq
    have total := record.length_bytes
    have start : memory.size - (HeapRecord.image records).length - record.payload.length =
        memory.himem - record.bytes.length + record.kind.headerLength width := by omega
    rw [size_withObject memory record held.inside room, HeapRecord.locate?, if_pos ⟨rfl, rfl⟩,
      start]

/-- **Making an object puts it in front of the others**, or fails and changes no more than what is
remembered. -/
theorem allocate (held : HoldsObjects memory records) (tops : memory.top ≤ memory.himem)
    (kind : ObjectKind) (name : Name) (size : Nat) :
    match HeapRecord.push memory.free kind name size records with
    | .error error => ∃ recent, (Memory.allocate kind name size).runOn memory =
        (.error (.reported { kind := error }), { memory with recent }) ∧
          HoldsObjects { memory with recent } records
    | .ok others => ∃ edited, (Memory.allocate kind name size).runOn memory =
        (.ok (edited.himem + kind.headerLength width), edited) ∧
          HoldsObjects edited others ∧ KeepsProgram memory edited := by
  rw [HeapRecord.push]
  by_cases there : ∃ record ∈ records, record.Is kind name
  · rw [if_pos there]
    obtain ⟨recent, same⟩ := find_snd memory kind name
    have present : (memory.find kind name).1.isSome = true := by
      rw [Option.isSome_iff_ne_none, Ne, held.find_eq_none_iff]
      exact fun absent => there.elim fun record ⟨among, is⟩ => absent record among is
    have kept := held.find kind name
    rw [same] at kept
    refine ⟨recent, ?_, kept⟩
    rw [Memory.allocate, lookup, Attempt.runOn_bind, Attempt.runOn_always, same]
    simp only [present, if_true, Attempt.runOn_fail]
  rw [if_neg there]
  have absent : ∀ record ∈ records, ¬ record.Is kind name :=
    fun record among is => there ⟨record, among, is⟩
  have found := find_eq_self memory (held.find_eq_none_iff.mpr absent)
  cases made : (HeapRecord.zeroed? kind name size : Option (HeapRecord width)) with
  | none =>
    refine ⟨memory.recent, ?_, held⟩
    rw [Memory.allocate, lookup, Attempt.runOn_bind, Attempt.runOn_always, found]
    simp only [Option.isSome_none, Bool.false_eq_true, if_false, Attempt.runOn_get_bind, held.width,
      HeapRecord.zeroed?_eq_none made]
    exact Attempt.runOn_bind_error (Attempt.runOn_orFail_none _ _) _
  | some record =>
    obtain ⟨⟨rfl, rfl⟩, length, zeros⟩ := HeapRecord.zeroed?_eq_some made
    have total := record.length_bytes
    by_cases full : memory.free < record.bytes.length
    · simp only [if_pos full]
      refine ⟨memory.recent, ?_, held⟩
      have tooFull : memory.himem < memory.top + record.bytes.length := by
        rw [free] at full
        omega
      rw [Memory.allocate, lookup, Attempt.runOn_bind, Attempt.runOn_always, found]
      simp only [Option.isSome_none, Bool.false_eq_true, if_false, Attempt.runOn_get_bind,
        held.width, length]
      rw [Attempt.runOn_bind_ok (Attempt.runOn_orFail_some ..)]
      simp only [← total]
      rw [if_pos tooFull, Attempt.runOn_fail]
    · simp only [if_neg full]
      rw [free, Nat.not_lt] at full
      have inside := held.inside
      exact ⟨memory.withObject record, held.runOn_allocate tops absent made full,
        held.withObject absent (by omega), keepsProgram_withObject memory record inside full tops⟩

end HoldsObjects

/-! ### Dropping objects -/

/-- The memory with the heap cut off below an address, and a number of objects left. -/
def withHeapFrom (memory : Memory) (stop count : Nat) : Memory :=
  { memory.holding (memory.contents.take memory.himem ++
      List.replicate (stop - memory.himem) 0 ++ memory.contents.drop stop) with
    himem := stop
    objects := count
    recent := none }

section WithHeapFrom

variable (memory : Memory) {stop : Nat} (count : Nat)

theorem contents_withHeapFrom : (memory.withHeapFrom stop count).contents =
    memory.contents.take memory.himem ++ List.replicate (stop - memory.himem) 0 ++
      memory.contents.drop stop := contents_holding memory _

theorem size_withHeapFrom (raised : memory.himem ≤ stop) (inside : stop ≤ memory.size) :
    (memory.withHeapFrom stop count).size = memory.size := by
  rw [← length_contents] at inside ⊢
  rw [contents_withHeapFrom, ← length_contents]
  simp only [List.length_append, List.length_take, List.length_replicate, List.length_drop]
  omega

theorem keepsProgram_withHeapFrom (tops : memory.top ≤ memory.himem)
    (raised : memory.himem ≤ stop) (inside : stop ≤ memory.size) :
    KeepsProgram memory (memory.withHeapFrom stop count) where
  size := size_withHeapFrom memory count raised inside
  top := rfl
  program := by
    have below : memory.top ≤ (memory.contents.take memory.himem).length := by
      rw [List.length_take, length_contents]
      omega
    show (memory.withHeapFrom stop count).contents.take memory.top = _
    rw [contents_withHeapFrom, List.append_assoc, List.take_append_of_le_length below,
      List.take_take, Nat.min_eq_left tops]
  below := Nat.le_trans tops raised

/-- Clearing the bytes of the newest objects and moving the start of the heap behind them. -/
theorem runOn_zero_heap (raised : memory.himem ≤ stop) (inside : stop ≤ memory.size) :
    (zero memory.himem stop).runOn memory =
      (.ok (), memory.holding (memory.contents.take memory.himem ++
        List.replicate (stop - memory.himem) 0 ++ memory.contents.drop stop)) := by
  have total := length_contents memory
  have below : (memory.contents.take memory.himem).length = memory.himem := by
    rw [List.length_take]
    omega
  have gone : ((memory.contents.take stop).drop memory.himem).length = stop - memory.himem := by
    rw [List.length_drop, List.length_take]
    omega
  have cut : memory.contents = memory.contents.take memory.himem ++
      (memory.contents.take stop).drop memory.himem ++ memory.contents.drop stop := by
    have first : memory.contents.take memory.himem =
        (memory.contents.take stop).take memory.himem := by
      rw [List.take_take, Nat.min_eq_left raised]
    rw [first, List.take_append_drop, List.take_append_drop]
  have cleared := @runOn_zero _ _ _ _ stop cut (by omega)
  rwa [below, gone] at cleared

end WithHeapFrom

namespace HoldsObjects

variable {records newer older : List (HeapRecord width)} {kind : ObjectKind} {name : Name}

theorem raised (held : HoldsObjects memory records) (cut : records = newer ++ older) :
    memory.himem ≤ memory.size - (HeapRecord.image older).length := by
  have size := held.size_eq
  rw [cut, HeapRecord.image_append, List.length_append] at size
  omega

theorem withHeapFrom (held : HoldsObjects memory records) (cut : records = newer ++ older) :
    HoldsObjects (memory.withHeapFrom (memory.size - (HeapRecord.image older).length)
      older.length) older where
  width := by
    rw [Memory.width, size_withHeapFrom memory _ (held.raised cut) (Nat.sub_le _ _),
      ← Memory.width, held.width]
  inside := by
    rw [size_withHeapFrom memory _ (held.raised cut) (Nat.sub_le _ _)]
    exact Nat.sub_le _ _
  heap := by
    have raised := held.raised cut
    have size := held.size_eq
    have kept : memory.contents.drop (memory.size - (HeapRecord.image older).length) =
        HeapRecord.image older := by
      have below := held.length_below
      rw [cut, HeapRecord.image_append, List.length_append] at size
      rw [held.contents_eq, cut, HeapRecord.image_append, ← List.append_assoc]
      refine List.drop_left' ?_
      rw [List.length_append, below]
      omega
    have front : (memory.contents.take memory.himem ++ List.replicate
        (memory.size - (HeapRecord.image older).length - memory.himem) 0).length =
        memory.size - (HeapRecord.image older).length := by
      rw [List.length_append, held.length_below, List.length_replicate]
      omega
    rw [contents_withHeapFrom, kept]
    exact List.drop_left' front
  objects := rfl
  distinct := by
    have distinct := held.distinct
    rw [cut] at distinct
    exact (List.pairwise_append.mp distinct).2.1
  recent := fun _ _ _ none => nomatch none

/-- Dropping all objects. -/
theorem clearHeap (held : HoldsObjects memory records) (tops : memory.top ≤ memory.himem) :
    ∃ edited, Memory.clearHeap.runOn memory = (.ok (), edited) ∧
      HoldsObjects edited ([] : List (HeapRecord width)) ∧ KeepsProgram memory edited := by
  have whole : records = records ++ [] := (List.append_nil _).symm
  have dropped := held.withHeapFrom whole
  have ran := runOn_zero_heap memory held.inside (Nat.le_refl _)
  rw [HeapRecord.image_nil, List.length_nil, Nat.sub_zero] at dropped
  refine ⟨_, ?_, dropped, keepsProgram_withHeapFrom memory 0 tops held.inside (Nat.le_refl _)⟩
  have size : (memory.holding (memory.contents.take memory.himem ++
      List.replicate (memory.size - memory.himem) 0 ++ memory.contents.drop memory.size)).size =
        memory.size := size_withHeapFrom memory 0 held.inside (Nat.le_refl _)
  rw [Memory.clearHeap, Attempt.runOn_get_bind, Attempt.runOn_bind_ok ran, Attempt.runOn_modify,
    size]
  rfl

/-- **Deleting drops an object and everything newer**, or does nothing when there is none. -/
theorem delete (held : HoldsObjects memory records) (tops : memory.top ≤ memory.himem)
    (kind : ObjectKind) (name : Name) :
    match HeapRecord.dropThrough? kind name records with
    | none => (Memory.delete kind name).runOn memory = (.ok none, memory)
    | some older => ∃ edited, (Memory.delete kind name).runOn memory =
        (.ok (some (memory.size - (HeapRecord.image older).length)), edited) ∧
          HoldsObjects edited older ∧ KeepsProgram memory edited := by
  cases located : HeapRecord.locate? memory.size kind name records with
  | none =>
    rw [HeapRecord.locate?_eq_none_iff.mp located, Memory.delete, Attempt.runOn_get_bind,
      held.scan?_eq, located]
    rfl
  | some payload =>
    obtain ⟨newer, record, older, cut, is, -, dropped, rfl⟩ := HeapRecord.exists_of_locate? located
    have whole : records = (newer ++ [record]) ++ older := by
      rw [cut]
      simp
    have kept := held.withHeapFrom whole
    have raised := held.raised whole
    have ran := runOn_zero_heap memory raised (Nat.sub_le _ _)
    have size := held.size_eq
    have stop : memory.size - (HeapRecord.image older).length - record.payload.length +
        record.payload.length = memory.size - (HeapRecord.image older).length := by
      rw [cut, HeapRecord.image_append, HeapRecord.image_cons] at size
      simp only [List.length_append, HeapRecord.length_bytes] at size
      omega
    rw [dropped]
    refine ⟨_, ?_, kept, keepsProgram_withHeapFrom memory _ tops raised (Nat.sub_le _ _)⟩
    rw [Memory.delete, Attempt.runOn_get_bind, held.scan?_eq, located]
    simp only [stop]
    rw [Attempt.runOn_bind_ok ran, Attempt.runOn_modify_bind, Attempt.runOn_modify_bind,
      Attempt.runOn_pure]
    -- The objects are counted once the others are gone.
    let uncounted : Memory :=
      memory.withHeapFrom (memory.size - (HeapRecord.image older).length) memory.objects
    have count : uncounted.heapObjects.length = older.length := by
      have same : uncounted.heapObjects = _ := @heapObjects_congr _
        (memory.withHeapFrom
        (memory.size - (HeapRecord.image older).length) older.length) rfl rfl
      rw [same, kept.heapObjects_eq, HeapRecord.length_objectsFrom]
    show (_, { uncounted with objects := uncounted.heapObjects.length }) = _
    rw [count]
    rfl

end HoldsObjects

/-! ### Writing into a payload -/

/-- Writes bytes into the payload of an object, if there is one and they lie in it. -/
def writePayload (kind : ObjectKind) (name : Name) (offset : Nat) (data : Bytes) :
    Attempt Memory Unit := do
  match (← get).scan? kind name with
  | none => pure ()
  | some payload =>
    if offset + data.length ≤ payload.length then write (payload.start + offset) data

namespace HoldsObjects

variable {records : List (HeapRecord width)}

/-- Other bytes of the heap that are those of records with the same kinds, names and lengths. -/
theorem holding (held : HoldsObjects memory records) {others : List (HeapRecord width)}
    (size : (HeapRecord.image others).length = (HeapRecord.image records).length)
    (count : others.length = records.length)
    (distinct : others.Pairwise fun newer older => ¬ older.Is newer.kind newer.name)
    (located : ∀ kind name, HeapRecord.locate? memory.size kind name others =
      HeapRecord.locate? memory.size kind name records) :
    HoldsObjects (memory.holding
      (memory.contents.take memory.himem ++ HeapRecord.image others)) others := by
  have total : (memory.contents.take memory.himem ++ HeapRecord.image others).length =
      memory.size := by
    rw [List.length_append, held.length_below, size, held.size_eq]
  refine ⟨(width_holding total).trans held.width, ?_, ?_, held.objects.trans count.symm, distinct,
    fun kind name payload kept => ?_⟩
  · rw [himem_holding, size_holding, total]
    exact held.inside
  · rw [contents_holding]
    exact List.drop_left' held.length_below
  · rw [size_holding, total, located]
    exact held.recent kind name payload kept

/-- Other bytes for the heap leave the program alone. -/
theorem keepsProgram_holding (held : HoldsObjects memory records)
    (tops : memory.top ≤ memory.himem) {heap : Bytes}
    (size : heap.length = (HeapRecord.image records).length) :
    KeepsProgram memory (memory.holding (memory.contents.take memory.himem ++ heap)) where
  size := by rw [size_holding, List.length_append, held.length_below, size, held.size_eq]
  top := rfl
  program := by
    rw [contents_holding, top_holding, List.take_append_of_le_length
      (by rw [held.length_below]; exact tops), List.take_take, Nat.min_eq_left tops]
  below := tops

/-- **Writing into a payload changes the bytes of that object only.** -/
theorem writePayload (held : HoldsObjects memory records) (tops : memory.top ≤ memory.himem)
    (kind : ObjectKind) (name : Name) (offset : Nat) (data : Bytes) :
    ∃ edited, (Memory.writePayload kind name offset data).runOn memory = (.ok (), edited) ∧
      HoldsObjects edited (HeapRecord.overwrite kind name offset data records) ∧
      KeepsProgram memory edited := by
  have inside := held.inside
  rw [Memory.writePayload, Attempt.runOn_get_bind, held.scan?_eq]
  cases located : HeapRecord.locate? memory.size kind name records with
  | none =>
    rw [HeapRecord.overwrite_absent (HeapRecord.locate?_eq_none_iff.mp located)]
    exact ⟨memory, rfl, held, rfl, rfl, rfl, tops⟩
  | some payload =>
    obtain ⟨newer, record, older, cut, is, before, -, rfl⟩ := HeapRecord.exists_of_locate? located
    by_cases within : offset + data.length ≤ record.payload.length
    · have changed := @HeapRecord.overwrite_append _ _ older _ _ _ before is offset data
      rw [← cut] at changed
      have distinct := held.distinct
      rw [cut] at distinct
      have kept := @holding _ _ _ held (HeapRecord.overwrite kind name offset data records)
        (HeapRecord.length_image_overwrite kind name offset data records)
        (by rw [changed, cut]; simp)
        (by
          rw [changed]
          simpa only [List.pairwise_append, List.pairwise_cons, List.forall_mem_cons,
            HeapRecord.Is, HeapRecord.kind_written, HeapRecord.name_written] using distinct)
        (HeapRecord.locate?_overwrite memory.size kind name offset data records)
      have size := held.size_eq
      rw [cut] at size
      simp only [HeapRecord.image_append, HeapRecord.image_cons, List.length_append,
        HeapRecord.length_bytes] at size
      have written : (record.written offset data).bytes = record.header ++
          (record.payload.take offset ++ data ++ record.payload.drop (offset + data.length)) := by
        rw [HeapRecord.bytes, HeapRecord.header, HeapRecord.kind_written, HeapRecord.name_written,
          HeapRecord.length_payload_written, HeapRecord.written, dif_pos within]
        rfl
      have ran := @runOn_write memory
        (memory.contents.take memory.himem ++ HeapRecord.image newer ++ record.header ++
          record.payload.take offset) ((record.payload.drop offset).take data.length)
        (record.payload.drop (offset + data.length) ++ HeapRecord.image older) data
        (by
          rw [← List.drop_drop, List.append_assoc _ (List.take _ (List.drop _ _)),
            ← List.append_assoc (List.take _ (List.drop _ _)), List.take_append_drop,
            List.append_assoc _ (List.take _ _), ← List.append_assoc (List.take _ _),
            List.take_append_drop]
          conv_lhs => rw [held.contents_eq, cut]
          simp [HeapRecord.bytes]) (by rw [List.length_take, List.length_drop]; omega)
      have start : (memory.contents.take memory.himem ++ HeapRecord.image newer ++ record.header ++
          record.payload.take offset).length = memory.size - (HeapRecord.image older).length -
            record.payload.length + offset := by
        have below := held.length_below
        simp only [List.length_append, below, HeapRecord.length_header, List.length_take]
        omega
      have image : memory.contents.take memory.himem ++ HeapRecord.image
          (HeapRecord.overwrite kind name offset data records) =
            memory.contents.take memory.himem ++ HeapRecord.image newer ++ record.header ++
              record.payload.take offset ++ data ++
                (record.payload.drop (offset + data.length) ++ HeapRecord.image older) := by
        rw [changed, HeapRecord.image_append, HeapRecord.image_cons, written]
        simp
      rw [start] at ran
      refine ⟨_, ?_, kept, keepsProgram_holding held tops ?_⟩
      · simp only [if_pos within, image]
        exact ran
      · exact HeapRecord.length_image_overwrite kind name offset data records
    · have same : HeapRecord.overwrite kind name offset data records = records := by
        rw [cut, HeapRecord.overwrite_append before is, HeapRecord.written, dif_neg within]
      simp only [if_neg within, same]
      exact ⟨memory, rfl, held, rfl, rfl, rfl, tops⟩

end HoldsObjects

end Memory

end PocketBasic
