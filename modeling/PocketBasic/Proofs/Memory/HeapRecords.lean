/-
**Objects of the heap as records.** The heap is one record after another, the newest first: the kind
and the name of an object, the length of its payload unless it is a number, and the payload.

* `HeapRecord`: an object with the bytes of its payload; `HeapRecord.locate?`,
  `HeapRecord.dropThrough?`: what a list of objects answers, with addresses counted from the end of
  memory;
* `Memory.HoldsObjects`: the heap of a memory is made of given records;
* `Memory.HoldsObjects.heapObjects_eq`: the walk over the bytes meets the records;
* **`Memory.HoldsObjects.find_eq`**: what is found is what the list says, remembered or not.
-/

import Mathlib.Data.List.Basic
import Mathlib.Data.List.GetD
import Mathlib.Tactic.Common
import PocketBasic.Memory.Heap
import PocketBasic.Proofs.Memory.Editing

namespace PocketBasic

/-- An object of the heap: its payload has a length that the header can tell. -/
structure HeapRecord (width : AddressWidth) where
  kind : ObjectKind
  name : Name
  payload : Bytes
  fits : payload.length ≤ width.largest
  number : kind = .scalar → payload.length = numberSize

namespace ObjectKind

@[simp]
theorem ofTag?_tag (kind : ObjectKind) : ofTag? kind.tag = some kind := by
  cases kind <;> rfl

end ObjectKind

namespace HeapRecord

variable {width : AddressWidth}

/-! ### Bytes -/

/-- What stands in front of the payload. -/
def header (record : HeapRecord width) : Bytes :=
  [record.kind.tag, record.name.first, record.name.second] ++
    if record.kind = .scalar then [] else width.encode record.payload.length

def bytes (record : HeapRecord width) : Bytes := record.header ++ record.payload

/-- The bytes of records in order. -/
def image (records : List (HeapRecord width)) : Bytes := records.flatMap (·.bytes)

@[simp]
theorem image_nil : image ([] : List (HeapRecord width)) = [] := rfl

@[simp]
theorem image_cons (record : HeapRecord width) (older : List (HeapRecord width)) :
    image (record :: older) = record.bytes ++ image older := List.flatMap_cons

@[simp]
theorem image_append (newer older : List (HeapRecord width)) :
    image (newer ++ older) = image newer ++ image older := List.flatMap_append

@[simp]
theorem length_header (record : HeapRecord width) :
    record.header.length = record.kind.headerLength width := by
  obtain ⟨kind, name, payload, _, _⟩ := record
  cases kind <;> simp [header, ObjectKind.headerLength] <;> omega

@[simp]
theorem length_bytes (record : HeapRecord width) :
    record.bytes.length = record.kind.headerLength width + record.payload.length := by
  rw [bytes, List.length_append, length_header]

theorem three_le_headerLength (kind : ObjectKind) (width : AddressWidth) :
    3 ≤ kind.headerLength width := by
  cases kind <;> simp [ObjectKind.headerLength]

theorem length_le_image (records : List (HeapRecord width)) :
    records.length ≤ (image records).length := by
  induction records with
  | nil => exact Nat.le_refl _
  | cons record older ih =>
    have := three_le_headerLength record.kind width
    rw [image_cons, List.length_append, List.length_cons, length_bytes]
    omega

/-! ### Answers of a list -/

/-- Whether an object goes by this kind and name. -/
def Is (kind : ObjectKind) (name : Name) (record : HeapRecord width) : Prop :=
  record.kind = kind ∧ record.name = name

instance decidableIs (kind : ObjectKind) (name : Name) (record : HeapRecord width) :
    Decidable (record.Is kind name) := inferInstanceAs (Decidable (_ ∧ _))

/-- The payload of the newest object of a kind and name, in a heap that ends at `size`. It ends
where the older objects begin. -/
def locate? (size : Nat) (kind : ObjectKind) (name : Name) : List (HeapRecord width) → Option Extent
  | [] => none
  | record :: older =>
    if record.Is kind name then
      some { start := size - (image older).length - record.payload.length
             length := record.payload.length }
    else locate? size kind name older

/-- The objects older than the newest one of a kind and name. -/
def dropThrough? (kind : ObjectKind) (name : Name) :
    List (HeapRecord width) → Option (List (HeapRecord width))
  | [] => none
  | record :: older => if record.Is kind name then some older else dropThrough? kind name older

/-- The objects as they are met by a walk that begins at an address. -/
def objectsFrom : Nat → List (HeapRecord width) → List HeapObject
  | _, [] => []
  | start, record :: older =>
    { kind := record.kind, name := record.name, start
      payload :=
        { start := start + record.kind.headerLength width, length := record.payload.length } } ::
      objectsFrom (start + record.bytes.length) older

@[simp]
theorem length_objectsFrom (start : Nat) (records : List (HeapRecord width)) :
    (objectsFrom start records).length = records.length := by
  induction records generalizing start with
  | nil => rfl
  | cons record older ih => rw [objectsFrom, List.length_cons, ih, List.length_cons]

/-- A walk up to the end of memory finds what the list says. -/
theorem find?_objectsFrom {size start : Nat} {kind : ObjectKind} {name : Name}
    {records : List (HeapRecord width)} (ends : start + (image records).length = size) :
    ((objectsFrom start records).find? fun object =>
      object.kind = kind && object.name = name).map (·.payload) =
      locate? size kind name records := by
  induction records generalizing start with
  | nil => rfl
  | cons record older ih =>
    rw [image_cons, List.length_append, length_bytes] at ends
    rw [objectsFrom, locate?, List.find?_cons]
    by_cases wanted : record.Is kind name
    · have both : (decide (record.kind = kind) && decide (record.name = name)) = true := by
        simpa [Is] using wanted
      simp only [both, if_pos wanted, Option.map_some]
      have start : start + record.kind.headerLength width =
          size - (image older).length - record.payload.length := by omega
      rw [start]
    · have notBoth : (decide (record.kind = kind) && decide (record.name = name)) = false := by
        simpa [Is] using wanted
      simp only [notBoth, if_neg wanted]
      exact ih (by rw [length_bytes]; omega)

theorem locate?_eq_none {size : Nat} {kind : ObjectKind} {name : Name}
    {records : List (HeapRecord width)} (absent : ∀ record ∈ records, ¬ record.Is kind name) :
    locate? size kind name records = none := by
  induction records with
  | nil => rfl
  | cons record older ih =>
    obtain ⟨first, others⟩ := List.forall_mem_cons.mp absent
    rw [locate?, if_neg first, ih others]

/-- An object stays where it is when objects with new names are put in front of it. -/
theorem locate?_append_of_new {size : Nat} {kind : ObjectKind} {name : Name}
    {added records : List (HeapRecord width)} {payload : Extent}
    (new : ∀ record ∈ added, ∀ other ∈ records, ¬ other.Is record.kind record.name)
    (found : locate? size kind name records = some payload) :
    locate? size kind name (added ++ records) = some payload := by
  induction added with
  | nil => exact found
  | cons record rest ih =>
    obtain ⟨first, others⟩ := List.forall_mem_cons.mp new
    have different : ¬ record.Is kind name := by
      rintro ⟨rfl, rfl⟩
      rw [locate?_eq_none first] at found
      cases found
    rw [List.cons_append, locate?, if_neg different]
    exact ih others

theorem locate?_eq_none_iff {size : Nat} {kind : ObjectKind} {name : Name}
    {records : List (HeapRecord width)} :
    locate? size kind name records = none ↔ dropThrough? kind name records = none := by
  induction records with
  | nil => simp [locate?, dropThrough?]
  | cons record older ih =>
    rw [locate?, dropThrough?]
    split_ifs <;> simp [ih]

/-- **An object that is located is in the list**, and its payload ends where the objects behind it
begin. -/
theorem exists_of_locate? {size : Nat} {kind : ObjectKind} {name : Name}
    {records : List (HeapRecord width)} {payload : Extent}
    (found : locate? size kind name records = some payload) :
    ∃ newer record older, records = newer ++ record :: older ∧ record.Is kind name ∧
      (∀ other ∈ newer, ¬ other.Is kind name) ∧ dropThrough? kind name records = some older ∧
      payload = { start := size - (image older).length - record.payload.length
                  length := record.payload.length } := by
  induction records with
  | nil => cases found
  | cons record older ih =>
    rw [locate?] at found
    rw [dropThrough?]
    split_ifs at found ⊢ with wanted
    · cases found
      exact ⟨[], record, older, rfl, wanted, by simp, rfl, rfl⟩
    · obtain ⟨newer, other, oldest, cut, is, before, dropped, same⟩ := ih found
      refine ⟨record :: newer, other, oldest, by rw [cut]; rfl, is, ?_, dropped, same⟩
      exact List.forall_mem_cons.mpr ⟨wanted, before⟩

end HeapRecord

namespace Memory

variable {memory : Memory} {width : AddressWidth}

/-! ### Walking over the bytes -/

theorem addressAt?_eq {before data after : Bytes} (widths : memory.width = width)
    (cut : memory.contents = before ++ data ++ after) (count : data.length = width.byteCount) :
    memory.addressAt? before.length = some (fromLittleEndian data) := by
  rw [addressAt?, widths, ← count, read?_eq cut]
  rfl

/-- The bytes of a record say what the object is. -/
theorem objectAt?_eq {before after : Bytes} (record : HeapRecord width)
    (widths : memory.width = width) (cut : memory.contents = before ++ record.bytes ++ after) :
    memory.objectAt? before.length = some
      { kind := record.kind, name := record.name, start := before.length
        payload := { start := before.length + record.kind.headerLength width
                     length := record.payload.length } } := by
  have size := congrArg List.length cut
  simp only [length_contents, List.length_append, HeapRecord.length_bytes] at size
  have header := HeapRecord.three_le_headerLength record.kind width
  have bytes : memory.contents = before ++ record.kind.tag :: record.name.first ::
      record.name.second :: ((if record.kind = .scalar then [] else
        width.encode record.payload.length) ++ record.payload ++ after) := by
    rw [cut, HeapRecord.bytes, HeapRecord.header]
    simp
  have byte (place : Nat) : memory.bytes.getD (before.length + place) 0 =
      (record.kind.tag :: record.name.first :: record.name.second ::
        ((if record.kind = .scalar then [] else width.encode record.payload.length) ++
          record.payload ++ after)).getD place 0 := by
    rw [getD_bytes, bytes, List.getD_append_right _ _ _ _ (Nat.le_add_right _ _),
      Nat.add_sub_cancel_left]
  have tag : memory.bytes.getD before.length 0 = record.kind.tag := byte 0
  have first : memory.bytes.getD (before.length + 1) 0 = record.name.first := byte 1
  have second : memory.bytes.getD (before.length + 2) 0 = record.name.second := byte 2
  have inside : ¬ memory.size < before.length + 3 := by omega
  have whole : ¬ memory.size < before.length + record.kind.headerLength width := by omega
  have stored (plain : record.kind ≠ .scalar) :
      (memory.addressAt? (before.length + 3)).getD 0 = record.payload.length := by
    rw [if_neg plain] at bytes
    have three : (before ++ [record.kind.tag, record.name.first, record.name.second]).length =
        before.length + 3 := by simp
    rw [← three, @addressAt?_eq _ _ _ (width.encode record.payload.length)
      (record.payload ++ after) widths (by rw [bytes]; simp) (by simp),
      Option.getD_some, width.fromLittleEndian_encode record.fits]
  simp only [objectAt?, tag, first, second, inside, if_false, ObjectKind.ofTag?_tag, widths, whole]
  refine congrArg (fun length => some (HeapObject.mk record.kind record.name before.length
    ⟨before.length + record.kind.headerLength width, length⟩)) ?_
  split
  · rename_i scalar
    exact (record.number scalar).symm
  · rename_i plain
    exact stored plain

/-- **The walk over a heap of records meets the records.** -/
theorem objectsWithin_eq {before : Bytes} {records : List (HeapRecord width)}
    (widths : memory.width = width) (cut : memory.contents = before ++ HeapRecord.image records)
    {fuel : Nat} (enough : records.length ≤ fuel) :
    memory.objectsWithin fuel before.length = HeapRecord.objectsFrom before.length records := by
  induction records generalizing before fuel with
  | nil =>
    rw [HeapRecord.image_nil, List.append_nil] at cut
    have size := congrArg List.length cut
    rw [length_contents] at size
    rcases fuel with _ | fuel
    · rfl
    · have ends : memory.size < before.length + 3 := by omega
      rw [objectsWithin, objectAt?, if_pos ends]
      rfl
  | cons record older ih =>
    rw [List.length_cons] at enough
    obtain ⟨fuel, rfl⟩ : ∃ less, fuel = less + 1 := ⟨fuel - 1, by omega⟩
    rw [HeapRecord.image_cons, ← List.append_assoc] at cut
    have next : before.length + record.kind.headerLength width + record.payload.length =
        (before ++ record.bytes).length := by
      rw [List.length_append, HeapRecord.length_bytes]
      omega
    rw [objectsWithin, objectAt?_eq record widths cut]
    simp only [next]
    rw [ih cut (by omega), HeapRecord.objectsFrom, List.length_append]

/-- The walk depends on the bytes and on where it begins. -/
theorem heapObjects_congr {first second : Memory} (bytes : first.bytes = second.bytes)
    (himem : first.himem = second.himem) : first.heapObjects = second.heapObjects := by
  have objectAt (start : Nat) : first.objectAt? start = second.objectAt? start := by
    obtain ⟨firstBytes⟩ := first
    obtain ⟨secondBytes⟩ := second
    cases bytes
    rfl
  have walk (fuel : Nat) : ∀ start,
      first.objectsWithin fuel start = second.objectsWithin fuel start := by
    induction fuel with
    | zero => exact fun _ => rfl
    | succ fuel ih =>
      intro start
      rw [objectsWithin, objectsWithin, objectAt]
      simp only [ih]
  rw [heapObjects, heapObjects, walk, himem, size, size, bytes]

/-! ### Finding -/

/-- The heap of a memory is made of records, no two of them with the same kind and name, and what is
remembered is true of them. -/
structure HoldsObjects (memory : Memory) {width : AddressWidth}
    (records : List (HeapRecord width)) :
    Prop where
  width : memory.width = width
  inside : memory.himem ≤ memory.size
  heap : memory.contents.drop memory.himem = HeapRecord.image records
  objects : memory.objects = records.length
  distinct : records.Pairwise fun newer older => ¬ older.Is newer.kind newer.name
  recent : ∀ kind name payload, memory.recent = some (kind, name, payload) →
    HeapRecord.locate? memory.size kind name records = some payload

namespace HoldsObjects

variable {records : List (HeapRecord width)}

theorem contents_eq (held : HoldsObjects memory records) :
    memory.contents = memory.contents.take memory.himem ++ HeapRecord.image records := by
  rw [← held.heap, List.take_append_drop]

theorem length_below (held : HoldsObjects memory records) :
    (memory.contents.take memory.himem).length = memory.himem := by
  rw [List.length_take, length_contents]
  exact Nat.min_eq_left held.inside

theorem size_eq (held : HoldsObjects memory records) :
    memory.himem + (HeapRecord.image records).length = memory.size := by
  have total := congrArg List.length held.contents_eq
  rwa [List.length_append, held.length_below, length_contents, eq_comm] at total

/-- **The heap spells its records.** -/
theorem heapObjects_eq (held : HoldsObjects memory records) :
    memory.heapObjects = HeapRecord.objectsFrom memory.himem records := by
  have enough := HeapRecord.length_le_image records
  have size := held.size_eq
  have walked := @objectsWithin_eq _ _ _ _ held.width held.contents_eq
    (memory.size - memory.himem) (by omega)
  rwa [held.length_below] at walked

theorem scan?_eq (held : HoldsObjects memory records) (kind : ObjectKind) (name : Name) :
    memory.scan? kind name = HeapRecord.locate? memory.size kind name records := by
  rw [scan?, held.heapObjects_eq]
  exact HeapRecord.find?_objectsFrom held.size_eq

/-- **What is found is what a scan finds**, whatever is remembered. -/
theorem find_eq (held : HoldsObjects memory records) (kind : ObjectKind) (name : Name) :
    (memory.find kind name).1 = HeapRecord.locate? memory.size kind name records := by
  rw [find]
  split
  · rename_i payload remembered
    obtain ⟨⟨recentKind, recentName, recent⟩, kept, same⟩ := Option.bind_eq_some_iff.mp remembered
    simp only at same
    split at same
    · rename_i both
      cases same
      rw [Bool.and_eq_true, decide_eq_true_eq, decide_eq_true_eq] at both
      rw [← both.1, ← both.2]
      exact (held.recent _ _ _ kept).symm
    · cases same
  · rw [← held.scan?_eq]
    split <;> simp only [*]

/-- Finding changes what is remembered and nothing else. -/
theorem find_snd (memory : Memory) (kind : ObjectKind) (name : Name) :
    ∃ recent, (memory.find kind name).2 = { memory with recent } := by
  rw [find]
  split
  · exact ⟨memory.recent, rfl⟩
  · split
    · exact ⟨_, rfl⟩
    · exact ⟨memory.recent, rfl⟩

theorem find (held : HoldsObjects memory records) (kind : ObjectKind) (name : Name) :
    HoldsObjects (memory.find kind name).2 records := by
  rw [Memory.find]
  split
  · exact held
  · have scanned := held.scan?_eq kind name
    split
    · rename_i payload found
      refine ⟨held.width, held.inside, held.heap, held.objects, held.distinct, ?_⟩
      rintro _ _ _ ⟨⟩
      exact scanned.symm.trans found
    · exact held

end HoldsObjects

end Memory

end PocketBasic
