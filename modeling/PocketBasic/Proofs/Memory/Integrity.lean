/-
**The heap stays in one piece.** Every object of the heap is a record, no two with the same kind and
name; an array is a grid of numbers with the number of its columns behind them, and a string is a
row of elements, each with a length that fits into it, with their number behind them.

* `HeapRecord.IsArray`, `HeapRecord.IsString`: payloads of arrays and strings;
* `Memory.IsIntact`: a memory whose heap is made of such objects, above the program;
* `Memory.IsIntact.storeLine`, `Memory.IsIntact.delete` and the others: the calls that keep it so;
* `Memory.HasRecord`: a memory with an object at a place, and such objects around it;
* **`Memory.IsIntact.allocate`**, **`Memory.HasRecord.write`**: making an object and writing into
  it;
* `Memory.IsHeld`: a memory whose heap is made of any objects, above the program.
-/

import PocketBasic.Memory.Editor
import PocketBasic.Proofs.Memory.HeapAccess
import PocketBasic.Proofs.Memory.Session

namespace PocketBasic

variable {width : AddressWidth}

theorem AddressWidth.byteCount_pos (width : AddressWidth) : 0 < width.byteCount := by
  cases width <;> decide

/-! ### Payloads -/

/-- What an object takes for a size. -/
theorem ObjectKind.length_of_payloadLength? {kind : ObjectKind} {size length : Nat}
    (made : kind.payloadLength? size width = some length) :
    length = match kind with
      | .scalar => numberSize
      | .array => size * numberSize + width.byteCount
      | .string => size + width.byteCount
      | .function => width.byteCount + 2
      | .buffer => size := by
  unfold payloadLength? at made
  simp only at made
  split_ifs at made
  cases made
  cases kind <;> rfl

namespace HeapRecord

/-- The payload of an array: its elements row by row, and the number of columns. -/
structure IsArray (record : HeapRecord width) (rows columns : Nat) : Prop where
  rows_pos : 0 < rows
  columns_pos : 0 < columns
  columns_at : record.payload.drop (rows * columns * numberSize) = width.encode columns

/-- The payload of a string: its elements, each a length and the bytes that are there for it, and
the number of elements. -/
structure IsString (record : HeapRecord width) (capacity count : Nat) : Prop where
  count_pos : 0 < count
  capacity_le : capacity ≤ 255
  count_at : record.payload.drop ((capacity + 1) * count) = width.encode count
  length_le : ∀ place < count, (record.payload.getD (place * (capacity + 1)) 0).toNat ≤ capacity

/-- An object whose payload is what its kind says: a function keeps an address and a name. -/
structure IsWellFormed (record : HeapRecord width) : Prop where
  array : record.kind = .array → ∃ rows columns, record.IsArray rows columns
  string : record.kind = .string → ∃ capacity count, record.IsString capacity count
  function : record.kind = .function → record.payload.length = width.byteCount + 2

section Payloads

variable {record : HeapRecord width} {rows columns capacity count offset : Nat} {data : Bytes}

theorem length_of_drop {bytes : Bytes} {size address : Nat}
    (behind : bytes.drop size = width.encode address) :
    bytes.length = size + width.byteCount := by
  have lengths := congrArg List.length behind
  rw [List.length_drop, AddressWidth.length_encode] at lengths
  have := width.byteCount_pos
  omega

theorem IsArray.length (array : record.IsArray rows columns) :
    record.payload.length = rows * columns * numberSize + width.byteCount :=
  length_of_drop array.columns_at

theorem IsString.length (string : record.IsString capacity count) :
    record.payload.length = (capacity + 1) * count + width.byteCount :=
  length_of_drop string.count_at

/-- An array has no more rows and columns than bytes. -/
theorem IsArray.dimensions_le (array : record.IsArray rows columns) :
    rows ≤ rows * columns * numberSize ∧ columns ≤ rows * columns * numberSize := by
  constructor
  · rw [Nat.mul_assoc]
    exact Nat.le_mul_of_pos_right rows (Nat.mul_pos array.columns_pos (by decide))
  · rw [Nat.mul_comm rows, Nat.mul_assoc]
    exact Nat.le_mul_of_pos_right columns (Nat.mul_pos array.rows_pos (by decide))

theorem IsArray.columns_le (array : record.IsArray rows columns) : columns ≤ width.largest := by
  have fits := record.fits
  rw [array.length] at fits
  have := array.dimensions_le
  omega

theorem IsString.count_le (string : record.IsString capacity count) : count ≤ width.largest := by
  have fits := record.fits
  rw [string.length] at fits
  have : count ≤ (capacity + 1) * count := Nat.le_mul_of_pos_left count (Nat.succ_pos _)
  omega

/-- Writing into the elements leaves an array an array. -/
theorem IsArray.written (array : record.IsArray rows columns)
    (within : offset + data.length ≤ rows * columns * numberSize) :
    (record.written offset data).IsArray rows columns where
  rows_pos := array.rows_pos
  columns_pos := array.columns_pos
  columns_at := by
    rw [drop_payload_written (by rw [array.length]; omega) within, array.columns_at]

/-- The number of columns makes an array of a payload. -/
theorem isArray_written (rowsPositive : 0 < rows) (columnsPositive : 0 < columns)
    (length : record.payload.length = rows * columns * numberSize + width.byteCount) :
    (record.written (rows * columns * numberSize) (width.encode columns)).IsArray rows columns where
  rows_pos := rowsPositive
  columns_pos := columnsPositive
  columns_at := drop_payload_written_end (by rw [length, AddressWidth.length_encode])

/-- The places of an element lie between its length and the length of the next one. -/
theorem place_bounds {place other : Nat} (different : other ≠ place) (step : Nat) :
    other * step + step ≤ place * step ∨ place * step + step ≤ other * step := by
  rcases Nat.lt_or_gt_of_ne different with less | more
  · refine .inl ?_
    rw [← Nat.succ_mul]
    exact Nat.mul_le_mul_right _ less
  · refine .inr ?_
    rw [← Nat.succ_mul]
    exact Nat.mul_le_mul_right _ more

theorem place_le {place : Nat} (inside : place < count) :
    place * (capacity + 1) + (capacity + 1) ≤ (capacity + 1) * count := by
  rw [← Nat.succ_mul, Nat.mul_comm (capacity + 1)]
  exact Nat.mul_le_mul_right _ inside

/-- Writing into the bytes of an element leaves a string a string. -/
theorem IsString.written_text (string : record.IsString capacity count) {place start : Nat}
    (inside : place < count) (fits : start + data.length ≤ capacity) :
    (record.written (place * (capacity + 1) + 1 + start) data).IsString capacity count := by
  have bounds : _ ≤ (capacity + 1) * count := place_le inside
  have within : place * (capacity + 1) + 1 + start + data.length ≤ record.payload.length := by
    rw [string.length]
    omega
  refine ⟨string.count_pos, string.capacity_le, ?_, fun other otherInside => ?_⟩
  · rw [drop_payload_written within (by omega), string.count_at]
  · rw [getD_payload_written within]
    · exact string.length_le other otherInside
    · by_cases same : other = place
      · subst same
        omega
      · have := place_bounds same (capacity + 1)
        omega

/-- Writing the length of an element leaves a string a string, if the length fits. -/
theorem IsString.written_length (string : record.IsString capacity count) {place : Nat}
    {byte : UInt8}
    (inside : place < count) (fits : byte.toNat ≤ capacity) :
    (record.written (place * (capacity + 1)) [byte]).IsString capacity count := by
  have bounds : _ ≤ (capacity + 1) * count := place_le inside
  have within : place * (capacity + 1) + [byte].length ≤ record.payload.length := by
    rw [string.length, List.length_singleton]
    omega
  refine ⟨string.count_pos, string.capacity_le, ?_, fun other otherInside => ?_⟩
  · rw [drop_payload_written within (by rw [List.length_singleton]; omega), string.count_at]
  · by_cases same : other = place
    · subst same
      rw [getD_payload_written_self within]
      exact fits
    · rw [getD_payload_written within]
      · exact string.length_le other otherInside
      · have := place_bounds same (capacity + 1)
        rw [List.length_singleton]
        omega

/-- The number of elements makes a string of a payload of zeros. -/
theorem isString_written (countPositive : 0 < count) (capacityLe : capacity ≤ 255)
    (zeros : record.payload = List.replicate ((capacity + 1) * count + width.byteCount) 0) :
    (record.written ((capacity + 1) * count) (width.encode count)).IsString capacity count := by
  have length : record.payload.length = (capacity + 1) * count + width.byteCount := by
    rw [zeros, List.length_replicate]
  have ends : (capacity + 1) * count + (width.encode count).length = record.payload.length := by
    rw [length, AddressWidth.length_encode]
  refine ⟨countPositive, capacityLe, drop_payload_written_end ends, fun place inside => ?_⟩
  have bounds : _ ≤ (capacity + 1) * count := place_le inside
  rw [getD_payload_written (Nat.le_of_eq ends) (.inl (by omega)), zeros]
  simp only [List.getD_eq_getElem?_getD, List.getElem?_replicate]
  split <;> simp

theorem isWellFormed_of_scalar (kind : record.kind = .scalar) : record.IsWellFormed := by
  constructor <;> rw [kind] <;> exact nofun

theorem isWellFormed_of_buffer (kind : record.kind = .buffer) : record.IsWellFormed := by
  constructor <;> rw [kind] <;> exact nofun

theorem isWellFormed_of_function (kind : record.kind = .function)
    (length : record.payload.length = width.byteCount + 2) : record.IsWellFormed := by
  refine ⟨?_, ?_, fun _ => length⟩ <;> rw [kind] <;> exact nofun

theorem IsArray.isWellFormed (array : record.IsArray rows columns) (kind : record.kind = .array) :
    record.IsWellFormed := by
  refine ⟨fun _ => ⟨rows, columns, array⟩, ?_, ?_⟩ <;> rw [kind] <;> exact nofun

theorem IsString.isWellFormed (string : record.IsString capacity count)
    (kind : record.kind = .string) : record.IsWellFormed := by
  refine ⟨?_, fun _ => ⟨capacity, count, string⟩, ?_⟩ <;> rw [kind] <;> exact nofun

end Payloads

theorem mem_of_dropThrough? {kind : ObjectKind} {name : Name} {record : HeapRecord width}
    {records older : List (HeapRecord width)}
    (dropped : dropThrough? kind name records = some older)
    (among : record ∈ older) : record ∈ records := by
  induction records with
  | nil => cases dropped
  | cons first rest ih =>
    rw [dropThrough?] at dropped
    split_ifs at dropped
    · cases dropped
      exact List.mem_cons_of_mem _ among
    · exact List.mem_cons_of_mem _ (ih dropped)

/-- A payload is where the record in the middle of a list is. -/
theorem locate?_append_cons {size : Nat} {newer older : List (HeapRecord width)}
    {record : HeapRecord width} (before : ∀ other ∈ newer, ¬ other.Is record.kind record.name) :
    locate? size record.kind record.name (newer ++ record :: older) =
      some { start := size - (image older).length - record.payload.length
             length := record.payload.length } := by
  induction newer with
  | nil => rw [List.nil_append, locate?, if_pos ⟨rfl, rfl⟩]
  | cons other rest ih =>
    obtain ⟨first, others⟩ := List.forall_mem_cons.mp before
    rw [List.cons_append, locate?, if_neg first, ih others]

end HeapRecord

/-! ### Memory -/

namespace Memory

variable {size : Nat} {memory : Memory}

/-- A memory whose heap is made of well-formed objects, above the program. -/
structure IsIntact (size : Nat) (memory : Memory) : Prop where
  size_eq : memory.size = size
  below : memory.top ≤ memory.himem
  objects : ∃ records : List (HeapRecord (AddressWidth.forSize size)),
    memory.HoldsObjects records ∧ ∀ record ∈ records, record.IsWellFormed

/-- A memory with an object at a place, and nothing but well-formed objects around it. -/
structure HasRecord (size : Nat) (memory : Memory) (payload : Extent)
    (record : HeapRecord (AddressWidth.forSize size)) : Prop where
  size_eq : memory.size = size
  below : memory.top ≤ memory.himem
  held : ∃ newer older : List (HeapRecord (AddressWidth.forSize size)),
    memory.HoldsObjects (newer ++ record :: older) ∧
      (∀ other ∈ newer ++ older,
        ¬ other.Is record.kind record.name ∧ other.IsWellFormed) ∧
      payload = { start := size - (HeapRecord.image older).length - record.payload.length
                  length := record.payload.length }

namespace HasRecord

variable {payload : Extent} {record : HeapRecord (AddressWidth.forSize size)}

theorem isIntact (has : memory.HasRecord size payload record) (wellFormed : record.IsWellFormed) :
    memory.IsIntact size := by
  obtain ⟨newer, older, held, others, -⟩ := has.held
  refine ⟨has.size_eq, has.below, _, held, fun other among => ?_⟩
  rcases List.mem_append.mp among with newerOne | olderOne
  · exact (others other (List.mem_append_left _ newerOne)).2
  · rcases List.mem_cons.mp olderOne with rfl | olderOne
    · exact wellFormed
    · exact (others other (List.mem_append_right _ olderOne)).2

theorem length_eq (has : memory.HasRecord size payload record) :
    payload.length = record.payload.length := by
  obtain ⟨newer, older, held, others, rfl⟩ := has.held
  rfl

theorem stop_le (has : memory.HasRecord size payload record) :
    payload.start + payload.length ≤ size := by
  obtain ⟨newer, older, held, others, rfl⟩ := has.held
  have total := held.size_eq
  rw [has.size_eq] at total
  simp only [HeapRecord.image_append, HeapRecord.image_cons, List.length_append,
    HeapRecord.length_bytes] at total
  simp only
  omega

/-- The address at the end of a payload. -/
theorem addressAt?_end (has : memory.HasRecord size payload record) {start address : Nat}
    (ends : record.payload.drop start = (AddressWidth.forSize size).encode address)
    (fits : address ≤ (AddressWidth.forSize size).largest) :
    memory.addressAt? (payload.start + start) = some address := by
  have total := HeapRecord.length_of_drop ends
  have cut : record.payload = record.payload.take start ++
      (AddressWidth.forSize size).encode address ++ [] := by
    rw [← ends, List.append_nil, List.take_append_drop]
  obtain ⟨newer, older, held, others, rfl⟩ := has.held
  have read := held.read?_payload cut
  rw [AddressWidth.length_encode, List.length_take, Nat.min_eq_left (by omega), has.size_eq] at read
  rw [addressAt?, held.width]
  simp only
  rw [read, Option.map_some, AddressWidth.fromLittleEndian_encode _ fits]

/-- **Writing into the payload changes the record.** -/
theorem write (has : memory.HasRecord size payload record) {offset : Nat} {data : Bytes}
    (within : offset + data.length ≤ payload.length) :
    ∃ edited, (Memory.write (payload.start + offset) data).runOn memory = (.ok (), edited) ∧
      edited.HasRecord size payload (record.written offset data) := by
  obtain ⟨newer, older, held, others, same⟩ := has.held
  have before : ∀ other ∈ newer, ¬ other.Is record.kind record.name := fun other among =>
    (others other (List.mem_append_left _ among)).1
  have located : HeapRecord.locate? memory.size record.kind record.name
      (newer ++ record :: older) = some payload := by
    rw [HeapRecord.locate?_append_cons before, same, has.size_eq]
  obtain ⟨edited, ran, kept, program⟩ := held.write_payload has.below located within
  rw [HeapRecord.overwrite_append before ⟨rfl, rfl⟩] at kept
  refine ⟨edited, ran, program.size.trans has.size_eq, program.below, newer, older, kept, ?_, ?_⟩
  · simpa only [HeapRecord.kind_written, HeapRecord.name_written] using others
  · rw [HeapRecord.length_payload_written]
    exact same

end HasRecord

/-- Whether what a step came to left a memory intact, and accessed nothing outside of it. -/
def StaysIntact {α : Type} (size : Nat) (result : Except Failure α × Memory) : Prop :=
  result.2.IsIntact size ∧ result.1 ≠ .error .fault

/-- Looking a line up changes nothing but the slots for lines. -/
theorem findLine_keepsHeap (tops : memory.top ≤ memory.himem) (line : LineNumber) :
    KeepsHeap memory (memory.findLine line).2 := by
  rw [findLine]
  split
  · exact ⟨rfl, rfl, rfl, rfl, rfl, tops⟩
  · split
    all_goals exact ⟨rfl, rfl, rfl, rfl, rfl, tops⟩

namespace IsIntact

theorem inside (intact : memory.IsIntact size) : memory.himem ≤ memory.size := by
  obtain ⟨records, held, -⟩ := intact.objects
  exact held.inside

theorem width_eq (intact : memory.IsIntact size) : memory.width = AddressWidth.forSize size :=
  congrArg AddressWidth.forSize intact.size_eq

theorem of_keepsHeap {edited : Memory} (intact : memory.IsIntact size)
    (kept : KeepsHeap memory edited) : edited.IsIntact size := by
  obtain ⟨records, held, wellFormed⟩ := intact.objects
  exact ⟨kept.size.trans intact.size_eq, kept.below, records, held.of_keepsHeap kept, wellFormed⟩

theorem ofSize (size : Nat) : (Memory.ofSize size).IsIntact size := by
  obtain ⟨same, below, held⟩ := @Session.holdsHeap_fresh size
  exact ⟨same, below, [], held, nofun⟩

/-! ### The program -/

theorem findLine (intact : memory.IsIntact size) (line : LineNumber) :
    (memory.findLine line).2.IsIntact size :=
  intact.of_keepsHeap (findLine_keepsHeap intact.below line)

theorem storeLine (intact : memory.IsIntact size) (line : LineNumber) (body : List Token) :
    StaysIntact size ((Memory.storeLine line body).runOn memory) := by
  rcases Memory.storeLine_keepsHeap intact.below intact.inside line body with
    ⟨error, ran | ran⟩ | ⟨edited, ran, kept⟩
  all_goals rw [ran]
  · exact ⟨intact, nofun⟩
  · exact ⟨intact.of_keepsHeap ⟨rfl, rfl, rfl, rfl, rfl, intact.below⟩, nofun⟩
  · exact ⟨intact.of_keepsHeap kept, nofun⟩

theorem clearProgram (intact : memory.IsIntact size) :
    StaysIntact size (Memory.clearProgram.runOn memory) := by
  refine ⟨intact.of_keepsHeap (Memory.clearProgram_keepsHeap intact.below intact.inside), ?_⟩
  rw [Memory.runOn_clearProgram (Nat.le_trans intact.below intact.inside)]
  exact nofun

theorem loadProgram (intact : memory.IsIntact size) (image : Bytes) :
    StaysIntact size ((Memory.loadProgram image).runOn memory) := by
  rcases Memory.loadProgram_keepsHeap intact.below intact.inside image with
    ⟨error, ran⟩ | ⟨edited, ran, kept⟩
  all_goals rw [ran]
  · exact ⟨intact, nofun⟩
  · exact ⟨intact.of_keepsHeap kept, nofun⟩

/-! ### Objects -/

theorem find (intact : memory.IsIntact size) (kind : ObjectKind) (name : Name) :
    (memory.find kind name).2.IsIntact size := by
  obtain ⟨records, held, wellFormed⟩ := intact.objects
  obtain ⟨recent, same⟩ := HoldsObjects.find_snd memory kind name
  have found := held.find kind name
  rw [same] at found ⊢
  exact ⟨intact.size_eq, intact.below, records, found, wellFormed⟩

/-- What is found is the payload of a well-formed object. -/
theorem exists_record (intact : memory.IsIntact size) {kind : ObjectKind} {name : Name}
    {payload : Extent} (found : (memory.find kind name).1 = some payload) :
    ∃ record : HeapRecord (AddressWidth.forSize size), record.Is kind name ∧
      record.IsWellFormed ∧ (memory.find kind name).2.HasRecord size payload record := by
  obtain ⟨records, held, wellFormed⟩ := intact.objects
  obtain ⟨recent, same⟩ := HoldsObjects.find_snd memory kind name
  have kept := held.find kind name
  rw [held.find_eq] at found
  obtain ⟨newer, record, older, rfl, ⟨rfl, rfl⟩, before, -, rfl⟩ :=
    HeapRecord.exists_of_locate? found
  refine ⟨record, ⟨rfl, rfl⟩, wellFormed record (by simp), ?_⟩
  rw [same] at kept ⊢
  refine ⟨intact.size_eq, intact.below, newer, older, kept, fun other among => ?_,
    by rw [intact.size_eq]⟩
  have distinct := held.distinct
  rw [List.pairwise_append, List.pairwise_cons] at distinct
  rcases List.mem_append.mp among with newerOne | olderOne
  · exact ⟨before other newerOne, wellFormed other (by simp [newerOne])⟩
  · exact ⟨distinct.2.1.1 other olderOne, wellFormed other (by simp [olderOne])⟩

theorem clearHeap (intact : memory.IsIntact size) :
    StaysIntact size (Memory.clearHeap.runOn memory) := by
  obtain ⟨records, held, -⟩ := intact.objects
  obtain ⟨edited, ran, kept, program⟩ := held.clearHeap intact.below
  rw [ran]
  exact ⟨⟨program.size.trans intact.size_eq, program.below, [], kept, nofun⟩, nofun⟩

theorem delete (intact : memory.IsIntact size) (kind : ObjectKind) (name : Name) :
    StaysIntact size ((Memory.delete kind name).runOn memory) := by
  obtain ⟨records, held, wellFormed⟩ := intact.objects
  have deleted := held.delete intact.below kind name
  cases dropped : HeapRecord.dropThrough? kind name records with
  | none =>
    rw [dropped] at deleted
    rw [deleted]
    exact ⟨intact, nofun⟩
  | some older =>
    rw [dropped] at deleted
    obtain ⟨edited, ran, kept, program⟩ := deleted
    rw [ran]
    refine ⟨⟨program.size.trans intact.size_eq, program.below, older, kept,
      fun record among => ?_⟩, nofun⟩
    exact wellFormed record (HeapRecord.mem_of_dropThrough? dropped among)

/-- **Making an object** fails and leaves the memory intact, or puts a payload of zeros below all
others. -/
theorem allocate (intact : memory.IsIntact size) (kind : ObjectKind) (name : Name) (count : Nat) :
    match (Memory.allocate kind name count).runOn memory with
    | (.error failure, edited) =>
      edited.IsIntact size ∧ ∃ error, failure = .reported { kind := error }
    | (.ok start, edited) => ∃ record : HeapRecord (AddressWidth.forSize size),
      record.Is kind name ∧
      kind.payloadLength? count (AddressWidth.forSize size) = some record.payload.length ∧
      record.payload = List.replicate record.payload.length 0 ∧
      edited.HasRecord size { start, length := record.payload.length } record := by
  obtain ⟨records, held, wellFormed⟩ := intact.objects
  have made := held.allocate intact.below kind name count
  cases pushed : HeapRecord.push memory.free kind name count records with
  | error error =>
    rw [pushed] at made
    obtain ⟨recent, ran, kept⟩ := made
    rw [ran]
    exact ⟨⟨intact.size_eq, intact.below, records, kept, wellFormed⟩, error, rfl⟩
  | ok others =>
    rw [pushed] at made
    obtain ⟨edited, ran, kept, program⟩ := made
    rw [ran]
    obtain ⟨record, rfl, ⟨rfl, rfl⟩, ⟨length, zeros⟩, new⟩ := HeapCall.exists_of_push pushed
    have total := kept.size_eq
    rw [HeapRecord.image_cons, List.length_append, HeapRecord.length_bytes, program.size,
      intact.size_eq] at total
    refine ⟨record, ⟨rfl, rfl⟩, length, zeros, program.size.trans intact.size_eq, program.below,
      [], records, kept, fun other among => ⟨new other among, wellFormed other among⟩, ?_⟩
    simp only [Extent.mk.injEq, and_true]
    omega

end IsIntact

/-! ### Programs that stay -/

section Held

variable {edited : Memory}

/-- A memory whose heap is made of objects, above the program. -/
def IsHeld (memory : Memory) : Prop :=
  memory.top ≤ memory.himem ∧
    ∃ (width : AddressWidth) (records : List (HeapRecord width)), memory.HoldsObjects records

theorem IsHeld.inside (held : memory.IsHeld) : memory.himem ≤ memory.size := by
  obtain ⟨-, width, records, objects⟩ := held
  exact objects.inside

theorem IsHeld.of_keepsHeap (held : memory.IsHeld) (kept : KeepsHeap memory edited) :
    edited.IsHeld := by
  obtain ⟨-, width, records, objects⟩ := held
  exact ⟨kept.below, width, records, objects.of_keepsHeap kept⟩

theorem IsIntact.isHeld (intact : memory.IsIntact size) : memory.IsHeld := by
  obtain ⟨records, held, -⟩ := intact.objects
  exact ⟨intact.below, _, records, held⟩

/-- The program is told by its bytes. -/
theorem KeepsProgram.program_eq (kept : KeepsProgram memory edited)
    (inside : memory.top ≤ memory.size) : edited.program = memory.program := by
  have length (memory : Memory) (inside : memory.top ≤ memory.size) :
      memory.program = ProgramText.ofBytes (memory.contents.take memory.top) := by
    refine program_of_begins (List.take_append_drop memory.top memory.contents).symm ?_
    rw [List.length_take, length_contents, Nat.min_eq_left inside]
  rw [length memory inside, length edited (kept.top ▸ kept.size ▸ inside), kept.program]

end Held

end Memory

end PocketBasic
