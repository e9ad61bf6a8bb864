/-
**Bytes of an object that was found.** What is found is the payload of a record; a range inside it
reads as that piece of the record, and writing there exchanges the piece and nothing else.

* `HeapRecord.payload_written`: a payload after a piece of it was exchanged;
* `Memory.HoldsObjects.read?_payload`: what is read;
* **`Memory.HoldsObjects.write_payload`**: what is written;
* `Memory.write_keepsHeap`: writing below the heap.
-/

import PocketBasic.Proofs.Memory.HeapCalls

namespace PocketBasic

variable {width : AddressWidth}

namespace HeapRecord

/-! ### Exchanging a piece of a payload -/

theorem payload_written {record : HeapRecord width} {offset : Nat} {data : Bytes}
    (within : offset + data.length ≤ record.payload.length) :
    (record.written offset data).payload =
      record.payload.take offset ++ data ++ record.payload.drop (offset + data.length) := by
  rw [written, dif_pos within]

/-- What stands behind the piece stays. -/
theorem drop_payload_written {record : HeapRecord width} {offset : Nat} {data : Bytes} {start : Nat}
    (within : offset + data.length ≤ record.payload.length)
    (behind : offset + data.length ≤ start) :
    (record.written offset data).payload.drop start = record.payload.drop start := by
  rw [payload_written within, List.drop_append, List.drop_of_length_le, List.nil_append,
    List.drop_drop]
  · congr 1
    simp only [List.length_append, List.length_take]
    omega
  · simp only [List.length_append, List.length_take]
    omega

/-- What is written at the end of a payload is its end. -/
theorem drop_payload_written_end {record : HeapRecord width} {offset : Nat} {data : Bytes}
    (ends : offset + data.length = record.payload.length) :
    (record.written offset data).payload.drop offset = data := by
  rw [payload_written (Nat.le_of_eq ends), List.append_assoc,
    List.drop_left' (by rw [List.length_take]; omega), ends, List.drop_length, List.append_nil]

/-- A byte outside of the piece stays. -/
theorem getD_payload_written {record : HeapRecord width} {offset : Nat} {data : Bytes} {place : Nat}
    (within : offset + data.length ≤ record.payload.length)
    (outside : place < offset ∨ offset + data.length ≤ place) :
    (record.written offset data).payload.getD place 0 = record.payload.getD place 0 := by
  have front : (record.payload.take offset).length = offset := by
    rw [List.length_take]
    omega
  rw [payload_written within, List.append_assoc]
  simp only [List.getD_eq_getElem?_getD]
  rcases outside with before | behind
  · rw [List.getElem?_append_left (by omega), List.getElem?_take_of_lt before]
  · rw [List.getElem?_append_right (by omega), front, List.getElem?_append_right (by omega),
      List.getElem?_drop]
    congr 2
    omega

/-- A byte that is written by itself. -/
theorem getD_payload_written_self {record : HeapRecord width} {offset : Nat} {byte : UInt8}
    (within : offset + 1 ≤ record.payload.length) :
    (record.written offset [byte]).payload.getD offset 0 = byte := by
  have front : (record.payload.take offset).length = offset := by
    rw [List.length_take]
    omega
  rw [payload_written within, List.append_assoc, List.getD_append_right _ _ _ _ (by omega), front,
    Nat.sub_self]
  rfl

end HeapRecord

namespace Memory

variable {memory : Memory}

/-! ### The objects that were found -/

namespace HoldsObjects

variable {records : List (HeapRecord width)} {kind : ObjectKind} {name : Name} {payload : Extent}

/-- A piece of a payload reads as it is in the record. -/
theorem read?_payload {newer older : List (HeapRecord width)} {record : HeapRecord width}
    (held : HoldsObjects memory (newer ++ record :: older)) {before data after : Bytes}
    (cut : record.payload = before ++ data ++ after) :
    memory.read? (memory.size - (HeapRecord.image older).length - record.payload.length +
      before.length) data.length = some data := by
  have size := held.size_eq
  simp only [HeapRecord.image_append, HeapRecord.image_cons, List.length_append,
    HeapRecord.length_bytes] at size
  have pieces : memory.contents = (memory.contents.take memory.himem ++ HeapRecord.image newer ++
      record.header ++ before) ++ data ++ (after ++ HeapRecord.image older) := by
    conv_lhs => rw [held.contents_eq]
    simp [HeapRecord.bytes, cut]
  have start : memory.size - (HeapRecord.image older).length - record.payload.length +
      before.length = (memory.contents.take memory.himem ++ HeapRecord.image newer ++
        record.header ++ before).length := by
    have below := held.length_below
    simp only [List.length_append, below, HeapRecord.length_header]
    omega
  rw [start]
  exact read?_eq pieces

/-- **Writing into a payload that was located** exchanges that piece of the record. -/
theorem write_payload (held : HoldsObjects memory records) (tops : memory.top ≤ memory.himem)
    (located : HeapRecord.locate? memory.size kind name records = some payload) {offset : Nat}
    {data : Bytes} (within : offset + data.length ≤ payload.length) :
    ∃ edited, (write (payload.start + offset) data).runOn memory = (.ok (), edited) ∧
      HoldsObjects edited (HeapRecord.overwrite kind name offset data records) ∧
      KeepsProgram memory edited := by
  obtain ⟨edited, ran, kept⟩ := held.writePayload tops kind name offset data
  rw [Memory.writePayload, Attempt.runOn_get_bind, held.scan?_eq, located] at ran
  simp only [if_pos within] at ran
  exact ⟨edited, ran, kept⟩

end HoldsObjects

/-! ### Free memory -/

theorem KeepsHeap.trans {edited final : Memory} (first : KeepsHeap memory edited)
    (second : KeepsHeap edited final) : KeepsHeap memory final where
  size := second.size.trans first.size
  himem := second.himem.trans first.himem
  objects := second.objects.trans first.objects
  recent := second.recent.trans first.recent
  heap := second.heap.trans first.heap
  below := second.below

/-- Writing below the heap leaves the heap alone. -/
theorem write_keepsHeap (tops : memory.top ≤ memory.himem) (inside : memory.himem ≤ memory.size)
    {start : Nat} {data : Bytes} (below : start + data.length ≤ memory.himem) :
    ∃ edited, (write start data).runOn memory = (.ok (), edited) ∧ KeepsHeap memory edited := by
  have total := length_contents memory
  obtain ⟨gone, scratch, cut, startEq, stopEq, -, -⟩ :=
    @exists_pieces memory.contents start (start + data.length) (start + data.length) 0
      (Nat.le_add_right _ _) (Nat.le_refl _) (by omega)
  have same : gone.length = data.length := by omega
  generalize memory.contents.take start = before at cut startEq
  have front {piece : Bytes} (long : piece.length = data.length) (after : Bytes) :
      (before ++ piece ++ after).drop memory.himem =
        after.drop (memory.himem - (start + data.length)) := by
    rw [List.drop_append, List.drop_of_length_le (by rw [List.length_append]; omega),
      List.nil_append, List.length_append, startEq, long]
  obtain ⟨after, cut⟩ : ∃ after, memory.contents = before ++ gone ++ after :=
    ⟨_, by rwa [List.append_assoc (before ++ gone), List.append_assoc (before ++ gone)] at cut⟩
  have ran := runOn_write cut same
  rw [startEq] at ran
  refine ⟨_, ran, ?_, rfl, rfl, rfl, ?_, tops⟩
  · rw [size_holding, ← total, cut]
    simp only [List.length_append, same]
  · rw [contents_holding, himem_holding, cut, front same, front rfl]

/-- **Loading a program leaves the heap alone.** It fails before it writes anything, or succeeds. -/
theorem loadProgram_keepsHeap (tops : memory.top ≤ memory.himem)
    (inside : memory.himem ≤ memory.size) (image : Bytes) :
    (∃ error, (loadProgram image).runOn memory = (.error (.reported { kind := error }), memory)) ∨
      ∃ edited, (loadProgram image).runOn memory = (.ok (), edited) ∧ KeepsHeap memory edited := by
  rw [loadProgram, Attempt.runOn_get_bind]
  by_cases large : memory.himem < image.length
  · exact .inl ⟨.outOfMemory, by rw [if_pos large, Attempt.runOn_fail]⟩
  refine .inr ?_
  have cleared := runOn_clearProgram (Nat.le_trans tops inside)
  have kept := clearProgram_keepsHeap tops inside
  rw [cleared] at kept
  have himem := kept.himem
  have size := kept.size
  obtain ⟨edited, ran, written⟩ := @write_keepsHeap _ kept.below (by omega) 0 image (by omega)
  refine ⟨{ edited with top := image.length }, ?_, kept.trans (written.trans ?_)⟩
  · rw [if_neg large, Attempt.runOn_bind_ok cleared, Attempt.runOn_bind_ok ran,
      Attempt.runOn_modify]
  · have last := written.himem
    exact ⟨rfl, rfl, rfl, rfl, rfl, by simp only; omega⟩

end Memory

end PocketBasic
