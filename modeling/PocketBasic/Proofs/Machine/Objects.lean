/-
**Objects of a machine.** Variables are objects of the heap; looking one up, making one and
assigning to one are told from the list of objects.

* `Machine.foundIn`: the machine once an object was looked up;
* `Machine.makes_or_fails`: an object is made in front of the others and filled, or it is not made;
* `Machine.runOn_storedScalar?`, **`Machine.stores_present`**, **`Machine.stores_absent`**: scalars;
* `Machine.creates_array`, `Machine.creates_string`: arrays and strings.
-/

import PocketBasic.Proofs.Machine.Assigning
import PocketBasic.Proofs.Memory.Payloads

namespace PocketBasic.Machine

variable {width : AddressWidth} {machine : Machine} {records : List (HeapRecord width)}
  {kind : ObjectKind} {name : Name}

/-! ### Looking up -/

/-- The machine once an object was looked up. -/
def foundIn (kind : ObjectKind) (name : Name) (machine : Machine) : Machine :=
  { machine with memory := (machine.memory.find kind name).2 }

theorem runOn_lookup (kind : ObjectKind) (name : Name) (machine : Machine) :
    (lookup kind name).runOn machine =
      (.ok (machine.memory.find kind name).1, machine.foundIn kind name) := rfl

theorem holdsObjects_foundIn (held : machine.memory.HoldsObjects records) (kind : ObjectKind)
    (name : Name) :
    (machine.foundIn kind name).memory.HoldsObjects records := held.find kind name

theorem keepsProgram_foundIn (tops : machine.memory.top ≤ machine.memory.himem)
    (kind : ObjectKind) (name : Name) :
    Memory.KeepsProgram machine.memory (machine.foundIn kind name).memory := by
  obtain ⟨recent, same⟩ := Memory.HoldsObjects.find_snd machine.memory kind name
  rw [foundIn, same]
  exact Memory.keepsProgram_of_recent tops recent

theorem free_foundIn (machine : Machine) (kind : ObjectKind) (name : Name) :
    (machine.foundIn kind name).memory.free = machine.memory.free := by
  obtain ⟨recent, same⟩ := Memory.HoldsObjects.find_snd machine.memory kind name
  rw [foundIn, same]
  rfl

theorem find_foundIn (held : machine.memory.HoldsObjects records) (kind : ObjectKind) (name : Name)
    (other : ObjectKind) (called : Name) :
    ((machine.foundIn kind name).memory.find other called).1 =
      (machine.memory.find other called).1 :=
  Memory.HoldsObjects.find_fst_of_find machine.memory kind name held other called

/-! ### Making objects -/

/-- What is left of a machine in which an object could not be made, or was made and filled. -/
structure LeftWith (before after : Machine) (records : List (HeapRecord width)) : Prop where
  same : after = { before with memory := after.memory }
  held : after.memory.HoldsObjects records
  program : Memory.KeepsProgram before.memory after.memory

/-- **An object is made in front of the others and filled**, or it is not made. -/
theorem makes_or_fails (held : machine.memory.HoldsObjects records)
    (tops : machine.memory.top ≤ machine.memory.himem) (kind : ObjectKind) (name : Name)
    (size offset : Nat) (data : Bytes) (fits : ∀ length,
      kind.payloadLength? size width = some length → offset + data.length ≤ length) :
    (∃ failure after, (onMemory (Memory.allocate kind name size)).runOn machine =
      (.error failure, after) ∧ machine.LeftWith after records) ∨
    ∃ start middle after, ∃ record : HeapRecord width,
      (onMemory (Memory.allocate kind name size)).runOn machine = (.ok start, middle) ∧
      middle.memory.width = width ∧
      (onMemory (Memory.write (start + offset) data)).runOn middle = (.ok (), after) ∧
      record.Is kind name ∧ (∀ other ∈ records, ¬ other.Is kind name) ∧
      kind.payloadLength? size width = some record.payload.length ∧
      record.payload = List.replicate record.payload.length 0 ∧
      machine.LeftWith after (record.written offset data :: records) := by
  rcases ran : (Memory.allocate kind name size).runOn machine.memory with ⟨failure | start, made⟩
  · obtain ⟨kept, program⟩ := held.allocate_failed tops ran
    exact .inl ⟨failure, _, runOn_onMemory_of ran, rfl, kept, program⟩
  · obtain ⟨record, is, new, length, zeros, kept, program, found⟩ := held.exists_allocated tops ran
    obtain ⟨rfl, rfl⟩ := is
    obtain ⟨edited, wrote, filled, again⟩ :=
      kept.write_first program.below found offset data (fits _ length)
    exact .inr ⟨start, { machine with memory := made }, { machine with memory := edited }, record,
      runOn_onMemory_of ran, kept.width, runOn_onMemory_of wrote, ⟨rfl, rfl⟩, new, length, zeros,
      rfl, filled, program.trans again⟩

/-! ### Scalars -/

/-- A number in a payload is read where its bytes are. -/
theorem runOn_numberAt {record : HeapRecord width} {address offset : Nat}
    (read : machine.memory.read? address numberSize = some (record.piece offset numberSize))
    (within : offset + numberSize ≤ record.payload.length) :
    (numberAt address).runOn machine = (.ok (record.numberAt offset), machine) := by
  have there : machine.memory.numberAt? address = some (record.numberAt offset) := by
    rw [Memory.numberAt?_eq read]
    exact (HeapRecord.toBytes_numberAt within).1
  rw [numberAt, Attempt.runOn_get_bind, there, Attempt.runOn_orFault_some]

/-- **A scalar that exists is the number in its payload.** -/
theorem runOn_storedScalar? (held : machine.memory.HoldsObjects records)
    {record : HeapRecord width} (among : record ∈ records) (is : record.Is .scalar name) :
    (storedScalar? name).runOn machine =
      (.ok (some (record.numberAt 0)), machine.foundIn .scalar name) := by
  obtain ⟨kind, rfl⟩ := is
  obtain ⟨payload, -, -, found, -⟩ := held.exists_cut among
  have four := record.number kind
  have again := (find_foundIn held .scalar record.name _ _).trans found
  rw [kind] at found
  have inside : 0 + numberSize ≤ record.payload.length := by omega
  have read := runOn_numberAt ((holdsObjects_foundIn held .scalar record.name).read?_piece among
      again
    inside) inside
  rw [storedScalar?, Attempt.runOn_bind_ok (runOn_lookup _ _ _), found]
  exact Attempt.runOn_bind_ok read _

theorem runOn_storedScalar?_absent (held : machine.memory.HoldsObjects records)
    (absent : ∀ record ∈ records, ¬ record.Is .scalar name) :
    (storedScalar? name).runOn machine = (.ok none, machine.foundIn .scalar name) := by
  rw [storedScalar?, Attempt.runOn_bind_ok (runOn_lookup _ _ _), held.find_eq_none_iff.mpr absent]
  rfl

/-- **Assigning to a scalar that exists** changes its payload. -/
theorem stores_present {newer older : List (HeapRecord width)} {record : HeapRecord width}
    (held : machine.memory.HoldsObjects (newer ++ record :: older))
    (tops : machine.memory.top ≤ machine.memory.himem) (is : record.Is .scalar name)
    (value : Single) :
    ∃ after, (storeScalar name value).runOn machine = (.ok (), after) ∧
      machine.LeftWith after (newer ++ record.written 0 value.toBytes :: older) := by
  obtain ⟨kind, rfl⟩ := is
  have among : record ∈ newer ++ record :: older := by simp
  obtain ⟨payload, -, -, found, -⟩ := held.exists_cut among
  have four := record.number kind
  have again := (find_foundIn held .scalar record.name _ _).trans found
  have program := keepsProgram_foundIn tops .scalar record.name
  obtain ⟨edited, wrote, kept, written⟩ :=
    (holdsObjects_foundIn held .scalar record.name).write_found program.below again 0 value.toBytes
      (by rw [four]; rfl)
  rw [kind] at found
  refine ⟨{ machine with memory := edited }, ?_, rfl, kept, program.trans written⟩
  rw [storeScalar, Attempt.runOn_bind_ok (runOn_lookup _ _ _), found]
  exact runOn_onMemory_of wrote

/-- **Assigning to a scalar that does not exist** makes it in front of the other objects, or fails
for want of room. -/
theorem stores_absent (held : machine.memory.HoldsObjects records)
    (tops : machine.memory.top ≤ machine.memory.himem)
    (absent : ∀ record ∈ records, ¬ record.Is .scalar name) (value : Single) :
    (∃ failure after, (storeScalar name value).runOn machine = (.error failure, after) ∧
      machine.LeftWith after records ∧ failure = .reported { kind := .outOfMemory } ∧
        machine.memory.free < 3 + numberSize) ∨
    ∃ after, ∃ record : HeapRecord width,
      (storeScalar name value).runOn machine = (.ok (), after) ∧ record.Is .scalar name ∧
        record.numberAt 0 = value ∧ machine.LeftWith after (record :: records) := by
  have program := keepsProgram_foundIn tops .scalar name
  have looked : (storeScalar name value).runOn machine =
      (do setNumberAt (← onMemory (Memory.allocate .scalar name 0)) value).runOn
        (machine.foundIn .scalar name) := by
    rw [storeScalar, Attempt.runOn_bind_ok (runOn_lookup _ _ _),
      held.find_eq_none_iff.mpr absent]
  rcases makes_or_fails (holdsObjects_foundIn held .scalar name) program.below .scalar name 0 0
      value.toBytes
      (fun length made => Nat.le_of_eq (ObjectKind.payloadLength?_scalar made).symm) with
    ⟨failure, after, ran, left⟩ | ⟨start, middle, after, record, ran, -, wrote, is, -, -, -, left⟩
  · have fits : ObjectKind.scalar.payloadLength? 0 width = some numberSize := by
      cases width <;> rfl
    have failed := congrArg Prod.fst ran
    rw [runOn_onMemory] at failed
    obtain ⟨full, room⟩ := (holdsObjects_foundIn held .scalar name).allocate_failed_of_absent
      program.below absent fits (Prod.ext failed rfl)
    exact .inl ⟨failure, after, looked.trans (Attempt.runOn_bind_error ran _),
      ⟨left.same, left.held, program.trans left.program⟩, full,
      free_foundIn machine .scalar name ▸ room⟩
  · refine .inr ⟨after, record.written 0 value.toBytes, looked.trans ?_,
      HeapRecord.is_written.mpr is, HeapRecord.numberAt_written ?_, left.same, left.held,
      program.trans left.program⟩
    · exact (Attempt.runOn_bind_ok ran _).trans wrote
    · rw [record.number is.1, Nat.zero_add]

/-! ### Arrays and strings -/

/-- **Making an array** puts it in front of the other objects, with the number of its columns at its
end, or fails. -/
theorem creates_array (held : machine.memory.HoldsObjects records)
    (tops : machine.memory.top ≤ machine.memory.himem) (name : Name) (rows columns : Nat) :
    (∃ failure after, (createArray name rows columns).runOn machine = (.error failure, after) ∧
      machine.LeftWith after records) ∨
    ∃ after, ∃ record : HeapRecord width,
      (createArray name rows columns).runOn machine = (.ok (), after) ∧ record.Is .array name ∧
        (0 < rows → 0 < columns → record.IsArray rows columns) ∧
        machine.LeftWith after (record :: records) := by
  have total {length : Nat}
      (made : ObjectKind.array.payloadLength? (rows * columns) width = some length) :
      length = rows * columns * numberSize + width.byteCount :=
    ObjectKind.length_of_payloadLength? made
  rcases makes_or_fails held tops .array name (rows * columns)
      (rows * columns * numberSize) (width.encode columns)
      (fun length made => by rw [total made, AddressWidth.length_encode]) with
    ⟨failure, after, ran, left⟩ |
    ⟨start, middle, after, record, ran, sized, wrote, is, -, length, -, left⟩
  · exact .inl ⟨failure, after, Attempt.runOn_bind_error ran _, left⟩
  · have stored : (onMemory (Memory.writeAddress (start + rows * columns * numberSize)
        columns)).runOn middle = (.ok (), after) := by
      rw [runOn_onMemory, Memory.runOn_writeAddress, sized]
      exact wrote
    exact .inr ⟨after, _, (Attempt.runOn_bind_ok ran _).trans stored,
      HeapRecord.is_written.mpr is, fun some others =>
        HeapRecord.isArray_written some others (total length), left⟩

/-- **Making a string** puts it in front of the other objects, with the number of its elements at
its end, or fails. -/
theorem creates_string (held : machine.memory.HoldsObjects records)
    (tops : machine.memory.top ≤ machine.memory.himem) (name : Name) (capacity : Nat) {count : Nat}
    (positive : 0 < count) :
    (∃ failure after, (createString name capacity count).runOn machine = (.error failure, after) ∧
      machine.LeftWith after records) ∨
    ∃ after, ∃ record : HeapRecord width,
      (createString name capacity count).runOn machine = (.ok (), after) ∧
        record.Is .string name ∧ record.IsString capacity count ∧
        machine.LeftWith after (record :: records) := by
  rw [createString]
  split
  · exact .inl ⟨_, machine, Attempt.runOn_fail _ _, rfl, held, rfl, rfl, rfl, tops⟩
  rename_i short
  have total {length : Nat}
      (made : ObjectKind.string.payloadLength? ((capacity + 1) * count) width = some length) :
      length = (capacity + 1) * count + width.byteCount :=
    ObjectKind.length_of_payloadLength? made
  rcases makes_or_fails held tops .string name ((capacity + 1) * count)
      ((capacity + 1) * count) (width.encode count)
      (fun length made => by rw [total made, AddressWidth.length_encode]) with
    ⟨failure, after, ran, left⟩ |
    ⟨start, middle, after, record, ran, sized, wrote, is, -, length, zeros, left⟩
  · exact .inl ⟨failure, after, Attempt.runOn_bind_error ran _, left⟩
  · have stored : (onMemory (Memory.writeAddress (start + (capacity + 1) * count)
        count)).runOn middle = (.ok (), after) := by
      rw [runOn_onMemory, Memory.runOn_writeAddress, sized]
      exact wrote
    rw [total length] at zeros
    exact .inr ⟨after, _, (Attempt.runOn_bind_ok ran _).trans stored,
      HeapRecord.is_written.mpr is,
      HeapRecord.isString_written positive (Nat.not_lt.mp short) zeros, left⟩

end PocketBasic.Machine
