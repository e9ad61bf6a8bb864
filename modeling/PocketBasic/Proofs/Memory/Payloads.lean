/-
**What an object holds.** Its payload is read and written in pieces. A piece that was written reads
back, and the pieces beside it stay; the same holds of the memory that has the object.

* `HeapRecord.piece`, `HeapRecord.numberAt`: bytes and numbers in a payload;
* `HeapRecord.piece_written`, `HeapRecord.piece_written_apart`: pieces after one of them was
  written;
* `Memory.HoldsObjects.exists_cut`: where the payload of an object is;
* **`Memory.HoldsObjects.exists_allocated`**, **`Memory.HoldsObjects.write_first`**: making an
  object and filling it.
-/

import Mathlib.Data.List.Basic
import Mathlib.Tactic.Common
import PocketBasic.Proofs.Memory.Integrity

namespace PocketBasic

variable {width : AddressWidth}

/-! ### Numbers as bytes -/

namespace Single

theorem toBytes_ofBytes (b0 b1 b2 b3 : UInt8) :
    (ofBytes b0 b1 b2 b3).toBytes = [b0, b1, b2, b3] := by
  have := b0.toNat_lt
  have := b1.toNat_lt
  have := b2.toNat_lt
  have := b3.toNat_lt
  have byte {value : Nat} {b : UInt8} (same : value % 256 = b.toNat) : value.toUInt8 = b :=
    UInt8.toNat_inj.mp (by rw [Nat.toUInt8, UInt8.toNat_ofNat']; exact same)
  simp only [toBytes, ofBytes, UInt32.toNat_ofNat', List.cons.injEq, and_true]
  exact ⟨byte (by omega), byte (by omega), byte (by omega), byte (by omega)⟩

@[simp]
theorem length_toBytes (value : Single) : value.toBytes.length = numberSize := rfl

end Single

/-- The number with the given bytes, if there are four. -/
def numberOf? : Bytes → Option Single
  | [b0, b1, b2, b3] => some (Single.ofBytes b0 b1 b2 b3)
  | _ => none

@[simp]
theorem numberOf?_toBytes (value : Single) : numberOf? value.toBytes = some value := by
  rw [Single.toBytes, numberOf?, Single.ofBytes_toBytes value rfl]

theorem exists_numberOf? {bytes : Bytes} (four : bytes.length = numberSize) :
    ∃ value, numberOf? bytes = some value ∧ value.toBytes = bytes := by
  match bytes, four with
  | [b0, b1, b2, b3], _ => exact ⟨_, rfl, Single.toBytes_ofBytes b0 b1 b2 b3⟩

namespace HeapRecord

/-! ### Pieces of a payload -/

/-- The bytes of a payload from an offset on. -/
def piece (record : HeapRecord width) (offset count : Nat) : Bytes :=
  (record.payload.drop offset).take count

/-- The number at an offset of a payload. -/
def numberAt (record : HeapRecord width) (offset : Nat) : Single :=
  (numberOf? (record.piece offset numberSize)).getD Single.zero

section Pieces

variable {record : HeapRecord width} {offset other count : Nat} {data : Bytes}

theorem length_piece (within : offset + count ≤ record.payload.length) :
    (record.piece offset count).length = count := by
  rw [piece, List.length_take, List.length_drop]
  omega

theorem payload_eq (record : HeapRecord width) (offset count : Nat) :
    record.payload = record.payload.take offset ++ record.piece offset count ++
      record.payload.drop (offset + count) := by
  rw [piece, List.append_assoc, ← List.drop_drop, List.take_append_drop, List.take_append_drop]

/-- What was written reads back. -/
theorem piece_written (within : offset + data.length ≤ record.payload.length) :
    (record.written offset data).piece offset data.length = data := by
  rw [piece, payload_written within, List.append_assoc,
    List.drop_left' (by rw [List.length_take]; omega), List.take_left' rfl]

/-- A piece beside the one that was written stays. -/
theorem piece_written_apart (within : offset + data.length ≤ record.payload.length)
    (apart : other + count ≤ offset ∨ offset + data.length ≤ other) :
    (record.written offset data).piece other count = record.piece other count := by
  have front : (record.payload.take offset).length = offset := by
    rw [List.length_take]
    omega
  rcases apart with before | behind
  · rw [piece, piece, payload_written within, List.append_assoc, List.drop_append_of_le_length
      (by omega), List.take_append_of_le_length (by rw [List.length_drop]; omega), List.drop_take,
      List.take_take, Nat.min_eq_left (by omega)]
  · rw [piece, drop_payload_written within behind, piece]

/-- Writing back what was there restores the object. -/
theorem written_piece (within : offset + data.length ≤ record.payload.length) :
    (record.written offset data).written offset (record.piece offset data.length) = record := by
  have long := length_piece within
  have kept := length_payload_written record offset data
  have again : offset + (record.piece offset data.length).length ≤
      (record.written offset data).payload.length := by omega
  have same : ((record.written offset data).written offset
      (record.piece offset data.length)).payload = record.payload := by
    have front : (record.payload.take offset).length = offset := by
      rw [List.length_take]
      omega
    rw [payload_written again, long, drop_payload_written within (Nat.le_refl _),
      payload_written within, List.append_assoc (record.payload.take offset),
      List.take_left' front, ← payload_eq]
  have kind : ((record.written offset data).written offset
      (record.piece offset data.length)).kind = record.kind := by
    rw [kind_written, kind_written]
  have name : ((record.written offset data).written offset
      (record.piece offset data.length)).name = record.name := by
    rw [name_written, name_written]
  generalize (record.written offset data).written offset (record.piece offset data.length) = result
    at same kind name
  obtain ⟨_, _, _, _, _⟩ := result
  obtain ⟨_, _, _, _, _⟩ := record
  cases same
  cases kind
  cases name
  rfl

theorem numberAt_written {value : Single} (within : offset + numberSize ≤ record.payload.length) :
    (record.written offset value.toBytes).numberAt offset = value := by
  have back := @piece_written _ record offset value.toBytes within
  rw [Single.length_toBytes] at back
  rw [numberAt, back, numberOf?_toBytes, Option.getD_some]

theorem numberAt_written_apart (within : offset + data.length ≤ record.payload.length)
    (apart : other + numberSize ≤ offset ∨ offset + data.length ≤ other) :
    (record.written offset data).numberAt other = record.numberAt other := by
  rw [numberAt, piece_written_apart within apart, numberAt]

/-- The bytes of the number at an offset. -/
theorem toBytes_numberAt (within : offset + numberSize ≤ record.payload.length) :
    numberOf? (record.piece offset numberSize) = some (record.numberAt offset) ∧
      (record.numberAt offset).toBytes = record.piece offset numberSize := by
  obtain ⟨value, known, bytes⟩ := exists_numberOf? (length_piece within)
  rw [numberAt, known, Option.getD_some]
  exact ⟨rfl, bytes⟩

/-- Writing back the number that was there restores the object. -/
theorem written_numberAt (within : offset + numberSize ≤ record.payload.length) (value : Single) :
    (record.written offset value.toBytes).written offset (record.numberAt offset).toBytes =
      record := by
  rw [(toBytes_numberAt within).2]
  exact @written_piece _ record offset value.toBytes within

end Pieces

end HeapRecord

namespace Memory

variable {memory : Memory}

theorem KeepsProgram.trans {edited final : Memory} (first : KeepsProgram memory edited)
    (second : KeepsProgram edited final) : KeepsProgram memory final where
  size := second.size.trans first.size
  top := second.top.trans first.top
  program := second.program.trans first.program
  below := second.below

theorem numberAt?_eq {address : Nat} {bytes : Bytes}
    (read : memory.read? address numberSize = some bytes) :
    memory.numberAt? address = numberOf? bytes := by
  rw [numberAt?, read]
  unfold numberOf?
  split
  · rename_i same
    cases same
    rfl
  · rename_i other
    split
    · exact absurd rfl (other _ _ _ _)
    · rfl

namespace HoldsObjects

variable {records newer older : List (HeapRecord width)} {record : HeapRecord width}
  {kind : ObjectKind} {name : Name}

/-! ### Where objects are -/

/-- The objects before one have other names. -/
theorem before_of_middle (held : memory.HoldsObjects (newer ++ record :: older)) :
    ∀ other ∈ newer, ¬ other.Is record.kind record.name := by
  intro other among is
  have distinct := (List.pairwise_append.mp held.distinct).2.2
  exact distinct other among record (List.mem_cons_self ..) ⟨is.1.symm, is.2.symm⟩

/-- Where an object in the middle of the list is found. -/
theorem find_middle (held : memory.HoldsObjects (newer ++ record :: older)) :
    (memory.find record.kind record.name).1 = some
      { start := memory.size - (HeapRecord.image older).length - record.payload.length
        length := record.payload.length } :=
  (held.find_eq _ _).trans (HeapRecord.locate?_append_cons held.before_of_middle)

/-- **The payload of an object is a piece of memory**, and it is found there. -/
theorem exists_cut (held : memory.HoldsObjects records) (among : record ∈ records) :
    ∃ payload front back, (memory.find record.kind record.name).1 = some payload ∧
      memory.contents = front ++ record.payload ++ back ∧ front.length = payload.start ∧
      payload.length = record.payload.length := by
  obtain ⟨newer, older, rfl⟩ := List.append_of_mem among
  have size := held.size_eq
  simp only [HeapRecord.image_append, HeapRecord.image_cons, List.length_append,
    HeapRecord.length_bytes] at size
  refine ⟨_, memory.contents.take memory.himem ++ HeapRecord.image newer ++ record.header,
    HeapRecord.image older, held.find_middle, ?_, ?_, rfl⟩
  · conv_lhs => rw [held.contents_eq]
    simp [HeapRecord.bytes]
  · have below := held.length_below
    simp only [List.length_append, below, HeapRecord.length_header]
    omega

/-- A piece of a payload is read where the object is found. -/
theorem read?_piece (held : memory.HoldsObjects records) (among : record ∈ records)
    {payload : Extent} (found : (memory.find record.kind record.name).1 = some payload)
    {offset count : Nat} (within : offset + count ≤ record.payload.length) :
    memory.read? (payload.start + offset) count = some (record.piece offset count) := by
  obtain ⟨there, front, back, same, cut, start, -⟩ := held.exists_cut among
  obtain rfl : there = payload := Option.some.inj (same.symm.trans found)
  have long := HeapRecord.length_piece within
  have pieces : memory.contents = (front ++ record.payload.take offset) ++
      record.piece offset count ++ (record.payload.drop (offset + count) ++ back) := by
    conv_lhs => rw [cut, record.payload_eq offset count]
    simp only [List.append_assoc]
  have read := read?_eq pieces
  rwa [long, List.length_append, start, List.length_take, Nat.min_eq_left (by omega)] at read

/-! ### Making and filling objects -/

/-- **A new object is a payload of zeros in front of the others.** -/
theorem exists_allocated (held : memory.HoldsObjects records) (tops : memory.top ≤ memory.himem)
    {size start : Nat} {edited : Memory}
    (ran : (Memory.allocate kind name size).runOn memory = (.ok start, edited)) :
    ∃ record : HeapRecord width, record.Is kind name ∧ (∀ other ∈ records, ¬ other.Is kind name) ∧
      kind.payloadLength? size width = some record.payload.length ∧
      record.payload = List.replicate record.payload.length 0 ∧
      edited.HoldsObjects (record :: records) ∧ KeepsProgram memory edited ∧
      (edited.find kind name).1 = some { start, length := record.payload.length } := by
  have made := held.allocate tops kind name size
  cases pushed : HeapRecord.push memory.free kind name size records with
  | error error =>
    rw [pushed] at made
    obtain ⟨recent, failed, -⟩ := made
    rw [failed] at ran
    cases ran
  | ok others =>
    rw [pushed] at made
    obtain ⟨there, succeeded, kept, program⟩ := made
    rw [succeeded] at ran
    cases ran
    obtain ⟨record, rfl, is, ⟨length, zeros⟩, new⟩ := HeapCall.exists_of_push pushed
    refine ⟨record, is, new, length, zeros, kept, program, ?_⟩
    have total := kept.size_eq
    rw [HeapRecord.image_cons, List.length_append, HeapRecord.length_bytes, is.1] at total
    rw [kept.find_eq, HeapRecord.locate?, if_pos is]
    simp only [Option.some.injEq, Extent.mk.injEq, and_true]
    omega

/-- An object that cannot be made leaves memory as it was, but for what is remembered. -/
theorem allocate_failed (held : memory.HoldsObjects records) (tops : memory.top ≤ memory.himem)
    {size : Nat} {failure : Failure} {edited : Memory}
    (ran : (Memory.allocate kind name size).runOn memory = (.error failure, edited)) :
    edited.HoldsObjects records ∧ KeepsProgram memory edited := by
  have made := held.allocate tops kind name size
  cases pushed : HeapRecord.push memory.free kind name size records with
  | error error =>
    rw [pushed] at made
    obtain ⟨recent, failed, kept⟩ := made
    rw [failed] at ran
    cases ran
    exact ⟨kept, keepsProgram_of_recent tops recent⟩
  | ok others =>
    rw [pushed] at made
    obtain ⟨there, succeeded, -⟩ := made
    rw [succeeded] at ran
    cases ran

/-- A new object that cannot be made finds no room. -/
theorem allocate_failed_of_absent (held : memory.HoldsObjects records)
    (tops : memory.top ≤ memory.himem) (absent : ∀ record ∈ records, ¬ record.Is kind name)
    {size length : Nat} (fits : kind.payloadLength? size width = some length) {failure : Failure}
    {edited : Memory}
    (ran : (Memory.allocate kind name size).runOn memory = (.error failure, edited)) :
    failure = .reported { kind := .outOfMemory } ∧
      memory.free < kind.headerLength width + length := by
  have made := held.allocate tops kind name size
  have new : ¬ ∃ record ∈ records, record.Is kind name := fun ⟨record, among, is⟩ =>
    absent record among is
  rw [HeapRecord.push, if_neg new] at made
  cases zeroed : (HeapRecord.zeroed? kind name size : Option (HeapRecord width)) with
  | none => cases fits.symm.trans (HeapRecord.zeroed?_eq_none zeroed)
  | some record =>
    obtain ⟨is, long, -⟩ := HeapRecord.zeroed?_eq_some zeroed
    obtain rfl : length = record.payload.length := Option.some.inj (fits.symm.trans long)
    rw [zeroed] at made
    by_cases full : memory.free < record.bytes.length
    · simp only [if_pos full] at made
      obtain ⟨recent, failed, -⟩ := made
      rw [failed] at ran
      cases ran
      rw [HeapRecord.length_bytes, is.1] at full
      exact ⟨rfl, full⟩
    · simp only [if_neg full] at made
      obtain ⟨there, succeeded, -⟩ := made
      rw [succeeded] at ran
      cases ran

/-- **Writing into a payload that was found** changes one object of the list, which stays where it
is. -/
theorem write_found (held : memory.HoldsObjects (newer ++ record :: older))
    (tops : memory.top ≤ memory.himem) {payload : Extent}
    (found : (memory.find record.kind record.name).1 = some payload) (offset : Nat) (data : Bytes)
    (within : offset + data.length ≤ record.payload.length) :
    ∃ edited, (Memory.write (payload.start + offset) data).runOn memory = (.ok (), edited) ∧
      edited.HoldsObjects (newer ++ record.written offset data :: older) ∧
      KeepsProgram memory edited := by
  obtain rfl : _ = payload := Option.some.inj (held.find_middle.symm.trans found)
  obtain ⟨edited, ran, kept, program⟩ := held.write_payload tops
    (HeapRecord.locate?_append_cons held.before_of_middle) within
  rw [HeapRecord.overwrite_append held.before_of_middle ⟨rfl, rfl⟩] at kept
  exact ⟨edited, ran, kept, program⟩

/-- Writing into the newest object. -/
theorem write_first (held : memory.HoldsObjects (record :: older))
    (tops : memory.top ≤ memory.himem) {payload : Extent}
    (found : (memory.find record.kind record.name).1 = some payload) (offset : Nat) (data : Bytes)
    (within : offset + data.length ≤ record.payload.length) :
    ∃ edited, (Memory.write (payload.start + offset) data).runOn memory = (.ok (), edited) ∧
      edited.HoldsObjects (record.written offset data :: older) ∧ KeepsProgram memory edited :=
  @write_found _ _ [] _ _ held tops _ found offset data within

/-- Where an object is found does not change when it is found or when its payload changes. -/
theorem find_fst_of_find (memory : Memory) (kind : ObjectKind) (name : Name)
    (held : memory.HoldsObjects records) (other : ObjectKind) (called : Name) :
    ((memory.find kind name).2.find other called).1 = (memory.find other called).1 := by
  obtain ⟨recent, same⟩ := find_snd memory kind name
  rw [(held.find kind name).find_eq, held.find_eq, same]
  rfl

end HoldsObjects

end Memory

end PocketBasic
