/-
**Memory as one list of bytes.** The list is cut at the places that a step works on, and each step
puts another piece in the place of one: `before ++ gone ++ after` becomes `before ++ data ++ after`.

* `Memory.contents`, `Memory.holding`: the bytes of a memory as a list, and a memory with others;
* `Memory.endingAt`: a memory with another end of the program;
* `Memory.runOn_write`, `Memory.runOn_zero`, `Memory.runOn_moveBlock`: what is written, when the
  pieces have the lengths that the step asks for;
* `Memory.read?_eq`: what is read.
-/

import Mathlib.Data.List.Basic
import Mathlib.Tactic.Common
import PocketBasic.Memory.Basic
import PocketBasic.Proofs.Attempt

namespace PocketBasic.Memory

/-! ### Contents -/

/-- The bytes of a memory in order. -/
def contents (memory : Memory) : Bytes := memory.bytes.toList

/-- A memory with other bytes. -/
def holding (memory : Memory) (bytes : Bytes) : Memory := { memory with bytes := bytes.toArray }

section Holding

variable (memory : Memory) (bytes : Bytes)

@[simp]
theorem contents_holding : (memory.holding bytes).contents = bytes := by
  simp [contents, holding]

@[simp]
theorem top_holding : (memory.holding bytes).top = memory.top := rfl

@[simp]
theorem himem_holding : (memory.holding bytes).himem = memory.himem := rfl

@[simp]
theorem objects_holding : (memory.holding bytes).objects = memory.objects := rfl

@[simp]
theorem recent_holding : (memory.holding bytes).recent = memory.recent := rfl

@[simp]
theorem lineCache_holding : (memory.holding bytes).lineCache = memory.lineCache := rfl

@[simp]
theorem holding_contents : memory.holding memory.contents = memory := by
  simp [contents, holding]

@[simp]
theorem holding_holding (others : Bytes) :
    (memory.holding bytes).holding others = memory.holding others := rfl

theorem length_contents : memory.contents.length = memory.size := by
  simp [contents, size]

@[simp]
theorem size_holding : (memory.holding bytes).size = bytes.length := by
  simp [holding, size]

/-- As many other bytes leave the width of addresses as it is. -/
theorem width_holding {memory : Memory} {bytes : Bytes} (same : bytes.length = memory.size) :
    (memory.holding bytes).width = memory.width := by
  rw [width, size_holding, same, ← width]

end Holding

/-- A memory whose program ends elsewhere. -/
def endingAt (memory : Memory) (top : Nat) : Memory := { memory with top }

section EndingAt

variable (memory : Memory) (top : Nat)

@[simp]
theorem contents_endingAt : (memory.endingAt top).contents = memory.contents := rfl

@[simp]
theorem top_endingAt : (memory.endingAt top).top = top := rfl

@[simp]
theorem himem_endingAt : (memory.endingAt top).himem = memory.himem := rfl

@[simp]
theorem size_endingAt : (memory.endingAt top).size = memory.size := rfl

@[simp]
theorem endingAt_endingAt (other : Nat) :
    (memory.endingAt top).endingAt other = memory.endingAt other := rfl

@[simp]
theorem holding_endingAt (bytes : Bytes) :
    (memory.endingAt top).holding bytes = (memory.holding bytes).endingAt top := rfl

end EndingAt

/-- A byte by its address. -/
theorem getD_bytes (memory : Memory) (address : Nat) :
    memory.bytes.getD address 0 = memory.contents.getD address 0 := by
  simp [contents, Array.getD_eq_getD_getElem?, List.getD_eq_getElem?_getD]

/-! ### Reading -/

/-- A range that lies inside memory reads as the piece of the list it covers. -/
theorem read?_eq {memory : Memory} {before data after : Bytes}
    (cut : memory.contents = before ++ data ++ after) :
    memory.read? before.length data.length = some data := by
  have inside : before.length + data.length ≤ memory.size := by
    rw [← length_contents, cut]
    simp
  rw [read?, if_pos inside]
  refine congrArg some (List.ext_getElem (by simp) fun place placeLt _ => ?_)
  have within : place < data.length := by simpa using placeLt
  have found := getD_bytes memory (before.length + place)
  have behind : ¬ before.length + place < before.length := by omega
  rw [List.getElem_map, List.getElem_range, found, cut]
  simp [List.getD_eq_getElem?_getD, List.getElem?_append, within, behind]

/-- **Inside memory every access gives something.** -/
theorem exists_read? {memory : Memory} {start count : Nat} (inside : start + count ≤ memory.size) :
    ∃ data : Bytes, data.length = count ∧ memory.read? start count = some data :=
  ⟨_, by rw [List.length_map, List.length_range], if_pos inside⟩

theorem exists_addressAt? {memory : Memory} {start : Nat}
    (inside : start + memory.width.byteCount ≤ memory.size) :
    ∃ address, memory.addressAt? start = some address := by
  obtain ⟨data, -, read⟩ := exists_read? inside
  exact ⟨fromLittleEndian data, by rw [addressAt?, read, Option.map_some]⟩

theorem exists_numberAt? {memory : Memory} {start : Nat}
    (inside : start + numberSize ≤ memory.size) :
    ∃ value, memory.numberAt? start = some value := by
  obtain ⟨data, length, read⟩ := exists_read? inside
  obtain ⟨b0, b1, b2, b3, rfl⟩ : ∃ b0 b1 b2 b3, data = [b0, b1, b2, b3] :=
    List.length_eq_four.mp length
  exact ⟨Single.ofBytes b0 b1 b2 b3, by rw [numberAt?, read]⟩

theorem exists_peek? {memory : Memory} {address : Nat} (inside : address < memory.size) :
    ∃ byte, memory.peek? address = some byte :=
  ⟨memory.bytes[address], Array.getElem?_eq_getElem inside⟩

/-! ### Writing -/

/-- **Writing replaces a piece of the list** by one of the same length. -/
theorem toList_overwrite (data : Bytes) :
    ∀ (bytes : Array UInt8) (before gone after : Bytes), bytes.toList = before ++ gone ++ after →
      gone.length = data.length →
        (overwrite bytes before.length data).toList = before ++ data ++ after := by
  induction data with
  | nil =>
    intro bytes before gone after cut same
    rw [List.length_eq_zero_iff.mp same] at cut
    exact cut
  | cons byte rest ih =>
    intro bytes before gone after cut same
    obtain ⟨old, older, rfl⟩ := List.exists_cons_of_length_eq_add_one same
    have stepped : (bytes.setIfInBounds before.length byte).toList =
        (before ++ [byte]) ++ older ++ after := by
      rw [Array.toList_setIfInBounds, cut]
      simp
    have later := ih (bytes.setIfInBounds before.length byte) (before ++ [byte]) older after
      stepped (by simpa using same)
    simpa [overwrite] using later

theorem runOn_write {memory : Memory} {before gone after data : Bytes}
    (cut : memory.contents = before ++ gone ++ after) (same : gone.length = data.length) :
    (write before.length data).runOn memory =
      (.ok (), memory.holding (before ++ data ++ after)) := by
  have inside : before.length + data.length ≤ memory.size := by
    rw [← length_contents, cut, ← same]
    simp
  have written := toList_overwrite data memory.bytes before gone after cut same
  simp only [write, Attempt.runOn_get_bind, inside, if_true, Attempt.runOn_modify]
  rw [holding, ← written]

/-- An address is written as bytes of the memory's width. -/
theorem runOn_writeAddress (start address : Nat) (memory : Memory) :
    (writeAddress start address).runOn memory =
      (write start (memory.width.encode address)).runOn memory := rfl

theorem runOn_zero {memory : Memory} {before gone after : Bytes} {stop : Nat}
    (cut : memory.contents = before ++ gone ++ after) (ends : stop = before.length + gone.length) :
    (zero before.length stop).runOn memory =
      (.ok (), memory.holding (before ++ List.replicate gone.length 0 ++ after)) := by
  have inside : before.length ≤ stop ∧ stop ≤ memory.size := by
    rw [← length_contents, cut, ends]
    simp
  have count : stop - before.length = gone.length := by omega
  simp only [zero, Attempt.runOn_get_bind, inside, decide_true, Bool.and_self, if_true, count]
  exact runOn_write cut (by simp)

/-! ### Moving -/

theorem runOn_moveBlock {memory : Memory} {before data after left gone right : Bytes}
    (source : memory.contents = before ++ data ++ after)
    (destination : memory.contents = left ++ gone ++ right) (same : gone.length = data.length)
    (sourceBelow : before.length + data.length ≤ memory.himem)
    (destinationBelow : left.length + data.length ≤ memory.himem) :
    (moveBlock before.length data.length left.length).runOn memory =
      (.ok (), memory.holding (left ++ data ++ right)) := by
  have sourceFits : ¬ memory.himem < Address.wrap (before.length + data.length) :=
    Nat.not_lt.mpr (Nat.le_trans (Nat.mod_le _ _) sourceBelow)
  have destinationFits : ¬ memory.himem < Address.wrap (left.length + data.length) :=
    Nat.not_lt.mpr (Nat.le_trans (Nat.mod_le _ _) destinationBelow)
  simp only [moveBlock, Attempt.runOn_get_bind, sourceFits, destinationFits, decide_false,
    Bool.or_self, Bool.false_eq_true, if_false]
  by_cases moves : 0 < data.length ∧ before.length ≠ left.length
  · simp only [moves, decide_true, ne_eq, not_false_eq_true, Bool.and_self, if_true]
    rw [Attempt.runOn_bind, read?_eq source]
    exact runOn_write destination same
  · -- Nothing moves: the piece is empty, or it stands where it goes to.
    have unchanged : left ++ data ++ right = memory.contents := by
      rw [destination]
      by_cases empty : data.length = 0
      · rw [List.length_eq_zero_iff.mp empty, List.length_eq_zero_iff.mp (same.trans empty)]
      · have starts : before.length = left.length := by
          by_contra different
          exact moves ⟨Nat.pos_of_ne_zero empty, different⟩
        have joined : before ++ (data ++ after) = left ++ (gone ++ right) := by
          rw [← List.append_assoc, ← List.append_assoc, ← source, destination]
        have tails := (List.append_inj joined starts).2
        rw [(List.append_inj tails same.symm).1]
    have still : (decide (0 < data.length) && decide (before.length ≠ left.length)) = false := by
      simpa [Nat.pos_iff_ne_zero] using moves
    simp only [still, Bool.false_eq_true, if_false, Attempt.runOn_pure, unchanged,
      holding_contents]

/-- Bytes move down over the gap in front of them. What they leave behind is as long as the gap. -/
theorem runOn_moveBlock_down {memory : Memory} {before gap data after : Bytes}
    (cut : memory.contents = before ++ gap ++ data ++ after)
    (below : before.length + gap.length + data.length ≤ memory.himem) :
    ∃ left : Bytes, left.length = gap.length ∧
      (moveBlock (before.length + gap.length) data.length before.length).runOn memory =
        (.ok (), memory.holding (before ++ data ++ left ++ after)) := by
  refine ⟨(gap ++ data).drop data.length, by simp, ?_⟩
  have source : memory.contents = (before ++ gap) ++ data ++ after := by
    rw [cut]
  have destination : memory.contents =
      before ++ (gap ++ data).take data.length ++ ((gap ++ data).drop data.length ++ after) := by
    rw [← List.append_assoc, List.append_assoc before (List.take _ _), List.take_append_drop, cut,
      List.append_assoc before]
  have moved := runOn_moveBlock source destination (by simp) (by simpa using below) (by omega)
  rw [List.length_append] at moved
  rw [moved, List.append_assoc _ _ after]

/-- Bytes move up over the gap behind them. What they leave behind is as long as the gap. -/
theorem runOn_moveBlock_up {memory : Memory} {before data gap after : Bytes}
    (cut : memory.contents = before ++ data ++ gap ++ after)
    (below : before.length + data.length + gap.length ≤ memory.himem) :
    ∃ left : Bytes, left.length = gap.length ∧
      (moveBlock before.length data.length (before.length + gap.length)).runOn memory =
        (.ok (), memory.holding (before ++ left ++ data ++ after)) := by
  refine ⟨(data ++ gap).take gap.length, by simp, ?_⟩
  have source : memory.contents = before ++ data ++ (gap ++ after) := by
    rw [cut, List.append_assoc]
  have destination : memory.contents =
      (before ++ (data ++ gap).take gap.length) ++ (data ++ gap).drop gap.length ++ after := by
    rw [cut, List.append_assoc before (List.take _ _), List.take_append_drop, ← List.append_assoc]
  have moved := runOn_moveBlock source destination (by simp) (by omega) (by simp; omega)
  have behind : (before ++ (data ++ gap).take gap.length).length = before.length + gap.length := by
    simp
  rw [behind] at moved
  exact moved

end PocketBasic.Memory
