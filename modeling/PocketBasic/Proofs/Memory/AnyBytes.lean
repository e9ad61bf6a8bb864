/-
**The calls of the heap on any bytes.** What a program pokes into the heap need not be objects any
more. A memory stays ordered all the same: the program ends below the heap, and the heap begins
inside memory. A walk over the heap checks that the header of an object is inside memory, but not
that its payload is.

* `Memory.IsOrdered`: what is left of a memory whose bytes mean nothing;
* `Memory.IsOrdered.allocate`: making an object keeps it, whatever the bytes are;
* `Memory.IsOrdered.delete`, `Memory.runOn_delete_outside`: deleting keeps it if the object ends
  inside memory, and faults if it does not.
-/

import Mathlib.Tactic.Common
import PocketBasic.Proofs.Memory.HeapCalls

namespace PocketBasic.Memory

variable {memory : Memory} {size : Nat} {kind : ObjectKind} {name : Name}

/-- A memory of some size with the program below the heap and the heap inside. Nothing is said about
the bytes. -/
structure IsOrdered (size : Nat) (memory : Memory) : Prop where
  size_eq : memory.size = size
  below : memory.top ≤ memory.himem
  inside : memory.himem ≤ memory.size

theorem IsOrdered.holding (ordered : memory.IsOrdered size) {bytes : Bytes}
    (same : bytes.length = memory.size) : (memory.holding bytes).IsOrdered size := by
  refine ⟨?_, ordered.below, ?_⟩
  · rw [size_holding, same, ordered.size_eq]
  · rw [size_holding, same]
    exact ordered.inside

/-- What is remembered of objects does not matter for the order. -/
theorem IsOrdered.find (ordered : memory.IsOrdered size) (kind : ObjectKind) (name : Name) :
    (memory.find kind name).2.IsOrdered size := by
  obtain ⟨recent, same⟩ := HoldsObjects.find_snd memory kind name
  rw [same]
  exact ⟨ordered.size_eq, ordered.below, ordered.inside⟩

/-- What was made or found last is found first. -/
theorem find_of_recent {payload : Extent} (recent : memory.recent = some (kind, name, payload)) :
    memory.find kind name = (some payload, memory) := by
  rw [find, recent]
  simp

/-- What is found is remembered. -/
theorem recent_of_find {payload : Extent} (found : (memory.find kind name).1 = some payload) :
    (memory.find kind name).2.recent = some (kind, name, payload) := by
  unfold find at found ⊢
  dsimp only at found ⊢
  split at found
  · rename_i remembered
    rw [Option.bind_eq_some_iff] at remembered
    obtain ⟨⟨recentKind, recentName, recent⟩, is, same⟩ := remembered
    split at same
    · rename_i wanted
      rw [Bool.and_eq_true, decide_eq_true_eq, decide_eq_true_eq] at wanted
      obtain ⟨rfl, rfl⟩ := wanted
      cases same
      cases found
      exact is
    · cases same
  · split at found
    · cases found
      rfl
    · cases found

/-! ### Writing -/

/-- **Writing inside memory exchanges bytes for as many others**, and they can be read again. -/
theorem exists_runOn_write {start : Nat} {data : Bytes}
    (inside : start + data.length ≤ memory.size) :
    ∃ bytes : Bytes, bytes.length = memory.size ∧
      (write start data).runOn memory = (.ok (), memory.holding bytes) ∧
      (memory.holding bytes).read? start data.length = some data := by
  have total := length_contents memory
  have front : (memory.contents.take start).length = start := by
    rw [List.length_take]
    omega
  have gone : ((memory.contents.drop start).take data.length).length = data.length := by
    rw [List.length_take, List.length_drop]
    omega
  have cut : memory.contents = memory.contents.take start ++
      (memory.contents.drop start).take data.length ++
        (memory.contents.drop start).drop data.length := by
    rw [List.append_assoc, List.take_append_drop, List.take_append_drop]
  have ran := runOn_write cut gone
  have read := @read?_eq (memory.holding (memory.contents.take start ++ data ++
    (memory.contents.drop start).drop data.length)) _ _ _ (contents_holding _ _)
  rw [front] at ran read
  refine ⟨_, ?_, ran, read⟩
  simp only [List.length_append, List.length_drop, front]
  omega

theorem exists_runOn_zero {start stop : Nat} (upwards : start ≤ stop)
    (inside : stop ≤ memory.size) :
    ∃ bytes : Bytes, bytes.length = memory.size ∧
      (zero start stop).runOn memory = (.ok (), memory.holding bytes) := by
  have within : start + (List.replicate (stop - start) (0 : UInt8)).length ≤ memory.size := by
    rw [List.length_replicate]
    omega
  obtain ⟨bytes, same, ran, -⟩ := exists_runOn_write within
  refine ⟨bytes, same, ?_⟩
  rw [zero, Attempt.runOn_get_bind]
  simp only [upwards, inside, decide_true, Bool.and_self, if_true]
  exact ran

/-- An address that is written inside memory can be read again. -/
theorem exists_runOn_writeAddress {start address : Nat}
    (inside : start + memory.width.byteCount ≤ memory.size) :
    ∃ bytes : Bytes, bytes.length = memory.size ∧
      (writeAddress start address).runOn memory = (.ok (), memory.holding bytes) ∧
      (address ≤ memory.width.largest →
        (memory.holding bytes).addressAt? start = some address) := by
  have length := memory.width.length_encode address
  obtain ⟨bytes, same, ran, read⟩ :=
    @exists_runOn_write memory start (memory.width.encode address) (by rwa [length])
  refine ⟨bytes, same, ran, fun fits => ?_⟩
  rw [length] at read
  rw [addressAt?, width_holding same, read, Option.map_some,
    AddressWidth.fromLittleEndian_encode _ fits]

/-! ### Making an object -/

/-- The parts of `allocate` that write: the header, and a payload of zeros. -/
theorem IsOrdered.exists_runOn_object {β : Type} (ordered : memory.IsOrdered size)
    {start length : Nat}
    (room : start + (kind.headerLength memory.width + length) ≤ memory.himem)
    (next : Unit → Attempt Memory β) :
    ∃ bytes : Bytes, bytes.length = memory.size ∧
      (do
        write start [kind.tag, name.first, name.second]
        if kind ≠ ObjectKind.scalar then writeAddress (start + 3) length
        zero (start + kind.headerLength memory.width)
          (start + kind.headerLength memory.width + length)
        next ()).runOn memory = (next ()).runOn (memory.holding bytes) := by
  have inside := ordered.inside
  have header : 3 ≤ kind.headerLength memory.width := by
    unfold ObjectKind.headerLength
    split
    · exact Nat.le_refl 3
    · exact Nat.le_add_right 3 _
  obtain ⟨tagged, sameTagged, tag, -⟩ :=
    @exists_runOn_write memory start [kind.tag, name.first, name.second]
      (by simp only [List.length_cons, List.length_nil]; omega)
  have cleared (sized : Bytes) (sameSized : sized.length = memory.size) :
      ∃ bytes : Bytes, bytes.length = memory.size ∧
        (zero (start + kind.headerLength memory.width)
          (start + kind.headerLength memory.width + length)).runOn (memory.holding sized) =
            (.ok (), memory.holding bytes) := by
    obtain ⟨bytes, same, ran⟩ := @exists_runOn_zero (memory.holding sized)
      (start + kind.headerLength memory.width) (start + kind.headerLength memory.width + length)
      (Nat.le_add_right _ _) (by rw [size_holding, sameSized]; omega)
    exact ⟨bytes, same.trans (by rw [size_holding, sameSized]), ran⟩
  by_cases scalar : kind = .scalar
  · obtain ⟨bytes, same, ran⟩ := cleared tagged sameTagged
    refine ⟨bytes, same, ?_⟩
    rw [Attempt.runOn_bind_ok tag, if_neg (not_not_intro scalar)]
    exact Attempt.runOn_bind_ok ran fun _ => next ()
  · have widths : kind.headerLength memory.width = 3 + memory.width.byteCount := by
      cases kind
      · exact absurd rfl scalar
      all_goals rfl
    obtain ⟨sized, sameSized, told, -⟩ :=
      @exists_runOn_writeAddress (memory.holding tagged) (start + 3) length
        (by rw [width_holding sameTagged, size_holding, sameTagged]; omega)
    rw [size_holding, sameTagged] at sameSized
    obtain ⟨bytes, same, ran⟩ := cleared sized sameSized
    refine ⟨bytes, same, ?_⟩
    rw [Attempt.runOn_bind_ok tag, if_pos scalar, Attempt.runOn_bind_ok told]
    exact Attempt.runOn_bind_ok ran fun _ => next ()

/-- **Making an object on any bytes** fails before it writes anything, or gives a payload inside
memory that is remembered. -/
theorem IsOrdered.allocate (ordered : memory.IsOrdered size) (kind : ObjectKind) (name : Name)
    (count : Nat) :
    (∃ error edited, (allocate kind name count).runOn memory =
      (.error (.reported { kind := error }), edited) ∧ edited.IsOrdered size) ∨
    ∃ start length edited, (allocate kind name count).runOn memory = (.ok start, edited) ∧
      edited.IsOrdered size ∧ kind.payloadLength? count memory.width = some length ∧
      edited.recent = some (kind, name, ⟨start, length⟩) ∧ start + length ≤ size := by
  have kept := ordered.find kind name
  cases found : (memory.find kind name).1 with
  | some payload =>
    have looked : (lookup kind name).runOn memory =
        (.ok (some payload), (memory.find kind name).2) := by
      rw [lookup, Attempt.runOn_always, found]
    refine .inl ⟨.duplicateVariable, _, ?_, kept⟩
    rw [Memory.allocate, Attempt.runOn_bind_ok looked, Option.isSome_some, if_pos rfl,
      Attempt.runOn_fail]
  | none =>
    have looked : (lookup kind name).runOn memory = (.ok none, memory) := by
      rw [lookup, Attempt.runOn_always, HoldsObjects.find_eq_self memory found]
    rw [Memory.allocate, Attempt.runOn_bind_ok looked, Option.isSome_none,
      if_neg Bool.false_ne_true, Attempt.runOn_get_bind]
    dsimp only
    cases made : kind.payloadLength? count memory.width with
    | none => exact .inl ⟨.outOfMemory, memory, rfl, ordered⟩
    | some length =>
      rw [Attempt.runOn_bind_ok (Attempt.runOn_orFail_some _ _ _)]
      by_cases full : memory.himem < memory.top + (kind.headerLength memory.width + length)
      · rw [if_pos full]
        exact .inl ⟨.outOfMemory, memory, rfl, ordered⟩
      · rw [if_neg full]
        have size_eq := ordered.size_eq
        have inside := ordered.inside
        obtain ⟨bytes, same, ran⟩ := @IsOrdered.exists_runOn_object memory size kind name _ ordered
          (memory.himem - (kind.headerLength memory.width + length)) length (by omega) fun _ => do
            modify fun memory' =>
              { memory' with
                himem := memory.himem - (kind.headerLength memory.width + length)
                objects := memory'.objects + 1
                recent := some (kind, name,
                  { start := memory.himem - (kind.headerLength memory.width + length) +
                      kind.headerLength memory.width, length }) }
            return memory.himem - (kind.headerLength memory.width + length) +
              kind.headerLength memory.width
        refine .inr ⟨_, length, _, ran, ⟨?_, ?_, ?_⟩, rfl, rfl, by omega⟩
        · exact (size_holding memory bytes).trans (same.trans size_eq)
        · show memory.top ≤ memory.himem - _
          omega
        · show memory.himem - _ ≤ (memory.holding bytes).size
          rw [size_holding, same]
          omega

/-! ### Deleting an object -/

/-- The payload of an object begins above the start of the walk and inside memory. -/
theorem bounds_of_mem_objectsWithin {fuel start : Nat} {object : HeapObject}
    (member : object ∈ memory.objectsWithin fuel start) :
    start ≤ object.payload.start ∧ object.payload.start ≤ memory.size := by
  induction fuel generalizing start with
  | zero => cases member
  | succ fuel ih =>
    rw [objectsWithin] at member
    have here {first : HeapObject} (read : memory.objectAt? start = some first) :
        start ≤ first.payload.start ∧ first.payload.start ≤ memory.size := by
      unfold objectAt? at read
      dsimp only at read
      split at read
      · cases read
      · split at read
        · cases read
        · split at read
          · cases read
          · rename_i whole
            cases read
            exact ⟨Nat.le_add_right _ _, Nat.not_lt.mp whole⟩
    split at member
    · cases member
    · rename_i first read
      rcases List.mem_cons.mp member with rfl | member
      · exact here read
      · have later := ih member
        have first := here read
        omega

theorem bounds_of_scan? {payload : Extent} (found : memory.scan? kind name = some payload) :
    memory.himem ≤ payload.start ∧ payload.start ≤ memory.size := by
  rw [scan?, Option.map_eq_some_iff] at found
  obtain ⟨object, among, rfl⟩ := found
  exact bounds_of_mem_objectsWithin (List.mem_of_find?_eq_some among)

/-- **Deleting an object that ends inside memory** keeps the order, whatever the bytes are. -/
theorem IsOrdered.delete (ordered : memory.IsOrdered size)
    (whole : ∀ payload, memory.scan? kind name = some payload →
      payload.start + payload.length ≤ memory.size) :
    ∃ stop edited, (delete kind name).runOn memory = (.ok stop, edited) ∧
      edited.IsOrdered size := by
  rw [Memory.delete, Attempt.runOn_get_bind]
  cases found : memory.scan? kind name with
  | none => exact ⟨none, memory, rfl, ordered⟩
  | some payload =>
    have bounds := bounds_of_scan? found
    have inside := whole payload found
    obtain ⟨bytes, same, ran⟩ := @exists_runOn_zero memory memory.himem
      (payload.start + payload.length) (by omega) inside
    dsimp only
    rw [Attempt.runOn_bind_ok ran]
    refine ⟨_, _, rfl, ⟨?_, ?_, ?_⟩⟩
    · exact (size_holding memory bytes).trans (same.trans ordered.size_eq)
    · have below := ordered.below
      show memory.top ≤ payload.start + payload.length
      omega
    · show payload.start + payload.length ≤ (memory.holding bytes).size
      rw [size_holding, same]
      exact inside

/-- **Deleting an object that ends outside of memory** would clear bytes that are not there. -/
theorem runOn_delete_outside {payload : Extent} (found : memory.scan? kind name = some payload)
    (outside : memory.size < payload.start + payload.length) :
    (delete kind name).runOn memory = (.error .fault, memory) := by
  have refused : ¬ (memory.himem ≤ payload.start + payload.length &&
      payload.start + payload.length ≤ memory.size) = true := by
    rw [Bool.and_eq_true, decide_eq_true_eq, decide_eq_true_eq]
    omega
  have ran : (zero memory.himem (payload.start + payload.length)).runOn memory =
      (.error .fault, memory) := by
    rw [zero, Attempt.runOn_get_bind, if_neg refused, Attempt.runOn_throw]
  rw [Memory.delete, Attempt.runOn_get_bind, found]
  exact Attempt.runOn_bind_error ran _

end PocketBasic.Memory
