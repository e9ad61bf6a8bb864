/-
**Calls of the heap spare the program**, whatever the bytes of the heap are. A walk over the heap
begins where the heap begins, so what it finds, and what is remembered of it, lies above the
program; a new object goes into the room between the two.

* `Memory.IsGuarded`: the heap is above the program, with what is remembered of it;
* `Memory.sparing`: the conduct of calls that keep it so and leave the program as it was;
* `Memory.WrittenAbove`: what writing behind the program does;
* `Memory.sparing_allocate`, `Memory.sparing_delete` and the others: the calls, one by one.
-/

import Mathlib.Tactic.Common
import PocketBasic.Proofs.Conduct
import PocketBasic.Proofs.Memory.AnyBytes
import PocketBasic.Proofs.Memory.LineTable

namespace PocketBasic.Memory

/-- Whether the heap of a memory begins above the program and inside memory, and no lower than the
object that is remembered. Nothing is said about the bytes. -/
structure IsGuarded (memory : Memory) : Prop where
  below : memory.top ≤ memory.himem
  inside : memory.himem ≤ memory.size
  recent : ∀ kind name payload, memory.recent = some (kind, name, payload) →
    memory.himem ≤ payload.start

instance (memory : Memory) : Decidable memory.IsGuarded :=
  decidable_of_iff (memory.top ≤ memory.himem ∧ memory.himem ≤ memory.size ∧
      memory.recent.all fun found => memory.himem ≤ found.2.2.start) <| by
    refine ⟨fun ⟨below, inside, recent⟩ => ⟨below, inside, fun _ _ _ same => ?_⟩,
      fun ⟨below, inside, recent⟩ => ⟨below, inside, ?_⟩⟩
    · rw [same] at recent
      exact of_decide_eq_true recent
    · rw [Option.all_eq_true]
      exact fun _ same => decide_eq_true (recent _ _ _ same)

theorem isGuarded_ofSize (size : Nat) : (ofSize size).IsGuarded :=
  ⟨Nat.zero_le _, Nat.le_of_eq (Array.size_replicate ..).symm, nofun⟩

/-- Whether a memory has the program of another one and as many bytes. -/
structure SameProgram (memory edited : Memory) : Prop where
  size : edited.size = memory.size
  program : edited.program = memory.program

/-- What keeps the heap above the program, and the program as it was. -/
def sparing : Conduct Memory where
  moves memory edited := memory.IsGuarded → edited.IsGuarded ∧ memory.SameProgram edited
  fails memory _ edited := memory.IsGuarded → edited.IsGuarded ∧ memory.SameProgram edited
  refl _ guarded := ⟨guarded, rfl, rfl⟩
  trans first second guarded :=
    have ⟨middle, same⟩ := first guarded
    have ⟨last, again⟩ := second middle
    ⟨last, again.size.trans same.size, again.program.trans same.program⟩
  fails_of_moves first second guarded :=
    have ⟨middle, same⟩ := first guarded
    have ⟨last, again⟩ := second middle
    ⟨last, again.size.trans same.size, again.program.trans same.program⟩
  fails_moves first second guarded :=
    have ⟨middle, same⟩ := first guarded
    have ⟨last, again⟩ := second middle
    ⟨last, again.size.trans same.size, again.program.trans same.program⟩

variable {memory : Memory} {α : Type}

theorem SameProgram.width {edited : Memory} (same : memory.SameProgram edited) :
    edited.width = memory.width := by
  rw [Memory.width, same.size, ← Memory.width]

theorem sparing_fail (kind : ErrorKind) : (Attempt.fail kind : Attempt Memory α).Obeys sparing :=
  fun _ guarded => ⟨guarded, rfl, rfl⟩

/-! ### Writing -/

/-- Whether a memory differs from another one in bytes behind the program only. -/
def WrittenAbove (memory edited : Memory) : Prop :=
  ∃ bytes : Bytes, edited = memory.holding bytes ∧ bytes.length = memory.size ∧
    bytes.take memory.top = memory.contents.take memory.top

theorem WrittenAbove.refl (memory : Memory) : memory.WrittenAbove memory :=
  ⟨memory.contents, (holding_contents memory).symm, length_contents memory, rfl⟩

theorem WrittenAbove.trans {edited final : Memory} (first : memory.WrittenAbove edited)
    (second : edited.WrittenAbove final) : memory.WrittenAbove final := by
  obtain ⟨bytes, rfl, length, front⟩ := first
  obtain ⟨others, rfl, again, same⟩ := second
  rw [size_holding] at again
  rw [top_holding, contents_holding] at same
  exact ⟨others, holding_holding .., again.trans length, same.trans front⟩

theorem WrittenAbove.sameProgram {edited : Memory} (written : memory.WrittenAbove edited)
    (tops : memory.top ≤ memory.size) : memory.SameProgram edited := by
  obtain ⟨bytes, rfl, length, front⟩ := written
  refine ⟨by rw [size_holding, length], ?_⟩
  have short : (memory.contents.take memory.top).length = memory.top := by
    rw [List.length_take, length_contents, Nat.min_eq_left tops]
  rw [program_of_begins (List.take_append_drop memory.top memory.contents).symm short.symm,
    ← front]
  have cut : (memory.holding bytes).contents = bytes.take memory.top ++ bytes.drop memory.top := by
    rw [contents_holding, List.take_append_drop]
  exact program_of_begins cut (by rw [front, short, top_holding])

theorem WrittenAbove.isGuarded {edited : Memory} (written : memory.WrittenAbove edited)
    (guarded : memory.IsGuarded) : edited.IsGuarded := by
  obtain ⟨bytes, rfl, length, -⟩ := written
  exact ⟨guarded.below, by rw [himem_holding, size_holding, length]; exact guarded.inside,
    guarded.recent⟩

/-- What only writes behind the program, whether it fails or not. -/
def writing : Conduct Memory where
  moves := WrittenAbove
  fails memory _ edited := memory.WrittenAbove edited
  refl := WrittenAbove.refl
  trans := WrittenAbove.trans
  fails_of_moves := WrittenAbove.trans
  fails_moves := WrittenAbove.trans

theorem writing_write {start : Nat} (behind : memory.top ≤ start) (data : Bytes) :
    (write start data).ObeysFrom writing memory := by
  by_cases inside : start + data.length ≤ memory.size
  · have total := length_contents memory
    have front : (memory.contents.take start).length = start := by
      rw [List.length_take]
      omega
    have gone : ((memory.contents.drop start).take data.length).length = data.length := by
      rw [List.length_take, List.length_drop]
      omega
    have cut : memory.contents = memory.contents.take start ++
        (memory.contents.drop start).take data.length ++
          (memory.contents.drop start).drop data.length := by
      rw [List.append_assoc, List.take_append_drop, List.take_append_drop]
    have ran := runOn_write cut gone
    rw [front] at ran
    refine Attempt.obeysFrom_of_ok ran ⟨_, rfl, ?_, ?_⟩
    · simp only [List.length_append, List.length_drop, front]
      omega
    · rw [List.append_assoc, List.take_append_of_le_length (by omega), List.take_take,
        Nat.min_eq_left behind]
  · have refused : (write start data).runOn memory = (.error .fault, memory) := by
      rw [write, Attempt.runOn_get_bind, if_neg inside, Attempt.runOn_throw]
    exact Attempt.obeysFrom_of_error refused (.refl memory)

theorem writing_writeAddress {start : Nat} (behind : memory.top ≤ start) (address : Nat) :
    (writeAddress start address).ObeysFrom writing memory := by
  rw [Attempt.ObeysFrom, runOn_writeAddress]
  exact writing_write behind _

theorem writing_zero {start : Nat} (behind : memory.top ≤ start) (stop : Nat) :
    (zero start stop).ObeysFrom writing memory := by
  by_cases inside : (start ≤ stop && stop ≤ memory.size) = true
  · have ran : (zero start stop).runOn memory =
        (write start (List.replicate (stop - start) 0)).runOn memory := by
      rw [zero, Attempt.runOn_get_bind, if_pos inside]
    exact Attempt.ObeysFrom.of_run ran (.refl memory) (writing_write behind _)
  · have refused : (zero start stop).runOn memory = (.error .fault, memory) := by
      rw [zero, Attempt.runOn_get_bind, if_neg inside, Attempt.runOn_throw]
    exact Attempt.obeysFrom_of_error refused (.refl memory)

/-- What spares the program of a guarded memory spares it. -/
theorem sparing_of_guarded {step : Attempt Memory α}
    (spares : memory.IsGuarded → step.ObeysFrom sparing memory) :
    step.ObeysFrom sparing memory := by
  rcases ran : step.runOn memory with ⟨failure | value, edited⟩
  · exact Attempt.obeysFrom_of_error ran fun guarded => (spares guarded).fails ran guarded
  · exact Attempt.obeysFrom_of_ok ran fun guarded => (spares guarded).moves ran guarded

theorem sparing_of_writing {step : Attempt Memory α} (writes : step.ObeysFrom writing memory) :
    step.ObeysFrom sparing memory := by
  have spares {edited : Memory} (written : memory.WrittenAbove edited)
      (guarded : memory.IsGuarded) :
      edited.IsGuarded ∧ memory.SameProgram edited :=
    ⟨written.isGuarded guarded, written.sameProgram (Nat.le_trans guarded.below guarded.inside)⟩
  rcases ran : step.runOn memory with ⟨failure | value, edited⟩
  · exact Attempt.obeysFrom_of_error ran (spares (writes.fails ran))
  · exact Attempt.obeysFrom_of_ok ran (spares (writes.moves ran))

/-! ### Finding -/

/-- **What is found lies in the heap**, also when it is remembered. -/
theorem IsGuarded.himem_le (guarded : memory.IsGuarded) {kind : ObjectKind} {name : Name}
    {payload : Extent} (found : (memory.find kind name).1 = some payload) :
    memory.himem ≤ payload.start := by
  unfold find at found
  dsimp only at found
  split at found
  · rename_i remembered
    rw [Option.bind_eq_some_iff] at remembered
    obtain ⟨⟨recentKind, recentName, recent⟩, is, same⟩ := remembered
    split at same
    · cases same
      cases found
      exact guarded.recent _ _ _ is
    · cases same
  · split at found
    · rename_i scanned
      cases found
      exact (bounds_of_scan? scanned).1
    · cases found

theorem IsGuarded.find (guarded : memory.IsGuarded) (kind : ObjectKind) (name : Name) :
    (memory.find kind name).2.IsGuarded := by
  unfold Memory.find
  dsimp only
  split
  · exact guarded
  · split
    · rename_i scanned
      refine ⟨guarded.below, guarded.inside, fun _ _ payload same => ?_⟩
      cases same
      exact (bounds_of_scan? scanned).1
    · exact guarded

theorem sparing_lookup (kind : ObjectKind) (name : Name) : (lookup kind name).Obeys sparing := by
  intro memory guarded
  obtain ⟨recent, same⟩ := HoldsObjects.find_snd memory kind name
  refine ⟨guarded.find kind name, ?_⟩
  show memory.SameProgram (memory.find kind name).2
  rw [same]
  exact ⟨rfl, rfl⟩

/-! ### Making and deleting -/

/-- The parts of `allocate` that write, the header and the payload, write behind the program. -/
theorem sparing_object {β : Type} {start : Nat} (behind : memory.top ≤ start) (kind : ObjectKind)
    (name : Name) {payload : Nat} (inside : start ≤ payload) (length : Nat)
    {next : Attempt Memory β}
    (goesOn : ∀ edited, memory.WrittenAbove edited → next.ObeysFrom sparing edited) :
    (do
      write start [kind.tag, name.first, name.second]
      if kind ≠ ObjectKind.scalar then writeAddress (start + 3) length
      zero payload (payload + length)
      next : Attempt Memory β).ObeysFrom sparing memory := by
  have stays {edited : Memory} (written : memory.WrittenAbove edited) {place : Nat}
      (above : start ≤ place) : edited.top ≤ place := by
    obtain ⟨bytes, rfl, -, -⟩ := written
    exact Nat.le_trans behind above
  have then_next {step : Attempt Memory Unit} {next : Attempt Memory β} {edited : Memory}
      (written : memory.WrittenAbove edited) (writes : step.ObeysFrom writing edited)
      (goesOn : ∀ final, memory.WrittenAbove final → next.ObeysFrom sparing final) :
      (step >>= fun _ => next).ObeysFrom sparing edited :=
    (sparing_of_writing writes).bind_of_ran fun _ final ran =>
      goesOn final (written.trans (writes.moves ran))
  have cleared (edited : Memory) (written : memory.WrittenAbove edited) :
      (zero payload (payload + length) >>= fun _ => next).ObeysFrom sparing edited :=
    then_next written (writing_zero (stays written inside) _) goesOn
  refine then_next (.refl memory) (writing_write behind _) fun edited written => ?_
  split
  · exact then_next written (writing_writeAddress (stays written (Nat.le_add_right _ 3)) _) cleared
  · exact cleared edited written

/-- The room for a new object becomes part of the heap. -/
theorem sparing_settle {edited : Memory} (written : memory.WrittenAbove edited)
    {start payload length : Nat} (behind : memory.top ≤ start) (below : start ≤ memory.himem)
    (inside : start ≤ payload) (kind : ObjectKind) (name : Name) :
    (do
      modify fun memory =>
        { memory with
          himem := start
          objects := memory.objects + 1
          recent := some (kind, name, { start := payload, length }) }
      return payload : Attempt Memory Nat).ObeysFrom sparing edited := by
  obtain ⟨bytes, rfl, -, -⟩ := written
  intro guarded
  have within := guarded.inside
  rw [himem_holding] at within
  refine ⟨⟨behind, Nat.le_trans below within, fun _ _ _ same => ?_⟩, rfl, rfl⟩
  cases same
  exact inside

/-- **Making an object spares the program**, and so does failing to make it. -/
theorem sparing_allocate (kind : ObjectKind) (name : Name) (count : Nat) :
    (allocate kind name count).Obeys sparing := by
  refine (sparing_lookup kind name).bind fun found => .ite (sparing_fail _) ?_
  refine .get_bind fun memory => ?_
  dsimp only
  rcases kind.payloadLength? count memory.width with _ | length
  · exact Attempt.obeysFrom_of_error (Attempt.runOn_bind_error (Attempt.runOn_orFail_none _ _) _)
      (sparing_fail (α := Nat) .outOfMemory memory)
  refine Attempt.ObeysFrom.of_run (Attempt.runOn_bind_ok (Attempt.runOn_orFail_some _ _ _) _)
    (sparing.refl memory) ?_
  refine .ite (fun _ => sparing_fail _ memory) fun room => ?_
  have above : memory.top ≤ memory.himem - (kind.headerLength memory.width + length) := by omega
  have lowered := Nat.sub_le memory.himem (kind.headerLength memory.width + length)
  generalize memory.himem - (kind.headerLength memory.width + length) = start at above lowered ⊢
  refine sparing_object above kind name (Nat.le_add_right _ _) length fun edited written => ?_
  exact sparing_settle written above lowered (Nat.le_add_right _ _) kind name

/-- A new object is behind the program. -/
theorem top_le_of_allocate (guarded : memory.IsGuarded) {kind : ObjectKind} {name : Name}
    {count start : Nat} {edited : Memory}
    (ran : (allocate kind name count).runOn memory = (.ok start, edited)) : edited.top ≤ start := by
  have kept := ((sparing_allocate kind name count memory).moves ran guarded).1
  have ordered : memory.IsOrdered memory.size := ⟨rfl, guarded.below, guarded.inside⟩
  rcases ordered.allocate kind name count with ⟨_, _, failed, -⟩ | ⟨_, _, _, made, -, -, recent, -⟩
  · cases ran.symm.trans failed
  · cases ran.symm.trans made
    exact Nat.le_trans kept.below (kept.recent _ _ _ recent)

/-- Memory is only cleared up to its end. -/
theorem le_size_of_zero {start stop : Nat} {edited : Memory}
    (ran : (zero start stop).runOn memory = (.ok (), edited)) : stop ≤ memory.size := by
  rw [zero, Attempt.runOn_get_bind, Attempt.runOn_ite] at ran
  split at ran
  · rename_i inside
    rw [Bool.and_eq_true, decide_eq_true_eq, decide_eq_true_eq] at inside
    exact inside.2
  · cases ran

/-- **Deleting an object spares the program**, also when the object does not end inside memory. -/
theorem sparing_delete (kind : ObjectKind) (name : Name) : (delete kind name).Obeys sparing := by
  refine .get_bind fun memory => ?_
  cases found : memory.scan? kind name with
  | none => exact .pure _
  | some payload =>
    refine sparing_of_guarded fun guarded => ?_
    have writes : (zero memory.himem (payload.start + payload.length)).ObeysFrom writing memory :=
      writing_zero guarded.below _
    refine (sparing_of_writing writes).bind_of_ran fun _ edited ran _ => ?_
    have bounds := bounds_of_scan? found
    have inside := le_size_of_zero ran
    have below := guarded.below
    obtain ⟨bytes, rfl, length, -⟩ := writes.moves ran
    refine ⟨⟨?_, ?_, nofun⟩, rfl, rfl⟩
    · show memory.top ≤ payload.start + payload.length
      omega
    · show payload.start + payload.length ≤ (memory.holding bytes).size
      rw [size_holding, length]
      exact inside

/-- **Dropping all objects spares the program**: the heap begins where memory ends. -/
theorem sparing_clearHeap : clearHeap.Obeys sparing := by
  refine .get_bind fun memory => sparing_of_guarded fun guarded => ?_
  have writes : (zero memory.himem memory.size).ObeysFrom writing memory :=
    writing_zero guarded.below _
  refine (sparing_of_writing writes).bind_of_ran fun _ edited ran _ => ?_
  obtain ⟨bytes, rfl, length, -⟩ := writes.moves ran
  refine ⟨⟨?_, Nat.le_refl _, by simp⟩, rfl, rfl⟩
  show memory.top ≤ (memory.holding bytes).size
  rw [size_holding, length]
  exact Nat.le_trans guarded.below guarded.inside

/-! ### All of memory -/

/-- Any bytes may stand in the heap. -/
theorem IsGuarded.holding (guarded : memory.IsGuarded) {bytes : Bytes}
    (same : bytes.length = memory.size) : (memory.holding bytes).IsGuarded :=
  ⟨guarded.below, by rw [himem_holding, size_holding, same]; exact guarded.inside, guarded.recent⟩

/-- What is done to the program keeps the heap above it. -/
theorem IsGuarded.of_keepsHeap {edited : Memory} (guarded : memory.IsGuarded)
    (kept : KeepsHeap memory edited) : edited.IsGuarded := by
  refine ⟨kept.below, by rw [kept.himem, kept.size]; exact guarded.inside, fun _ _ _ same => ?_⟩
  rw [kept.recent] at same
  rw [kept.himem]
  exact guarded.recent _ _ _ same

/-- Objects that a memory can find are above the program. -/
theorem HoldsObjects.isGuarded {width : AddressWidth} {records : List (HeapRecord width)}
    (held : memory.HoldsObjects records) (tops : memory.top ≤ memory.himem) :
    memory.IsGuarded := by
  refine ⟨tops, held.inside, fun kind name payload recent => ?_⟩
  obtain ⟨newer, record, older, rfl, -, -, -, rfl⟩ :=
    HeapRecord.exists_of_locate? (held.recent kind name payload recent)
  have size := held.size_eq
  simp only [HeapRecord.image_append, HeapRecord.image_cons, List.length_append,
    HeapRecord.length_bytes] at size
  dsimp only
  omega

end PocketBasic.Memory
