/-
**The slots for lines are not seen.** The starts of lines that were looked up last are remembered,
and every edit moves lines. Whatever is done to a memory, except for writing single bytes and moving
blocks by hand, a lookup gives what a search of the whole program gives.

* `Conduct.keepsSlots`: the conduct of what leaves the slots as they are, also where it fails;
* `Memory.TellsTruly`: every slot holds the start that a search finds;
* `Access`: looking lines up, editing and loading the program, and the calls of the heap;
* **`Memory.findLine_eq_search`**: after any accesses to a fresh memory a lookup is a search.
-/

import PocketBasic.Proofs.Failures
import PocketBasic.Proofs.Memory.Integrity

namespace PocketBasic

/-! ### Slots -/

namespace LineCache

variable {cache : LineCache} {line : LineNumber} {start : Nat} {entry : LineNumber × Nat}

/-- Whether a slot holds a line and a start. -/
def Has (cache : LineCache) (entry : LineNumber × Nat) : Prop := some entry ∈ cache.slots.toList

theorem has_of_find? (found : cache.find? line = some start) : cache.Has (line, start) := by
  obtain ⟨slot, member, held⟩ := List.exists_of_findSome?_eq_some found
  obtain ⟨entry, rfl, taken⟩ := Option.bind_eq_some_iff.mp held
  split at taken
  case isTrue same =>
    cases taken
    subst same
    exact member
  case isFalse => cases taken

/-- What is put into a slot replaces what was there; the other slots stay. -/
theorem has_of_insert (has : (cache.insert line start).Has entry) :
    entry = (line, start) ∨ cache.Has entry := by
  rw [Has, insert, Vector.toList_set] at has
  rcases List.mem_or_eq_of_mem_set has with older | new
  · exact .inr older
  · exact .inl (Option.some.inj new)

theorem not_has_clear : ¬ cache.clear.Has entry := by
  simp [Has, clear]

theorem not_has_empty : ¬ ({} : LineCache).Has entry := by
  simp [Has]

end LineCache

/-! ### Steps that leave the slots alone -/

/-- The conduct of steps that leave the slots as they are, also where they fail. -/
def Conduct.keepsSlots : Conduct Memory where
  moves before after := after.lineCache = before.lineCache
  fails before _ after := after.lineCache = before.lineCache
  refl _ := rfl
  trans first second := second.trans first
  fails_of_moves first second := second.trans first
  fails_moves first second := second.trans first

instance : Conduct.keepsSlots.MovesLines where
  fails_ordinary _ _ _ := rfl
  moves_bytes _ _ _ := rfl
  moves_heap _ _ _ _ := rfl
  moves_top _ _ := rfl

/-- **The calls of the heap** do what steps on memory do that leave the program alone. -/
theorem HeapCall.obeys_run {conduct : Conduct Memory} [conduct.Stores] (call : HeapCall) :
    call.run.Obeys conduct := by
  cases call with
  | allocate kind name size => exact (Memory.obeys_allocate kind name size).bind fun _ => .pure _
  | find kind name => exact (Memory.obeys_lookup kind name).bind fun _ => .pure _
  | length kind name => exact (Memory.obeys_lookup kind name).bind fun _ => .pure _
  | delete kind name => exact Memory.obeys_delete kind name
  | clear => exact Memory.obeys_clearHeap.bind fun _ => .pure _
  | write kind name offset data =>
    refine Attempt.Obeys.bind (Attempt.Obeys.get.bind fun memory => ?_) fun _ => .pure _
    split
    · exact .pure _
    · exact .ite (Memory.obeys_write _ _) (.pure _)

namespace Memory

/-- What keeps the slots does so whether it fails or not. -/
theorem slots_of_obeys {α : Type} {step : Attempt Memory α} (obeys : step.Obeys .keepsSlots)
    (memory : Memory) : (step.runOn memory).2.lineCache = memory.lineCache := by
  rcases ran : step.runOn memory with ⟨failure | value, after⟩
  · exact (obeys memory).fails ran
  · exact (obeys memory).moves ran

/-! ### Slots that tell the truth -/

variable {memory edited : Memory}

/-- Whether every slot holds the start that a search of the program finds. -/
def TellsTruly (memory : Memory) : Prop :=
  ∀ entry, memory.lineCache.Has entry →
    memory.program.findLine? memory.width entry.1 = some entry.2

/-- A lookup that may use the slots is a search. -/
theorem TellsTruly.findLine_fst (truly : memory.TellsTruly) (line : LineNumber) :
    (memory.findLine line).1 = memory.program.findLine? memory.width line := by
  have search : memory.program.findLine? memory.width line =
      (memory.lineSpan? line).map (·.start) := rfl
  rw [findLine]
  split
  case h_1 start found => exact (truly _ (LineCache.has_of_find? found)).symm
  case h_2 =>
    rw [search]
    split
    case h_1 none => rw [none, Option.map_none]
    case h_2 span found => rw [found, Option.map_some]

/-- What a lookup remembers was found by a search. -/
theorem TellsTruly.findLine_snd (truly : memory.TellsTruly) (line : LineNumber) :
    (memory.findLine line).2.TellsTruly := by
  rw [findLine]
  split
  · exact truly
  · split
    · exact truly
    case h_2 span found =>
      intro entry has
      rcases LineCache.has_of_insert has with rfl | older
      · exact congrArg (Option.map (·.start)) found
      · exact truly entry older

theorem TellsTruly.of_same (truly : memory.TellsTruly)
    (slots : edited.lineCache = memory.lineCache) (program : edited.program = memory.program)
    (size : edited.size = memory.size) : edited.TellsTruly := by
  intro entry has
  rw [slots] at has
  rw [program, width, size]
  exact truly entry has

/-- Empty slots tell nothing untrue. -/
theorem tellsTruly_of_empty {cache : LineCache} (slots : edited.lineCache = cache.clear) :
    edited.TellsTruly := by
  intro entry has
  rw [slots] at has
  exact absurd has LineCache.not_has_clear

/-- **Storing empties the slots before anything else**, or it is refused at once. -/
theorem storeLine_slots (memory : Memory) (line : LineNumber) (body : List Token) :
    ((storeLine line body).runOn memory).2 = memory ∨
      ((storeLine line body).runOn memory).2.lineCache = memory.lineCache.clear := by
  rw [storeLine]
  split
  case isTrue => exact .inl rfl
  case isFalse =>
    refine .inr ?_
    rw [Attempt.runOn_modify_bind]
    exact slots_of_obeys (.ite (obeys_deleteLine line) (obeys_storeRecord line body)) _

/-- Dropping the program empties the slots. -/
theorem clearProgram_slots (inside : memory.top ≤ memory.size) :
    (clearProgram.runOn memory).2.lineCache = memory.lineCache.clear := by
  rw [runOn_clearProgram inside]
  rfl

/-- **Loading empties the slots before it writes anything**, or it is refused at once. -/
theorem loadProgram_slots (inside : memory.top ≤ memory.size) (image : Bytes) :
    ((loadProgram image).runOn memory).2 = memory ∨
      ((loadProgram image).runOn memory).2.lineCache = memory.lineCache.clear := by
  rw [loadProgram, Attempt.runOn_get_bind]
  split
  case isTrue => exact .inl rfl
  case isFalse =>
    refine .inr ?_
    rw [Attempt.runOn_bind_ok (runOn_clearProgram inside)]
    exact slots_of_obeys ((obeys_write 0 image).bind fun _ => obeys_endAt fun _ => image.length) _

end Memory

/-! ### Accesses -/

/-- What is done to a memory by name: looking lines up, editing and loading the program, and the
calls of the heap. -/
inductive Access where
  | findLine (line : LineNumber)
  | storeLine (line : LineNumber) (body : List Token)
  | clearProgram
  | loadProgram (image : Bytes)
  | heap (call : HeapCall)

namespace Access

variable {memory : Memory}

/-- The memory that an access leaves, whether it fails or not. -/
def leave (memory : Memory) : Access → Memory
  | findLine line => (memory.findLine line).2
  | storeLine line body => ((Memory.storeLine line body).runOn memory).2
  | clearProgram => (Memory.clearProgram.runOn memory).2
  | loadProgram image => ((Memory.loadProgram image).runOn memory).2
  | heap call => (call.run.runOn memory).2

/-- A fresh memory of a size after accesses. -/
def run (size : Nat) (accesses : List Access) : Memory := accesses.foldl leave (Memory.ofSize size)

/-- Every access leaves the program below the heap, and the heap made of objects. -/
theorem isHeld_leave (held : memory.IsHeld) (access : Access) : (access.leave memory).IsHeld := by
  have tops := held.1
  have inside := held.inside
  cases access with
  | findLine line => exact held.of_keepsHeap (Memory.findLine_keepsHeap tops line)
  | storeLine line body =>
    rw [leave]
    rcases Memory.storeLine_keepsHeap tops inside line body with
      ⟨error, ran | ran⟩ | ⟨edited, ran, kept⟩
    all_goals rw [ran]
    · exact held
    · exact held.of_keepsHeap ⟨rfl, rfl, rfl, rfl, rfl, tops⟩
    · exact held.of_keepsHeap kept
  | clearProgram => exact held.of_keepsHeap (Memory.clearProgram_keepsHeap tops inside)
  | loadProgram image =>
    rw [leave]
    rcases Memory.loadProgram_keepsHeap tops inside image with ⟨error, ran⟩ | ⟨edited, ran, kept⟩
    all_goals rw [ran]
    · exact held
    · exact held.of_keepsHeap kept
  | heap call =>
    obtain ⟨-, width, records, objects⟩ := held
    obtain ⟨edited, ran, kept, program, -⟩ := HeapCall.run_eq objects tops call
    rw [leave, ran]
    exact ⟨program.below, width, _, kept⟩

/-- **Every access leaves slots that tell the truth**: it leaves the program alone, or empties the
slots. -/
theorem tellsTruly_leave (held : memory.IsHeld) (truly : memory.TellsTruly) (access : Access) :
    (access.leave memory).TellsTruly := by
  have tops := held.1
  have inside : memory.top ≤ memory.size := Nat.le_trans tops held.inside
  cases access with
  | findLine line => exact truly.findLine_snd line
  | storeLine line body =>
    rcases Memory.storeLine_slots memory line body with same | emptied
    · rw [leave, same]
      exact truly
    · exact Memory.tellsTruly_of_empty emptied
  | clearProgram => exact Memory.tellsTruly_of_empty (Memory.clearProgram_slots inside)
  | loadProgram image =>
    rcases Memory.loadProgram_slots inside image with same | emptied
    · rw [leave, same]
      exact truly
    · exact Memory.tellsTruly_of_empty emptied
  | heap call =>
    have slots := Memory.slots_of_obeys call.obeys_run memory
    obtain ⟨-, width, records, objects⟩ := held
    obtain ⟨edited, ran, -, program, -⟩ := HeapCall.run_eq objects tops call
    rw [ran] at slots
    rw [leave, ran]
    exact truly.of_same slots (program.program_eq inside) program.size

theorem isHeld_and_tellsTruly_run (size : Nat) (accesses : List Access) :
    (run size accesses).IsHeld ∧ (run size accesses).TellsTruly := by
  induction accesses using List.reverseRecOn with
  | nil =>
    exact ⟨(Memory.IsIntact.ofSize size).isHeld, fun entry has =>
      absurd has LineCache.not_has_empty⟩
  | append_singleton accesses access ih =>
    rw [run, List.foldl_append]
    exact ⟨isHeld_leave ih.1 access, tellsTruly_leave ih.1 ih.2 access⟩

end Access

/-- **The slots are not seen.** After any accesses to a fresh memory, those that failed included, a
lookup gives the start of the first line with the number, as a search of the whole program would. -/
theorem Memory.findLine_eq_search (size : Nat) (accesses : List Access) (line : LineNumber) :
    ((Access.run size accesses).findLine line).1 =
      (Access.run size accesses).program.findLine? (Access.run size accesses).width line :=
  (Access.isHeld_and_tellsTruly_run size accesses).2.findLine_fst line

end PocketBasic
