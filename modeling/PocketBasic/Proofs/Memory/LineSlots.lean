/-
**Which lines are remembered is seen by lookups of lines only.** Every other step on memory, edits
included, does the same whatever lines were looked up before; and where the lines are remembered
truly, a lookup finds the same as well.

* `Memory.withSlots`: the memory with other lines remembered;
* `Memory.Ignorant`: steps that do the same whatever lines are remembered;
* **`Memory.ignores_storeLine`** and the others: the steps that do.
-/

import PocketBasic.Memory.Heap
import PocketBasic.Proofs.Memory.LineLookup

namespace PocketBasic

namespace Memory

variable {α : Type}

/-- The memory with other lines remembered. -/
def withSlots (slots : LineCache) (memory : Memory) : Memory := { memory with lineCache := slots }

/-- Whether a step does the same whatever lines are remembered. -/
abbrev Ignorant (step : Attempt Memory α) : Prop := step.Ignores withSlots

@[simp]
theorem width_withSlots (slots : LineCache) (memory : Memory) :
    (memory.withSlots slots).width = memory.width := rfl

@[simp]
theorem program_withSlots (slots : LineCache) (memory : Memory) :
    (memory.withSlots slots).program = memory.program := rfl

/-! ### The heap -/

theorem objectsWithin_withSlots (slots : LineCache) (memory : Memory) (fuel start : Nat) :
    (memory.withSlots slots).objectsWithin fuel start = memory.objectsWithin fuel start := by
  induction fuel generalizing start with
  | zero => rfl
  | succ fuel ih =>
    rw [objectsWithin, objectsWithin]
    rw [show (memory.withSlots slots).objectAt? start = memory.objectAt? start from rfl]
    cases memory.objectAt? start with
    | none => rfl
    | some object => exact congrArg (object :: ·) (ih _)

/-- The objects of the heap are the same whatever lines are remembered. -/
@[simp]
theorem heapObjects_withSlots (slots : LineCache) (memory : Memory) :
    (memory.withSlots slots).heapObjects = memory.heapObjects :=
  objectsWithin_withSlots slots memory _ _

@[simp]
theorem scan?_withSlots (slots : LineCache) (memory : Memory) (kind : ObjectKind) (name : Name) :
    (memory.withSlots slots).scan? kind name = memory.scan? kind name := by
  rw [scan?, heapObjects_withSlots, scan?]

theorem find_withSlots (slots : LineCache) (memory : Memory) (kind : ObjectKind) (name : Name) :
    (memory.withSlots slots).find kind name =
      ((memory.find kind name).1, (memory.find kind name).2.withSlots slots) := by
  rw [find, find, scan?_withSlots]
  rw [show (memory.withSlots slots).recent = memory.recent from rfl]
  dsimp only
  split
  · rfl
  · cases memory.scan? kind name with
    | none => rfl
    | some payload => rfl

/-- A change that the slots have no part in. -/
theorem ignores_modify {edit : Memory → Memory}
    (same : ∀ memory slots, edit (withSlots slots memory) = withSlots slots (edit memory)) :
    Ignorant (modify edit : Attempt Memory Unit) :=
  .of_modify fun memory slots => ⟨slots, same memory slots⟩

theorem ignores_write (start : Nat) (data : Bytes) : Ignorant (write start data) :=
  .get_bind (fun _ _ => rfl) fun _ => .ite (ignores_modify fun _ _ => rfl) (.throw _)

theorem ignores_zero (start stop : Nat) : Ignorant (zero start stop) :=
  .get_bind (fun _ _ => rfl) fun _ => .ite (ignores_write _ _) (.throw _)

theorem ignores_writeAddress (start address : Nat) : Ignorant (writeAddress start address) :=
  .get_bind (fun _ _ => rfl) fun _ => ignores_write _ _

theorem ignores_lookup (kind : ObjectKind) (name : Name) : Ignorant (lookup kind name) := by
  intro memory slots
  refine ⟨slots, ?_⟩
  rw [lookup, Attempt.runOn_always, Attempt.runOn_always, find_withSlots]

theorem ignores_allocate (kind : ObjectKind) (name : Name) (size : Nat) :
    Ignorant (allocate kind name size) := by
  refine (ignores_lookup kind name).bind fun _ => .ite (.throw _) ?_
  refine .get_bind (fun _ _ => rfl) fun memory => (Attempt.Ignores.orFail _ _).bind fun length => ?_
  have placed (start payload : Nat) : Ignorant (do
      zero payload (payload + length)
      modify fun memory =>
        { memory with
          himem := start
          objects := memory.objects + 1
          recent := some (kind, name, { start := payload, length }) }
      return payload : Attempt Memory Nat) :=
    (ignores_zero _ _).bind fun _ => (ignores_modify fun _ _ => rfl).bind fun _ => .pure _
  refine .ite (.throw _) ((ignores_write _ _).bind fun _ => .ite ?_ (placed _ _))
  exact (ignores_writeAddress _ _).bind fun _ => placed _ _

theorem ignores_delete (kind : ObjectKind) (name : Name) : Ignorant (delete kind name) := by
  refine .get_bind (fun memory slots => by rw [scan?_withSlots]; rfl) fun memory => ?_
  cases memory.scan? kind name with
  | none => exact .pure _
  | some payload =>
    refine (ignores_zero _ _).bind fun _ => (ignores_modify fun _ _ => rfl).bind fun _ => ?_
    refine (ignores_modify fun memory slots => ?_).bind fun _ => .pure _
    rw [heapObjects_withSlots]
    rfl

theorem ignores_clearHeap : Ignorant clearHeap :=
  .get_bind (fun _ _ => rfl) fun _ => (ignores_zero _ _).bind fun _ =>
    ignores_modify fun _ _ => rfl

theorem ignores_poke (address : Nat) (value : UInt8) :
    Ignorant (Attempt.always fun memory => memory.poke address value) :=
  fun _ slots => ⟨slots, rfl⟩

/-! ### The program -/

theorem ignores_moveBlock (source length destination : Nat) :
    Ignorant (moveBlock source length destination) := by
  refine .get_bind (fun _ _ => rfl) fun memory => .ite (.throw _) (.ite ?_ (.pure _))
  exact (Attempt.Ignores.orFault _).bind fun _ => ignores_write _ _

theorem ignores_clearProgram : Ignorant clearProgram :=
  .get_bind (fun _ _ => rfl) fun _ => (ignores_zero _ _).bind fun _ =>
    .of_modify fun _ slots => ⟨slots.clear, rfl⟩

theorem ignores_loadProgram (image : Bytes) : Ignorant (loadProgram image) := by
  refine .get_bind (fun _ _ => rfl) fun _ => .ite (.throw _) ?_
  exact ignores_clearProgram.bind fun _ => (ignores_write _ _).bind fun _ =>
    ignores_modify fun _ _ => rfl

theorem ignores_deleteLine (line : LineNumber) : Ignorant (deleteLine line) := by
  refine .get_bind (fun _ _ => rfl) fun memory => ?_
  split
  · exact .throw _
  · refine (ignores_moveBlock _ _ _).bind fun _ => (ignores_modify fun _ _ => rfl).bind fun _ => ?_
    exact ignores_zero _ _

theorem ignores_replaceRecord (oldTop length start stop : Nat) :
    Ignorant (replaceRecord oldTop length start stop) := by
  have ends : Ignorant (modify fun memory =>
      { memory with top := oldTop + length - (stop - start) } : Attempt Memory Unit) :=
    ignores_modify fun _ _ => rfl
  refine .ite ?_ ?_
  · exact (ignores_moveBlock _ _ _).bind fun _ => (ignores_moveBlock _ _ _).bind fun _ => ends
  · refine (ignores_moveBlock _ _ _).bind fun _ => .ite ?_ ends
    exact (ignores_moveBlock _ _ _).bind fun _ => ends

theorem ignores_insertRecord (oldTop length start : Nat) :
    Ignorant (insertRecord oldTop length start) :=
  (ignores_moveBlock _ _ _).bind fun _ => (ignores_moveBlock _ _ _).bind fun _ =>
    ignores_modify fun _ _ => rfl

/-- **Storing a line does the same whatever lines are remembered.** -/
theorem ignores_storeLine (line : LineNumber) (body : List Token) :
    Ignorant (storeLine line body) := by
  refine .ite (.throw _) ?_
  have ends (stop : Nat) : Ignorant (do zero (← get).top stop : Attempt Memory Unit) :=
    .get_bind (fun _ _ => rfl) fun _ => ignores_zero _ _
  refine Attempt.Ignores.bind (.of_modify fun _ slots => ⟨slots.clear, rfl⟩) fun _ => ?_
  refine .ite (ignores_deleteLine line) (.get_bind (fun _ _ => rfl) fun memory => ?_)
  refine (Attempt.Ignores.lift _).bind fun record => .ite (.throw _) ?_
  refine (ignores_write _ _).bind fun _ => (ignores_modify fun _ _ => rfl).bind fun _ => ?_
  dsimp only
  split
  · exact (ignores_replaceRecord _ _ _ _).bind fun _ => ends _
  · exact .ite ((ignores_insertRecord _ _ _).bind fun _ => ends _) (ends _)

/-! ### Lookups -/

variable {memory : Memory}

/-- **Where lines are remembered truly, a lookup finds the same.** -/
theorem findLine_withSlots (slots : LineCache) (line : LineNumber) (truly : memory.TellsTruly)
    (others : (memory.withSlots slots).TellsTruly) : ∃ kept,
      (memory.withSlots slots).findLine line =
        ((memory.findLine line).1, (memory.findLine line).2.withSlots kept) := by
  have same : ((memory.withSlots slots).findLine line).1 = (memory.findLine line).1 :=
    (others.findLine_fst line).trans (truly.findLine_fst line).symm
  have keeps (memory : Memory) : (memory.findLine line).2 =
      memory.withSlots (memory.findLine line).2.lineCache := by
    rw [findLine]
    split
    · rfl
    · split
      · rfl
      · rfl
  refine ⟨((memory.withSlots slots).findLine line).2.lineCache, Prod.ext same ?_⟩
  show ((memory.withSlots slots).findLine line).2 = _
  rw [keeps (memory.withSlots slots), keeps memory]
  rfl

end Memory

end PocketBasic
