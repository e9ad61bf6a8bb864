/-
**Stages of an evaluation.** While an expression is evaluated, four things change: the place in the
text, the operands, the number of open evaluations, and the object that memory looked up last. All
else stays as it was when the evaluation began.

* `Stage`, `Machine.during`: how far an evaluation is, and the machine at that stage;
* `Machine.runOn_token`, `Machine.runOn_push` and the others: what each step does to a stage;
* `Stage.Outcome`: what an evaluation may come to at a stage, for a value and the room it takes;
* `Machine.nested_outcome`: an evaluation one nesting deeper.
-/

import Mathlib.Tactic.Common
import PocketBasic.Machine.Expression
import PocketBasic.Proofs.Attempt
import PocketBasic.Proofs.Expression.Grammar
import PocketBasic.Proofs.Machine.Ahead

namespace PocketBasic

/-! ### Stages -/

/-- How far an evaluation is. -/
structure Stage where
  /-- The tokens that were read since it began. -/
  count : Nat
  /-- The object that was looked up last. -/
  recent : Option (ObjectKind × Name × Extent)
  /-- The operands, newest first. -/
  values : List Single
  /-- The evaluations that are open. -/
  depth : Nat

namespace Stage

/-- A token further. -/
def next (stage : Stage) : Stage := { stage with count := stage.count + 1 }

/-- With another operand. -/
def push (stage : Stage) (value : Single) : Stage :=
  { stage with values := value :: stage.values }

/-- One nesting deeper. -/
def deeper (stage : Stage) : Stage := { stage with depth := stage.depth + 1 }

/-- After some tokens, with another operand for them. -/
def behind (stage : Stage) (length : Nat) (recent : Option (ObjectKind × Name × Extent))
    (value : Single) : Stage :=
  { stage with count := stage.count + length, recent, values := value :: stage.values }

end Stage

namespace Memory

/-- Memory with another object looked up last. -/
def recalling (memory : Memory) (recent : Option (ObjectKind × Name × Extent)) : Memory :=
  { memory with recent }

/-- Looking an object up changes what memory recalls and nothing else. -/
theorem find_recalling (memory : Memory) (recent : Option (ObjectKind × Name × Extent))
    (kind : ObjectKind) (name : Name) :
    ∃ found after,
      (memory.recalling recent).find kind name = (found, memory.recalling after) := by
  simp only [find]
  split
  · exact ⟨_, recent, rfl⟩
  · split
    · exact ⟨_, _, rfl⟩
    · exact ⟨_, recent, rfl⟩

end Memory

namespace Machine

variable (machine : Machine)

/-- The machine at a stage of an evaluation that it began. -/
def during (stage : Stage) : Machine :=
  { machine with
    cursor := machine.cursorAt stage.count
    memory := machine.memory.recalling stage.recent
    operands := { machine.operands with entries := stage.values }
    depth := stage.depth }

/-- The stage at which an evaluation begins. -/
def firstStage : Stage :=
  { count := 0, recent := machine.memory.recent, values := machine.operands.entries
    depth := machine.depth }

@[simp]
theorem during_firstStage : machine.during machine.firstStage = machine := rfl

variable {machine} (stage : Stage)

@[simp]
theorem memory_during :
    (machine.during stage).memory = machine.memory.recalling stage.recent := rfl

/-! ### Steps at a stage -/

@[simp]
theorem runOn_token :
    token.runOn (machine.during stage) =
      (.ok (machine.cursorAt stage.count).token, machine.during stage) := rfl

theorem nextToken_during : (machine.during stage).nextToken = machine.during stage.next := by
  rw [nextToken_eq, during, Stage.next, during, cursorAt_succ]
  rfl

@[simp]
theorem runOn_advance :
    advance.runOn (machine.during stage) = (.ok (), machine.during stage.next) := by
  rw [← nextToken_during]
  rfl

theorem textLength_during : (machine.during stage).textLength = machine.textLength :=
  (textLength_eq _).trans (textLength_cursorAt machine stage.count)

/-- A push onto operands with room. -/
theorem runOn_push {value : Single} (room : stage.values.length < machine.operands.capacity) :
    (push value).runOn (machine.during stage) = (.ok (), machine.during (stage.push value)) := by
  have free : ¬ machine.operands.capacity ≤ stage.values.length := Nat.not_le.mpr room
  simp [push, onOperands, Attempt.within, BoundedStack.push, BoundedStack.isFull,
    BoundedStack.size, during, Stage.push, free]

/-- A push onto full operands. -/
theorem runOn_push_full {value : Single}
    (full : machine.operands.capacity ≤ stage.values.length) :
    (push value).runOn (machine.during stage) =
      (.error (.reported
        { kind := .stackOverflow, detail := machine.operands.overflowDetail }),
        machine.during stage) := by
  simp [push, onOperands, Attempt.within, BoundedStack.push, BoundedStack.isFull,
    BoundedStack.size, during, full]

@[simp]
theorem runOn_pop (value : Single) :
    pop.runOn (machine.during (stage.push value)) = (.ok value, machine.during stage) := rfl

@[simp]
theorem runOn_popPair (left right : Single) :
    (onOperands BoundedStack.popPair).runOn (machine.during ((stage.push left).push right)) =
      (.ok (left, right), machine.during stage) := rfl

/-- An evaluation that cannot be opened. -/
theorem runOn_nested_full {α : Type} {step : Action α}
    (full : machine.config.stackSize ≤ stage.depth) :
    (nested step).runOn (machine.during stage) =
      (.error (.reported { kind := .stackOverflow, detail := "EXPRESSION" }),
        machine.during stage) := by
  have full' : (machine.during stage).config.stackSize ≤ (machine.during stage).depth := full
  simp [nested, checkDepth, Attempt.runOn_bind, full']

/-- An evaluation that can be opened. -/
theorem runOn_nested {α : Type} {step : Action α}
    (room : stage.depth < machine.config.stackSize) :
    (nested step).runOn (machine.during stage) =
      let (result, after) := step.runOn (machine.during stage.deeper)
      (result, { after with depth := after.depth - 1 }) := by
  have free : ¬ (machine.during stage).config.stackSize ≤ (machine.during stage).depth :=
    Nat.not_le.mpr room
  simp only [nested, checkDepth, Attempt.runOn_bind, Attempt.runOn_get, free,
    if_false, Attempt.runOn_pure, Attempt.runOn_modify]
  rfl

/-- A variable is read from memory. -/
theorem runOn_getScalar {name : Name} (ordinary : name.isSpecial = false) :
    ∃ result recent,
      (Memory.scalar name).runOn (machine.memory.recalling stage.recent) =
        (result, machine.memory.recalling recent) ∧
      (getScalar name).runOn (machine.during stage) =
        (result, machine.during { stage with recent }) := by
  obtain ⟨found, after, looked⟩ := machine.memory.find_recalling stage.recent .scalar name
  have inMemory : (Memory.lookup .scalar name).runOn (machine.memory.recalling stage.recent) =
      (.ok found, machine.memory.recalling after) := by
    rw [Memory.lookup, Attempt.runOn_always, looked]
  have inMachine : (lookup .scalar name).runOn (machine.during stage) =
      (.ok found, machine.during { stage with recent := after }) := by
    show (match (Memory.lookup .scalar name).runOn (machine.memory.recalling stage.recent) with
      | (result, memory) => (result, { machine.during stage with memory })) = _
    rw [inMemory]
    rfl
  rw [Memory.scalar, Attempt.runOn_bind_ok inMemory, getScalar, if_neg (by simp [ordinary]),
    storedScalar?, bind_assoc, Attempt.runOn_bind_ok inMachine]
  cases found with
  | none => exact ⟨_, after, rfl, rfl⟩
  | some payload =>
    cases stored : (machine.memory.recalling after).numberAt? payload.start with
    | none =>
      refine ⟨.error .fault, after, ?_, ?_⟩
      · simp [stored]
      · simp [numberAt, stored]
    | some value =>
      refine ⟨.ok value, after, ?_, ?_⟩
      · simp [stored]
      · simp [numberAt, stored]

end Machine

/-! ### Outcomes -/

/-- What an evaluation of `length` tokens may come to at a stage: their value on top of the
operands, the failure of the value, or, when the room is not enough, an overflow. The number of open
evaluations is as before in every case. -/
inductive Stage.Outcome (machine : Machine) (stage : Stage) (length : Nat)
    (value : Attempt Memory Single) (nesting pending : Nat) : Except Failure Unit × Machine → Prop
  | valued {result : Single} {recent : Option (ObjectKind × Name × Extent)}
      (valued : value.runOn (machine.memory.recalling stage.recent) =
        (.ok result, machine.memory.recalling recent))
      (room : stage.values.length < machine.operands.capacity) :
      Stage.Outcome machine stage length value nesting pending
        (.ok (), machine.during (stage.behind length recent result))
  | failed {failure : Failure} {after : Stage}
      (failed : value.runOn (machine.memory.recalling stage.recent) =
        (.error failure, machine.memory.recalling after.recent))
      (level : after.depth = stage.depth) :
      Stage.Outcome machine stage length value nesting pending
        (.error failure, machine.during after)
  | overflowed {detail : String} {after : Stage}
      (tight : machine.config.stackSize < stage.depth + nesting ∨
        machine.operands.capacity < stage.values.length + pending)
      (level : after.depth = stage.depth) :
      Stage.Outcome machine stage length value nesting pending
        (.error (.reported { kind := .stackOverflow, detail }), machine.during after)

namespace Machine

variable {machine : Machine} {stage inner : Stage} {length innerLength : Nat}
  {value innerValue : Attempt Memory Single} {nesting innerNesting pending innerPending : Nat}

/-- An outcome behind a token is an outcome of one token more. -/
theorem outcome_next {reached : Except Failure Unit × Machine}
    (outcome : Stage.Outcome machine stage.next length value nesting pending reached) :
    Stage.Outcome machine stage (length + 1) value nesting pending reached := by
  cases outcome with
  | @valued result recent valued room =>
    have same : stage.next.behind length recent result =
        stage.behind (length + 1) recent result := by
      simp only [Stage.next, Stage.behind, Stage.mk.injEq, and_true]
      omega
    rw [same]
    exact .valued valued room
  | failed failed level => exact .failed failed level
  | overflowed tight level => exact .overflowed tight level

/-- A value that is known is pushed, if there is room. -/
theorem outcome_push {result : Single} {recent : Option (ObjectKind × Name × Extent)}
    (valued : value.runOn (machine.memory.recalling stage.recent) =
      (.ok result, machine.memory.recalling recent)) (some : 0 < pending) :
    Stage.Outcome machine stage length value nesting pending
      ((push result).runOn
        (machine.during { stage with count := stage.count + length, recent })) := by
  let base : Stage := { stage with count := stage.count + length, recent }
  show Stage.Outcome _ _ _ _ _ _ ((push result).runOn (machine.during base))
  by_cases room : stage.values.length < machine.operands.capacity
  · rw [runOn_push base room]
    exact .valued valued room
  · rw [runOn_push_full base (Nat.not_lt.mp room)]
    exact .overflowed (.inr (by omega)) rfl

/-- An evaluation one nesting deeper takes one nesting more. -/
theorem nested_outcome {step : Action Unit}
    (within : stage.depth < machine.config.stackSize →
      Stage.Outcome machine stage.deeper length value nesting pending
        (step.runOn (machine.during stage.deeper))) :
    Stage.Outcome machine stage length value (nesting + 1) pending
      ((nested step).runOn (machine.during stage)) := by
  by_cases room : stage.depth < machine.config.stackSize
  · rw [runOn_nested stage room]
    cases reached : step.runOn (machine.during stage.deeper) with
    | mk result after =>
      have outcome := within room
      rw [reached] at outcome
      cases outcome with
      | valued valued room => exact .valued valued room
      | @failed failure after failed level =>
        exact @Stage.Outcome.failed _ _ _ _ _ _ failure
          { after with depth := after.depth - 1 } failed (by simp [level, Stage.deeper])
      | @overflowed detail after tight level =>
        refine @Stage.Outcome.overflowed _ _ _ _ _ _ detail
          { after with depth := after.depth - 1 } ?_ (by simp [level, Stage.deeper])
        simp only [Stage.deeper] at tight
        omega
  · rw [runOn_nested_full stage (Nat.not_lt.mp room)]
    exact .overflowed (.inl (by omega)) rfl

/-- **An evaluation that goes on after another one.** What fails in the first one fails in both, and
what the first one leaves is where the second one begins. -/
theorem outcome_bind {step : Action Unit} {next : Unit → Action Unit}
    (first : Stage.Outcome machine inner innerLength innerValue innerNesting innerPending
      (step.runOn (machine.during inner)))
    (level : inner.depth = stage.depth)
    (fails : ∀ failure recent,
      innerValue.runOn (machine.memory.recalling inner.recent) =
        (.error failure, machine.memory.recalling recent) →
      value.runOn (machine.memory.recalling stage.recent) =
        (.error failure, machine.memory.recalling recent))
    (nestingLe : innerNesting ≤ nesting)
    (pendingLe : inner.values.length + innerPending ≤ stage.values.length + pending)
    (goesOn : ∀ result recent,
      innerValue.runOn (machine.memory.recalling inner.recent) =
        (.ok result, machine.memory.recalling recent) →
      inner.values.length < machine.operands.capacity →
      Stage.Outcome machine stage length value nesting pending
        ((next ()).runOn (machine.during (inner.behind innerLength recent result)))) :
    Stage.Outcome machine stage length value nesting pending
      ((step >>= next).runOn (machine.during inner)) := by
  rw [Attempt.runOn_bind]
  cases reached : step.runOn (machine.during inner) with
  | mk result after =>
    rw [reached] at first
    cases first with
    | valued valued room => exact goesOn _ _ valued room
    | failed failed same => exact .failed (fails _ _ failed) (same.trans level)
    | overflowed tight same =>
      refine .overflowed ?_ (same.trans level)
      rw [level] at tight
      omega

end Machine

end PocketBasic
