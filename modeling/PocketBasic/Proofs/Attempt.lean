/-
**Running attempts.** What each way of building a step does to a state, as equations for
`Attempt.runOn`, so that a step is followed through its binds without opening the monad.

* `Attempt.runOn_bind`, `Attempt.runOn_pure`, `Attempt.runOn_get` and the others: one equation for
  each constructor of steps;
* `Attempt.runOn_bind_ok`, `Attempt.runOn_bind_error`: a bind whose first step is known;
* `Attempt.Ends`: where a step ends, when not all of it is known;
* `Attempt.Ignores`: steps that do the same on states that are changed in some way.
-/

import PocketBasic.Attempt

namespace PocketBasic.Attempt

variable {σ τ α β : Type}

/-! ### Plain steps -/

@[simp]
theorem runOn_pure (value : α) (state : σ) :
    (pure value : Attempt σ α).runOn state = (.ok value, state) := rfl

@[simp]
theorem runOn_get (state : σ) : (get : Attempt σ σ).runOn state = (.ok state, state) := rfl

@[simp]
theorem runOn_set (state after : σ) :
    (set after : Attempt σ PUnit).runOn state = (.ok ⟨⟩, after) := rfl

@[simp]
theorem runOn_modify (change : σ → σ) (state : σ) :
    (modify change : Attempt σ PUnit).runOn state = (.ok ⟨⟩, change state) := rfl

@[simp]
theorem runOn_throw (failure : Failure) (state : σ) :
    (throw failure : Attempt σ α).runOn state = (.error failure, state) := rfl

@[simp]
theorem runOn_fail (kind : ErrorKind) (state : σ) :
    (fail kind : Attempt σ α).runOn state = (.error (.reported { kind }), state) := rfl

@[simp]
theorem runOn_failWith (kind : ErrorKind) (detail : String) (state : σ) :
    (failWith kind detail : Attempt σ α).runOn state =
      (.error (.reported { kind, detail }), state) := rfl

@[simp]
theorem runOn_ofRun (run : σ → Except Failure α × σ) (state : σ) :
    (ofRun run).runOn state = run state := rfl

@[simp]
theorem runOn_always (step : σ → α × σ) (state : σ) :
    (always step).runOn state = (.ok (step state).1, (step state).2) := rfl

@[simp]
theorem runOn_lift_ok (value : α) (state : σ) :
    (lift (.ok value) : Attempt σ α).runOn state = (.ok value, state) := rfl

@[simp]
theorem runOn_lift_error (error : Error) (state : σ) :
    (lift (.error error) : Attempt σ α).runOn state = (.error (.reported error), state) := rfl

@[simp]
theorem runOn_orFault_some (value : α) (state : σ) :
    (orFault (some value) : Attempt σ α).runOn state = (.ok value, state) := rfl

@[simp]
theorem runOn_orFault_none (state : σ) :
    (orFault none : Attempt σ α).runOn state = (.error .fault, state) := rfl

@[simp]
theorem runOn_orFail_some (kind : ErrorKind) (value : α) (state : σ) :
    (orFail kind (some value) : Attempt σ α).runOn state = (.ok value, state) := rfl

@[simp]
theorem runOn_orFail_none (kind : ErrorKind) (state : σ) :
    (orFail kind none : Attempt σ α).runOn state = (.error (.reported { kind }), state) := rfl

/-! ### Steps one after the other -/

/-- A bind runs its second step where the first one ended, unless that failed. -/
theorem runOn_bind (step : Attempt σ α) (next : α → Attempt σ β) (state : σ) :
    (step >>= next).runOn state =
      match step.runOn state with
      | (.ok value, after) => (next value).runOn after
      | (.error failure, after) => (.error failure, after) := by
  show (ExceptT.bind step next : Attempt σ β) state = _
  simp only [ExceptT.bind, ExceptT.mk, runOn, Bind.bind, StateT.bind]
  rcases step state with ⟨value | failure, after⟩ <;> rfl

/-- What follows a step that was run. -/
def goOn (reached : Except Failure α × σ) (next : α → Attempt σ β) : Except Failure β × σ :=
  match reached with
  | (.ok value, after) => (next value).runOn after
  | (.error failure, after) => (.error failure, after)

@[simp]
theorem goOn_ok (value : α) (after : σ) (next : α → Attempt σ β) :
    goOn (.ok value, after) next = (next value).runOn after := rfl

@[simp]
theorem goOn_error (failure : Failure) (after : σ) (next : α → Attempt σ β) :
    goOn (.error failure, after) next = (.error failure, after) := rfl

theorem runOn_bind_eq_goOn (step : Attempt σ α) (next : α → Attempt σ β) (state : σ) :
    (step >>= next).runOn state = goOn (step.runOn state) next := runOn_bind step next state

theorem runOn_bind_ok {step : Attempt σ α} {state after : σ} {value : α}
    (ran : step.runOn state = (.ok value, after)) (next : α → Attempt σ β) :
    (step >>= next).runOn state = (next value).runOn after := by
  rw [runOn_bind, ran]

theorem runOn_bind_error {step : Attempt σ α} {state after : σ} {failure : Failure}
    (ran : step.runOn state = (.error failure, after)) (next : α → Attempt σ β) :
    (step >>= next).runOn state = (.error failure, after) := by
  rw [runOn_bind, ran]

/-- A step that does not fail at its end did not fail before. -/
theorem goOn_succeeds {reached : Except Failure α × σ} {next : α → Attempt σ β} {value : β}
    (succeeds : (goOn reached next).1 = .ok value) :
    ∃ first after, reached = (.ok first, after) ∧ ((next first).runOn after).1 = .ok value := by
  rcases reached with ⟨first | failure, after⟩
  · cases succeeds
  · exact ⟨_, after, rfl, succeeds⟩

theorem runOn_bind_succeeds {step : Attempt σ α} {next : α → Attempt σ β} {state : σ} {value : β}
    (succeeds : ((step >>= next).runOn state).1 = .ok value) :
    ∃ first after, step.runOn state = (.ok first, after) ∧
      ((next first).runOn after).1 = .ok value := by
  rw [runOn_bind_eq_goOn] at succeeds
  exact goOn_succeeds succeeds

/-- Where a bind ends well, both steps ended well. -/
theorem exists_of_runOn_bind {step : Attempt σ α} {next : α → Attempt σ β} {state final : σ}
    {value : β} (ran : (step >>= next).runOn state = (.ok value, final)) :
    ∃ first after, step.runOn state = (.ok first, after) ∧
      (next first).runOn after = (.ok value, final) := by
  rw [runOn_bind] at ran
  split at ran
  · exact ⟨_, _, ‹_›, ran⟩
  · cases ran

theorem runOn_bind_ok_iff {step : Attempt σ α} {next : α → Attempt σ β} {state final : σ}
    {value : β} : (step >>= next).runOn state = (.ok value, final) ↔
      ∃ first after, step.runOn state = (.ok first, after) ∧
        (next first).runOn after = (.ok value, final) :=
  ⟨exists_of_runOn_bind, fun ⟨_, _, ran, last⟩ => (runOn_bind_ok ran next).trans last⟩

@[simp]
theorem runOn_get_bind (next : σ → Attempt σ β) (state : σ) :
    (get >>= next : Attempt σ β).runOn state = (next state).runOn state := rfl

@[simp]
theorem runOn_modify_bind (change : σ → σ) (next : PUnit → Attempt σ β) (state : σ) :
    (modify change >>= next : Attempt σ β).runOn state = (next ⟨⟩).runOn (change state) := rfl

@[simp]
theorem runOn_pure_bind (value : α) (next : α → Attempt σ β) (state : σ) :
    (pure value >>= next : Attempt σ β).runOn state = (next value).runOn state := rfl

@[simp]
theorem runOn_ite (condition : Prop) [Decidable condition] (first second : Attempt σ α)
    (state : σ) :
    (if condition then first else second).runOn state =
      if condition then first.runOn state else second.runOn state := by
  split <;> rfl

/-! ### Where steps end -/

/-- Whether a step ends in a value of which something is promised, or in a failure that is
allowed. -/
def Ends (step : Attempt σ α) (state : σ) (promised : α → σ → Prop)
    (allowed : Failure → σ → Prop) : Prop :=
  match step.runOn state with
  | (.ok value, after) => promised value after
  | (.error failure, after) => allowed failure after

section Ends

variable {step : Attempt σ α} {state after : σ} {promised weaker : α → σ → Prop}
  {allowed wider : Failure → σ → Prop}

theorem Ends.of_ok {value : α} (ran : step.runOn state = (.ok value, after))
    (kept : promised value after) : step.Ends state promised allowed := by
  rw [Ends, ran]
  exact kept

theorem Ends.of_error {failure : Failure} (ran : step.runOn state = (.error failure, after))
    (excused : allowed failure after) : step.Ends state promised allowed := by
  rw [Ends, ran]
  exact excused

theorem Ends.kept (ends : step.Ends state promised allowed) {value : α}
    (ran : step.runOn state = (.ok value, after)) : promised value after := by
  rwa [Ends, ran] at ends

theorem Ends.excused (ends : step.Ends state promised allowed) {failure : Failure}
    (ran : step.runOn state = (.error failure, after)) : allowed failure after := by
  rwa [Ends, ran] at ends

theorem Ends.pure {value : α} (kept : promised value state) :
    (Pure.pure value : Attempt σ α).Ends state promised allowed := kept

theorem Ends.unknown (step : Attempt σ α) (state : σ) :
    step.Ends state (fun _ _ => True) fun _ _ => True := by
  rw [Ends]
  split
  · exact trivial
  · exact trivial

theorem Ends.get_bind {next : σ → Attempt σ α} (second : (next state).Ends state promised allowed) :
    (MonadState.get >>= next).Ends state promised allowed := second

theorem Ends.modify_bind {change : σ → σ} {next : PUnit → Attempt σ α}
    (second : (next ⟨⟩).Ends (change state) promised allowed) :
    (modify change >>= next).Ends state promised allowed := second

theorem Ends.ite {condition : Prop} [Decidable condition] {first second : Attempt σ α}
    (holds : condition → first.Ends state promised allowed)
    (fails : ¬ condition → second.Ends state promised allowed) :
    (if condition then first else second).Ends state promised allowed := by
  split
  · exact holds ‹_›
  · exact fails ‹_›

theorem Ends.bind {next : α → Attempt σ β} {last : β → σ → Prop}
    (first : step.Ends state promised allowed)
    (second : ∀ value after, promised value after → (next value).Ends after last allowed) :
    (step >>= next).Ends state last allowed := by
  rw [Ends] at first
  rcases ran : step.runOn state with ⟨failure | value, after⟩
  all_goals rw [ran] at first
  · exact .of_error (runOn_bind_error ran next) first
  · have reached := second value after first
    rwa [Ends, runOn_bind_ok ran]

theorem Ends.ok_bind {next : α → Attempt σ β} {last : β → σ → Prop} {value : α}
    (ran : step.runOn state = (.ok value, after)) (second : (next value).Ends after last allowed) :
    (step >>= next).Ends state last allowed := by
  rwa [Ends, runOn_bind_ok ran]

/-- A step whose errors are results ends where the step ends that had them. -/
theorem Ends.caught (ends : step.Ends state promised allowed) :
    step.caught.Ends state
      (fun result after => match result with
        | .ok value => promised value after
        | .error error => allowed (.reported error) after)
      allowed := by
  rw [Ends] at ends ⊢
  rw [Attempt.caught, runOn_ofRun]
  rcases ran : step.runOn state with ⟨(error | - | - | -) | value, after⟩
  all_goals
    rw [ran] at ends
    exact ends

theorem Ends.mono (ends : step.Ends state promised allowed)
    (weakens : ∀ value after, promised value after → weaker value after)
    (widens : ∀ failure after, allowed failure after → wider failure after) :
    step.Ends state weaker wider := by
  rw [Ends] at ends ⊢
  split
  · rename_i ran
    rw [ran] at ends
    exact weakens _ _ ends
  · rename_i ran
    rw [ran] at ends
    exact widens _ _ ends

end Ends

/-! ### Steps that ignore a change -/

variable {ι : Type} {change : ι → σ → σ}

/-- Whether a step does the same on states that are changed in a certain way, but for a change of
that kind behind it. -/
def Ignores (change : ι → σ → σ) (step : Attempt σ α) : Prop :=
  ∀ state index, ∃ other, step.runOn (change index state) =
    ((step.runOn state).1, change other (step.runOn state).2)

namespace Ignores

theorem pure (value : α) : Ignores change (Pure.pure value : Attempt σ α) :=
  fun _ index => ⟨index, rfl⟩

theorem throw (failure : Failure) : Ignores change (MonadExcept.throw failure : Attempt σ α) :=
  fun _ index => ⟨index, rfl⟩

theorem bind {step : Attempt σ α} {next : α → Attempt σ β} (first : Ignores change step)
    (second : ∀ value, Ignores change (next value)) : Ignores change (step >>= next) := by
  intro state index
  obtain ⟨other, ran⟩ := first state index
  rw [runOn_bind_eq_goOn, runOn_bind_eq_goOn, ran]
  rcases step.runOn state with ⟨failure | value, after⟩
  · exact ⟨other, rfl⟩
  · exact second value after other

theorem ite {condition : Prop} [Decidable condition] {first second : Attempt σ α}
    (holds : Ignores change first) (fails : Ignores change second) :
    Ignores change (if condition then first else second) := by
  split
  · exact holds
  · exact fails

/-- What follows a look at the state, if the change is not what is looked at. -/
theorem get_bind {next : σ → Attempt σ α}
    (same : ∀ state index, next (change index state) = next state)
    (second : ∀ state, Ignores change (next state)) : Ignores change (get >>= next) := by
  intro state index
  rw [runOn_get_bind, runOn_get_bind, same]
  exact second state state index

theorem of_modify {edit : σ → σ}
    (same : ∀ state index, ∃ other, edit (change index state) = change other (edit state)) :
    Ignores change (modify edit : Attempt σ Unit) := by
  intro state index
  obtain ⟨other, edited⟩ := same state index
  exact ⟨other, congrArg (Prod.mk _) edited⟩

theorem lift (result : Except Error α) : Ignores change (Attempt.lift result) := by
  cases result with
  | ok value => exact .pure value
  | error error => exact .throw _

theorem orFault (value : Option α) : Ignores change (Attempt.orFault value) := by
  cases value with
  | some value => exact .pure value
  | none => exact .throw _

theorem orFail (kind : ErrorKind) (value : Option α) :
    Ignores change (Attempt.orFail kind value) := by
  cases value with
  | some value => exact .pure value
  | none => exact .throw _

end Ignores

end PocketBasic.Attempt
