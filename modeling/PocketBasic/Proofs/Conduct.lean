/-
**Conduct of steps**: what a step may do to the state when it succeeds, and how it may fail. A step
made of steps that obey a conduct obeys it too, so a property of a whole program is shown once for
each step that is not made of others.

* `Conduct`: from which state to which a step may go, and with which failure; `Conduct.keeps`: the
  conduct that keeps a property;
* `Attempt.Obeys`: a step obeys a conduct, from every state; `Attempt.ObeysFrom`: from one state;
* `Attempt.Obeys.bind` and the others: one law for each way of building a step;
* `Conduct.Refines`: a conduct that allows less than another one.
-/

import PocketBasic.Proofs.Attempt

namespace PocketBasic

/-- What steps may do. Steps that follow each other may do what one step may do. -/
structure Conduct (σ : Type) where
  /-- Where a step may end when it succeeds. -/
  moves : σ → σ → Prop
  /-- How a step may fail, and where. -/
  fails : σ → Failure → σ → Prop
  refl : ∀ state, moves state state
  trans : ∀ {first second third}, moves first second → moves second third → moves first third
  fails_of_moves : ∀ {first second third failure},
    moves first second → fails second failure third → fails first failure third
  fails_moves : ∀ {first second third failure},
    fails first failure second → moves second third → fails first failure third

/-- The conduct that keeps a property of states, whether steps fail or not. -/
def Conduct.keeps {σ : Type} (holds : σ → Prop) : Conduct σ where
  moves before after := holds before → holds after
  fails before _ after := holds before → holds after
  refl _ := id
  trans first second before := second (first before)
  fails_of_moves first second before := second (first before)
  fails_moves first second before := second (first before)

/-- Whether a step may also end well where it may fail, so that its errors can be caught. -/
def Conduct.Recovers {σ : Type} (conduct : Conduct σ) : Prop :=
  ∀ {before failure after}, conduct.fails before failure after → conduct.moves before after

theorem Conduct.recovers_keeps {σ : Type} {holds : σ → Prop} : (Conduct.keeps holds).Recovers := id

namespace Attempt

variable {σ τ α β : Type} {conduct : Conduct σ} {state : σ}

/-- Whether a step that begins in a state obeys a conduct. -/
def ObeysFrom (conduct : Conduct σ) (state : σ) (step : Attempt σ α) : Prop :=
  match step.runOn state with
  | (.ok _, after) => conduct.moves state after
  | (.error failure, after) => conduct.fails state failure after

/-- Whether a step obeys a conduct. -/
def Obeys (conduct : Conduct σ) (step : Attempt σ α) : Prop :=
  ∀ state, step.ObeysFrom conduct state

theorem obeysFrom_of_ok {step : Attempt σ α} {value : α} {after : σ}
    (ran : step.runOn state = (.ok value, after)) (moves : conduct.moves state after) :
    step.ObeysFrom conduct state := by
  rw [ObeysFrom, ran]
  exact moves

theorem obeysFrom_of_error {step : Attempt σ α} {failure : Failure} {after : σ}
    (ran : step.runOn state = (.error failure, after))
    (fails : conduct.fails state failure after) : step.ObeysFrom conduct state := by
  rw [ObeysFrom, ran]
  exact fails

theorem ObeysFrom.moves {step : Attempt σ α} (obeys : step.ObeysFrom conduct state) {value : α}
    {after : σ} (ran : step.runOn state = (.ok value, after)) : conduct.moves state after := by
  rwa [ObeysFrom, ran] at obeys

theorem ObeysFrom.fails {step : Attempt σ α} (obeys : step.ObeysFrom conduct state)
    {failure : Failure} {after : σ} (ran : step.runOn state = (.error failure, after)) :
    conduct.fails state failure after := by
  rwa [ObeysFrom, ran] at obeys

/-- What obeys a conduct ends where the conduct allows it. -/
theorem ObeysFrom.ends {step : Attempt σ α} (obeys : step.ObeysFrom conduct state) :
    step.Ends state (fun _ after => conduct.moves state after) (conduct.fails state) := by
  rcases ran : step.runOn state with ⟨failure | value, after⟩
  · exact .of_error ran (obeys.fails ran)
  · exact .of_ok ran (obeys.moves ran)

/-- What obeys a conduct later obeys it from the beginning. -/
theorem ObeysFrom.of_moves {step : Attempt σ α} {before : σ} (obeys : step.ObeysFrom conduct state)
    (moves : conduct.moves before state) :
    match step.runOn state with
    | (.ok _, after) => conduct.moves before after
    | (.error failure, after) => conduct.fails before failure after := by
  rcases ran : step.runOn state with ⟨failure | value, after⟩
  · exact conduct.fails_of_moves moves (obeys.fails ran)
  · exact conduct.trans moves (obeys.moves ran)

/-- A step that runs like one from a state that it may go to. -/
theorem ObeysFrom.of_run {step other : Attempt σ α} {before : σ}
    (same : step.runOn before = other.runOn state) (moves : conduct.moves before state)
    (obeys : other.ObeysFrom conduct state) : step.ObeysFrom conduct before := by
  rw [ObeysFrom, same]
  exact obeys.of_moves moves

/-! ### Steps that are not made of others -/

@[simp]
theorem ObeysFrom.pure (value : α) : (pure value : Attempt σ α).ObeysFrom conduct state :=
  conduct.refl state

@[simp]
theorem Obeys.pure (value : α) : (pure value : Attempt σ α).Obeys conduct :=
  fun _ => .pure value

@[simp]
theorem Obeys.get : (get : Attempt σ σ).Obeys conduct := fun state => conduct.refl state

theorem Obeys.modify {change : σ → σ} (moves : ∀ state, conduct.moves state (change state)) :
    (modify change : Attempt σ PUnit).Obeys conduct := moves

/-! ### Steps one after the other -/

/-- The second step begins where the first one ended. -/
theorem ObeysFrom.bind_of_ran {step : Attempt σ α} {next : α → Attempt σ β}
    (first : step.ObeysFrom conduct state)
    (second : ∀ value after, step.runOn state = (.ok value, after) →
      (next value).ObeysFrom conduct after) : (step >>= next).ObeysFrom conduct state := by
  rcases ran : step.runOn state with ⟨failure | value, after⟩
  · exact obeysFrom_of_error (runOn_bind_error ran next) (first.fails ran)
  · rw [ObeysFrom, runOn_bind_ok ran]
    exact (second value after ran).of_moves (first.moves ran)

theorem ObeysFrom.bind {step : Attempt σ α} {next : α → Attempt σ β}
    (first : step.ObeysFrom conduct state) (second : ∀ value, (next value).Obeys conduct) :
    (step >>= next).ObeysFrom conduct state :=
  first.bind_of_ran fun value after _ => second value after

theorem Obeys.bind {step : Attempt σ α} {next : α → Attempt σ β} (first : step.Obeys conduct)
    (second : ∀ value, (next value).Obeys conduct) : (step >>= next).Obeys conduct :=
  fun state => (first state).bind second

theorem Obeys.map {step : Attempt σ α} (obeys : step.Obeys conduct) (change : α → β) :
    (change <$> step).Obeys conduct := by
  rw [← bind_pure_comp]
  exact obeys.bind fun value => .pure (change value)

/-- What follows a look at the state begins in that state. -/
theorem Obeys.get_bind {next : σ → Attempt σ β}
    (second : ∀ state, (next state).ObeysFrom conduct state) :
    (MonadState.get >>= next).Obeys conduct :=
  second

theorem Obeys.ite {condition : Prop} [Decidable condition] {first second : Attempt σ α}
    (holds : first.Obeys conduct) (fails : second.Obeys conduct) :
    (if condition then first else second).Obeys conduct := by
  split
  · exact holds
  · exact fails

theorem ObeysFrom.ite {condition : Prop} [Decidable condition] {first second : Attempt σ α}
    (holds : condition → first.ObeysFrom conduct state)
    (fails : ¬ condition → second.ObeysFrom conduct state) :
    (if condition then first else second).ObeysFrom conduct state := by
  split
  · exact holds ‹_›
  · exact fails ‹_›

/-! ### Steps around others -/

theorem Obeys.ensuring {step : Attempt σ α} (obeys : step.Obeys conduct) {change : σ → σ}
    (moves : ∀ state, conduct.moves state (change state)) :
    (step.ensuring change).Obeys conduct := by
  intro state
  rw [ObeysFrom, Attempt.ensuring, runOn_ofRun]
  rcases ran : step.runOn state with ⟨failure | value, after⟩
  · exact conduct.fails_moves ((obeys state).fails ran) (moves after)
  · exact conduct.trans ((obeys state).moves ran) (moves after)

/-- A step whose errors are results goes as far as the step that had them. -/
theorem ObeysFrom.caught {step : Attempt σ α} (obeys : step.ObeysFrom conduct state) :
    match step.caught.runOn state with
    | (.ok (.ok _), after) => conduct.moves state after
    | (.ok (.error error), after) => conduct.fails state (.reported error) after
    | (.error failure, after) => conduct.fails state failure after := by
  rw [Attempt.caught, runOn_ofRun]
  rcases ran : step.runOn state with ⟨(error | - | - | -) | value, after⟩
  · exact obeys.fails ran
  · exact obeys.fails ran
  · exact obeys.fails ran
  · exact obeys.fails ran
  · exact obeys.moves ran

theorem Obeys.recovered {step : Attempt σ α} (obeys : step.Obeys conduct)
    (recovers : conduct.Recovers) : step.caught.Obeys conduct := by
  intro state
  have caught := (obeys state).caught
  rcases ran : step.caught.runOn state with ⟨failure | (error | value), after⟩
  all_goals rw [ran] at caught
  · exact obeysFrom_of_error ran caught
  · exact obeysFrom_of_ok ran (recovers caught)
  · exact obeysFrom_of_ok ran caught

end Attempt

/-! ### Refinement -/

/-- Whether a conduct allows no more than another one. -/
structure Conduct.Refines {σ : Type} (stricter conduct : Conduct σ) : Prop where
  moves : ∀ {first second}, stricter.moves first second → conduct.moves first second
  fails : ∀ {first second failure},
    stricter.fails first failure second → conduct.fails first failure second

theorem Conduct.Refines.refl {σ : Type} (conduct : Conduct σ) : conduct.Refines conduct :=
  ⟨id, id⟩

theorem Attempt.ObeysFrom.of_refines {σ α : Type} {stricter conduct : Conduct σ} {state : σ}
    {step : Attempt σ α} (obeys : step.ObeysFrom stricter state)
    (refines : stricter.Refines conduct) : step.ObeysFrom conduct state := by
  rcases ran : step.runOn state with ⟨failure | value, after⟩
  · exact Attempt.obeysFrom_of_error ran (refines.fails (obeys.fails ran))
  · exact Attempt.obeysFrom_of_ok ran (refines.moves (obeys.moves ran))

theorem Attempt.Obeys.of_refines {σ α : Type} {stricter conduct : Conduct σ}
    {step : Attempt σ α} (obeys : step.Obeys stricter) (refines : stricter.Refines conduct) :
    step.Obeys conduct := fun state => (obeys state).of_refines refines

end PocketBasic
