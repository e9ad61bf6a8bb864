/-
**Runs that leave something out.** A run in which no forbidden statement begins is the run of a
machine that would stall there, so what everything else keeps is kept by the run; the same for runs
in which no refused statement begins and no refused error is reported.

* `Machine.stepUnless`, `Machine.executeUnless`: running, but stalling where a statement begins that
  is forbidden there; `Machine.stepWithout`, `Machine.executeWithout`: the same for hazards;
* `Machine.ReachesUnless`, `Machine.Reaches`: where a host can bring a machine in such runs;
* `Machine.DispatchesUnless`: where a statement has been done, and timers and pins may fire;
* `Machine.fires`, `Machine.fired`: which of the timers fires there, and the machine that it leaves;
* `Machine.IsCongruent`: a relation between steps that what surrounds them keeps;
* **`Machine.execute_of_executeUnless`**, **`Machine.execute_of_executeWithout`**: such runs are
  runs of the machine; `Machine.executeWithout_nil`: without hazards all of them are;
* **`Machine.obeys_stepUnless`**, **`Machine.obeysFrom_unwind`**, **`Machine.obeys_enter`**: what
  statements obey is obeyed by a step of a run, by what an error does, and by entering a line;
* **`Machine.holds_of_reachesUnless`**: what all of them keep holds wherever a host brings a
  machine.
-/

import PocketBasic.Machine.Run
import PocketBasic.Proofs.Machine.Executing

namespace PocketBasic.Machine

variable {α β : Type} {forbids : Machine → Bool} {refused : List Hazard} {machine : Machine}

/-! ### Runs by steps -/

/-- Does at most `cycles` steps of one kind. -/
def runBy (step : Action Bool) : Nat → Action Outcome
  | 0 => return .running
  | cycles + 1 => do
    match ← Attempt.caught step with
    | .ok true => runBy step cycles
    | .ok false => finish
    | .error error =>
      match ← unwind error with
      | some outcome => return outcome
      | none => runBy step cycles

/-- Lets the machine do at most `cycles` steps of one kind. -/
def executeBy (step : Action Bool) (cycles : Nat) : Action Outcome := do
  let machine ← get
  match machine.pending with
  | some error =>
    set { machine with pending := none }
    return .failed error
  | none => if machine.isIdle then return .stopped else runBy step cycles

theorem run_eq (cycles : Nat) : run cycles = runBy step cycles := by
  induction cycles with
  | zero => rfl
  | succ cycles ih =>
    conv_lhs => rw [run, ih]
    rfl

theorem execute_eq (cycles : Nat) : execute cycles = executeBy step cycles := by
  conv_lhs => rw [execute, run_eq]
  rfl

/-! ### Runs that stall where something is forbidden -/

/-- Does a statement, if there is another one, and stalls where a forbidden one would begin. -/
def stepUnless (forbids : Machine → Bool) : Action Bool := do
  if ← findStatementWithin ((← get).textLength + 2) then
    modify fun machine => { machine with statementStart := machine.cursor.location }
    statementUnless forbids
    if !(← atEnd) then Attempt.fail .syntaxError
    checkpoint
    return true
  else return false

/-- Lets the machine do at most `cycles` statements, and stalls where a forbidden one would
begin. -/
def executeUnless (forbids : Machine → Bool) : Nat → Action Outcome :=
  executeBy (stepUnless forbids)

/-- Whether a host can bring one machine to another one. It enters lines, lets the machine do
statements of which none begins where it is forbidden, and, if the machine may start `again`, starts
the stored program and switches the machine off and on; in between its devices do what they want. -/
inductive ReachesUnless (forbids : Machine → Bool) (again : Prop) (first : Machine) : Machine → Prop
  | refl : ReachesUnless forbids again first first
  | devices {machine : Machine} (host : Host) :
    ReachesUnless forbids again first machine →
      ReachesUnless forbids again first { machine with host }
  | enter {machine : Machine} (text : Bytes) :
    ReachesUnless forbids again first machine →
      ReachesUnless forbids again first ((enter text).runOn machine).2
  | execute {machine after : Machine} {cycles : Nat} {outcome : Outcome} :
    ReachesUnless forbids again first machine →
    (executeUnless forbids cycles).runOn machine = (.ok outcome, after) →
      ReachesUnless forbids again first after
  | autorun {machine : Machine} (starts : again) :
    ReachesUnless forbids again first machine →
      ReachesUnless forbids again first (autorun.runOn machine).2
  | restart {machine : Machine} (starts : again) :
    ReachesUnless forbids again first machine →
      ReachesUnless forbids again first machine.restart

/-! ### Where timers and pins may fire -/

/-- What happens between two statements before timers and pins fire; tells whether they may. -/
def approach : Action Bool := do
  yield
  if ← breakRequested then Attempt.fail .interrupted
  else
    let cursor := (← get).cursor
    return cursor.mode ≠ .interactive && cursor.token.isTerminator && cursor.token ≠ .endOfText

theorem checkpoint_eq :
    checkpoint = approach >>= fun mayFire => if mayFire then dispatch else pure () := by
  unfold checkpoint approach
  simp only [bind_assoc]
  congr 1
  funext _
  congr 1
  funext broken
  cases broken
  · simp
  · rfl

/-- Does a statement, if there is another one, before timers and pins fire; tells whether there was
one, and whether they may. -/
def stepToDispatch (forbids : Machine → Bool) : Action (Option Bool) := do
  if ← findStatementWithin ((← get).textLength + 2) then
    modify fun machine => { machine with statementStart := machine.cursor.location }
    statementUnless forbids
    if !(← atEnd) then Attempt.fail .syntaxError
    return some (← approach)
  else return none

/-- **A step is what it does before timers and pins fire, and their firing.** -/
theorem stepUnless_eq (forbids : Machine → Bool) :
    stepUnless forbids = stepToDispatch forbids >>= fun reached =>
      match reached with
      | some mayFire => (if mayFire then dispatch else pure ()) >>= fun _ => pure true
      | none => pure false := by
  have rest : (do
      checkpoint
      return true : Action Bool) = (do return some (← approach) : Action (Option Bool)) >>=
        fun reached => match reached with
          | some mayFire => (if mayFire then dispatch else pure ()) >>= fun _ => pure true
          | none => pure false := by
    rw [checkpoint_eq]
    simp only [bind_assoc, pure_bind]
  unfold stepUnless stepToDispatch
  simp only [bind_assoc]
  congr 1
  funext machine
  congr 1
  funext found
  cases found
  · rfl
  · simp only [if_true, bind_assoc]
    congr 1
    funext _
    congr 1
    funext _
    congr 1
    funext ends
    cases ends
    · rfl
    · exact rest

/-- Whether a step of a machine, in which no statement begins where it is forbidden, comes to
another machine in which timers and pins fire. -/
def DispatchesUnless (forbids : Machine → Bool) (machine moment : Machine) : Prop :=
  (stepToDispatch forbids).runOn machine = (.ok (some true), moment)

/-- Whether one of the timers fires where a machine fires what is due. The timer that fires once
goes first. -/
def fires (repeats : Bool) (machine : Machine) : Bool :=
  let isDue (repeats : Bool) := (machine.timer repeats).isDue machine.host.millis
  if repeats then !isDue false && isDue true else isDue false

/-- The machine with one of the timers fired: the one that fires once is off, the other one begins
anew. -/
def fired (repeats : Bool) (machine : Machine) : Machine :=
  let timer := machine.timer repeats
  machine.withTimer repeats
    (if repeats then { timer with last := machine.host.millis } else timer.disabled)

/-! ### Runs that stall at hazards -/

/-- Does a statement, if there is another one, and stalls where a refused one would begin. -/
def stepRefusing (refused : List Hazard) : Action Bool := do
  if ← findStatementWithin ((← get).textLength + 2) then
    modify fun machine => { machine with statementStart := machine.cursor.location }
    statementWithout refused
    if !(← atEnd) then Attempt.fail .syntaxError
    checkpoint
    return true
  else return false

/-- Whether an error is refused that a statement reports and leaves a machine with. -/
def refusesError (refused : List Hazard) (error : Error) (machine : Machine) : Bool :=
  .heldError ∈ refused && error.kind ≠ .interrupted && !machine.pins.isEnabled

/-- Stalls where a refused error would be reported. -/
def refusingErrors (refused : List Hazard) (step : Action α) : Action α :=
  Attempt.ofRun fun machine =>
    match step.runOn machine with
    | (.error (.reported error), after) =>
      if refusesError refused error after then (.error .stalled, after)
      else (.error (.reported error), after)
    | reached => reached

/-- Does a statement, if there is another one, and stalls at what is refused. -/
def stepWithout (refused : List Hazard) : Action Bool :=
  refusingErrors refused (stepRefusing refused)

/-- Does at most `cycles` statements. -/
def runWithout (refused : List Hazard) : Nat → Action Outcome
  | 0 => return .running
  | cycles + 1 => do
    match ← Attempt.caught (stepWithout refused) with
    | .ok true => runWithout refused cycles
    | .ok false => finish
    | .error error =>
      match ← unwind error with
      | some outcome => return outcome
      | none => runWithout refused cycles

/-- Lets the machine do at most `cycles` statements. -/
def executeWithout (refused : List Hazard) (cycles : Nat) : Action Outcome := do
  let machine ← get
  match machine.pending with
  | some error =>
    set { machine with pending := none }
    return .failed error
  | none => if machine.isIdle then return .stopped else runWithout refused cycles

/-- Whether a host can bring one machine to another one. It enters lines, lets the machine do
statements among which nothing refused happens, starts the stored program, and switches the machine
off and on; in between its devices do what they want. -/
inductive Reaches (refused : List Hazard) (first : Machine) : Machine → Prop
  | refl : Reaches refused first first
  | devices {machine : Machine} (host : Host) :
    Reaches refused first machine → Reaches refused first { machine with host }
  | enter {machine : Machine} (text : Bytes) :
    Reaches refused first machine → Reaches refused first ((enter text).runOn machine).2
  | execute {machine after : Machine} {cycles : Nat} {outcome : Outcome} :
    Reaches refused first machine →
    (executeWithout refused cycles).runOn machine = (.ok outcome, after) →
      Reaches refused first after
  | autorun {machine : Machine} :
    Reaches refused first machine → Reaches refused first (autorun.runOn machine).2
  | restart {machine : Machine} :
    Reaches refused first machine → Reaches refused first machine.restart

/-! ### Stalling and nothing else -/

/-- Branches are related as what they choose from. -/
theorem related_ite {related : Action α → Action α → Prop} {condition : Prop} [Decidable condition]
    {first second third fourth : Action α} (holds : related first third)
    (fails : related second fourth) :
    related (if condition then first else second) (if condition then third else fourth) := by
  split
  · exact holds
  · exact fails

/-- Whether a step does what another one does, or else stalls. -/
def StallsOrDoes (step other : Action α) : Prop :=
  ∀ machine, step.runOn machine = other.runOn machine ∨ (step.runOn machine).1 = .error .stalled

theorem StallsOrDoes.refl (step : Action α) : StallsOrDoes step step := fun _ => .inl rfl

theorem StallsOrDoes.bind {step other : Action α} {next others : α → Action β}
    (first : StallsOrDoes step other) (second : ∀ value, StallsOrDoes (next value) (others value)) :
    StallsOrDoes (step >>= next) (other >>= others) := by
  intro machine
  rcases first machine with same | stalled
  · rcases ran : other.runOn machine with ⟨failure | value, after⟩
    all_goals rw [ran] at same
    · exact .inl (by rw [Attempt.runOn_bind_error same, Attempt.runOn_bind_error ran])
    · rw [Attempt.runOn_bind_ok same, Attempt.runOn_bind_ok ran]
      exact second value after
  · rcases ran : step.runOn machine with ⟨failure | value, after⟩
    all_goals
      rw [ran] at stalled
      cases stalled
    exact .inr (by rw [Attempt.runOn_bind_error ran])

theorem StallsOrDoes.behind {step : Action α} {next others : α → Action β}
    (second : ∀ value, StallsOrDoes (next value) (others value)) :
    StallsOrDoes (step >>= next) (step >>= others) := .bind (.refl step) second

theorem StallsOrDoes.trans {step other last : Action α} (first : StallsOrDoes step other)
    (second : StallsOrDoes other last) : StallsOrDoes step last := by
  intro machine
  rcases first machine with same | stalled
  · rw [same]
    exact second machine
  · exact .inr stalled

/-- Catching errors of the language does not catch stalling. -/
theorem StallsOrDoes.caught {step other : Action α} (steps : StallsOrDoes step other) :
    StallsOrDoes step.caught other.caught := by
  intro machine
  rw [Attempt.caught, Attempt.caught, Attempt.runOn_ofRun, Attempt.runOn_ofRun]
  rcases steps machine with same | stalled
  · exact .inl (by rw [same])
  · rcases ran : step.runOn machine with ⟨failure | value, after⟩
    all_goals
      rw [ran] at stalled
      cases stalled
    exact .inr rfl

/-- Whether a relation between steps is kept by what surrounds them, if that obeys a conduct. -/
structure IsCongruent (conduct : Conduct Machine) (related : Action Unit → Action Unit → Prop) :
    Prop where
  refl : ∀ step, related step step
  behind : ∀ {α : Type} {step : Action α} {next others : α → Action Unit}, step.Obeys conduct →
    (∀ value, related (next value) (others value)) → related (step >>= next) (step >>= others)

namespace IsCongruent

variable {conduct : Conduct Machine} {related : Action Unit → Action Unit → Prop}
  (congruent : IsCongruent conduct related) {statement other : Action Unit}
  (same : related statement other)

include congruent same

theorem branch : related (Machine.branch statement) (Machine.branch other) := by
  refine congruent.behind obeys_token fun token => ?_
  split
  · exact congruent.refl _
  · exact related_ite (congruent.refl _) same

variable [conduct.Remains]

theorem alternative : related (Machine.alternative statement) (Machine.alternative other) := by
  refine congruent.behind obeys_token fun _ => related_ite ?_ (congruent.refl _)
  exact congruent.behind obeys_advance fun _ => congruent.branch same

theorem ifStatement : related (Machine.ifStatement statement) (Machine.ifStatement other) := by
  have choose (condition : Single) : related
      (do
        if !condition.equals Single.zero then Machine.branch statement
        else
          if (← token).isWord .do then skipBlock
          else modify (skipTo fun token => token.endsLine || token.isWord .else)
          Machine.alternative statement)
      (do
        if !condition.equals Single.zero then Machine.branch other
        else
          if (← token).isWord .do then skipBlock
          else modify (skipTo fun token => token.endsLine || token.isWord .else)
          Machine.alternative other) := by
    refine related_ite (congruent.branch same) (congruent.behind obeys_token fun _ => ?_)
    refine related_ite ?_ ?_
    · exact congruent.behind obeys_skipBlock fun _ => congruent.alternative same
    · exact congruent.behind (obeys_skipTo _) fun _ => congruent.alternative same
  refine congruent.behind obeys_advance fun _ => congruent.behind obeys_value fun condition => ?_
  refine congruent.behind obeys_token fun _ => related_ite ?_ (choose condition)
  exact congruent.behind obeys_advance fun _ => choose condition

/-- **Statements are related as the ones are that are nested in them.** -/
theorem statementWith :
    related (Machine.statementWith statement) (Machine.statementWith other) := by
  refine congruent.behind obeys_token fun token => ?_
  split
  · rename_i word
    cases word
    case «if» => exact congruent.ifStatement same
    all_goals exact congruent.refl _
  all_goals exact congruent.refl _

end IsCongruent

instance : (Conduct.keeps fun _ : Machine => True).Jumps where
  evaluates := IsApart.evaluates fun _ _ _ _ _ _ _ _ _ _ _ _ => id
  moves_registers _ := id
  moves_host _ _ := id
  moves_loops _ _ := id
  fails_full _ := id
  fails_empty _ := id
  findLine _ _ := id

theorem isCongruent_stallsOrDoes : IsCongruent (.keeps fun _ => True) StallsOrDoes :=
  ⟨.refl, fun _ => .behind⟩

theorem stallsOrDoes_statementWithin (forbids : Machine → Bool) (fuel : Nat) :
    StallsOrDoes (statementUnlessWithin forbids fuel) (statementWithin fuel) := by
  induction fuel with
  | zero => exact .refl _
  | succ fuel ih =>
    intro machine
    rw [statementUnlessWithin, Attempt.runOn_get_bind]
    split
    · exact .inr rfl
    · exact isCongruent_stallsOrDoes.statementWith ih machine

theorem stallsOrDoes_statement (forbids : Machine → Bool) :
    StallsOrDoes (statementUnless forbids) statement :=
  .behind fun _ => stallsOrDoes_statementWithin forbids _

theorem stallsOrDoes_stepUnless (forbids : Machine → Bool) :
    StallsOrDoes (stepUnless forbids) step := by
  refine .behind fun _ => .behind fun _ => related_ite (.behind fun _ => ?_) (.refl _)
  exact (stallsOrDoes_statement forbids).bind fun _ => .refl _

theorem stallsOrDoes_runBy {step other : Action Bool} (steps : StallsOrDoes step other)
    (cycles : Nat) : StallsOrDoes (runBy step cycles) (runBy other cycles) := by
  induction cycles with
  | zero => exact .refl _
  | succ cycles ih =>
    refine steps.caught.bind fun result => ?_
    split
    · exact ih
    · exact .refl _
    · refine .behind fun outcome => ?_
      split
      · exact .refl _
      · exact ih

theorem stallsOrDoes_executeBy {step other : Action Bool} (steps : StallsOrDoes step other)
    (cycles : Nat) : StallsOrDoes (executeBy step cycles) (executeBy other cycles) := by
  refine .behind fun machine => ?_
  cases machine.pending with
  | some error => exact .refl _
  | none => exact related_ite (.refl _) (stallsOrDoes_runBy steps cycles)

/-- What a run does that comes to an end, another one does that would at most not have stalled. -/
theorem StallsOrDoes.ran {step other : Action α} (same : StallsOrDoes step other) {value : α}
    {after : Machine} (ran : step.runOn machine = (.ok value, after)) :
    other.runOn machine = (.ok value, after) := by
  rcases same machine with does | stalls
  · rw [← does, ran]
  · rw [ran] at stalls
    cases stalls

/-- **A run that comes to an end without forbidden statements is a run of the machine.** -/
theorem execute_of_executeUnless {after : Machine} {cycles : Nat} {outcome : Outcome}
    (ran : (executeUnless forbids cycles).runOn machine = (.ok outcome, after)) :
    (execute cycles).runOn machine = (.ok outcome, after) := by
  rw [execute_eq]
  exact (stallsOrDoes_executeBy (stallsOrDoes_stepUnless forbids) cycles).ran ran

/-- Where a run without forbidden statements leaves the machine, a host can bring it. -/
theorem ReachesUnless.execute_of_isSome {again : Prop} {first : Machine}
    (reaches : ReachesUnless forbids again first machine) {cycles : Nat}
    (ends : ((executeUnless forbids cycles).runOn machine).1.toOption.isSome = true) :
    ReachesUnless forbids again first ((Machine.execute cycles).runOn machine).2 := by
  rcases ran : (executeUnless forbids cycles).runOn machine with ⟨failure | outcome, after⟩
  · rw [ran] at ends
    cases ends
  · rw [execute_of_executeUnless ran]
    exact reaches.execute ran

/-- Where a step leaves the machine in which timers and pins may fire, it dispatches. -/
theorem dispatchesUnless_of_mayFire
    (fires : ((stepToDispatch forbids).runOn machine).1.toOption = some (some true)) :
    DispatchesUnless forbids machine ((stepToDispatch forbids).runOn machine).2 := by
  unfold DispatchesUnless
  rcases ran : (stepToDispatch forbids).runOn machine with ⟨failure | mayFire, moment⟩
  all_goals
    rw [ran] at fires
    cases fires
  rfl

/-! ### Stalling nowhere -/

theorem statementUnless_none : statementUnless (fun _ => false) = statement := by
  have same (fuel : Nat) : statementUnlessWithin (fun _ => false) fuel = statementWithin fuel := by
    induction fuel with
    | zero => rfl
    | succ fuel ih =>
      rw [statementUnlessWithin, statementWithin, ih]
      rfl
  unfold statementUnless statement
  simp only [same]

/-- A step without forbidden statements is what a run does. -/
theorem stepUnless_none : stepUnless (fun _ => false) = step := by
  rw [stepUnless, statementUnless_none, step]

/-! ### Stalling at hazards -/

/-- Doing a statement without the refused ones is doing one where those are forbidden. -/
theorem stepRefusing_eq (refused : List Hazard) :
    stepRefusing refused = stepUnless (refuses refused) := by
  have same : statementWithout refused = statementUnless (refuses refused) := by
    unfold statementWithout statementUnless
    simp only [statementWithoutWithin_eq]
  rw [stepRefusing, stepUnless, same]

theorem runWithout_eq (refused : List Hazard) (cycles : Nat) :
    runWithout refused cycles = runBy (stepWithout refused) cycles := by
  induction cycles with
  | zero => rfl
  | succ cycles ih =>
    rw [runWithout, runBy, ih]

theorem executeWithout_eq (refused : List Hazard) (cycles : Nat) :
    executeWithout refused cycles = executeBy (stepWithout refused) cycles := by
  rw [executeWithout, executeBy, runWithout_eq]

theorem stallsOrDoes_refusingErrors (refused : List Hazard) (step : Action α) :
    StallsOrDoes (refusingErrors refused step) step := by
  intro machine
  rw [refusingErrors, Attempt.runOn_ofRun]
  rcases step.runOn machine with ⟨(error | - | - | -) | value, after⟩
  · dsimp only
    split
    · exact .inr rfl
    · exact .inl rfl
  all_goals exact .inl rfl

/-- Where no errors are refused, none stalls. -/
theorem refusingErrors_eq (allowed : .heldError ∉ refused) (step : Action α) :
    refusingErrors refused step = step := by
  funext machine
  show (refusingErrors refused step).runOn machine = step.runOn machine
  rw [refusingErrors, Attempt.runOn_ofRun]
  rcases step.runOn machine with ⟨(error | - | - | -) | value, after⟩
  · simp [refusesError, allowed]
  all_goals rfl

/-- **Where nothing is refused, running is what the machine does.** -/
theorem executeWithout_nil (cycles : Nat) : executeWithout [] cycles = execute cycles := by
  have never : refuses [] = fun _ => false := by
    funext machine
    simp [refuses]
  have steps : stepWithout [] = step := by
    rw [stepWithout, refusingErrors_eq List.not_mem_nil, stepRefusing_eq, never, stepUnless_none]
  rw [executeWithout_eq, steps, execute_eq]

theorem stallsOrDoes_stepWithout (refused : List Hazard) :
    StallsOrDoes (stepWithout refused) step := by
  refine (stallsOrDoes_refusingErrors refused _).trans ?_
  rw [stepRefusing_eq]
  exact stallsOrDoes_stepUnless _

/-- **A run that comes to an end without refused events is a run of the machine.** -/
theorem execute_of_executeWithout {after : Machine} {cycles : Nat} {outcome : Outcome}
    (ran : (executeWithout refused cycles).runOn machine = (.ok outcome, after)) :
    (execute cycles).runOn machine = (.ok outcome, after) := by
  rw [executeWithout_eq] at ran
  rw [execute_eq]
  exact (stallsOrDoes_executeBy (stallsOrDoes_stepWithout refused) cycles).ran ran

/-- Where a run without refused events leaves the machine, a host can bring it. -/
theorem Reaches.execute_of_isSome {first : Machine} (reaches : Reaches refused first machine)
    {cycles : Nat}
    (ends : ((executeWithout refused cycles).runOn machine).1.toOption.isSome = true) :
    Reaches refused first ((Machine.execute cycles).runOn machine).2 := by
  rcases ran : (executeWithout refused cycles).runOn machine with ⟨failure | outcome, after⟩
  · rw [ran] at ends
    cases ends
  · rw [execute_of_executeWithout ran]
    exact reaches.execute ran

/-! ### Conduct of runs -/

section Conduct

variable {conduct : Conduct Machine} [lawful : conduct.Performs]

theorem obeys_findStatementWithin (fuel : Nat) : (findStatementWithin fuel).Obeys conduct := by
  induction fuel with
  | zero => exact obeys_stalled
  | succ fuel ih =>
    refine obeys_token.bind fun token => ?_
    split
    · exact .pure _
    · exact obeys_advance.bind fun _ => ih
    · refine Attempt.Obeys.get.bind fun _ => .ite ?_ (obeys_advance.bind fun _ => ih)
      exact (obeys_write _).bind fun _ => obeys_advance.bind fun _ => ih
    · exact .pure _

variable {weaker : Conduct Machine}

omit lawful in
/-- What is done about a response, if there is one. -/
theorem obeys_answer {answer : Response → Action Unit}
    (answers : ∀ response, (answer response).Obeys conduct) (response : Option Response) :
    (match response with
      | some response => answer response
      | none => return () : Action Unit).Obeys conduct := by
  cases response with
  | none => exact .pure _
  | some response => exact answers response

omit lawful in
/-- **Serving a pin obeys what lets pins change and subroutines begin.** -/
theorem obeys_servePins [goes : conduct.Goes] [diverts : conduct.Diverts] :
    servePins.Obeys conduct := by
  refine .get_bind fun machine => .ite (fun _ => ?_) fun _ => .pure _
  have polled : conduct.moves machine
      { machine with
        pins := (machine.pins.poll machine.host.signals).1.take.2
        host := { machine.host with signals := (machine.pins.poll machine.host.signals).2 } } :=
    conduct.trans (goes.moves_host machine (machine.host.keepsInterrupts_poll machine.pins))
      (diverts.moves_pins _ _)
  refine .bind polled fun _ => obeys_answer (fun response => ?_) _
  cases response with
  | goto line => exact obeys_gotoLine line
  | gosub line =>
    refine (obeys_enablePins false).bind fun _ => obeys_location.bind fun resume => ?_
    exact (obeys_pushReturn _).bind fun _ => obeys_gotoLine line

omit lawful in
/-- **Firing what is due obeys what serving a pin does**, if the timers that fire may. -/
theorem obeysFrom_dispatch [departs : conduct.Departs] (refines : conduct.Refines weaker)
    (fires : ∀ repeats, machine.fires repeats = true →
      conduct.moves machine (machine.fired repeats))
    (serves : servePins.Obeys weaker) : dispatch.ObeysFrom weaker machine := by
  have sets (repeats : Bool) (due : machine.fires repeats = true) :
      (set (machine.fired repeats) : Action Unit).ObeysFrom conduct machine := fires repeats due
  have answers (repeats : Bool) (due : machine.fires repeats = true) (response : Option Response) :=
    ((sets repeats due).bind fun _ => obeys_answer departs.respond response).of_refines refines
  refine (Attempt.Obeys.get machine).bind_of_ran fun _ after ran => ?_
  cases ran
  refine .ite (fun due => answers false due _) fun early => .ite (fun due => ?_) fun _ =>
    serves machine
  exact answers true (by simpa [Machine.fires, timer] using ⟨by simpa using early, due⟩) _

omit lawful in
theorem obeys_dispatch [conduct.Departs] [sets : ∀ repeats, conduct.SetsTimer repeats]
    (refines : conduct.Refines weaker) (serves : servePins.Obeys weaker) :
    dispatch.Obeys weaker := fun machine =>
  obeysFrom_dispatch refines (fun repeats _ => (sets repeats).moves_timer machine _) serves

theorem obeys_approach : approach.Obeys conduct := by
  refine obeys_yield.bind fun _ => obeys_unlessBroken ?_
  exact Attempt.Obeys.get.bind fun _ => .pure _

theorem obeys_checkpoint [conduct.Departs] [∀ repeats, conduct.SetsTimer repeats]
    (refines : conduct.Refines weaker) (serves : servePins.Obeys weaker) :
    checkpoint.Obeys weaker := by
  rw [checkpoint_eq]
  refine (obeys_approach.of_refines refines).bind fun mayFire => ?_
  exact .ite (obeys_dispatch refines serves) (.pure _)

/-- What a step does once a statement has begun, before timers and pins fire. -/
def statementToDispatch (forbids : Machine → Bool) : Action (Option Bool) := do
  statementUnless forbids
  if !(← atEnd) then Attempt.fail .syntaxError
  return some (← approach)

/-- What a statement does obeys a conduct that allows what statements are made of. -/
theorem obeys_statementToDispatch : (statementToDispatch lawful.forbids).Obeys conduct := by
  have dispatches : (do return some (← approach) : Action (Option Bool)).Obeys conduct :=
    obeys_approach.bind fun _ => .pure _
  refine obeys_statementUnless.bind fun _ => obeys_atEnd.bind fun _ => ?_
  exact .ite ((obeys_fail (by decide)).bind fun _ => dispatches) dispatches

/-- **Doing a statement obeys a conduct** that allows what statements are made of, and that they
begin, as far as to where timers and pins fire. -/
theorem obeys_stepToDispatch [starts : conduct.StartsStatements] :
    (stepToDispatch lawful.forbids).Obeys conduct := by
  refine Attempt.Obeys.get.bind fun _ => (obeys_findStatementWithin _).bind fun _ => ?_
  refine .ite (.bind ?_ fun _ => obeys_statementToDispatch) (.pure _)
  exact .modify fun machine => starts.moves_start machine

/-- **Doing a statement obeys a conduct**, if it is not forbidden, and as far as serving pins
does. -/
theorem obeys_stepUnless [conduct.Departs] [conduct.StartsStatements]
    [∀ repeats, conduct.SetsTimer repeats]
    (refines : conduct.Refines weaker) (serves : servePins.Obeys weaker) :
    (stepUnless lawful.forbids).Obeys weaker := by
  rw [stepUnless_eq]
  refine (obeys_stepToDispatch.of_refines refines).bind fun mayFire => ?_
  cases mayFire with
  | none => exact .pure _
  | some mayFire => exact .bind (.ite (obeys_dispatch refines serves) (.pure _)) fun _ => .pure _

omit lawful in
/-- The same for what is refused. -/
theorem obeys_stepRefusing [conduct.StartsStatements] [lawful : conduct.Executes]
    (refines : conduct.Refines weaker) (serves : servePins.Obeys weaker) :
    (stepRefusing lawful.refused).Obeys weaker := by
  have steps : (stepUnless lawful.performs.forbids).Obeys weaker := obeys_stepUnless refines serves
  rw [stepRefusing_eq]
  exact steps

/-! ### Stopping and going on -/

variable (recovers : conduct.Recovers)

section Stopping

variable [goes : conduct.Goes] [idles : conduct.Idles]

omit lawful recovers

/-- Stopping changes registers only, and that the machine has nothing to do. -/
theorem moves_stop (machine : Machine) : conduct.moves machine machine.stop :=
  have shares : machine.Shares { machine.stop with isIdle := machine.isIdle } := ⟨rfl⟩
  conduct.trans (goes.moves_registers shares) (idles.moves_idle _ true)

/-- What stops is the end of the program, if it was running. -/
theorem obeys_stopProgram (running : Bool) :
    (modify fun machine =>
      ({ machine with continuation := if running then none else machine.continuation }).stop :
        Action Unit).Obeys conduct := by
  refine .modify fun machine => ?_
  have shares : machine.Shares { machine with
      continuation := if running then none else machine.continuation } := ⟨rfl⟩
  exact conduct.trans (goes.moves_registers shares) (moves_stop _)

theorem obeys_stopAt (error : Error) : (stopAt error).Obeys conduct :=
  obeys_isInteractive.bind fun _ => (obeys_stopProgram _).bind fun _ => .pure _

theorem obeys_finish : finish.Obeys conduct :=
  obeys_isInteractive.bind fun _ => (obeys_stopProgram _).bind fun _ => .pure _

variable [operates : conduct.Operates]

theorem obeys_unwindBreak (error : Error) : (unwindBreak error).Obeys conduct := by
  have stop : (do
      modify fun machine => (machine.abandon true).stop
      return .failed error : Action Outcome).Obeys conduct := by
    refine .bind (.modify fun machine => ?_) fun _ => .pure _
    exact conduct.trans (operates.moves_cleared machine (.inr rfl)) (moves_stop _)
  refine Attempt.Obeys.get.bind fun _ => .ite (.bind ?_ fun _ => stop) stop
  exact obeys_registers fun _ => ⟨rfl⟩

include recovers in
/-- What an error does obeys what statements obey, if clearing the stacks does. -/
theorem obeysFrom_unwind {error : Error} (abandons : error.kind ≠ .interrupted →
      conduct.moves machine (machine.abandon false)) :
    (unwind error).ObeysFrom conduct machine := by
  refine .ite (fun _ => ?_) fun other => ?_
  · exact ((obeys_unwindBreak _).bind fun _ => .pure _) machine
  refine .bind (abandons other) fun _ => ?_
  split
  · refine .bind (obeys_registers fun _ => ⟨rfl⟩) fun _ => ?_
    refine ((obeys_gotoLine _).recovered recovers).bind fun result => ?_
    split
    · exact .pure _
    · exact (obeys_stopAt _).bind fun _ => .pure _
  · refine .bind (obeys_registers fun _ => ⟨rfl⟩) fun _ => ?_
    exact (obeys_moveTo _).bind fun _ => (obeys_skipTo _).bind fun _ => .pure _
  · exact (obeys_stopAt _).bind fun _ => .pure _

end Stopping

variable [idles : conduct.Idles]

/-! ### Lines and power -/

section Lines

omit lawful recovers in
/-- The error of a line that could not be stored is ordinary. -/
theorem isOrdinary_of_storeLine {after : Machine} {line : LineNumber} {body : List Token}
    {error : Error} (ran : (Attempt.caught (onMemory (Memory.storeLine line body))).runOn machine =
      (.ok (.error error), after)) : error.IsOrdinary := by
  rw [Attempt.caught, Attempt.runOn_ofRun] at ran
  rcases stored : (onMemory (Memory.storeLine line body)).runOn machine with
    ⟨(told | - | - | -) | value, reached⟩
  all_goals
    rw [stored] at ran
    cases ran
  have obeys : (Memory.storeLine line body).Obeys .isOrdinary := Memory.obeys_storeLine line body
  exact (obeys machine.memory).fails (ran_of_onMemory stored)

variable [goes : conduct.Goes]

omit lawful idles

include recovers in
theorem obeys_enterNumbered [edits : conduct.EditsProgram] [seeks : conduct.SeeksData]
    [postpones : conduct.Postpones] (number : Single) (body : List Token) :
    (enterNumbered number body).Obeys conduct := by
  have reset : (modify fun machine => { machine with continuation := none, data := .search 0 } :
      Action Unit).Obeys conduct := .modify fun machine =>
    conduct.trans (seeks.moves_data machine (.search 0))
      (goes.moves_registers ⟨rfl⟩)
  have postpone {error : Error} (ordinary : error.IsOrdinary) :
      (modify fun machine => { machine with pending := some error } : Action Unit).Obeys conduct :=
    .modify fun machine => postpones.moves_pending machine (by rintro _ ⟨⟩; exact ordinary)
  unfold enterNumbered
  split
  · exact postpone (Error.isOrdinary_of_kind (by decide))
  · rename_i line _
    intro machine
    refine ((edits.storeLine line body).recovered recovers machine).bind_of_ran ?_
    intro stored after ran
    cases stored with
    | ok _ => exact reset after
    | error error => exact (postpone (isOrdinary_of_storeLine ran)).bind (fun _ => reset) after

include recovers in
/-- **Entering a line obeys what statements obey.** -/
theorem obeys_enter [idles : conduct.Idles] [conduct.EditsProgram] [conduct.SeeksData]
    [conduct.Postpones] (text : Bytes) : (enter text).Obeys conduct := by
  refine Attempt.Obeys.get.bind fun machine => ?_
  dsimp only
  split
  · exact .pure _
  · exact (obeys_enterNumbered recovers _ _).bind fun _ => .pure _
  · refine .bind (.modify fun machine => ?_) fun _ => .pure _
    rw [nextToken_eq]
    exact conduct.trans (idles.moves_idle machine false) (goes.moves_registers ⟨rfl⟩)

omit recovers in
theorem obeys_autorun [idles : conduct.Idles] (clears : clear.Obeys conduct) :
    autorun.Obeys conduct := by
  refine Attempt.Obeys.get.bind fun machine => .ite ?_ (.pure _)
  refine clears.bind fun _ => .bind ?_ fun _ => (obeys_moveTo _).bind fun _ => .pure _
  exact .modify fun machine => idles.moves_idle machine false

end Lines

/-! ### Whole runs -/

section Runs

omit lawful

variable [conduct.Steers]

include recovers in
/-- What steps obey a run of them obeys, if clearing the stacks at an error does. -/
theorem obeys_runBy {step : Action Bool} (steps : step.Obeys conduct)
    (abandons : ∀ machine, conduct.moves machine (machine.abandon false)) (cycles : Nat) :
    (runBy step cycles).Obeys conduct := by
  have unwinds (error : Error) : (unwind error).Obeys conduct := fun machine =>
    obeysFrom_unwind recovers fun _ => abandons machine
  induction cycles with
  | zero => exact .pure _
  | succ cycles ih =>
    refine (steps.recovered recovers).bind fun result => ?_
    split
    · exact ih
    · exact obeys_finish
    · refine (unwinds _).bind fun outcome => ?_
      split
      · exact .pure _
      · exact ih

include recovers in
theorem obeys_executeBy [postpones : conduct.Postpones] {step : Action Bool}
    (steps : step.Obeys conduct)
    (abandons : ∀ machine, conduct.moves machine (machine.abandon false)) (cycles : Nat) :
    (executeBy step cycles).Obeys conduct := by
  refine .get_bind fun machine => ?_
  split
  · exact .bind (postpones.moves_pending machine nofun) fun _ => .pure _
  · exact .ite (fun _ => .pure _) fun _ => obeys_runBy recovers steps abandons cycles machine

end Runs

end Conduct

section Kept

variable {holds : Machine → Prop} {again : Prop}

/-- What keeps a property ends where it holds, whether it fails or not. -/
theorem holds_of_obeysFrom {step : Action α} (obeys : step.ObeysFrom (.keeps holds) machine)
    (before : holds machine) : holds (step.runOn machine).2 := by
  rcases ran : step.runOn machine with ⟨failure | value, after⟩
  · exact obeys.fails ran before
  · exact obeys.moves ran before

theorem holds_after {step : Action α} (obeys : step.Obeys (.keeps holds)) (before : holds machine) :
    holds (step.runOn machine).2 :=
  holds_of_obeysFrom (obeys machine) before

variable {conduct : Conduct Machine} [lawful : conduct.Performs] [conduct.StartsStatements]

section Reached

variable [conduct.Steers] [conduct.Departs]

/-- **What statements keep, and pins, errors and power as well, holds wherever a host brings a
machine** in which it holds. -/
theorem holds_of_reachesUnless [conduct.Idles] [conduct.SeeksData] [conduct.Postpones]
    [conduct.EditsProgram] [∀ repeats, conduct.SetsTimer repeats]
    (keeps : conduct.Refines (.keeps holds))
    (recovers : conduct.Recovers) (serves : servePins.Obeys conduct)
    (abandons : ∀ machine, conduct.moves machine (machine.abandon false))
    (devices : ∀ (machine : Machine) host, conduct.moves machine { machine with host })
    (clears : again → clear.Obeys conduct)
    (restarts : ∀ machine : Machine, again → holds machine → holds machine.restart)
    {first : Machine} (begins : holds first)
    (reaches : ReachesUnless lawful.forbids again first machine) : holds machine := by
  have steps : (stepUnless lawful.forbids).Obeys conduct := obeys_stepUnless (.refl _) serves
  induction reaches with
  | refl => exact begins
  | devices host _ ih => exact keeps.moves (devices _ host) ih
  | enter text _ ih => exact holds_after ((obeys_enter recovers text).of_refines keeps) ih
  | execute _ ran ih =>
    exact keeps.moves ((obeys_executeBy recovers steps abandons _ _).moves ran) ih
  | autorun starts _ ih =>
    exact holds_after ((obeys_autorun (clears starts)).of_refines keeps) ih
  | restart starts _ ih => exact restarts _ starts ih

end Reached

/-- What statements keep holds where timers and pins fire. -/
theorem holds_of_dispatchesUnless (keeps : conduct.Refines (.keeps holds)) {moment : Machine}
    (before : holds machine) (dispatches : DispatchesUnless lawful.forbids machine moment) :
    holds moment :=
  keeps.moves ((obeys_stepToDispatch machine).moves dispatches) before

end Kept

end PocketBasic.Machine
