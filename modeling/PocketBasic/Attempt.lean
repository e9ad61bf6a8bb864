/-
**Attempts**: steps on a state that may fail. What a failing step did to the state before it failed
stays done.

* `Failure`: an error of the language, an address outside memory, a whole division by zero, or a
  wait that cannot end;
* `Attempt σ α`: a step on states `σ` with results `α`;
* `Attempt.within`: a step on a part of the state; `Attempt.ensuring`: a step with a last change of
  the state that takes place whether it fails or not; `Attempt.caught`: a step whose errors of the
  language are results.
-/

import PocketBasic.Error

namespace PocketBasic

/-- Why a step did not finish. -/
inductive Failure where
  /-- An error of the language, which a program can handle and a user is told. -/
  | reported (error : Error)
  /-- An access outside memory: the machine has no next state. -/
  | fault
  /-- A whole division by zero: there is no next state either. -/
  | zeroDivisor
  /-- Waiting for something that can never come. -/
  | stalled
  deriving DecidableEq, Inhabited

/-- A step on a state that may fail and keeps the changes made before a failure. -/
abbrev Attempt (σ α : Type) := ExceptT Failure (StateM σ) α

namespace Attempt

variable {σ τ α : Type}

/-- Runs a step: its result and the state it leaves. -/
def runOn (step : Attempt σ α) (state : σ) : Except Failure α × σ := step state

/-- A step given by what it does to each state. -/
def ofRun (run : σ → Except Failure α × σ) : Attempt σ α := run

/-- Fails with an error of the language. -/
def fail (kind : ErrorKind) : Attempt σ α := throw (.reported { kind })

/-- Fails with an error of the language and a detail. -/
def failWith (kind : ErrorKind) (detail : String) : Attempt σ α :=
  throw (.reported { kind, detail })

/-- The value of a computation without state. -/
def lift : Except Error α → Attempt σ α
  | .ok value => pure value
  | .error error => throw (.reported error)

/-- A value that must be there. -/
def orFault : Option α → Attempt σ α
  | some value => pure value
  | none => throw .fault

/-- A value whose absence is an error of the language. -/
def orFail (kind : ErrorKind) : Option α → Attempt σ α
  | some value => pure value
  | none => fail kind

/-- A step that cannot fail. -/
def always (step : σ → α × σ) : Attempt σ α :=
  ofRun fun state =>
    let (value, state) := step state
    (.ok value, state)

/-- Does a step and then changes the state, whether the step failed or not. -/
def ensuring (step : Attempt σ α) (change : σ → σ) : Attempt σ α :=
  ofRun fun state =>
    let (result, state) := step.runOn state
    (result, change state)

/-- Does a step and catches an error of the language. -/
def caught (step : Attempt σ α) : Attempt σ (Except Error α) :=
  ofRun fun state =>
    let (result, state) := step.runOn state
    match result with
    | .ok value => (.ok (.ok value), state)
    | .error (.reported error) => (.ok (.error error), state)
    | .error failure => (.error failure, state)

/-- Does a step with every error of the language replaced by one without detail. -/
def reportingAs (kind : ErrorKind) (step : Attempt σ α) : Attempt σ α :=
  ofRun fun state =>
    let (result, state) := step.runOn state
    match result with
    | .error (.reported _) => (.error (.reported { kind }), state)
    | result => (result, state)

/-- Does a step on a part of the state. `exchange` puts another part into a state and gives the one
that was there; while the step runs, `hollow` stands in its place. -/
def within (exchange : τ → σ → τ × σ) (hollow : τ) (step : Attempt τ α) : Attempt σ α :=
  ofRun fun state =>
    let (before, state) := exchange hollow state
    let (result, after) := step.runOn before
    (result, (exchange after state).2)

end Attempt

end PocketBasic
