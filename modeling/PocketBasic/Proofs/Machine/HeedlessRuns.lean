/-
**Runs are heedless of guises.** What happens between statements, and what errors do, looks at
nothing that goes unnoticed; so a whole run ends alike in any guise, if its statements do.

* `Machine.heedless_stepUnless`: a statement, and what happens behind it;
* `Machine.endsAlike_stop`: the end of a program;
* `Machine.heedless_unwind`: what errors do;
* **`Machine.heedless_runBy`**: runs.
-/

import PocketBasic.Proofs.Machine.HeedlessStatements
import PocketBasic.Proofs.Machine.Running

namespace PocketBasic.Machine

open Disguise

variable {α : Type} {disguise : Disguise} [performs : disguise.Performs] {machine : Machine}
  {guise : Guise}

/-! ### Steps of runs -/

theorem heedless_findStatementWithin (fuel : Nat) :
    disguise.Heedless (findStatementWithin fuel) := by
  induction fuel with
  | zero => exact gives_throw _
  | succ fuel ih =>
    have goesOn : disguise.Heedless (do
        advance
        findStatementWithin fuel : Action Bool) := heedless_advance.bind fun _ => ih
    refine heedless_token.bind fun token => ?_
    split
    · exact .pure trivial
    · exact goesOn
    · refine .get_bind (fun _ _ _ => rfl) fun _ _ _ => .ite ?_ goesOn
      exact (heedless_write _).bind fun _ => goesOn
    · exact .pure trivial

theorem heedless_checkpoint : disguise.Heedless checkpoint := by
  refine heedless_yield.bind fun _ => heedless_unlessBroken ?_
  exact .get_bind (fun _ _ _ => rfl) fun _ _ _ => .ite heedless_dispatch (.pure trivial)

theorem heedless_beginStatement :
    disguise.Heedless
      (modify fun machine => { machine with statementStart := machine.cursor.location } :
        Action Unit) :=
  heedless_modify fun _ guise hides =>
    have goesOn := performs.goesOn hides
    ⟨guise, rfl, hides_anew hides rfl ⟨goesOn.mode, goesOn.loops, goesOn.returns, goesOn.bookmark,
      goesOn.mode⟩⟩

/-- What happens behind a statement. -/
theorem heedless_behind : disguise.Heedless (do
    if !(← atEnd) then Attempt.fail .syntaxError
    checkpoint
    return true : Action Bool) := by
  have behind : disguise.Heedless (do
      checkpoint
      return true : Action Bool) := heedless_checkpoint.bind fun _ => .pure trivial
  exact heedless_atEnd.bind fun _ => .ite ((heedless_fail _).bind fun _ => behind) behind

/-- **A statement is done alike in any guise**, and so is what happens behind it. -/
theorem heedless_stepUnless {forbids : Machine → Bool} (spares : disguise.Spares forbids) :
    disguise.Heedless (stepUnless forbids) := by
  have body : disguise.Heedless (do
      modify fun machine => { machine with statementStart := machine.cursor.location }
      statementUnless forbids
      if !(← atEnd) then Attempt.fail .syntaxError
      checkpoint
      return true : Action Bool) :=
    heedless_beginStatement.bind fun _ => (heedless_statementUnless spares).bind fun _ =>
      heedless_behind
  have choose (found : Bool) : disguise.Heedless (do
      if found then
        modify fun machine => { machine with statementStart := machine.cursor.location }
        statementUnless forbids
        if !(← atEnd) then Attempt.fail .syntaxError
        checkpoint
        return true
      else return false : Action Bool) := .ite body (.pure trivial)
  exact heedless_scan fun length => (heedless_findStatementWithin (length + 2)).bind choose

/-! ### The end of a program -/

/-- Machines that wait for a line are alike if they go on at the same place. -/
theorem endsAlike_stop {value : α} (hides : disguise.hides machine guise)
    (same : guise.continuation = machine.continuation) :
    disguise.EndsAlike (fun _ => True) (.ok value, machine.stop)
      (.ok value, (machine.wearing guise).stop) := by
  have halted := performs.halt hides same
  rw [stop, stop]
  obtain same | ⟨_, after, guise, ran, again, hides, -⟩ := halted.eq_or_wearing
  · rw [show machine.halt = (machine.wearing guise).halt from congrArg Prod.snd same]
    exact .same _
  · rw [show machine.halt = after from congrArg Prod.snd ran,
      show (machine.wearing _).halt = after.wearing guise from congrArg Prod.snd again]
    exact .hidden guise (hides_of_shares hides ⟨rfl⟩) fun _ _ => trivial

/-- A program that ends has nowhere to go on. -/
theorem heedless_ending {outcome : Outcome} : disguise.Heedless (do
    let running := !(← isInteractive)
    modify fun machine =>
      ({ machine with continuation := if running then none else machine.continuation }).stop
    return outcome : Action Outcome) := by
  intro machine guise hides
  by_cases typed : machine.cursor.mode = .interactive
  · have ends (other : Machine) (typed : other.cursor.mode = .interactive) : (do
        let running := !(← isInteractive)
        modify fun machine =>
          ({ machine with continuation := if running then none else machine.continuation }).stop
        return outcome : Action Outcome).runOn other = (.ok outcome, other.stop) := by
      rw [isInteractive, bind_assoc, Attempt.runOn_get_bind, pure_bind, decide_eq_true typed]
      rfl
    rw [ends machine typed, ends (machine.wearing guise) typed]
    exact endsAlike_stop hides (typed_of_interactive hides typed).2
  · have ends (other : Machine) (reads : other.cursor.mode ≠ .interactive) : (do
        let running := !(← isInteractive)
        modify fun machine =>
          ({ machine with continuation := if running then none else machine.continuation }).stop
        return outcome : Action Outcome).runOn other =
          (.ok outcome, ({ other with continuation := none }).stop) := by
      rw [isInteractive, bind_assoc, Attempt.runOn_get_bind, pure_bind, decide_eq_false reads]
      rfl
    rw [ends machine typed, ends (machine.wearing guise) typed]
    exact endsAlike_stop (hides_continuing hides none) rfl

theorem heedless_finish : disguise.Heedless finish := heedless_ending

theorem heedless_stopAt (error : Error) : disguise.Heedless (stopAt error) := heedless_ending

/-! ### Errors -/

theorem heedless_abandon (isBreak : Bool) :
    disguise.Heedless (modify (abandon isBreak) : Action Unit) := by
  refine heedless_modify fun machine guise hides => ?_
  have goesOn := performs.goesOn hides
  cases isBreak with
  | true => exact ⟨guise, rfl, hides_of_shares hides ⟨rfl⟩⟩
  | false =>
    exact ⟨guise, rfl, hides_anew hides rfl ⟨goesOn.mode, fun _ => nofun, fun _ => nofun, nofun,
      goesOn.start⟩⟩

/-- What waits for a line behind a break. -/
theorem heedless_stopBroken {error : Error} (hides : disguise.hides machine guise)
    (same : guise.continuation = machine.continuation) :
    disguise.EndsAlike (fun _ => True) (.ok (Outcome.failed error), (machine.abandon true).stop)
      (.ok (Outcome.failed error), ((machine.wearing guise).abandon true).stop) :=
  endsAlike_stop (hides_of_shares hides ⟨rfl⟩) same

theorem heedless_unwindBreak (error : Error) : disguise.Heedless (unwindBreak error) := by
  intro machine guise hides
  rw [unwindBreak, Attempt.runOn_get_bind, Attempt.runOn_get_bind]
  by_cases typed : machine.cursor.mode = .interactive
  · have same : (machine.wearing guise).cursor.mode = .interactive := typed
    rw [if_neg (not_not.mpr typed), if_neg (not_not.mpr same)]
    exact heedless_stopBroken hides (typed_of_interactive hides typed).2
  · have reads : (machine.wearing guise).cursor.mode ≠ .interactive := typed
    rw [if_pos typed, if_pos reads]
    exact heedless_stopBroken (hides_continuing hides _) rfl

/-- **What an error does is done alike in any guise.** -/
theorem heedless_unwind (error : Error) : disguise.Heedless (unwind error) := by
  refine .get_bind (fun _ _ _ => rfl) fun machine _ hides => .ite ?_ ?_
  · exact (heedless_unwindBreak _).bind fun _ => .pure trivial
  refine (heedless_abandon false).bind fun _ => ?_
  split
  · refine Heedless.bind ?_ fun _ => ?_
    · exact heedless_registers (fun _ _ => rfl) fun _ => ⟨rfl⟩
    refine (heedless_gotoLine _).caught.bind fun result => ?_
    split
    · exact .pure trivial
    · exact (heedless_stopAt _).bind fun _ => .pure trivial
  · refine Heedless.bind ?_ fun _ => ?_
    · exact heedless_registers (fun _ _ => rfl) fun _ => ⟨rfl⟩
    refine (heedless_moveTo (performs.goesOn hides).start).bind fun _ => ?_
    exact (heedless_skipTo _).bind fun _ => .pure trivial
  · exact (heedless_stopAt _).bind fun _ => .pure trivial

/-! ### Runs -/

variable {step : Action Bool} {other : Machine} {cycles : Nat}

/-- Runs end alike where their first steps do. -/
theorem endsAlike_runBy (behind : disguise.Heedless (runBy step cycles))
    (first : disguise.EndsAlike (fun _ => True) (step.runOn machine) (step.runOn other)) :
    disguise.EndsAlike (fun _ => True) ((runBy step (cycles + 1)).runOn machine)
      ((runBy step (cycles + 1)).runOn other) := by
  refine first.caught.bind fun result _ => ?_
  split
  · exact behind
  · exact heedless_finish
  · refine (heedless_unwind _).bind fun outcome => ?_
    cases outcome with
    | none => exact behind
    | some outcome => exact .pure trivial

/-- **Runs end alike in any guise**, if their steps do. -/
theorem heedless_runBy (heedless : disguise.Heedless step) (cycles : Nat) :
    disguise.Heedless (runBy step cycles) := by
  induction cycles with
  | zero => exact .pure trivial
  | succ cycles ih =>
    exact fun machine guise hides => endsAlike_runBy ih (heedless machine guise hides)

end PocketBasic.Machine
