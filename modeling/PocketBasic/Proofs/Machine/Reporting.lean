/-
**Which errors are reported.** An error goes to the handler if there is one and the machine reads a
program at that moment. Every other error ends the run: the host is told of it, and the machine
waits for a line with its handler as it was.

* `Machine.Takes`: whether the handler of a machine takes an error;
* `Machine.WaitsBehind`: what is left of a machine that reported an error;
* `Machine.exists_unwind`, `Machine.takes_of_unwind`: an error is reported unless it is taken;
* `Machine.Turns`, `Machine.runOn_run_of_turns`: the part of a run before the error;
* `Machine.exists_execute`: the run that an error ends;
* **`Machine.typed_errors_are_reported`**: what becomes of an error in a typed line.
-/

import Mathlib.Tactic.Common
import PocketBasic.Machine.Run
import PocketBasic.Proofs.Attempt

namespace PocketBasic

/-! ### Caught errors -/

namespace Attempt

variable {σ α : Type} {step : Attempt σ α} {state after : σ}

theorem runOn_caught_ok {value : α} (ran : step.runOn state = (.ok value, after)) :
    step.caught.runOn state = (.ok (.ok value), after) := by
  rw [caught, runOn_ofRun, ran]

theorem runOn_caught_error {error : Error}
    (ran : step.runOn state = (.error (.reported error), after)) :
    step.caught.runOn state = (.ok (.error error), after) := by
  rw [caught, runOn_ofRun, ran]

theorem runOn_caught_fatal {failure : Failure} (ran : step.runOn state = (.error failure, after))
    (fatal : ∀ error, failure ≠ .reported error) :
    step.caught.runOn state = (.error failure, after) := by
  rw [caught, runOn_ofRun, ran]
  cases failure with
  | reported error => exact absurd rfl (fatal error)
  | _ => rfl

end Attempt

namespace Machine

variable {machine middle after failed : Machine} {error : Error} {count cycles : Nat}

/-! ### Errors and handlers -/

/-- Whether the handler of a machine takes an error. It takes no break, and none that comes while a
typed line is read. -/
def Takes (failed : Machine) (error : Error) : Prop :=
  failed.cursor.mode ≠ .interactive ∧ failed.handler ≠ none ∧ error.kind ≠ .interrupted

/-- What is left of a machine that failed and reported its error. -/
structure WaitsBehind (failed after : Machine) : Prop where
  isIdle : after.isIdle = true
  mode : after.cursor.mode = .interactive
  handler : after.handler = failed.handler
  lastError : after.lastError = failed.lastError
  memory : after.memory = failed.memory

/-- The line in which an error is reported: that of the statement, if a program is read. -/
def failingLine (failed : Machine) : Option LineNumber :=
  if failed.cursor.mode ≠ .interactive then failed.lineOf? failed.statementStart else none

theorem failingLine_eq_none (typed : failed.statementStart.mode = .interactive) :
    failed.failingLine = none := by
  rw [failingLine, lineOf?, typed]
  split <;> rfl

theorem exists_stopAt (error : Error) (failed : Machine) :
    ∃ after, (stopAt error).runOn failed = (.ok (.failed error), after) ∧
      failed.WaitsBehind after :=
  ⟨_, rfl, rfl, rfl, rfl, rfl, rfl⟩

theorem exists_unwindBreak (error : Error) (failed : Machine) :
    ∃ after, (unwindBreak error).runOn failed = (.ok (.failed error), after) ∧
      failed.WaitsBehind after := by
  rw [unwindBreak, Attempt.runOn_get_bind]
  split
  · exact ⟨_, rfl, rfl, rfl, rfl, rfl, rfl⟩
  · exact ⟨_, rfl, rfl, rfl, rfl, rfl, rfl⟩

/-- **An error that no handler takes is reported**, in the line of its statement. -/
theorem exists_unwind (untaken : ¬ failed.Takes error) :
    ∃ after, (unwind error).runOn failed =
        (.ok (some (.failed (located failed.failingLine error))), after) ∧
      failed.WaitsBehind after := by
  rw [unwind, Attempt.runOn_get_bind]
  dsimp only
  split
  · obtain ⟨after, ran, waits⟩ := exists_unwindBreak (located failed.failingLine error) failed
    exact ⟨after, (Attempt.runOn_bind_ok ran _).trans rfl, waits⟩
  rename_i kind
  -- What the error leaves of the statement keeps all that is compared.
  obtain ⟨after, ran, waits⟩ :=
    exists_stopAt (located failed.failingLine error) (failed.abandon false)
  rw [Attempt.runOn_modify_bind]
  split
  · rename_i target handled
    split at handled
    · exact absurd ⟨‹_›, by rw [handled]; exact Option.some_ne_none _, kind⟩ untaken
    · cases handled
  · rename_i handled
    split at handled
    · exact absurd ⟨‹_›, by rw [handled]; exact Option.some_ne_none _, kind⟩ untaken
    · cases handled
  · exact ⟨after, (Attempt.runOn_bind_ok ran _).trans rfl, waits.isIdle, waits.mode, waits.handler,
      waits.lastError, waits.memory⟩

/-- **Handlers act only where a program is read.** -/
theorem takes_of_unwind (goesOn : (unwind error).runOn failed = (.ok none, after)) :
    failed.Takes error := by
  by_contra untaken
  obtain ⟨_, ran, -⟩ := exists_unwind untaken
  rw [goesOn] at ran
  cases ran

/-! ### Runs up to an error -/

/-- What a run does before it goes on: a statement, or what a handler does about an error of one. -/
inductive Turn (machine after : Machine) : Prop
  | done : step.runOn machine = (.ok true, after) → Turn machine after
  | handled {error : Error} {failed : Machine} :
    step.runOn machine = (.error (.reported error), failed) →
      (unwind error).runOn failed = (.ok none, after) → Turn machine after

/-- That many turns, one after the other. -/
inductive Turns : Nat → Machine → Machine → Prop
  | none {machine : Machine} : Turns 0 machine machine
  | next {count : Nat} {machine middle after : Machine} :
    Turn machine middle → Turns count middle after → Turns (count + 1) machine after

theorem runOn_run_of_turn (turn : Turn machine middle) (cycles : Nat) :
    (run (cycles + 1)).runOn machine = (run cycles).runOn middle := by
  rw [run]
  cases turn with
  | done ran => exact Attempt.runOn_bind_ok (Attempt.runOn_caught_ok ran) _
  | handled ran taken =>
    rw [Attempt.runOn_bind_ok (Attempt.runOn_caught_error ran)]
    exact Attempt.runOn_bind_ok taken _

/-- A run ends where the error of a step does not let it go on. -/
theorem runOn_run_of_unwound {outcome : Outcome}
    (ran : step.runOn machine = (.error (.reported error), failed))
    (unwound : (unwind error).runOn failed = (.ok (some outcome), after)) (cycles : Nat) :
    (run (cycles + 1)).runOn machine = (.ok outcome, after) := by
  rw [run, Attempt.runOn_bind_ok (Attempt.runOn_caught_error ran)]
  exact (Attempt.runOn_bind_ok unwound _).trans rfl

/-- A run whose step has no next state has none either. -/
theorem runOn_run_of_fatal {failure : Failure} (ran : step.runOn machine = (.error failure, failed))
    (fatal : ∀ error, failure ≠ .reported error) (cycles : Nat) :
    (run (cycles + 1)).runOn machine = (.error failure, failed) := by
  rw [run]
  exact Attempt.runOn_bind_error (Attempt.runOn_caught_fatal ran fatal) _

/-- A run ends where there is no statement any more. -/
theorem runOn_run_of_end (ran : step.runOn machine = (.ok false, after)) (cycles : Nat) :
    (run (cycles + 1)).runOn machine = finish.runOn after := by
  rw [run]
  exact Attempt.runOn_bind_ok (Attempt.runOn_caught_ok ran) _

/-- A run goes on where its turns lead. -/
theorem runOn_run_of_turns (turns : Turns count machine middle) (cycles : Nat) :
    (run (count + cycles)).runOn machine = (run cycles).runOn middle := by
  induction turns with
  | none => rw [Nat.zero_add]
  | next turn _ ih => rw [Nat.add_right_comm, runOn_run_of_turn turn, ih]

/-- **A run tells the error of a typed line that no handler takes**, after any number of turns. -/
theorem exists_execute (told : machine.pending = none) (busy : machine.isIdle = false)
    (turns : Turns count machine middle) (enough : count < cycles)
    (fails : step.runOn middle = (.error (.reported error), failed))
    (typed : failed.statementStart.mode = .interactive) (untaken : ¬ failed.Takes error) :
    ∃ after, (execute cycles).runOn machine = (.ok (.failed error), after) ∧
      failed.WaitsBehind after := by
  obtain ⟨after, unwound, waits⟩ := exists_unwind untaken
  obtain ⟨rest, rfl⟩ := Nat.exists_eq_add_of_lt enough
  refine ⟨after, ?_, waits⟩
  have started : (execute (count + rest + 1)).runOn machine =
      (run (count + rest + 1)).runOn machine := by
    rw [execute, Attempt.runOn_get_bind, told]
    dsimp only
    rw [if_neg (by rw [busy]; exact Bool.false_ne_true)]
  rw [started, Nat.add_assoc, runOn_run_of_turns turns, runOn_run_of_unwound fails unwound,
    failingLine_eq_none typed]
  rfl

/-- **Errors of typed lines are reported.** When the host lets the machine run and, after any number
of turns, a statement of the typed line fails, the host is told exactly this error, and the machine
waits for a line with its handler and its memory as they were. It is enough that the typed line is
still read at that moment, and not the body of a function or the condition of a loop of the program;
where a program is read, that no handler is there, or that the error is a break. -/
theorem typed_errors_are_reported (told : machine.pending = none) (busy : machine.isIdle = false)
    (turns : Turns count machine middle) (enough : count < cycles)
    (fails : step.runOn middle = (.error (.reported error), failed))
    (typed : failed.statementStart.mode = .interactive)
    (untaken : failed.cursor.mode = .interactive ∨ failed.handler = none ∨
      error.kind = .interrupted) :
    ∃ after, (execute cycles).runOn machine = (.ok (.failed error), after) ∧
      failed.WaitsBehind after :=
  exists_execute told busy turns enough fails typed fun ⟨mode, handler, kind⟩ =>
    untaken.elim mode fun other => other.elim handler kind

/-- The second statement of a typed line fails where errors of programs are passed over. -/
theorem typed_errors_are_reported_division :
    let config : Config := { memorySize := 32 }
    let handled := ((execute 2).runOn ((enter (ascii "ERROR CONT")).runOn (start config {})).2).2
    let typed := ((enter (ascii "A=1:B=A/0")).runOn handled).2
    handled.handler = some .resume ∧
      ∃ after, (execute 4).runOn typed = (.ok (.failed { kind := .divisionByZero }), after) ∧
        after.handler = some .resume := by
  intro config handled typed
  have seen : handled.handler = some .resume ∧ typed.pending = none ∧ typed.isIdle = false ∧
      (step.runOn typed).1 = .ok true ∧
      (step.runOn (step.runOn typed).2).1 = .error (.reported { kind := .divisionByZero }) ∧
      (step.runOn (step.runOn typed).2).2.statementStart.mode = .interactive ∧
      (step.runOn (step.runOn typed).2).2.cursor.mode = .interactive ∧
      (step.runOn (step.runOn typed).2).2.handler = some .resume := by
    decide +kernel
  obtain ⟨installed, told, busy, done, fails, start, mode, kept⟩ := seen
  have turns : Turns 1 typed (step.runOn typed).2 := .next (.done (Prod.ext done rfl)) .none
  obtain ⟨after, ran, waits⟩ := typed_errors_are_reported told busy turns
    (show 1 < 4 by decide) (Prod.ext fails rfl) start (.inl mode)
  exact ⟨installed, after, ran, waits.handler.trans kept⟩

/-- An error in the body of a user function that a typed line calls goes to the handler that the
program has left. -/
theorem typed_error_is_taken_in_function :
    let config : Config := { memorySize := 96 }
    let first := ((enter (ascii "10 ERROR GOTO 30")).runOn (start config {})).2
    let second := ((enter (ascii "20 DEF FN A(X)=1/X:END")).runOn first).2
    let third := ((enter (ascii "30 PRINT \"HANDLED\"")).runOn second).2
    let ended := ((execute 6).runOn ((enter (ascii "RUN")).runOn third).2).2
    let typed := ((enter (ascii "PRINT FN A(0)")).runOn ended).2
    let failed := (step.runOn typed).2
    ended.handler = some (.goto 30) ∧
      (step.runOn typed).1 = .error (.reported { kind := .divisionByZero }) ∧
      failed.statementStart.mode = .interactive ∧ failed.cursor.mode = .run ∧
      ((execute 4).runOn typed).1 = .ok .stopped ∧
      ((execute 4).runOn typed).2.handler = none := by
  decide +kernel

end Machine

end PocketBasic
