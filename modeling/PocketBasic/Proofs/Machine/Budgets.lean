/-
**A run can be cut anywhere.** The host lets the machine do some statements, and then some more. How
many they are at a time makes no difference to what the program does, nor to what the host sees of
it: nothing that is looked at when the host comes back, that is whether the machine has something to
do and whether the error of a line waits to be told, changes in the middle of a run.

* `Machine.IsBusy`: what the host finds when it comes back in the middle of a run;
* `Machine.IsBusy.step`, `Machine.unwind_ends`: it stays so, whatever statements do, and whatever
  becomes of their errors as long as the run goes on;
* `Machine.turns_or_ends`: a run does so many turns, or ends before, whatever more it may do;
* **`Machine.budgets_make_no_difference`**: and so is what the host lets the machine do.
-/

import Mathlib.Tactic.Common
import PocketBasic.Proofs.Machine.Aside
import PocketBasic.Proofs.Machine.Reporting

namespace PocketBasic.Machine

variable {machine after : Machine} {count : Nat}

/-- Whether a machine is in the middle of a run: it has something to do, and no error of a line
waits to be told. -/
def IsBusy (machine : Machine) : Prop := machine.isIdle = false ∧ machine.pending = none

/-! ### What stays so -/

theorem isAside_isBusy : IsAside IsBusy where
  apart _ _ _ _ _ _ _ _ _ _ _ _ := id
  registers shares busy := ⟨shares.isIdle.trans busy.1, shares.pending.trans busy.2⟩
  frames _ _ _ _ := id

instance steers_isBusy : (Conduct.keeps IsBusy).Steers := isAside_isBusy.jumps.steers

instance departs_isBusy : (Conduct.keeps IsBusy).Departs := isAside_isBusy.departs

instance : (Conduct.keeps IsBusy).SeeksData := ⟨fun _ _ => id⟩

instance : (Conduct.keeps IsBusy).StartsStatements := ⟨fun _ => id⟩

instance (repeats : Bool) : (Conduct.keeps IsBusy).SetsTimer repeats := ⟨fun _ _ => id⟩

instance performs_isBusy : (Conduct.keeps IsBusy).Performs :=
  isAside_isBusy.performs (fun _ => false)
    (fun _ _ => (isAside_isBusy.apart.ignoresMemory.onMemory Memory.obeys_clearHeap).bind
      fun _ => .modify fun _ => id)
    (fun _ _ => (obeys_takeDatum : takeDatum.Obeys (.keeps IsBusy))) (fun _ _ _ _ => id)
    (fun repeats _ _ => (obeys_timerStatement : (timerStatement repeats).Obeys (.keeps IsBusy)))
    fun repeats => (obeys_clearTimer : (clearTimer repeats).Obeys (.keeps IsBusy))

/-- A statement leaves a machine in the middle of its run, also if it fails. -/
theorem IsBusy.step (busy : machine.IsBusy) : (Machine.step.runOn machine).2.IsBusy := by
  have steps : (stepUnless fun _ => false).Obeys (.keeps IsBusy) :=
    @obeys_stepUnless _ performs_isBusy _ inferInstance inferInstance inferInstance (.refl _)
      isAside_isBusy.servePins
  rw [stepUnless_none] at steps
  exact holds_after steps busy

/-- A jump to a line that is not there is the only one that fails. -/
theorem gotoLine_ends (line : LineNumber) (machine : Machine) :
    (gotoLine line).Ends machine (fun _ _ => True) fun failure _ =>
      failure = .reported { kind := .undefinedLine } := by
  have looks (offset : Option Nat) (machine : Machine) :
      (Attempt.orFail .undefinedLine offset : Action Nat).Ends machine (fun _ _ => True)
        fun failure _ => failure = .reported { kind := .undefinedLine } := by
    cases offset with
    | none => exact rfl
    | some offset => exact trivial
  have finds : (findLine line).Ends machine (fun _ _ => True) fun failure _ =>
      failure = .reported { kind := .undefinedLine } := by
    refine .get_bind ?_
    split
    · exact (looks _ machine).bind fun _ _ _ => trivial
    · exact (looks _ _).bind fun _ _ _ => trivial
  exact finds.bind fun _ _ _ => trivial

/-- **An error ends the run, or leaves the machine in the middle of it.** -/
theorem unwind_ends (error : Error) (machine : Machine) :
    (unwind error).Ends machine
      (fun outcome after => outcome ≠ some .running ∧
        (outcome = none → machine.IsBusy → after.IsBusy))
      fun _ _ => False := by
  have stops (error : Error) (failed : Machine) :
      (do return some (← stopAt error) : Action (Option Outcome)).Ends failed
        (fun outcome after => outcome ≠ some .running ∧
          (outcome = none → machine.IsBusy → after.IsBusy))
        fun _ _ => False := by
    obtain ⟨after, ran, -⟩ := exists_stopAt error failed
    exact .of_ok ((Attempt.runOn_bind_ok ran _).trans rfl) ⟨nofun, nofun⟩
  refine .get_bind (.ite (fun _ => ?_) fun _ => .modify_bind ?_)
  · obtain ⟨after, ran, -⟩ := exists_unwindBreak (located machine.failingLine error) machine
    exact .of_ok ((Attempt.runOn_bind_ok ran _).trans rfl) ⟨nofun, nofun⟩
  split
  · -- The handler is gone to, or its line is missing.
    rename_i target _
    refine .modify_bind ?_
    have goes : (gotoLine target).Obeys (.keeps IsBusy) := obeys_gotoLine target
    rcases ran : (gotoLine target).runOn { machine.abandon false with
        lastError := error.kind.code, handler := none } with ⟨failure | ⟨⟩, after⟩
    · obtain rfl := (gotoLine_ends target _).excused ran
      exact .ok_bind (Attempt.runOn_caught_error ran) (stops _ after)
    · refine .of_ok ((Attempt.runOn_bind_ok (Attempt.runOn_caught_ok ran) _).trans rfl) ⟨nofun, ?_⟩
      exact fun _ busy => (goes _).moves ran busy
  · -- The program goes on behind the statement that failed.
    refine .modify_bind ?_
    have resumes : (do
        moveTo machine.statementStart
        modify (skipTo Token.isTerminator) : Action Unit).Obeys (.keeps IsBusy) :=
      (obeys_moveTo _).bind fun _ => obeys_skipTo _
    exact ⟨nofun, fun _ busy => holds_after resumes busy⟩
  · exact stops _ _

/-! ### Runs and their parts -/

/-- A turn leaves a machine in the middle of its run. -/
theorem IsBusy.turn (busy : machine.IsBusy) (turn : Turn machine after) : after.IsBusy := by
  have stays := busy.step
  cases turn with
  | done ran => rwa [ran] at stays
  | handled ran goesOn =>
    rw [ran] at stays
    exact ((unwind_ends _ _).kept goesOn).2 rfl stays

theorem IsBusy.turns (busy : machine.IsBusy) (turns : Turns count machine after) :
    after.IsBusy := by
  induction turns with
  | none => exact busy
  | next turn _ ih => exact ih (busy.turn turn)

/-- A run goes on, or it ends with the next statement, however much it may do. -/
theorem turn_or_ends (machine : Machine) :
    (∃ after, Turn machine after) ∨
      ∃ result : Except Failure Outcome × Machine, result.1 ≠ .ok .running ∧
        ∀ cycles, (run (cycles + 1)).runOn machine = result := by
  rcases ran : Machine.step.runOn machine with ⟨failure | more, after⟩
  · by_cases told : ∃ error, failure = .reported error
    · obtain ⟨error, rfl⟩ := told
      have ends := unwind_ends error after
      rcases unwound : (unwind error).runOn after with ⟨failure | (_ | outcome), last⟩
      · exact (ends.excused unwound).elim
      · exact .inl ⟨last, .handled ran unwound⟩
      · refine .inr ⟨(.ok outcome, last), fun runs => (ends.kept unwound).1 ?_, ?_⟩
        · exact congrArg some (Except.ok.inj runs)
        · exact runOn_run_of_unwound ran unwound
    · have fatal (error : Error) : failure ≠ .reported error := fun same => told ⟨error, same⟩
      exact .inr ⟨(.error failure, after), nofun, runOn_run_of_fatal ran fatal⟩
  · cases more with
    | true => exact .inl ⟨after, .done ran⟩
    | false => exact .inr ⟨finish.runOn after, nofun, runOn_run_of_end ran⟩

/-- So it is after any number of statements. -/
theorem turns_or_ends (count : Nat) (machine : Machine) :
    (∃ after, Turns count machine after) ∨
      ∃ result : Except Failure Outcome × Machine, result.1 ≠ .ok .running ∧
        ∀ cycles, (run (count + cycles)).runOn machine = result := by
  induction count generalizing machine with
  | zero => exact .inl ⟨machine, .none⟩
  | succ count ih =>
    obtain ⟨middle, turn⟩ | ⟨result, stops, ends⟩ := turn_or_ends machine
    · obtain ⟨after, turns⟩ | ⟨result, stops, ends⟩ := ih middle
      · exact .inl ⟨after, .next turn turns⟩
      · refine .inr ⟨result, stops, fun cycles => ?_⟩
        rw [Nat.add_right_comm, runOn_run_of_turn turn, ends]
    · refine .inr ⟨result, stops, fun cycles => ?_⟩
      rw [Nat.add_right_comm, ends]

theorem IsBusy.runOn_execute (busy : machine.IsBusy) (cycles : Nat) :
    (execute cycles).runOn machine = (run cycles).runOn machine := by
  rw [execute, Attempt.runOn_get_bind, busy.2]
  dsimp only
  rw [if_neg (by rw [busy.1]; exact Bool.false_ne_true)]

/-- **Every budget gives the same run.** To let a machine do some statements and, if it has more to
do then, some more, is to let it do as many at once: the host is told the same at the end, and finds
the same machine, with the same devices behind it. What it is told at the end of the first part may
be an error too, or that the machine waits for a line; then it would be told so of the whole. -/
theorem budgets_make_no_difference (first second : Nat) (machine : Machine) :
    (execute (first + second)).runOn machine =
      (do match ← execute first with
        | .running => execute second
        | outcome => return outcome : Action Outcome).runOn machine := by
  by_cases busy : machine.IsBusy
  · rw [busy.runOn_execute, Attempt.runOn_bind_eq_goOn, busy.runOn_execute]
    obtain ⟨after, turns⟩ | ⟨result, stops, ends⟩ := turns_or_ends first machine
    · have runs : (run first).runOn machine = (.ok .running, after) := runOn_run_of_turns turns 0
      rw [runOn_run_of_turns turns, runs]
      exact ((busy.turns turns).runOn_execute second).symm
    · rw [ends, show (run first).runOn machine = result from ends 0]
      obtain ⟨failure | (_ | _ | _), after⟩ := result
      · rfl
      · rfl
      · exact absurd rfl stops
      · rfl
  · -- What is told without a statement is told whatever the budget is.
    rw [execute, execute, Attempt.runOn_get_bind, bind_assoc, Attempt.runOn_get_bind]
    cases pending : machine.pending with
    | some error => rfl
    | none =>
      cases idle : machine.isIdle with
      | true => rfl
      | false => exact absurd ⟨idle, pending⟩ busy

end PocketBasic.Machine
