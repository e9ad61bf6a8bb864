/-
**Going on behind an error.** A program that asked for it with `ERROR CONT` goes on after an error.
It does so where the statement ends that began last, whether that one failed, or was done and a
timer or pin could not do what it is set to do.

* `Machine.SamePlace`: what a response leaves as it was that fails;
* `Conduct.keepsStart`: statements keep in mind where they began;
* `Machine.fails_cases`: an error comes from a statement, or from what fires behind one;
* `Machine.runOn_unwind_resume`: what the handler does;
* `Machine.StaysIn`: a statement that has not left its text;
* **`Machine.error_cont_goes_on_behind_statement`**: where the program goes on.
-/

import Mathlib.Tactic.Common
import PocketBasic.Proofs.Machine.Aside
import PocketBasic.Proofs.Machine.PinNesting
import PocketBasic.Proofs.Machine.Reporting
import PocketBasic.Proofs.Machine.Scanning

namespace PocketBasic

/-- What keeps the place where the current statement began. -/
def Conduct.keepsStart (place : Location) : Conduct Machine :=
  .keeps fun machine => machine.statementStart = place

namespace Machine

open Conduct (keepsStart)

variable {α β : Type} {machine found moment failed : Machine} {error : Error} {place : Location}
  {count : Nat}

/-! ### Where a statement began -/

theorem isAside_statementStart : IsAside (fun machine => machine.statementStart = place) where
  apart _ _ _ _ _ _ _ _ _ _ _ _ := id
  registers shares := shares.statementStart.trans
  frames _ _ _ _ := id

instance steers_keepsStart : (keepsStart place).Steers := isAside_statementStart.jumps.steers

instance : (keepsStart place).SeeksData := ⟨fun _ _ => id⟩

instance (repeats : Bool) : (keepsStart place).SetsTimer repeats := ⟨fun _ _ => id⟩

/-- No statement changes where it began. -/
instance performs_keepsStart : (keepsStart place).Performs :=
  isAside_statementStart.performs (fun _ => false)
    (fun _ _ => (isAside_statementStart.apart.ignoresMemory.onMemory Memory.obeys_clearHeap).bind
      fun _ => .modify fun _ => id)
    (fun _ _ => (obeys_takeDatum : takeDatum.Obeys (keepsStart place))) (fun _ _ _ _ => id)
    (fun repeats _ _ => (obeys_timerStatement : (timerStatement repeats).Obeys (keepsStart place)))
    fun repeats => (obeys_clearTimer : (clearTimer repeats).Obeys (keepsStart place))

theorem statementStart_statementToDispatch (machine : Machine) :
    ((statementToDispatch fun _ => false).runOn machine).2.statementStart =
      machine.statementStart := by
  have obeys : (statementToDispatch fun _ => false).Obeys (keepsStart machine.statementStart) :=
    obeys_statementToDispatch
  exact holds_after obeys rfl

/-! ### Responses that fail -/

/-- Whether a machine reads where another one did, in the same statement. -/
structure SamePlace (before after : Machine) : Prop where
  cursor : after.cursor = before.cursor
  statementStart : after.statementStart = before.statementStart

/-- Looking for a line moves nothing. -/
theorem findLine_stays (line : LineNumber) (same : machine.SamePlace found) :
    (findLine line).Ends found (fun _ after => machine.SamePlace after)
      fun _ after => machine.SamePlace after := by
  have looked (offset : Option Nat) (mode : Mode) (found : Machine)
      (same : machine.SamePlace found) :
      (do return { mode, offset := ← Attempt.orFail .undefinedLine offset } :
        Action Location).Ends found (fun _ after => machine.SamePlace after)
          fun _ after => machine.SamePlace after := by
    cases offset with
    | none => exact same
    | some offset => exact same
  refine .get_bind ?_
  split
  · exact looked _ _ found same
  · exact looked _ _ _ ⟨same.cursor, same.statementStart⟩

/-- A response that fails moves nothing. -/
theorem respond_stays (response : Response) (fromPin : Bool) (same : machine.SamePlace found) :
    (respond response fromPin).Ends found (fun _ _ => True)
      fun _ after => machine.SamePlace after := by
  have goes (line : LineNumber) (middle : Machine) (same : machine.SamePlace middle) :
      (gotoLine line).Ends middle (fun _ _ => True) fun _ after => machine.SamePlace after :=
    (findLine_stays line same).bind fun _ _ _ => trivial
  cases response with
  | goto line => exact goes line found same
  | gosub line =>
    refine .get_bind ?_
    rcases runOn_pushReturn { resume := found.cursor.location, fromPin } found with ran | ran
    · rw [Attempt.Ends, Attempt.runOn_bind_ok ran]
      exact goes line _ ⟨same.cursor, same.statementStart⟩
    · exact .of_error (Attempt.runOn_bind_error ran _) same

/-- **What fires and fails moves nothing.** -/
theorem dispatch_stays (machine : Machine) :
    dispatch.Ends machine (fun _ _ => True) fun _ after => machine.SamePlace after := by
  refine .get_bind (.ite (fun _ => ?_) fun _ => .ite (fun _ => ?_) fun _ => ?_)
  · cases machine.timers.after.response with
    | none => exact trivial
    | some response => exact respond_stays response false ⟨rfl, rfl⟩
  · cases machine.timers.every.response with
    | none => exact trivial
    | some response => exact respond_stays response false ⟨rfl, rfl⟩
  · by_cases serves : machine.pins.isEnabled = true ∧ machine.pins.slots ≠ []
    · rw [Attempt.Ends, runOn_servePins serves.1 serves.2]
      cases (machine.pins.poll machine.host.signals).1.take.1 with
      | none => exact trivial
      | some response =>
        cases response with
        | goto line => exact respond_stays (.goto line) true ⟨rfl, rfl⟩
        | gosub line => exact respond_stays (.gosub line) true ⟨rfl, rfl⟩
    · exact .of_ok (runOn_servePins_of_held serves) trivial

/-! ### Where an error comes from -/

/-- Whether a step reports no error. -/
def ReportsNothing (step : Action α) : Prop :=
  ∀ machine, step.Ends machine (fun _ _ => True) fun failure _ => failure = .stalled

theorem ReportsNothing.bind {step : Action α} {next : α → Action β} (first : ReportsNothing step)
    (second : ∀ value, ReportsNothing (next value)) : ReportsNothing (step >>= next) :=
  fun machine => (first machine).bind fun value after _ => second value after

theorem ReportsNothing.ite {condition : Prop} [Decidable condition] {first second : Action α}
    (holds : ReportsNothing first) (fails : ReportsNothing second) :
    ReportsNothing (if condition then first else second) := by
  split
  · exact holds
  · exact fails

theorem reportsNothing_write (bytes : Bytes) : ReportsNothing (write bytes) := by
  have writesByte (byte : UInt8) : ReportsNothing (writeByte byte) :=
    .bind (fun _ => trivial) fun _ => .bind (fun _ => trivial) fun _ =>
      .ite (.bind (fun _ => trivial) fun _ _ => trivial) fun _ => trivial
  induction bytes with
  | nil => exact fun _ => trivial
  | cons byte rest ih => exact (writesByte byte).bind fun _ => ih

/-- Looking for a statement reports no error. -/
theorem reportsNothing_findStatementWithin (fuel : Nat) :
    ReportsNothing (findStatementWithin fuel) := by
  induction fuel with
  | zero => exact fun _ => rfl
  | succ fuel ih =>
    have advanced : ReportsNothing (do
        advance
        findStatementWithin fuel) := .bind (fun _ => trivial) fun _ => ih
    refine .bind (fun _ => trivial) fun token => ?_
    split
    · exact fun _ => trivial
    · exact advanced
    · refine .bind (fun _ => trivial) fun machine => .ite ?_ advanced
      exact (reportsNothing_write _).bind fun _ => advanced
    · exact fun _ => trivial

/-- A step that fails has found a statement. -/
theorem exists_found (fails : step.runOn machine = (.error (.reported error), failed)) :
    ∃ found, (findStatementWithin (machine.textLength + 2)).runOn machine = (.ok true, found) ∧
      (stepToDispatch fun _ => false).runOn machine =
        (statementToDispatch fun _ => false).runOn
          { found with statementStart := found.cursor.location } := by
  rw [← stepUnless_none, stepUnless_eq] at fails
  rcases looked : (findStatementWithin (machine.textLength + 2)).runOn machine with
    ⟨failure | (_ | _), found⟩
  · have stalled := reportsNothing_findStatementWithin (machine.textLength + 2) machine
    rw [Attempt.Ends, looked] at stalled
    have ran : (stepToDispatch fun _ => false).runOn machine = (.error failure, found) :=
      Attempt.runOn_bind_error looked _
    rw [Attempt.runOn_bind_error ran, stalled] at fails
    cases fails
  · have ran : (stepToDispatch fun _ => false).runOn machine = (.ok none, found) :=
      Attempt.runOn_bind_ok looked _
    rw [Attempt.runOn_bind_ok ran] at fails
    cases fails
  · exact ⟨found, rfl, Attempt.runOn_bind_ok looked _⟩

/-- **An error comes from the statement that began last, or from what fires behind it.** -/
theorem fails_cases (fails : step.runOn machine = (.error (.reported error), failed)) :
    ∃ found, (findStatementWithin (machine.textLength + 2)).runOn machine = (.ok true, found) ∧
      failed.statementStart = found.cursor.location ∧
      ((stepToDispatch fun _ => false).runOn machine = (.error (.reported error), failed) ∨
        ∃ moment, DispatchesUnless (fun _ => false) machine moment ∧ moment.SamePlace failed) := by
  obtain ⟨found, looked, ran⟩ := exists_found fails
  have began := statementStart_statementToDispatch
    { found with statementStart := found.cursor.location }
  refine ⟨found, looked, ?_⟩
  rw [← stepUnless_none, stepUnless_eq] at fails
  rw [← ran] at began
  rcases reached : (stepToDispatch fun _ => false).runOn machine with
    ⟨failure | (_ | _ | _), moment⟩
  all_goals rw [reached] at began
  · rw [Attempt.runOn_bind_error reached] at fails
    cases fails
    exact ⟨began, .inl rfl⟩
  · rw [Attempt.runOn_bind_ok reached] at fails
    cases fails
  · rw [Attempt.runOn_bind_ok reached] at fails
    cases fails
  · rw [Attempt.runOn_bind_ok reached] at fails
    have stays := dispatch_stays moment
    rcases fired : dispatch.runOn moment with ⟨failure | ⟨⟩, after⟩
    · rw [Attempt.Ends, fired] at stays
      have told := fails.symm.trans (Attempt.runOn_bind_error fired _)
      cases told
      exact ⟨stays.statementStart.trans began, .inr ⟨moment, reached, stays⟩⟩
    · have told := fails.symm.trans (Attempt.runOn_bind_ok fired _)
      cases told

/-- Timers and pins fire where a statement of a program has ended. -/
theorem place_of_dispatches {forbids : Machine → Bool}
    (dispatches : DispatchesUnless forbids machine moment) :
    moment.cursor.mode ≠ .interactive ∧ moment.cursor.token.isTerminator = true := by
  let fires (moment : Machine) : Prop :=
    moment.cursor.mode ≠ .interactive ∧ moment.cursor.token.isTerminator = true
  have approaches (middle : Machine) : approach.Ends middle
      (fun mayFire after => mayFire = true → fires after) fun _ _ => True := by
    refine (Attempt.Ends.unknown yield middle).bind fun _ middle _ => ?_
    refine (Attempt.Ends.unknown breakRequested middle).bind fun _ middle _ => ?_
    refine .ite (fun _ => trivial) fun _ mayFire => ?_
    simp only [Bool.and_eq_true, decide_eq_true_eq] at mayFire
    exact mayFire.1
  have ends : (stepToDispatch forbids).Ends machine
      (fun reached after => reached = some true → fires after) fun _ _ => True := by
    refine .get_bind ((Attempt.Ends.unknown _ machine).bind fun _ middle _ => ?_)
    refine .ite (fun _ => ?_) fun _ => nofun
    refine (Attempt.Ends.unknown _ middle).bind fun _ middle _ => ?_
    refine (Attempt.Ends.unknown _ middle).bind fun _ middle _ => ?_
    have goesOn (middle : Machine) : (do return some (← approach) : Action (Option Bool)).Ends
        middle (fun reached after => reached = some true → fires after) fun _ _ => True :=
      (approaches middle).bind fun _ _ mayFire same => mayFire (Option.some.inj same)
    exact .ite (fun _ => trivial) fun _ => goesOn middle
  rw [Attempt.Ends, dispatches] at ends
  exact ends rfl

/-! ### Reading again -/

/-- What is ahead depends on the cursor, the memory and the host only. -/
theorem cursorAt_of_same {other : Machine} (memory : other.memory = machine.memory)
    (host : other.host = machine.host) (cursor : other.cursor = machine.cursor) (count : Nat) :
    other.cursorAt count = machine.cursorAt count := by
  have texts : other.programText = machine.programText := by
    funext mode
    unfold programText
    rw [memory, host]
  unfold cursorAt
  rw [texts, memory, cursor]

/-- Whether a machine stands where another one would come by reading on without passing a
terminator. -/
def StaysIn (start now : Machine) : Prop :=
  ∃ read, now.cursor = start.cursorAt read ∧
    ∀ earlier < read, (start.cursorAt earlier).token.isTerminator = false

/-- The first terminator of a statement is the first one from every place in it. -/
theorem StaysIn.exists_isFirst {start now : Machine} (stays : start.StaysIn now)
    (memory : now.memory = start.memory) (host : now.host = start.host)
    (first : start.IsFirst Token.isTerminator count) :
    ∃ further, now.IsFirst Token.isTerminator further ∧
      start.cursorAt count = now.cursorAt further := by
  obtain ⟨read, here, passes⟩ := stays
  have ahead : read ≤ count := by
    by_contra behind
    exact absurd first.1 (by rw [passes count (Nat.not_le.mp behind)]; exact Bool.false_ne_true)
  obtain ⟨further, rfl⟩ := Nat.exists_eq_add_of_le ahead
  have same (place : Nat) : now.cursorAt place = (nextToken^[read] start).cursorAt place := by
    rw [iterate_nextToken]
    apply cursorAt_of_same
    · exact memory
    · exact host
    · exact here
  refine ⟨further, ?_, by rw [same, cursorAt_add]⟩
  unfold IsFirst
  simp only [same]
  exact (isFirst_iterate passes).mpr first

/-! ### Passing over an error -/

/-- What an error leaves of a machine whose handler goes on. -/
def passing (error : Error) (failed : Machine) : Machine :=
  { failed.abandon false with lastError := error.kind.code }

/-- The same tokens are read again. -/
theorem jump_passing (place : Location) : jump place (failed.passing error) =
    { failed.passing error with cursor := (jump place failed).cursor } := by
  rw [jump, jump, nextToken_eq, nextToken_eq]
  rfl

theorem cursorAt_jump_passing (place : Location) (count : Nat) :
    (jump place (failed.passing error)).cursorAt count = (jump place failed).cursorAt count := by
  rw [jump_passing]
  apply cursorAt_of_same
  · rw [jump, nextToken_eq]
    rfl
  · rw [jump, nextToken_eq]
    rfl
  · rfl

/-- **The handler goes back to the start of the statement** and reads on to the first terminator. -/
theorem runOn_unwind_resume (resumes : failed.handler = some .resume)
    (reads : failed.cursor.mode ≠ .interactive) (other : error.kind ≠ .interrupted)
    (first : (jump failed.statementStart failed).IsFirst Token.isTerminator count) :
    (unwind error).runOn failed =
      (.ok none, { failed.passing error with
        cursor := (jump failed.statementStart failed).cursorAt count }) := by
  rw [unwind, Attempt.runOn_get_bind]
  dsimp only
  rw [if_neg other, Attempt.runOn_modify_bind, if_pos reads, resumes]
  have again : (jump failed.statementStart (failed.passing error)).IsFirst Token.isTerminator
      count := by
    unfold IsFirst
    simp only [cursorAt_jump_passing]
    exact first
  show (Except.ok none, skipTo Token.isTerminator
    (jump failed.statementStart (failed.passing error))) = _
  rw [skipTo_eq rfl again, iterate_nextToken, cursorAt_jump_passing, jump_passing]

/-- **With `ERROR CONT` a program goes on behind the statement that began last**: at the first
terminator behind its start, wherever the error comes from and wherever the statement went. That is
the first terminator behind the place where the error was found, if no other one was passed on the
way there. What failed may also be a timer or a pin behind a statement that was done; the program
then goes on where this statement had left it if and only if that is the same terminator, so that
the effect of a jump is lost. -/
theorem error_cont_goes_on_behind_statement
    (fails : step.runOn machine = (.error (.reported error), failed))
    (resumes : failed.handler = some .resume) (reads : failed.cursor.mode ≠ .interactive)
    (other : error.kind ≠ .interrupted) :
    ∃ found start count,
      (findStatementWithin (machine.textLength + 2)).runOn machine = (.ok true, found) ∧
      start = jump found.cursor.location failed ∧
      start.IsFirst Token.isTerminator count ∧
      (∀ cycles, (run (cycles + 1)).runOn machine =
        (run cycles).runOn { failed.passing error with cursor := start.cursorAt count }) ∧
      (start.StaysIn failed → ∃ further, failed.IsFirst Token.isTerminator further ∧
        start.cursorAt count = failed.cursorAt further) ∧
      ∀ moment, DispatchesUnless (fun _ => false) machine moment →
        failed.cursor = moment.cursor ∧
        (start.cursorAt count = moment.cursor ↔ start.StaysIn moment) := by
  obtain ⟨found, looked, began, origin⟩ := fails_cases fails
  obtain ⟨count, -, first⟩ :=
    @exists_isFirst Token.isTerminator rfl (jump failed.statementStart failed)
  have unwound := runOn_unwind_resume resumes reads other first
  rw [began] at first unwound
  have inside (stays : (jump found.cursor.location failed).StaysIn failed) :=
    stays.exists_isFirst (by rw [jump, nextToken_eq]) (by rw [jump, nextToken_eq]) first
  refine ⟨found, _, count, looked, rfl, first, fun cycles => ?_, inside, ?_⟩
  · rw [runOn_run_of_turn (.handled fails unwound)]
  intro moment dispatches
  have same : failed.cursor = moment.cursor := by
    rcases origin with early | ⟨again, reached, stays⟩
    · rw [DispatchesUnless, early] at dispatches
      cases dispatches
    · rw [DispatchesUnless, reached] at dispatches
      cases dispatches
      exact stays.cursor
  refine ⟨same, fun here => ⟨count, here.symm, first.2⟩, ?_⟩
  rintro ⟨read, here, passes⟩
  obtain ⟨further, next, place⟩ := inside ⟨read, same.trans here, passes⟩
  -- The statement ended at a terminator, so there is none before it.
  have ended : failed.IsFirst Token.isTerminator 0 := by
    refine ⟨?_, fun _ earlier => absurd earlier (Nat.not_lt_zero _)⟩
    show failed.cursor.token.isTerminator = true
    rw [same]
    exact (place_of_dispatches dispatches).2
  obtain rfl := next.unique ended
  exact place.trans same

/-- A division fails in the middle of its line, and the rest of the line is done. -/
theorem error_cont_goes_on_behind_statement_division :
    let entering (machine : Machine) (text : String) := ((enter (ascii text)).runOn machine).2
    let typed := ["10 ERROR CONT", "20 A=1/0:PRINT 1", "RUN"].foldl entering
      (start { memorySize := 64 } {})
    let machine := ((execute 2).runOn typed).2
    let failed := (step.runOn machine).2
    (step.runOn machine).1 = .error (.reported { kind := .divisionByZero }) ∧
      failed.cursor.token = .symbol 58 ∧ ((run 1).runOn machine).2.cursor = failed.cursor := by
  intro entering typed machine failed
  -- The statement reads five tokens before it divides.
  have seen : (step.runOn machine).1 = .error (.reported { kind := .divisionByZero }) ∧
      failed.handler = some .resume ∧ failed.cursor.mode ≠ .interactive ∧
      failed.cursor.token = .symbol 58 ∧
      let found := ((findStatementWithin (machine.textLength + 2)).runOn machine).2
      let start := jump found.cursor.location failed
      failed.cursor = start.cursorAt 5 ∧
        ∀ earlier < 5, (start.cursorAt earlier).token.isTerminator = false := by
    decide +kernel
  obtain ⟨fails, resumes, reads, colon, here, passes⟩ := seen
  obtain ⟨found, begun, count, looked, rfl, -, goes, inside, -⟩ :=
    error_cont_goes_on_behind_statement (Prod.ext fails rfl) resumes reads nofun
  obtain rfl : ((findStatementWithin (machine.textLength + 2)).runOn machine).2 = found :=
    congrArg Prod.snd looked
  obtain ⟨further, next, place⟩ := inside ⟨5, here, passes⟩
  have ended : failed.IsFirst Token.isTerminator 0 := by
    refine ⟨?_, nofun⟩
    show failed.cursor.token.isTerminator = true
    rw [colon]
    rfl
  obtain rfl := next.unique ended
  refine ⟨fails, colon, ?_⟩
  rw [goes 0]
  exact place

/-- A `GOTO` is done, the timer behind it has no line to go to, and the program goes on behind the
`GOTO` instead of where it went. -/
theorem finished_goto_is_undone :
    let entering (machine : Machine) (text : String) := ((enter (ascii text)).runOn machine).2
    let typed := ["10 ERROR CONT", "20 AFTER 2 GOTO 99", "30 GOTO 50", "40 PRINT 1", "50 PRINT 2",
      "RUN"].foldl entering (start { memorySize := 128 } {})
    let machine := ((execute 3).runOn typed).2
    let moment := ((stepToDispatch fun _ => false).runOn machine).2
    DispatchesUnless (fun _ => false) machine moment ∧
      moment.cursor.token = .lineNumber 50 ∧
      (step.runOn machine).1 = .error (.reported { kind := .undefinedLine }) ∧
      ((run 1).runOn machine).2.cursor.token = .lineNumber 40 := by
  intro entering typed machine moment
  have seen : ((stepToDispatch fun _ => false).runOn machine).1.toOption = some (some true) ∧
      moment.cursor.token = .lineNumber 50 ∧
      (step.runOn machine).1 = .error (.reported { kind := .undefinedLine }) ∧
      ((run 1).runOn machine).2.cursor.token = .lineNumber 40 := by
    decide +kernel
  exact ⟨dispatchesUnless_of_mayFire seen.1, seen.2⟩

end Machine

end PocketBasic
