/-
**Interrupts stop the machine.** The host raises the interrupt at some yield, and from then on it
waits until the machine looks: behind every statement and every listed line, and wherever a
statement waits. Whatever else the machine does leaves the interrupt to wait, so that no statement
comes to its end behind it without a break.

* `Conduct.attends`: steps leave the interrupt to wait; some may also take it, and fail with a
  break;
* `Machine.attends_statement`: every statement does;
* `Machine.Begins`, `Machine.statementToBreak`: where a statement begins, and what of it the host
  sees;
* `Machine.approach_ends`, `Machine.statementToBreak_fails`: behind a statement the interrupt is
  taken, so that none ends well in which it was raised;
* `Machine.Awaits`, `Machine.run_awaits`: as long as no break is told the interrupt waits;
* `Machine.IsWait.ends`: waits end at an interrupt;
* **`Machine.interrupts_stop_the_machine`**: an interrupt that is raised in a statement stops the
  machine behind it, or behind the first later one that comes to its end.
-/

import Mathlib.Tactic.Common
import PocketBasic.Proofs.Machine.Budgets

namespace PocketBasic

/-! ### Breaks -/

/-- Whether a failure is a break. -/
def Failure.IsBreak : Failure → Prop
  | .reported error => error.kind = .interrupted
  | .fault | .zeroDivisor | .stalled => False

/-- Whether the host is told of a break. -/
def Outcome.IsBreak : Outcome → Prop
  | .failed error => error.kind = .interrupted
  | .stopped | .running => False

/-- The conduct of steps that leave the interrupt to wait. Some of them may also take it, and fail
with a break then. -/
def Conduct.attends (mayBreak : Bool) : Conduct Machine where
  moves before after := before.host.KeepsInterrupts after.host
  fails before failure after :=
    before.host.KeepsInterrupts after.host ∨ mayBreak = true ∧ failure.IsBreak
  refl machine := .refl machine.host
  trans := .trans
  fails_of_moves first second := second.imp_left first.trans
  fails_moves first second := first.imp_left fun keeps => keeps.trans second

namespace Machine

open Conduct (attends)

variable {α : Type} {machine middle begun ended after last : Machine} {mayBreak : Bool}
  {count : Nat}
  {error : Error} {result : Except Failure Bool}

/-- Whether the interrupt waits. -/
def IsInterrupted (machine : Machine) : Prop := machine.host.signals.interrupted = true

/-! ### What statements do about the interrupt -/

theorem attends_of_host (same : after.host = machine.host) :
    (attends mayBreak).moves machine after := by
  show machine.host.KeepsInterrupts after.host
  rw [same]
  exact .refl machine.host

theorem host_jump (place : Location) (machine : Machine) :
    (jump place machine).host = machine.host := by
  rw [jump, nextToken_eq]

theorem ignoresMemory_attends : (attends mayBreak).IgnoresMemory :=
  ⟨fun machine _ => .refl machine.host, fun machine _ _ _ => .inl (.refl machine.host)⟩

theorem refines_attends : (attends false).Refines (attends mayBreak) :=
  ⟨id, fun fails => fails.imp_right fun breaks => nomatch breaks.1⟩

theorem recovers_attends : (attends false).Recovers :=
  fun fails => fails.elim id fun breaks => nomatch breaks.1

/-- **Evaluations leave the interrupt to wait.** -/
instance evaluates_attends : (attends false).Evaluates where
  toReads := ignoresMemory_attends.usesMemory.reads ⟨fun machine => .inl (.refl machine.host)⟩
    (fun _ _ _ _ _ _ _ _ _ _ consulted _ _ => consulted.toKeepsInterrupts)
    (fun machine => .inl (.refl machine.host)) fun machine => .inl (.refl machine.host)
  toMakes := ignoresMemory_attends.usesMemory.makes
  moves_excursion {before middle after} entry first second := by
    have second : (jump (before.bodyPlace entry) middle).host.KeepsInterrupts after.host := second
    show before.host.KeepsInterrupts (jump before.cursor.location after).host
    rw [host_jump] at second ⊢
    exact first.trans second
  fails_excursion _ first second := by
    refine second.imp_left fun second => ?_
    rw [host_jump] at second
    exact first.trans second
  fails_otherwise fails := .inl (recovers_attends fails)
  fails_first first second := .inl ((recovers_attends first).trans (recovers_attends second))
  fails_second first second := .inl ((recovers_attends first).trans (recovers_attends second))
  storeScalar := ignoresMemory_attends.usesMemory.storeScalar
  deleteScalar := ignoresMemory_attends.usesMemory.delete .scalar

instance follows_attends : (attends mayBreak).Follows where
  toConsults := ignoresMemory_attends.usesMemory.consults
    fun _ _ _ _ _ _ _ consulted => consulted.toKeepsInterrupts
  fails_stalled machine := .inl (.refl machine.host)
  moves_next machine := by
    rw [nextToken_eq]
    exact .refl machine.host

instance operates_attends : (attends mayBreak).Operates where
  toFollows := inferInstance
  storeScalar := ignoresMemory_attends.usesMemory.storeScalar
  deleteScalar := ignoresMemory_attends.usesMemory.delete .scalar
  evaluation evaluates :=
    (computes_of_calls.evaluation evaluates : _).of_refines refines_attends
  moves_cleared machine _ _ := .refl machine.host
  named := (operates_of_evaluates.named : _).of_refines refines_attends

instance goes_attends : (attends mayBreak).Goes where
  toFollows := inferInstance
  moves_registers shares := attends_of_host shares.host
  moves_host _ _ := id
  findLine _ := ignoresMemory_attends.onMemory (Memory.ordinary_always _)

/-- **Statements that break take the interrupt.** -/
instance steers_attends : (attends true).Steers where
  toOperates := inferInstance
  moves_registers := goes_attends.moves_registers
  moves_host := goes_attends.moves_host
  findLine := goes_attends.findLine
  fails_interrupted _ _ _ := .inr ⟨rfl, rfl⟩
  moves_loops machine _ _ := .refl machine.host
  fails_empty machine := .inl (.refl machine.host)

instance diverts_attends : (attends mayBreak).Diverts where
  moves_returns machine _ := .refl machine.host
  fails_full machine := .inl (.refl machine.host)
  fails_empty machine := .inl (.refl machine.host)
  moves_pins machine _ := .refl machine.host

instance : (attends mayBreak).SeeksData := ⟨fun machine _ => .refl machine.host⟩

instance : (attends mayBreak).StartsStatements := ⟨fun machine => .refl machine.host⟩

instance (repeats : Bool) : (attends mayBreak).SetsTimer repeats :=
  ⟨fun machine _ => .refl machine.host⟩

instance : (attends mayBreak).Idles := ⟨fun machine _ => .refl machine.host⟩

instance : (attends mayBreak).Postpones := ⟨fun machine _ _ => .refl machine.host⟩

instance : (attends mayBreak).Edits := ignoresMemory_attends.edits

instance : (attends mayBreak).EditsProgram := ignoresMemory_attends.editsProgram

theorem attends_clear : clear.Obeys (attends mayBreak) :=
  (ignoresMemory_attends.onMemory Memory.obeys_clearHeap).bind fun _ =>
    .modify fun machine => .refl machine.host

theorem attends_pushLoop (loop : Loop) : (onLoops (BoundedStack.push loop)).Obeys (attends true) :=
  obeys_pushLoop_of (fun machine _ => Host.KeepsInterrupts.refl machine.host)
    (fun machine => Or.inl (Host.KeepsInterrupts.refl machine.host)) loop

instance performs_attends : (attends true).Performs where
  toEdits := inferInstance
  forbids _ := false
  remains := inferInstance
  editsProgram _ _ := inferInstance
  departs _ _ := inferInstance
  clear _ _ := attends_clear
  watchPins machine _ _ := .refl machine.host
  takeDatum _ _ := obeys_takeDatum
  seekData _ _ machine _ := .refl machine.host
  setTimer _ _ _ := obeys_timerStatement
  clearTimer _ := obeys_clearTimer
  holdPins _ _ := obeys_enablePins false _
  releasePins _ _ := obeys_enablePins true _
  clearReturns _ _ machine := .refl machine.host
  poke _ _ := ignoresMemory_attends.usesMemory.pokeStatement
  forStatement _ _ := obeys_forStatement attends_pushLoop _
  whileStatement _ _ := obeys_whileStatement attends_pushLoop _
  repeatStatement _ _ := obeys_repeatStatement attends_pushLoop _

/-- **Every statement leaves the interrupt to wait**, or fails with a break. -/
theorem attends_statement : statement.Obeys (attends true) := by
  have obeys : (statementUnless performs_attends.forbids).Obeys (attends true) :=
    obeys_statementUnless
  rwa [show performs_attends.forbids = fun _ => false from rfl, statementUnless_none] at obeys

/-! ### Statements and what the host sees of them -/

/-- A statement, which must come to its end. -/
def wholeStatement : Action Unit := do
  statement
  if !(← atEnd) then Attempt.fail .syntaxError

/-- A statement and the look for a break behind it: all of a step in which the host runs, once the
statement has begun. Tells whether timers and pins may fire then. -/
def statementToBreak : Action Bool := do
  wholeStatement
  approach

/-- Whether the next statement of a machine begins at another one. -/
def Begins (machine begun : Machine) : Prop :=
  ∃ found, (findStatementWithin (machine.textLength + 2)).runOn machine = (.ok true, found) ∧
    begun = { found with statementStart := found.cursor.location }

theorem runOn_step_of_begins (begins : machine.Begins begun) :
    Machine.step.runOn machine =
      (do
        if ← statementToBreak then dispatch
        return true : Action Bool).runOn begun := by
  obtain ⟨found, looked, rfl⟩ := begins
  have rest : (do
      checkpoint
      return true : Action Bool) = (do
        if ← approach then dispatch
        return true : Action Bool) := by
    rw [checkpoint_eq, bind_assoc]
    congr 1
    funext mayFire
    cases mayFire <;> rfl
  rw [Machine.step, Attempt.runOn_get_bind, Attempt.runOn_bind_ok looked, if_pos rfl,
    Attempt.runOn_modify_bind, rest]
  unfold statementToBreak wholeStatement
  simp only [bind_assoc]
  congr 1
  congr 1
  funext _
  congr 1
  funext ends
  cases ends
  · rfl
  · simp

theorem step_fails_of_begins {failure : Failure} (begins : machine.Begins begun)
    (ran : statementToBreak.runOn begun = (.error failure, ended)) :
    Machine.step.runOn machine = (.error failure, ended) := by
  rw [runOn_step_of_begins begins]
  exact Attempt.runOn_bind_error ran _

theorem keepsInterrupts_of_begins (begins : machine.Begins begun) :
    machine.host.KeepsInterrupts begun.host := by
  obtain ⟨found, looked, rfl⟩ := begins
  have finds : (findStatementWithin (machine.textLength + 2)).Obeys (attends true) :=
    obeys_findStatementWithin _
  exact ((finds machine).moves looked : machine.host.KeepsInterrupts found.host)

theorem attends_wholeStatement : wholeStatement.Obeys (attends true) :=
  attends_statement.bind fun _ => obeys_atEnd.bind fun _ => .ite (obeys_fail (by decide)) (.pure _)

theorem attends_statementToBreak : statementToBreak.Obeys (attends true) :=
  attends_wholeStatement.bind fun _ => obeys_approach

theorem attends_step : Machine.step.Obeys (attends true) := by
  have obeys : (stepUnless performs_attends.forbids).Obeys (attends true) :=
    @obeys_stepUnless _ performs_attends _ inferInstance inferInstance inferInstance (.refl _)
      obeys_servePins
  rwa [show performs_attends.forbids = fun _ => false from rfl, stepUnless_none] at obeys

/-- Whether a step tells that the machine must stop, or that no interrupt waits and then changes
nothing. -/
def LooksForInterrupt (look : Action Bool) : Prop :=
  ∀ machine : Machine, (∃ after, look.runOn machine = (.ok true, after)) ∨
    (¬ machine.IsInterrupted ∧ look.runOn machine = (.ok false, machine))

theorem not_isInterrupted (free : machine.host.signals.interrupted = false) :
    ¬ machine.IsInterrupted := by
  rw [IsInterrupted, free]
  exact Bool.false_ne_true

theorem takeInterrupt_looks : LooksForInterrupt takeInterrupt := by
  intro machine
  rcases runOn_takeInterrupt machine with ⟨-, host, -, ran⟩ | ⟨free, ran⟩
  · exact .inl ⟨_, ran⟩
  · exact .inr ⟨not_isInterrupted free, ran⟩

theorem breakRequested_looks : LooksForInterrupt breakRequested := by
  intro machine
  rcases runOn_breakRequested machine with ⟨host, -, ran⟩ | ⟨free, ran⟩
  · exact .inl ⟨_, ran⟩
  · exact .inr ⟨not_isInterrupted free, ran⟩

/-- **Behind a statement the interrupt is taken**: it does not wait any more where timers and pins
may fire, and a machine that does not come there fails with a break. -/
theorem approach_ends (machine : Machine) :
    approach.Ends machine
      (fun _ after => machine.host.KeepsInterrupts after.host ∧ ¬ after.IsInterrupted)
      fun failure _ => failure = .reported { kind := .interrupted } := by
  have yields : yield.runOn machine = (.ok (), { machine with host := machine.host.yield }) := rfl
  refine .ok_bind yields ?_
  rcases breakRequested_looks { machine with host := machine.host.yield } with
    ⟨after, ran⟩ | ⟨free, ran⟩
  · exact .ok_bind ran rfl
  · exact .ok_bind ran ⟨machine.host.consulted_yield.toKeepsInterrupts, free⟩

/-- A machine on which the interrupt waits behind a statement fails there with a break. -/
theorem approach_fails (waits : machine.IsInterrupted) :
    ∃ after, approach.runOn machine = (.error (.reported { kind := .interrupted }), after) := by
  have ends := approach_ends machine
  rcases ran : approach.runOn machine with ⟨failure | mayFire, after⟩
  · obtain rfl := ends.excused ran
    exact ⟨after, rfl⟩
  · obtain ⟨keeps, gone⟩ := ends.kept ran
    refine absurd ?_ gone
    rw [IsInterrupted, keeps.interrupted, waits, Bool.true_or]

/-- **No statement comes to its end behind an interrupt.** If one was raised before or in it, up to
the look for a break, then the statement fails. -/
theorem statementToBreak_fails (ran : statementToBreak.runOn begun = (result, ended))
    (raised : begun.IsInterrupted ∨
      begun.host.interruptsBetween begun.host.yields ended.host.yields = true) :
    ∃ failure, result = .error failure ∧ (ended.IsInterrupted ∨ failure.IsBreak) := by
  have interrupted (keeps : begun.host.KeepsInterrupts ended.host) : ended.IsInterrupted := by
    rw [IsInterrupted, keeps.interrupted]
    rcases raised with waits | raised
    · rw [show begun.host.signals.interrupted = true from waits, Bool.true_or]
    · rw [raised, Bool.or_true]
  have obeys := attends_statementToBreak begun
  rcases result with failure | mayFire
  · refine ⟨failure, rfl, ?_⟩
    exact (obeys.fails ran).imp interrupted And.right
  · obtain ⟨_, done, -, looked⟩ := Attempt.exists_of_runOn_bind ran
    exact absurd (interrupted (obeys.moves ran)) ((approach_ends done).kept looked).2

/-! ### Breaks and errors -/

/-- Whether a run tells of a break after so many turns, however much more it may do. -/
def BreaksAfter (machine : Machine) (turns : Nat) : Prop :=
  ∃ error after, error.kind = .interrupted ∧
    ∀ more, (execute (turns + more)).runOn machine = (.ok (.failed error), after)

theorem kind_located (line : Option LineNumber) (error : Error) :
    (located line error).kind = error.kind := by
  cases line with
  | none => rfl
  | some line =>
    rw [located]
    split <;> rfl

/-- A run whose next step fails with a break tells of it. -/
theorem breaksAfter_of_step (busy : machine.IsBusy) (turns : Turns count machine middle)
    (breaks : error.kind = .interrupted)
    (fails : Machine.step.runOn middle = (.error (.reported error), ended)) :
    machine.BreaksAfter (count + 1) := by
  have untaken : ¬ ended.Takes error := fun taken => taken.2.2 breaks
  obtain ⟨after, unwound, -⟩ := exists_unwind untaken
  refine ⟨_, after, (kind_located ended.failingLine error).trans breaks, fun more => ?_⟩
  rw [busy.runOn_execute, Nat.add_assoc, runOn_run_of_turns turns, Nat.add_comm 1,
    runOn_run_of_unwound fails unwound]

/-- What another error does leaves the interrupt to wait, and never fails. -/
theorem exists_unwound (error : Error) (machine : Machine) :
    ∃ outcome after, (unwind error).runOn machine = (.ok outcome, after) ∧
      machine.host.KeepsInterrupts after.host := by
  have obeys : (unwind error).ObeysFrom (attends false) machine :=
    obeysFrom_unwind recovers_attends fun _ => .refl machine.host
  rcases ran : (unwind error).runOn machine with ⟨failure | outcome, after⟩
  · exact ((unwind_ends error machine).excused ran).elim
  · exact ⟨outcome, after, rfl, obeys.moves ran⟩

/-! ### As long as no break is told -/

theorem IsInterrupted.keep (waits : machine.IsInterrupted)
    (keeps : machine.host.KeepsInterrupts after.host) : after.IsInterrupted := by
  rw [IsInterrupted, keeps.interrupted, show machine.host.signals.interrupted = true from waits,
    Bool.true_or]

theorem refines_keepsInterrupted : (attends false).Refines (.keeps IsInterrupted) :=
  ⟨fun keeps waits => waits.keep keeps, fun fails waits => waits.keep (recovers_attends fails)⟩

/-- An error after which the run goes on leaves the interrupt to wait; the host is told of a
break. -/
theorem exists_unwound_awaiting
    (waits : machine.IsInterrupted ∨ error.kind = .interrupted) :
    ∃ outcome after, (unwind error).runOn machine = (.ok outcome, after) ∧
      outcome.elim after.IsInterrupted fun told => after.IsInterrupted ∨ told.IsBreak := by
  rcases waits with waits | breaks
  · obtain ⟨outcome, after, unwound, keeps⟩ := exists_unwound error machine
    refine ⟨outcome, after, unwound, ?_⟩
    cases outcome with
    | none => exact waits.keep keeps
    | some told => exact .inl (waits.keep keeps)
  · have untaken : ¬ machine.Takes error := fun taken => taken.2.2 breaks
    obtain ⟨after, unwound, -⟩ := exists_unwind untaken
    exact ⟨_, after, unwound, .inr ((kind_located machine.failingLine error).trans breaks)⟩

/-- **As long as no break is told the interrupt goes on to wait**, whatever a run does. -/
theorem run_awaits (cycles : Nat) (waits : machine.IsInterrupted) :
    (run cycles).Ends machine (fun outcome after => after.IsInterrupted ∨ outcome.IsBreak)
      fun failure after => after.IsInterrupted ∨ failure.IsBreak := by
  induction cycles generalizing machine with
  | zero => exact .inl waits
  | succ cycles ih =>
    have steps : Machine.step.Ends machine (fun _ after => after.IsInterrupted)
        fun failure after => after.IsInterrupted ∨ failure.IsBreak :=
      (attends_step machine).ends.mono (fun _ _ keeps => waits.keep keeps)
        fun _ _ fails => fails.imp waits.keep And.right
    refine steps.caught.bind fun result after reached => ?_
    rcases result with error | (_ | _)
    · obtain ⟨outcome, last, unwound, awaits⟩ := exists_unwound_awaiting reached
      refine .ok_bind unwound ?_
      cases outcome with
      | some outcome => exact awaits
      | none => exact ih awaits
    · exact .inl reached
    · exact ih reached

theorem execute_awaits (cycles : Nat) (waits : machine.IsInterrupted) :
    (execute cycles).Ends machine (fun outcome after => after.IsInterrupted ∨ outcome.IsBreak)
      fun failure after => after.IsInterrupted ∨ failure.IsBreak := by
  refine .get_bind ?_
  cases machine.pending with
  | some error => exact .inl waits
  | none => exact .ite (fun _ => .pure (.inl waits)) fun _ => run_awaits cycles waits

/-- Whether a host can bring one machine to another one without being told of a break. It enters
lines, starts the stored program and lets the machine do statements; in between its devices do what
they want, but for taking the interrupt back. -/
inductive Awaits (first : Machine) : Machine → Prop
  | refl : Awaits first first
  | devices {machine : Machine} {host : Host} :
    Awaits first machine →
    (machine.host.signals.interrupted = true → host.signals.interrupted = true) →
      Awaits first { machine with host }
  | enter {machine : Machine} (text : Bytes) :
    Awaits first machine → Awaits first ((enter text).runOn machine).2
  | autorun {machine : Machine} :
    Awaits first machine → Awaits first (autorun.runOn machine).2
  | execute {machine after : Machine} {cycles : Nat} {outcome : Outcome} :
    Awaits first machine → (execute cycles).runOn machine = (.ok outcome, after) →
    ¬ outcome.IsBreak → Awaits first after

theorem Awaits.isInterrupted (awaits : machine.Awaits last) (waits : machine.IsInterrupted) :
    last.IsInterrupted := by
  induction awaits with
  | refl => exact waits
  | devices _ keeps ih => exact keeps ih
  | enter text _ ih =>
    exact holds_after ((obeys_enter recovers_attends text).of_refines refines_keepsInterrupted) ih
  | autorun _ ih =>
    exact holds_after ((obeys_autorun attends_clear).of_refines refines_keepsInterrupted) ih
  | execute _ ran other ih => exact ((execute_awaits _ ih).kept ran).resolve_right other

/-- The turns of a run leave the interrupt to wait: none of them ends in a break. -/
theorem IsInterrupted.turns (waits : machine.IsInterrupted) (turns : Turns count machine middle) :
    middle.IsInterrupted := by
  induction turns with
  | none => exact waits
  | next turn _ ih =>
    refine ih ?_
    cases turn with
    | done ran => exact waits.keep ((attends_step _).moves ran)
    | handled ran goesOn =>
      have left := ((attends_step _).fails ran).resolve_right fun breaks =>
        (takes_of_unwind goesOn).2.2 breaks.2
      obtain ⟨_, _, unwound, keeps⟩ := exists_unwound _ _
      cases goesOn.symm.trans unwound
      exact (waits.keep left).keep keeps

/-- Whether the interrupt waits on a machine and wherever the host brings it without being told of a
break, and a run there tells of a break behind the first statement that comes to its end. -/
def StopsNext (machine : Machine) : Prop :=
  ∀ last, machine.Awaits last → last.IsInterrupted ∧
    ∀ count middle begun done, last.IsBusy → Turns count last middle → middle.Begins begun →
      wholeStatement.runOn begun = (.ok (), done) → last.BreaksAfter (count + 1)

/-- **An interrupt that waits stops the machine behind the next statement that comes to its
end.** -/
theorem IsInterrupted.stopsNext (waits : machine.IsInterrupted) : machine.StopsNext := by
  intro last awaits
  have interrupted := awaits.isInterrupted waits
  refine ⟨interrupted, fun count middle begun done busy turns begins completes => ?_⟩
  have still := (interrupted.turns turns).keep (keepsInterrupts_of_begins begins)
  have reached := still.keep ((attends_wholeStatement begun).moves completes)
  obtain ⟨ended, fails⟩ := approach_fails reached
  have stops : statementToBreak.runOn begun =
      (.error (.reported { kind := .interrupted }), ended) :=
    (Attempt.runOn_bind_ok completes _).trans fails
  exact breaksAfter_of_step busy turns rfl (step_fails_of_begins begins stops)

/-! ### Waits -/

/-- The waits of the machine in which the host runs at least once: for a byte of a channel, and
until some time has passed. -/
inductive IsWait : {α : Type} → Action α → Prop
  | input (channel : UInt8) (fuel : Nat) : IsWait (readByteWithin channel (fuel + 1))
  | delay (start milliseconds : UInt64) (fuel : Nat) :
    IsWait (delayWithin start milliseconds (fuel + 1))

/-- Where a wait that never ends is when it was not interrupted so far. -/
def WaitsOn (before : Machine) (failure : Failure) (after : Machine) : Prop :=
  failure = .stalled → before.host.KeepsInterrupts after.host ∧ ¬ after.IsInterrupted

/-- Whether a step that begins where no interrupt waits goes on without one if it never ends. -/
def WaitsUninterrupted (step : Action α) : Prop :=
  ∀ machine : Machine, ¬ machine.IsInterrupted →
    step.Ends machine (fun _ _ => True) machine.WaitsOn

theorem waitsUninterrupted_stalled : WaitsUninterrupted (throw .stalled : Action α) :=
  fun machine free _ => ⟨.refl machine.host, free⟩

/-- A round of a wait: the host runs, the interrupt is looked for, and the wait goes on. -/
theorem round_ends {look : Action Bool} {next : Action α}
    (looks : LooksForInterrupt look) (goesOn : WaitsUninterrupted next) (machine : Machine) :
    (do
      yield
      if ← look then Attempt.fail .interrupted else next : Action α).Ends machine (fun _ _ => True)
        machine.WaitsOn := by
  have yields : yield.runOn machine = (.ok (), { machine with host := machine.host.yield }) := rfl
  refine .ok_bind yields ?_
  rcases looks { machine with host := machine.host.yield } with ⟨after, ran⟩ | ⟨free, ran⟩
  · refine .ok_bind ran ?_
    exact nofun
  · refine .ok_bind ran ((goesOn _ free).mono (fun _ _ _ => trivial) ?_)
    intro _ after waits stalls
    obtain ⟨keeps, still⟩ := waits stalls
    exact ⟨machine.host.consulted_yield.toKeepsInterrupts.trans keeps, still⟩

theorem readByteWithin_ends (channel : UInt8) {fuel : Nat}
    (goesOn : WaitsUninterrupted (readByteWithin channel fuel)) (machine : Machine) :
    (readByteWithin channel (fuel + 1)).Ends machine (fun _ _ => True) machine.WaitsOn := by
  refine .ok_bind (runOn_onHost _ machine) ?_
  cases (machine.host.read channel).1 with
  | some byte => exact trivial
  | none =>
    refine Attempt.Ends.get_bind (.ite (fun _ => ?_) fun _ => trivial)
    refine (round_ends takeInterrupt_looks goesOn _).mono (fun _ _ _ => trivial) ?_
    intro _ after waits stalls
    obtain ⟨keeps, still⟩ := waits stalls
    exact ⟨(machine.host.consulted_read channel).toKeepsInterrupts.trans keeps, still⟩

theorem delayWithin_ends (start milliseconds : UInt64) {fuel : Nat}
    (goesOn : WaitsUninterrupted (delayWithin start milliseconds fuel)) (machine : Machine) :
    (delayWithin start milliseconds (fuel + 1)).Ends machine (fun _ _ => True)
      machine.WaitsOn := by
  refine .get_bind (.ite (fun _ => ?_) fun _ => trivial)
  exact round_ends breakRequested_looks goesOn machine

/-- **Every wait ends at an interrupt**: one that never ends was not interrupted. -/
theorem IsWait.ends {wait : Action α} (waits : IsWait wait) (machine : Machine) :
    wait.Ends machine (fun _ _ => True) machine.WaitsOn := by
  cases waits with
  | input channel fuel =>
    have goesOn : WaitsUninterrupted (readByteWithin channel fuel) := by
      induction fuel with
      | zero => exact waitsUninterrupted_stalled
      | succ fuel ih => exact fun machine _ => readByteWithin_ends channel ih machine
    exact readByteWithin_ends channel goesOn machine
  | delay start milliseconds fuel =>
    have goesOn : WaitsUninterrupted (delayWithin start milliseconds fuel) := by
      induction fuel with
      | zero => exact waitsUninterrupted_stalled
      | succ fuel ih => exact fun machine _ => delayWithin_ends start milliseconds ih machine
    exact delayWithin_ends start milliseconds goesOn machine

/-! ### The next boundary -/

/-- A run whose next step has no next state has none either. -/
theorem runOn_execute_fatal {failure : Failure} (busy : machine.IsBusy)
    (turns : Turns count machine middle) (fatal : ∀ error, failure ≠ .reported error)
    (fails : Machine.step.runOn middle = (.error failure, ended)) (more : Nat) :
    (execute (count + 1 + more)).runOn machine = (.error failure, ended) := by
  rw [busy.runOn_execute, Nat.add_assoc, runOn_run_of_turns turns, Nat.add_comm 1,
    runOn_run_of_fatal fails fatal]

/-- What a run tells after so many turns and on which machine, and that it goes on there if it may
do more. -/
def Tells (machine : Machine) (turns : Nat) (outcome : Outcome) (after : Machine) : Prop :=
  (execute turns).runOn machine = (.ok outcome, after) ∧
    ∀ more, (execute (turns + more)).runOn machine =
      if outcome = .running then (execute more).runOn after else (.ok outcome, after)

/-- A run whose next step fails with another error leaves the interrupt to wait. -/
theorem exists_tells_awaiting (busy : machine.IsBusy) (turns : Turns count machine middle)
    (waits : ended.IsInterrupted)
    (fails : Machine.step.runOn middle = (.error (.reported error), ended)) :
    ∃ outcome after, machine.Tells (count + 1) outcome after ∧ after.IsInterrupted := by
  obtain ⟨outcome, after, unwound, keeps⟩ := exists_unwound error ended
  have told := (unwind_ends error ended).kept unwound
  have goesOn (more : Nat) :
      (execute (count + 1 + more)).runOn machine = (run (more + 1)).runOn middle := by
    rw [busy.runOn_execute, Nat.add_assoc, runOn_run_of_turns turns, Nat.add_comm 1]
  cases outcome with
  | some outcome =>
    have ends (more : Nat) : (execute (count + 1 + more)).runOn machine = (.ok outcome, after) :=
      (goesOn more).trans (runOn_run_of_unwound fails unwound more)
    have stops : outcome ≠ .running := fun runs => told.1 (congrArg some runs)
    exact ⟨outcome, after, ⟨ends 0, fun more => (ends more).trans (if_neg stops).symm⟩,
      waits.keep keeps⟩
  | none =>
    have turn : Turn middle after := .handled fails unwound
    have still : after.IsBusy := (busy.turns turns).turn turn
    refine ⟨.running, after, ⟨(goesOn 0).trans (runOn_run_of_turn turn 0), fun more => ?_⟩,
      waits.keep keeps⟩
    rw [goesOn, runOn_run_of_turn turn, if_pos rfl, still.runOn_execute]

/-- **An interrupt stops the machine at the next boundary.** A run has done any number of turns, and
a statement begins; the interrupt waits already, or the host raises it at one of the yields of the
statement or at the one behind it, at which a break is looked for. Then the statement does not go
over into a next one. Either the run tells of a break, and has done nothing else before. Or the
statement ended in another error; then the interrupt waits, also when the error is dealt with, and
goes on to wait whatever the host and the machine do, until a break is told, no later than behind
the first statement that comes to its end. Or the machine has no next state. A wait that never ends
was not interrupted. -/
theorem interrupts_stop_the_machine (busy : machine.IsBusy) (turns : Turns count machine middle)
    (begins : middle.Begins begun) (ran : statementToBreak.runOn begun = (result, ended))
    (raised : begun.IsInterrupted ∨
      begun.host.interruptsBetween begun.host.yields ended.host.yields = true) :
    (machine.BreaksAfter (count + 1) ∨
      (∃ error outcome after, result = .error (.reported error) ∧ error.kind ≠ .interrupted ∧
        ended.IsInterrupted ∧ machine.Tells (count + 1) outcome after ∧ after.StopsNext) ∨
      ∃ failure, result = .error failure ∧ (∀ error, failure ≠ .reported error) ∧
        ∀ more, (execute (count + 1 + more)).runOn machine = (.error failure, ended)) ∧
    ∀ {α : Type} {wait : Action α}, IsWait wait → ∀ before after : Machine,
      wait.runOn before = (.error .stalled, after) →
        ¬ before.IsInterrupted ∧
          before.host.interruptsBetween before.host.yields after.host.yields = false := by
  refine ⟨?_, fun waits before after stalls => ?_⟩
  · obtain ⟨failure, rfl, left⟩ := statementToBreak_fails ran raised
    have fails := step_fails_of_begins begins ran
    by_cases told : ∃ error, failure = .reported error
    · obtain ⟨error, rfl⟩ := told
      by_cases breaks : error.kind = .interrupted
      · exact .inl (breaksAfter_of_step busy turns breaks fails)
      · have waits := left.resolve_right breaks
        obtain ⟨outcome, after, tells, still⟩ := exists_tells_awaiting busy turns waits fails
        exact .inr (.inl ⟨error, outcome, after, rfl, breaks, waits, tells, still.stopsNext⟩)
    · have fatal (error : Error) : failure ≠ .reported error := fun same => told ⟨error, same⟩
      exact .inr (.inr ⟨failure, rfl, fatal, runOn_execute_fatal busy turns fatal fails⟩)
  · obtain ⟨keeps, free⟩ := (waits.ends before).excused stalls rfl
    rw [IsInterrupted, keeps.interrupted, Bool.or_eq_true, not_or] at free
    exact ⟨free.1, by simpa using free.2⟩

/-- The interrupt is raised at the first byte that a statement prints, which fails then. The host is
told of its error, and the next line is stopped behind its first statement. -/
theorem interrupts_stop_the_machine_division :
    let host : Host := { triggers := [{ yield := 1, interrupts := true }] }
    let typed := ((enter (ascii "PRINT \"A\";1/0")).runOn (start { memorySize := 32 } host)).2
    let after := ((execute 1).runOn typed).2
    let later := ((enter (ascii "PRINT 1:PRINT 2")).runOn after).2
    ((execute 1).runOn typed).1 = .ok (.failed { kind := .divisionByZero }) ∧
      after.IsInterrupted ∧ later.BreaksAfter 1 := by
  intro host typed after later
  let finds (machine : Machine) :=
    (findStatementWithin (machine.textLength + 2)).runOn machine
  let begun (machine : Machine) : Machine :=
    { (finds machine).2 with statementStart := (finds machine).2.cursor.location }
  have seen : (typed.isIdle = false ∧ typed.pending = none) ∧ (finds typed).1 = .ok true ∧
      (statementToBreak.runOn (begun typed)).1 = .error (.reported { kind := .divisionByZero }) ∧
      (begun typed).host.interruptsBetween (begun typed).host.yields
        (statementToBreak.runOn (begun typed)).2.host.yields = true ∧
      ((execute 1).runOn typed).1 = .ok (.failed { kind := .divisionByZero }) ∧
      (later.isIdle = false ∧ later.pending = none) ∧ (finds later).1 = .ok true ∧
      (wholeStatement.runOn (begun later)).1 = .ok () := by
    decide +kernel
  obtain ⟨busy, found, failed, raised, told, goesOn, next, whole⟩ := seen
  have stops := interrupts_stop_the_machine busy .none ⟨_, Prod.ext found rfl, rfl⟩
    (Prod.ext failed rfl) (.inr raised)
  rcases stops.1 with ⟨error, _, breaks, tells⟩ | ⟨_, outcome, reached, -, -, -, ⟨ran, -⟩, awaits⟩ |
    ⟨failure, same, fatal, -⟩
  · have tells := congrArg Prod.fst (tells 0)
    rw [told] at tells
    cases tells
    cases breaks
  · obtain rfl : reached = after := (congrArg Prod.snd ran).symm
    have waits := awaits after .refl
    refine ⟨told, waits.1, ?_⟩
    exact (awaits later (.enter _ .refl)).2 0 later _ _ goesOn .none ⟨_, Prod.ext next rfl, rfl⟩
      (Prod.ext whole rfl)
  · cases same
    exact absurd rfl (fatal _)

end Machine

end PocketBasic
