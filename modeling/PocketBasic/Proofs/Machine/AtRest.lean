/-
**Between statements no operand is left.** Evaluations take off what they put on the operands, and
whatever else statements do drops operands or leaves them alone; an error drops all of them. So
wherever a host brings a machine, statements begin without any operand and outside of evaluations,
and no error of a run blames a missing operand.

* `Machine.IsAtRest`: a machine without operands in which no evaluation is open;
* `Machine.TellsApart`: a machine that blames missing operands for nothing else; `Machine.MayBegin`:
  a machine that is ready for a statement, which is both;
* `Conduct.settles`: what leaves a machine at rest where it ends well, and blames no operand where
  it fails; `Conduct.rests`: what leaves a machine at rest in any case;
* `Machine.performs_settles`, `Machine.settles_step`: statements settle, and so do steps of runs;
* `Machine.runOn_stepUnless_isEvaluating`: no statement begins where an operand is left;
* `Machine.endsReady_unwind`, `Machine.endsReady_execute`: errors and runs leave machines ready;
* **`Machine.operand_stack_is_balanced`**: evaluations leave their number on the operands and
  nothing else, statements begin without any, and no error blames them.
-/

import Mathlib.Tactic.Common
import PocketBasic.Proofs.Machine.Operands
import PocketBasic.Proofs.Machine.Running

namespace PocketBasic

/-! ### Machines at rest -/

namespace Machine

/-- Whether no operand is left and no evaluation is open. -/
structure IsAtRest (machine : Machine) : Prop where
  operands : machine.operands.entries = []
  depth : machine.depth = 0

instance : DecidablePred IsAtRest := fun machine =>
  decidable_of_iff (machine.operands.entries = [] ∧ machine.depth = 0)
    ⟨fun rested => ⟨rested.1, rested.2⟩, fun rested => ⟨rested.operands, rested.depth⟩⟩

/-- Whether missing loops, missing subroutines and the error that waits to be told are told apart
from missing operands. -/
structure TellsApart (machine : Machine) : Prop where
  loops : machine.loops.underflow ≠ .internalError
  returns : machine.returns.underflow ≠ .internalError
  pending : ∀ error ∈ machine.pending, ¬ error.BlamesOperands

/-- Whether the machine is ready for a statement: at rest, and telling errors apart. -/
structure MayBegin (machine : Machine) : Prop extends machine.TellsApart, machine.IsAtRest

variable {α β : Type} {machine after : Machine}

theorem IsAtRest.of_same (rested : machine.IsAtRest)
    (same : (after.operands, after.depth) = (machine.operands, machine.depth)) :
    after.IsAtRest := by
  rw [Prod.mk.injEq] at same
  exact ⟨same.1 ▸ rested.operands, same.2.trans rested.depth⟩

theorem TellsApart.of_same (tells : machine.TellsApart)
    (loops : after.loops.underflow = machine.loops.underflow)
    (returns : after.returns.underflow = machine.returns.underflow)
    (pending : after.pending = machine.pending) : after.TellsApart :=
  ⟨loops ▸ tells.loops, returns ▸ tells.returns, pending ▸ tells.pending⟩

theorem isApart_tellsApart : IsApart TellsApart :=
  fun _ _ _ _ _ _ _ _ _ _ _ _ tells => tells.of_same rfl rfl rfl

theorem mayBegin_start (config : Config) (host : Host) : (start config host).MayBegin where
  loops := nofun
  returns := nofun
  pending := nofun
  operands := rfl
  depth := rfl

end Machine

/-! ### What settles -/

/-- The conduct of steps that leave nothing behind: where they end well, a machine at rest is at
rest again, and where they fail, they blame no operand. -/
def Conduct.settles : Conduct Machine where
  moves before after :=
    (before.TellsApart → after.TellsApart) ∧ (before.IsAtRest → after.IsAtRest)
  fails before failure after := before.TellsApart → after.TellsApart ∧ ¬ failure.BlamesOperands
  refl _ := ⟨id, id⟩
  trans first second := ⟨fun tells => second.1 (first.1 tells),
    fun rested => second.2 (first.2 rested)⟩
  fails_of_moves first second tells := second (first.1 tells)
  fails_moves first second tells := ⟨second.1 (first tells).1, (first tells).2⟩

/-- The conduct of steps that leave the machine ready, and blame no operand. -/
def Conduct.rests : Conduct Machine where
  moves before after := before.MayBegin → after.MayBegin
  fails before failure after := before.MayBegin → after.MayBegin ∧ ¬ failure.BlamesOperands
  refl _ := id
  trans first second ready := second (first ready)
  fails_of_moves first second ready := second (first ready)
  fails_moves first second ready := ⟨second (first ready).1, (first ready).2⟩

namespace Machine

open Conduct (settles rests)

variable {α β : Type} {machine after : Machine}

/-- What leaves the operands and the other stacks alone settles. -/
theorem settles_of_same
    (operands : (after.operands, after.depth) = (machine.operands, machine.depth))
    (loops : after.loops.underflow = machine.loops.underflow)
    (returns : after.returns.underflow = machine.returns.underflow)
    (pending : after.pending = machine.pending) : settles.moves machine after :=
  ⟨fun tells => tells.of_same loops returns pending, fun rested => rested.of_same operands⟩

/-- **What leaves nothing on the operands settles**, if errors stay told apart. -/
theorem settles_of_leaves {step : Action α} (leaves : Leaves 0 step)
    (keeps : step.Obeys (.keeps TellsApart)) : step.Obeys settles := by
  intro machine
  have ends := leaves machine machine (.refl machine)
  rcases ran : step.runOn machine with ⟨failure | value, after⟩
  · exact Attempt.obeysFrom_of_error ran fun tells =>
      ⟨(keeps machine).fails ran tells, (ends.excused ran).2⟩
  · exact Attempt.obeysFrom_of_ok ran
      ⟨(keeps machine).moves ran, fun rested => rested.of_same (ends.kept ran).same⟩

theorem ignoresMemory_settles : settles.IgnoresMemory where
  moves _ _ := settles_of_same rfl rfl rfl rfl
  fails _ _ _ spares tells := ⟨tells.of_same rfl rfl rfl, spares.not_blamesOperands⟩

instance follows_settles : settles.Follows where
  toConsults := ignoresMemory_settles.usesMemory.consults
    fun _ _ _ _ _ _ _ _ => settles_of_same rfl rfl rfl rfl
  fails_stalled _ tells := ⟨tells, not_false⟩
  moves_next machine := by
    rw [nextToken_eq]
    exact settles_of_same rfl rfl rfl rfl

instance computes_settles : settles.Computes where
  evaluation evaluates :=
    have := isApart_tellsApart.evaluates
    settles_of_leaves evaluates.leaves (computes_of_calls.evaluation evaluates)

instance operates_settles : settles.Operates where
  toFollows := inferInstance
  storeScalar := ignoresMemory_settles.usesMemory.storeScalar
  deleteScalar := ignoresMemory_settles.usesMemory.delete .scalar
  toComputes := inferInstance
  moves_cleared machine depth leaves := by
    refine ⟨fun tells => tells.of_same rfl rfl rfl, fun rested => ⟨rfl, ?_⟩⟩
    rcases leaves with same | closed
    · exact same.trans rested.depth
    · exact closed
  named := obeys_named obeys_text fun fails tells =>
    ⟨(fails tells).1, fun blames => nomatch blames.1⟩

instance steers_settles : settles.Steers where
  toOperates := inferInstance
  moves_registers shares := settles_of_same shares.operands (by rw [shares.loops])
    (by rw [shares.returns]) shares.pending
  moves_host _ _ _ := settles_of_same rfl rfl rfl rfl
  fails_interrupted _ _ _ tells := ⟨tells.of_same rfl rfl rfl, fun blames => nomatch blames.1⟩
  findLine _ := ignoresMemory_settles.onMemory (Memory.ordinary_always _)
  moves_loops _ _ _ := settles_of_same rfl rfl rfl rfl
  fails_empty _ tells := ⟨tells, fun blames => tells.loops blames.1⟩

instance : settles.SeeksData := ⟨fun _ _ => settles_of_same rfl rfl rfl rfl⟩

instance : settles.StartsStatements := ⟨fun _ => settles_of_same rfl rfl rfl rfl⟩

instance (repeats : Bool) : settles.SetsTimer repeats :=
  ⟨fun _ _ => settles_of_same rfl rfl rfl rfl⟩

instance diverts_settles : settles.Diverts where
  moves_returns _ _ := settles_of_same rfl rfl rfl rfl
  fails_full _ tells := ⟨tells, fun blames => nomatch blames.1⟩
  fails_empty _ tells := ⟨tells, fun blames => tells.returns blames.1⟩
  moves_pins _ _ := settles_of_same rfl rfl rfl rfl

theorem settles_pushLoop (loop : Loop) : (onLoops (BoundedStack.push loop)).Obeys settles :=
  obeys_pushLoop_of (fun _ _ => settles_of_same rfl rfl rfl rfl)
    (fun _ tells => ⟨tells, fun blames => nomatch blames.1⟩) loop

theorem settles_clear : clear.Obeys settles := by
  refine (ignoresMemory_settles.onMemory Memory.obeys_clearHeap).bind fun _ =>
    .modify fun machine => ?_
  exact ⟨fun tells => tells.of_same rfl rfl rfl, fun rested => ⟨rfl, rested.depth⟩⟩

/-- **Statements settle**, whichever of them are forbidden. -/
@[reducible]
def performs_settles (forbids : Machine → Bool) : settles.Performs where
  toEdits := ignoresMemory_settles.edits
  forbids := forbids
  remains := inferInstance
  editsProgram _ _ := ignoresMemory_settles.editsProgram
  departs _ _ := inferInstance
  clear _ _ := settles_clear
  watchPins _ _ _ := settles_of_same rfl rfl rfl rfl
  takeDatum _ _ := obeys_takeDatum
  seekData _ _ _ _ := settles_of_same rfl rfl rfl rfl
  setTimer _ _ _ := obeys_timerStatement
  clearTimer _ := obeys_clearTimer
  holdPins _ _ := obeys_enablePins false _
  releasePins _ _ := obeys_enablePins true _
  clearReturns _ _ _ := settles_of_same rfl rfl rfl rfl
  poke _ _ := ignoresMemory_settles.usesMemory.pokeStatement
  forStatement _ _ := obeys_forStatement settles_pushLoop _
  whileStatement _ _ := obeys_whileStatement settles_pushLoop _
  repeatStatement _ _ := obeys_repeatStatement settles_pushLoop _

/-- A step of a run settles, as far as to where timers and pins fire. -/
theorem settles_stepToDispatch (forbids : Machine → Bool) :
    (stepToDispatch forbids).Obeys settles :=
  @obeys_stepToDispatch _ (performs_settles forbids) inferInstance

/-- **A step of a run settles.** -/
theorem settles_step : step.Obeys settles := by
  have steps : (stepUnless fun _ => false).Obeys settles :=
    @obeys_stepUnless _ (performs_settles fun _ => false) _ inferInstance inferInstance
      inferInstance (.refl _) obeys_servePins
  rwa [stepUnless_none] at steps

/-! ### What rests -/

theorem MayBegin.of_same (ready : machine.MayBegin)
    (operands : (after.operands, after.depth) = (machine.operands, machine.depth))
    (loops : after.loops.underflow = machine.loops.underflow)
    (returns : after.returns.underflow = machine.returns.underflow)
    (pending : after.pending = machine.pending) : after.MayBegin :=
  ⟨ready.toTellsApart.of_same loops returns pending, ready.toIsAtRest.of_same operands⟩

theorem ignoresMemory_rests : rests.IgnoresMemory where
  moves _ _ ready := ready.of_same rfl rfl rfl rfl
  fails _ _ _ spares ready := ⟨ready.of_same rfl rfl rfl rfl, spares.not_blamesOperands⟩

instance goes_rests : rests.Goes where
  toConsults := ignoresMemory_rests.usesMemory.consults
    fun _ _ _ _ _ _ _ _ ready => ready.of_same rfl rfl rfl rfl
  fails_stalled _ ready := ⟨ready, not_false⟩
  moves_next machine ready := by
    rw [nextToken_eq]
    exact ready.of_same rfl rfl rfl rfl
  moves_registers shares ready := ready.of_same shares.operands (by rw [shares.loops])
    (by rw [shares.returns]) shares.pending
  moves_host _ _ _ ready := ready.of_same rfl rfl rfl rfl
  findLine _ := ignoresMemory_rests.onMemory (Memory.ordinary_always _)

instance : rests.EditsProgram := ignoresMemory_rests.editsProgram

instance : rests.SeeksData := ⟨fun _ _ ready => ready.of_same rfl rfl rfl rfl⟩

instance : rests.Idles := ⟨fun _ _ ready => ready.of_same rfl rfl rfl rfl⟩

instance : rests.Postpones :=
  ⟨fun _ _ ordinary ready => ⟨⟨ready.loops, ready.returns,
    fun error among => (ordinary error among).not_blamesOperands⟩,
    ready.toIsAtRest.of_same rfl⟩⟩

theorem recovers_rests : rests.Recovers := fun fails ready => (fails ready).1

theorem rests_clear : clear.Obeys rests := by
  refine (ignoresMemory_rests.onMemory Memory.obeys_clearHeap).bind fun _ =>
    .modify fun machine ready => ?_
  exact ⟨ready.toTellsApart.of_same rfl rfl rfl, ⟨rfl, ready.depth⟩⟩

/-! ### Where statements begin -/

/-- Whether an operand is left or an evaluation is open. -/
def isEvaluating (machine : Machine) : Bool := !decide machine.IsAtRest

/-- Whether two steps do the same in every machine at rest. -/
def AgreeAtRest (step other : Action α) : Prop :=
  ∀ machine : Machine, machine.IsAtRest → step.runOn machine = other.runOn machine

theorem AgreeAtRest.refl (step : Action α) : AgreeAtRest step step := fun _ _ => rfl

theorem AgreeAtRest.behind {step : Action α} {next others : α → Action β}
    (obeys : step.Obeys settles) (second : ∀ value, AgreeAtRest (next value) (others value)) :
    AgreeAtRest (step >>= next) (step >>= others) := by
  intro machine rested
  rcases ran : step.runOn machine with ⟨failure | value, after⟩
  · rw [Attempt.runOn_bind_error ran, Attempt.runOn_bind_error ran]
  · rw [Attempt.runOn_bind_ok ran, Attempt.runOn_bind_ok ran]
    exact second value after (((obeys machine).moves ran).2 rested)

theorem AgreeAtRest.bind {step other : Action α} (agree : AgreeAtRest step other)
    (next : α → Action β) : AgreeAtRest (step >>= next) (other >>= next) := by
  intro machine rested
  rw [Attempt.runOn_bind, Attempt.runOn_bind, agree machine rested]

theorem isCongruent_agreeAtRest : IsCongruent settles AgreeAtRest := ⟨.refl, .behind⟩

theorem agreeAtRest_statementWithin (fuel : Nat) :
    AgreeAtRest (statementUnlessWithin isEvaluating fuel) (statementWithin fuel) := by
  induction fuel with
  | zero => exact .refl _
  | succ fuel ih =>
    intro machine rested
    have begins : ¬ isEvaluating machine = true := by simp [isEvaluating, rested]
    rw [statementUnlessWithin, Attempt.runOn_get_bind, if_neg begins, statementWithin]
    exact isCongruent_agreeAtRest.statementWith ih machine rested

/-- **No statement of a step begins where an operand is left**, neither the first one nor one behind
`THEN` or `ELSE`: a step that would stall there is a step. -/
theorem runOn_stepUnless_isEvaluating (rested : machine.IsAtRest) :
    (stepUnless isEvaluating).runOn machine = step.runOn machine := by
  have := performs_settles isEvaluating
  have agree : AgreeAtRest (stepUnless isEvaluating) step := by
    refine .behind .get fun _ => .behind (obeys_findStatementWithin _) fun _ => ?_
    refine related_ite (.behind (.modify fun _ => settles_of_same rfl rfl rfl rfl) fun _ => ?_)
      (.refl _)
    exact (AgreeAtRest.behind .get fun _ => agreeAtRest_statementWithin _).bind _
  exact agree machine rested

/-! ### Where steps end -/

/-- Whether a step from a machine leaves it ready, with a value of which something is promised;
where it fails, it blames no operand. -/
abbrev EndsReady (step : Action α) (machine : Machine) (promised : α → Prop) : Prop :=
  step.Ends machine (fun value after => after.MayBegin ∧ promised value)
    fun failure after => after.TellsApart ∧ ¬ failure.BlamesOperands

theorem endsReady_of_settles {step : Action α} (settles : step.Obeys settles)
    (ready : machine.MayBegin) : EndsReady step machine fun _ => True := by
  rcases ran : step.runOn machine with ⟨failure | value, after⟩
  · exact .of_error ran ((settles machine).fails ran ready.toTellsApart)
  · obtain ⟨tells, rested⟩ := (settles machine).moves ran
    exact .of_ok ran ⟨⟨tells ready.toTellsApart, rested ready.toIsAtRest⟩, trivial⟩

/-- Whether what a run tells blames no operand. -/
def SparesOperands (outcome : Outcome) : Prop :=
  ∀ error, outcome = .failed error → ¬ error.BlamesOperands

/-- The line that an error happened in says nothing of what it blames. -/
theorem blamesOperands_located (line : Option LineNumber) (error : Error) :
    (located line error).BlamesOperands ↔ error.BlamesOperands := by
  unfold located
  split
  · split <;> exact Iff.rfl
  · exact Iff.rfl

theorem sparesOperands_located {line : Option LineNumber} {error : Error}
    (spares : ¬ error.BlamesOperands) : SparesOperands (.failed (located line error)) := by
  rintro _ ⟨⟩
  rwa [blamesOperands_located]

/-- **An error drops all operands**, and ends all evaluations. -/
theorem TellsApart.abandon (tells : machine.TellsApart) (isBreak : Bool) :
    (machine.abandon isBreak).MayBegin := by
  cases isBreak <;> exact ⟨tells.of_same rfl rfl rfl, ⟨rfl, rfl⟩⟩

theorem endsReady_unwindBreak {error : Error} (tells : machine.TellsApart)
    (spares : SparesOperands (.failed error)) :
    EndsReady (unwindBreak error) machine SparesOperands := by
  refine .get_bind (.ite (fun _ => ?_) fun _ => ?_)
  all_goals
    refine .of_ok rfl ⟨?_, spares⟩
    exact (TellsApart.abandon (tells.of_same rfl rfl rfl) true).of_same rfl rfl rfl rfl

theorem endsReady_stopAt {error : Error} (ready : machine.MayBegin)
    (spares : SparesOperands (.failed error)) :
    EndsReady (stopAt error) machine SparesOperands :=
  .of_ok rfl ⟨ready.of_same rfl rfl rfl rfl, spares⟩

/-- What rests ends ready as well where its errors are caught. -/
theorem endsReady_caught {step : Action α} (obeys : step.Obeys rests) (ready : machine.MayBegin) :
    EndsReady step.caught machine fun result =>
      ∀ error, result = .error error → ¬ error.BlamesOperands := by
  have caught := (obeys machine).caught
  rcases ran : step.caught.runOn machine with ⟨failure | (error | value), after⟩
  all_goals rw [ran] at caught
  · have rested := caught ready
    exact .of_error ran ⟨rested.1.toTellsApart, rested.2⟩
  · have rested := caught ready
    refine .of_ok ran ⟨rested.1, ?_⟩
    rintro _ ⟨⟩
    exact rested.2
  · exact .of_ok ran ⟨caught ready, nofun⟩

/-- **What an error does leaves the machine ready.** -/
theorem endsReady_unwind {error : Error} (tells : machine.TellsApart)
    (spares : ¬ error.BlamesOperands) :
    EndsReady (unwind error) machine fun outcome => ∀ told ∈ outcome, SparesOperands told := by
  have tell {step : Action Outcome} {machine : Machine}
      (ends : EndsReady step machine SparesOperands) :
      EndsReady (do return some (← step) : Action (Option Outcome)) machine fun outcome =>
        ∀ told ∈ outcome, SparesOperands told := by
    refine ends.bind fun outcome after reached => .pure ⟨reached.1, ?_⟩
    rintro _ ⟨⟩
    exact reached.2
  refine .get_bind (.ite (fun _ => ?_) fun _ => .modify_bind ?_)
  · exact tell (endsReady_unwindBreak tells (sparesOperands_located spares))
  have ready := tells.abandon false
  have handled (lastError : Nat) (handler : Option Handler) :
      MayBegin { machine.abandon false with lastError, handler } := ready.of_same rfl rfl rfl rfl
  split
  · -- The handler is gone to, or its line is missing.
    refine .modify_bind ?_
    rename_i target _
    have goes := endsReady_caught (obeys_gotoLine target) (handled error.kind.code none)
    refine goes.bind fun result after reached => ?_
    cases result with
    | ok _ => exact .pure ⟨reached.1, nofun⟩
    | error missing =>
      exact tell (endsReady_stopAt reached.1 (sparesOperands_located (reached.2 missing rfl)))
  · -- The program goes on behind the statement that failed.
    have goesOn : (do
        moveTo machine.statementStart
        modify (skipTo Token.isTerminator) : Action Unit).Obeys rests :=
      (obeys_moveTo _).bind fun _ => obeys_skipTo _
    refine .modify_bind (.of_ok rfl ⟨?_, nofun⟩)
    exact (goesOn _).moves rfl (handled error.kind.code machine.handler)
  · exact tell (endsReady_stopAt ready (sparesOperands_located spares))

/-! ### Runs -/

theorem endsReady_finish (ready : machine.MayBegin) : EndsReady finish machine SparesOperands :=
  .of_ok rfl ⟨ready.of_same rfl rfl rfl rfl, nofun⟩

/-- **Running leaves the machine ready**, if its steps settle. -/
theorem endsReady_runBy {step : Action Bool} (settles : step.Obeys settles) (cycles : Nat)
    (ready : machine.MayBegin) : EndsReady (runBy step cycles) machine SparesOperands := by
  induction cycles generalizing machine with
  | zero => exact .pure ⟨ready, nofun⟩
  | succ cycles ih =>
    refine (endsReady_of_settles settles ready).caught.bind fun result after reached => ?_
    rcases result with error | (_ | _)
    · refine (endsReady_unwind reached.1 reached.2).bind fun outcome later unwound => ?_
      cases outcome with
      | some outcome => exact .pure ⟨unwound.1, unwound.2 outcome rfl⟩
      | none => exact ih unwound.1
    · exact endsReady_finish reached.1
    · exact ih reached.1

/-- **Executing leaves the machine ready**, if its steps settle. -/
theorem endsReady_executeBy {step : Action Bool} (settles : step.Obeys settles) (cycles : Nat)
    (ready : machine.MayBegin) : EndsReady (executeBy step cycles) machine SparesOperands := by
  refine .get_bind ?_
  cases waits : machine.pending with
  | some error =>
    refine .of_ok rfl ⟨⟨⟨ready.loops, ready.returns, nofun⟩, ready.toIsAtRest.of_same rfl⟩, ?_⟩
    rintro _ ⟨⟩
    exact ready.pending error waits
  | none => exact .ite (fun _ => .pure ⟨ready, nofun⟩) fun _ => endsReady_runBy settles cycles ready

theorem endsReady_execute (cycles : Nat) (ready : machine.MayBegin) :
    EndsReady (execute cycles) machine SparesOperands := by
  rw [execute_eq]
  exact endsReady_executeBy settles_step cycles ready

/-- **Wherever a host brings a machine, it is ready.** -/
theorem Reaches.mayBegin {first : Machine} (begins : first.MayBegin)
    (reaches : Reaches [] first machine) : machine.MayBegin := by
  have refines : rests.Refines (.keeps MayBegin) := ⟨id, fun fails ready => (fails ready).1⟩
  induction reaches with
  | refl => exact begins
  | devices host _ ih => exact ih.of_same rfl rfl rfl rfl
  | enter text _ ih => exact holds_after ((obeys_enter recovers_rests text).of_refines refines) ih
  | execute _ ran ih =>
    rw [executeWithout_nil] at ran
    exact ((endsReady_execute _ ih).kept ran).1
  | autorun _ ih => exact holds_after ((obeys_autorun rests_clear).of_refines refines) ih
  | restart _ _ => exact mayBegin_start _ _

/-- **The operands are balanced.** Every routine of an evaluator that gives a number puts exactly
this number on the operands, every other one leaves them as they were, and where one fails the
operands from before are still there; in any case evaluations are open as deep as before. So
wherever a host brings a machine from power on, there is no operand and no evaluation is open,
neither where a statement begins, be it nested in another one, nor where timers and pins fire, and
no error that a statement or a run reports blames a missing operand. -/
theorem operand_stack_is_balanced :
    (∀ budget step, (evaluator budget).LeavesNumber step → ∀ machine, step.Ends machine
      (fun _ after => after.depth = machine.depth ∧ ∃ value, after.operands =
        { machine.operands with entries := value :: machine.operands.entries })
      fun failure after => after.depth = machine.depth ∧
        machine.operands.entries <:+ after.operands.entries ∧ ¬ failure.BlamesOperands) ∧
    (∀ budget (α : Type) (step : Action α), (evaluator budget).LeavesNothing step →
      ∀ machine, step.Ends machine
        (fun _ after => after.depth = machine.depth ∧ after.operands = machine.operands)
        fun failure after => after.depth = machine.depth ∧
          machine.operands.entries <:+ after.operands.entries ∧ ¬ failure.BlamesOperands) ∧
    ∀ config host machine, Reaches [] (start config host) machine →
      (machine.operands.entries = [] ∧ machine.depth = 0) ∧
      (stepUnless isEvaluating).runOn machine = step.runOn machine ∧
      (∀ forbids moment, DispatchesUnless forbids machine moment →
        moment.operands.entries = [] ∧ moment.depth = 0) ∧
      (∀ failure after, step.runOn machine = (.error failure, after) → ¬ failure.BlamesOperands) ∧
      ∀ cycles error after, (execute cycles).runOn machine = (.ok (.failed error), after) →
        ¬ error.BlamesOperands := by
  refine ⟨fun budget step number machine => ?_, fun budget α step nothing machine => ?_,
    fun config host machine reaches => ?_⟩
  · refine (number.leaves (isBalanced_evaluator budget) machine machine (.refl machine)).mono
      (fun _ after above => ⟨above.depth, above.exists_value⟩) ?_
    rintro failure after ⟨⟨count, above⟩, spares⟩
    exact ⟨above.depth, above.suffix, spares⟩
  · refine (nothing.leaves (isBalanced_evaluator budget) machine machine (.refl machine)).mono
      (fun _ after above => ⟨above.depth, (Prod.mk.inj above.same).1⟩) ?_
    rintro failure after ⟨⟨count, above⟩, spares⟩
    exact ⟨above.depth, above.suffix, spares⟩
  have ready := reaches.mayBegin (mayBegin_start config host)
  refine ⟨⟨ready.operands, ready.depth⟩, runOn_stepUnless_isEvaluating ready.toIsAtRest,
    fun forbids moment dispatches => ?_, fun failure after ran => ?_,
    fun cycles error after ran => ?_⟩
  · have rested := ((settles_stepToDispatch forbids machine).moves dispatches).2 ready.toIsAtRest
    exact ⟨rested.operands, rested.depth⟩
  · exact ((endsReady_of_settles settles_step ready).excused ran).2
  · exact ((endsReady_execute cycles ready).kept ran).2 error rfl

/-- An expression above an operand that is not its own, and one that ends too early: its statement
leaves three operands behind, and the error that is told drops them. -/
theorem operand_stack_is_balanced_inside :
    let typing (text : String) := ((enter (ascii text)).runOn (start { memorySize := 64 } {})).2
    let sound := (typing "PRINT 1+LEN(\"AB\")*(3-1)").nextToken
    let inside := { sound with operands := { sound.operands with entries := [Single.one] } }
    let broken := typing "PRINT 1+LEN(\"AB\")*(3-"
    (∃ value, ((evaluator 9).expression.runOn inside).2.operands.entries = [value, Single.one]) ∧
      (step.runOn broken).2.operands.entries.length = 3 ∧
      ∃ error after, (execute 1).runOn broken = (.ok (.failed error), after) ∧
        ¬ error.BlamesOperands ∧ after.operands.entries = [] := by
  intro typing sound inside broken
  obtain ⟨numbers, -, runs⟩ := operand_stack_is_balanced
  have succeeds : ((evaluator 9).expression.runOn inside).1 = .ok () := by decide +kernel
  have left : (step.runOn broken).2.operands.entries.length = 3 := by decide +kernel
  have told : ((execute 1).runOn broken).1 = .ok (.failed { kind := .syntaxError }) := by
    decide +kernel
  have stops : ((executeWithout [] 1).runOn broken).1 = .ok (.failed { kind := .syntaxError }) := by
    rw [executeWithout_nil, told]
  have entered : Reaches [] (start { memorySize := 64 } {}) broken := .enter _ .refl
  have stopped := entered.execute (Prod.ext stops rfl)
  refine ⟨?_, left, _, _, Prod.ext told rfl, ?_, ?_⟩
  · have ends := numbers 9 _ .expression inside
    obtain ⟨-, value, operands⟩ := ends.kept (Prod.ext succeeds rfl)
    exact ⟨value, by rw [operands]⟩
  · exact (runs _ _ broken entered).2.2.2.2 1 _ _ (Prod.ext told rfl)
  · rw [executeWithout_nil] at stopped
    exact (runs _ _ _ stopped).1.1

end Machine

end PocketBasic
