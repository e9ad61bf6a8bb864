/-
**What a jump leaves alone.** Besides evaluating expressions, statements look for lines and for the
ends of blocks, go there, and keep loops and other registers of the machine. All of that happens
outside of memory, but for the lines that are remembered.

* `Machine.Shares`: what a change of registers leaves as it was;
* `Conduct.Stays`, `Conduct.Goes`: a conduct that allows registers to change, and one that allows
  other places to be gone to as well;
* `Conduct.Remains`, `Conduct.Steers`: the same with evaluations, the end of loops and breaks;
* `Conduct.Jumps`: one that allows any change of loops as well;
* `Conduct.SeeksData`, `Conduct.StartsStatements`, `Conduct.Idles`, `Conduct.Postpones`: ones that
  allow the data to be read on from any place, another statement to begin, the machine to stop, and
  the error of a line to wait;
* `Conduct.Diverts`: one that allows subroutines and pins whatever they do;
* `Machine.timer`, `Conduct.SetsTimer`: one of the timers, and a conduct that allows it to change;
* `Machine.obeys_registers`: a change of registers;
* `Machine.runOn_pushReturn`, `Machine.runOn_popReturn`: subroutines that begin and end;
* **`Machine.obeys_findBracket`**, **`Machine.obeys_gotoLine`**: looking for an end, going to a
  line.
-/

import Mathlib.Tactic.Common
import PocketBasic.Machine.Jumps
import PocketBasic.Machine.Blocks
import PocketBasic.Proofs.BoundedStack
import PocketBasic.Proofs.Machine.Evaluating

namespace PocketBasic

/-- What two machines share that differ in registers only. -/
structure Machine.Shares (before after : Machine) : Prop where
  same :
    (after.config, (after.memory, after.host), (after.operands, after.depth), after.loops,
      after.returns, after.timers, after.pins, after.statementStart, after.data,
      (after.pending, after.isIdle)) =
    (before.config, (before.memory, before.host), (before.operands, before.depth), before.loops,
      before.returns, before.timers, before.pins, before.statementStart, before.data,
      (before.pending, before.isIdle))

namespace Machine.Shares

variable {before after : Machine} (shares : before.Shares after)

include shares

theorem config : after.config = before.config := congrArg (·.1) shares.same

theorem memory : after.memory = before.memory := congrArg (·.2.1.1) shares.same

theorem host : after.host = before.host := congrArg (·.2.1.2) shares.same

theorem operands : (after.operands, after.depth) = (before.operands, before.depth) :=
  congrArg (·.2.2.1) shares.same

theorem loops : after.loops = before.loops := congrArg (·.2.2.2.1) shares.same

theorem returns : after.returns = before.returns := congrArg (·.2.2.2.2.1) shares.same

theorem timers : after.timers = before.timers := congrArg (·.2.2.2.2.2.1) shares.same

theorem pins : after.pins = before.pins := congrArg (·.2.2.2.2.2.2.1) shares.same

theorem statementStart : after.statementStart = before.statementStart :=
  congrArg (·.2.2.2.2.2.2.2.1) shares.same

theorem data : after.data = before.data := congrArg (·.2.2.2.2.2.2.2.2.1) shares.same

theorem pending : after.pending = before.pending := congrArg (·.2.2.2.2.2.2.2.2.2.1) shares.same

theorem isIdle : after.isIdle = before.isIdle := congrArg (·.2.2.2.2.2.2.2.2.2.2) shares.same

end Machine.Shares

/-- A conduct that allows registers to change while the machine reads where it is. -/
class Conduct.Stays (conduct : Conduct Machine) : Prop extends conduct.Follows where
  moves_settings : ∀ {before after : Machine}, before.Shares after →
    after.cursor = before.cursor → conduct.moves before after
  /-- The host is used, but for the interrupt. -/
  moves_host : ∀ (machine : Machine) {host : Host}, machine.host.KeepsInterrupts host →
    conduct.moves machine { machine with host }
  findLine : ∀ line, (Machine.onMemory (Attempt.always fun memory =>
    memory.findLine line)).Obeys conduct

/-- A conduct that also allows other places of the text to be gone to. -/
class Conduct.Goes (conduct : Conduct Machine) : Prop extends conduct.Stays where
  moves_registers : ∀ {before after : Machine}, before.Shares after → conduct.moves before after
  moves_settings shares _ := moves_registers shares

/-- A conduct that allows what statements are made of that go nowhere else, but for the end of the
typed line. Loops may end, but not begin. -/
class Conduct.Remains (conduct : Conduct Machine) : Prop
    extends conduct.Operates, conduct.Stays, conduct.Breaks where
  moves_halt : ∀ machine : Machine, conduct.moves machine machine.halt
  moves_loops : ∀ (machine : Machine) {entries : List Loop}, entries <:+ machine.loops.entries →
    conduct.moves machine { machine with loops := { machine.loops with entries } }
  /-- There may be no loop to end. -/
  fails_empty : ∀ machine : Machine, conduct.fails machine
    (.reported { kind := machine.loops.underflow }) machine

/-- A conduct that allows what jumps are made of. -/
class Conduct.Steers (conduct : Conduct Machine) : Prop
    extends conduct.Remains, conduct.Goes where
  moves_halt _ := moves_registers ⟨rfl⟩

/-- A conduct that allows what jumps are made of, whatever loops and the host do. -/
class Conduct.Jumps (conduct : Conduct Machine) : Prop where
  evaluates : conduct.Evaluates
  moves_registers : ∀ {before after : Machine}, before.Shares after → conduct.moves before after
  moves_host : ∀ (machine : Machine) host, conduct.moves machine { machine with host }
  moves_loops : ∀ (machine : Machine) loops, conduct.moves machine { machine with loops }
  fails_full : ∀ machine : Machine, conduct.fails machine
    (.reported { kind := .stackOverflow, detail := machine.loops.overflowDetail }) machine
  fails_empty : ∀ machine : Machine, conduct.fails machine
    (.reported { kind := machine.loops.underflow }) machine
  findLine : ∀ line, (Machine.onMemory (Attempt.always fun memory =>
    memory.findLine line)).Obeys conduct

attribute [instance] Conduct.Jumps.evaluates

instance Conduct.Jumps.steers {conduct : Conduct Machine} [lawful : conduct.Jumps] :
    conduct.Steers where
  toOperates := inferInstance
  moves_registers := lawful.moves_registers
  moves_host machine host _ := lawful.moves_host machine host
  fails_interrupted machine host _ := conduct.fails_of_moves (lawful.moves_host machine host)
    (lawful.evaluates.fails_safe _ (Error.isOrdinary_of_kind (by decide)))
  moves_loops machine _ _ := lawful.moves_loops machine _
  fails_empty := lawful.fails_empty
  findLine := lawful.findLine

/-- A conduct that allows the data to be read on from any place. -/
class Conduct.SeeksData (conduct : Conduct Machine) : Prop where
  moves_data : ∀ (machine : Machine) data, conduct.moves machine { machine with data }

/-- A conduct that allows another statement to begin. -/
class Conduct.StartsStatements (conduct : Conduct Machine) : Prop where
  moves_start : ∀ machine : Machine,
    conduct.moves machine { machine with statementStart := machine.cursor.location }

/-- A conduct that allows the machine to stop, and to begin with what was typed. -/
class Conduct.Idles (conduct : Conduct Machine) : Prop where
  moves_idle : ∀ (machine : Machine) isIdle, conduct.moves machine { machine with isIdle }

/-- A conduct that allows an ordinary error of a line to wait until it is told. -/
class Conduct.Postpones (conduct : Conduct Machine) : Prop where
  moves_pending : ∀ (machine : Machine) {pending : Option Error},
    (∀ error ∈ pending, error.IsOrdinary) → conduct.moves machine { machine with pending }

/-- A conduct that allows subroutines to begin and to end, and pins to change. -/
class Conduct.Diverts (conduct : Conduct Machine) : Prop where
  moves_returns : ∀ (machine : Machine) entries,
    conduct.moves machine { machine with returns := { machine.returns with entries } }
  /-- There may be too many subroutines. -/
  fails_full : ∀ machine : Machine, conduct.fails machine
    (.reported { kind := .stackOverflow, detail := machine.returns.overflowDetail }) machine
  /-- There may be no subroutine to come back from. -/
  fails_empty : ∀ machine : Machine, conduct.fails machine
    (.reported { kind := machine.returns.underflow }) machine
  moves_pins : ∀ (machine : Machine) pins, conduct.moves machine { machine with pins }

/-- One of the two timers of a machine: the one that repeats, or the one that fires once. -/
def Machine.timer (repeats : Bool) (machine : Machine) : Timer :=
  if repeats then machine.timers.every else machine.timers.after

/-- The machine with another timer in place of one of the two. -/
def Machine.withTimer (repeats : Bool) (timer : Timer) (machine : Machine) : Machine :=
  { machine with
    timers := if repeats then { machine.timers with every := timer }
      else { machine.timers with after := timer } }

/-- A conduct that allows one of the timers to change. -/
class Conduct.SetsTimer (conduct : Conduct Machine) (repeats : Bool) : Prop where
  moves_timer : ∀ (machine : Machine) timer,
    conduct.moves machine (machine.withTimer repeats timer)

namespace Machine

variable {α β : Type} {conduct : Conduct Machine}

section Stays

variable [lawful : conduct.Stays]

/-! ### Registers -/

theorem obeys_settings {change : Machine → Machine}
    (shares : ∀ machine : Machine, machine.Shares (change machine))
    (stays : ∀ machine : Machine, (change machine).cursor = machine.cursor) :
    (modify change : Action Unit).Obeys conduct :=
  .modify fun machine => lawful.moves_settings (shares machine) (stays machine)

/-- A step on the host, the byte store included, that leaves the interrupt. -/
theorem obeys_onHost {step : Host → α × Host}
    (keeps : ∀ host : Host, host.KeepsInterrupts (step host).2) : (onHost step).Obeys conduct :=
  fun machine => lawful.moves_host machine (keeps machine.host)

/-! ### Lines -/

theorem obeys_findLine (line : LineNumber) : (findLine line).Obeys conduct := by
  refine Attempt.Obeys.get.bind fun machine => ?_
  split
  · exact (obeys_orFail (by decide) _).bind fun _ => .pure _
  · refine (lawful.findLine line).bind fun found => ?_
    exact (obeys_orFail (by decide) _).bind fun _ => .pure _

theorem obeys_line (number : Single) : (Range.line number).Obeys conduct :=
  obeys_orFail (by decide) _

omit lawful in
theorem obeys_isInteractive : isInteractive.Obeys conduct :=
  Attempt.Obeys.get.bind fun _ => .pure _

end Stays

section Goes

variable [lawful : conduct.Goes]

/-! ### Other places -/

theorem obeys_registers {change : Machine → Machine}
    (shares : ∀ machine : Machine, machine.Shares (change machine)) :
    (modify change : Action Unit).Obeys conduct :=
  .modify fun machine => lawful.moves_registers (shares machine)

theorem obeys_moveTo (location : Location) : (moveTo location).Obeys conduct := by
  refine .modify fun machine => ?_
  rw [jump, nextToken_eq]
  exact lawful.moves_registers ⟨rfl⟩

theorem obeys_gotoLine (line : LineNumber) : (gotoLine line).Obeys conduct :=
  (obeys_findLine line).bind fun _ => obeys_moveTo _

theorem obeys_gotoNumber (number : Single) : (gotoNumber number).Obeys conduct :=
  (obeys_orFail (by decide) _).bind fun line => obeys_gotoLine line

end Goes

variable [lawful : conduct.Remains]

/-! ### Loops -/

/-- Loops that are unwound end. -/
theorem obeys_unwindLoops (property : Loop → Bool) :
    (modify fun machine => { machine with loops := (machine.loops.unwindTo property).2 } :
      Action Unit).Obeys conduct := by
  refine .modify fun machine => ?_
  obtain ⟨entries, older, same⟩ := machine.loops.unwindTo_eq property
  rw [same]
  exact lawful.moves_loops machine older

theorem obeys_clearLoops :
    (modify fun machine => { machine with loops := machine.loops.clear } :
      Action Unit).Obeys conduct :=
  .modify fun machine => lawful.moves_loops machine List.nil_suffix

omit lawful in
/-- A step on the loops leaves the rest of the machine as it was. -/
theorem runOn_onLoops {step : Attempt (BoundedStack Loop) α} {machine : Machine}
    {result : Except Failure α} {loops : BoundedStack Loop}
    (ran : step.runOn machine.loops = (result, loops)) :
    (onLoops step).runOn machine = (result, { machine with loops }) := by
  rw [onLoops, Attempt.within, Attempt.runOn_ofRun]
  simp only [ran]

theorem obeys_popLoop : (onLoops BoundedStack.pop).Obeys conduct := by
  intro machine
  cases entries : machine.loops.entries with
  | nil =>
    refine Attempt.obeysFrom_of_error (runOn_onLoops (BoundedStack.runOn_pop_of_nil entries)) ?_
    exact lawful.fails_empty machine
  | cons newest older =>
    have left : older <:+ machine.loops.entries := entries ▸ List.suffix_cons newest older
    refine Attempt.obeysFrom_of_ok (runOn_onLoops (BoundedStack.runOn_pop_of_cons entries)) ?_
    exact lawful.moves_loops machine left

omit lawful in
/-- A loop begins as the conduct allows loops to change, or there are too many of them. -/
theorem obeys_pushLoop_of (moves : ∀ (machine : Machine) entries,
      conduct.moves machine { machine with loops := { machine.loops with entries } })
    (full : ∀ machine : Machine, conduct.fails machine
      (.reported { kind := .stackOverflow, detail := machine.loops.overflowDetail }) machine)
    (loop : Loop) : (onLoops (BoundedStack.push loop)).Obeys conduct := by
  intro machine
  cases room : machine.loops.isFull with
  | true =>
    exact Attempt.obeysFrom_of_error (runOn_onLoops (BoundedStack.runOn_push_of_full room))
      (full machine)
  | false =>
    exact Attempt.obeysFrom_of_ok (runOn_onLoops (BoundedStack.runOn_push_of_room room))
      (moves machine _)

omit lawful in
theorem obeys_pushLoop [jumps : conduct.Jumps] (loop : Loop) :
    (onLoops (BoundedStack.push loop)).Obeys conduct :=
  obeys_pushLoop_of (fun machine _ => jumps.moves_loops machine _) jumps.fails_full loop

/-! ### Subroutines -/

omit lawful in
/-- A step on the subroutines leaves the rest of the machine as it was. -/
theorem runOn_onReturns {step : Attempt (BoundedStack Return) α} {machine : Machine}
    {result : Except Failure α} {returns : BoundedStack Return}
    (ran : step.runOn machine.returns = (result, returns)) :
    (onReturns step).runOn machine = (result, { machine with returns }) := by
  rw [onReturns, Attempt.within, Attempt.runOn_ofRun]
  simp only [ran]

omit lawful in
/-- A subroutine is put on top of the others, or there is no room for it. -/
theorem runOn_pushReturn (frame : Return) (machine : Machine) :
    (onReturns (BoundedStack.push frame)).runOn machine =
        (.ok (), { machine with
          returns := { machine.returns with entries := frame :: machine.returns.entries } }) ∨
      (onReturns (BoundedStack.push frame)).runOn machine =
        (.error (.reported { kind := .stackOverflow, detail := machine.returns.overflowDetail }),
          machine) := by
  cases room : machine.returns.isFull with
  | true => exact .inr (runOn_onReturns (BoundedStack.runOn_push_of_full room))
  | false => exact .inl (runOn_onReturns (BoundedStack.runOn_push_of_room room))

omit lawful in
/-- The newest subroutine is taken off the others, or there is none. -/
theorem runOn_popReturn (machine : Machine) :
    (∃ frame older, machine.returns.entries = frame :: older ∧
      (onReturns BoundedStack.pop).runOn machine =
        (.ok frame, { machine with returns := { machine.returns with entries := older } })) ∨
      (onReturns BoundedStack.pop).runOn machine =
        (.error (.reported { kind := machine.returns.underflow }), machine) := by
  cases entries : machine.returns.entries with
  | nil => exact .inr (runOn_onReturns (BoundedStack.runOn_pop_of_nil entries))
  | cons frame older =>
    exact .inl ⟨frame, older, rfl, runOn_onReturns (BoundedStack.runOn_pop_of_cons entries)⟩

omit lawful in
theorem obeys_pushReturn [diverts : conduct.Diverts] (frame : Return) :
    (onReturns (BoundedStack.push frame)).Obeys conduct := by
  intro machine
  rcases runOn_pushReturn frame machine with ran | ran
  · exact Attempt.obeysFrom_of_ok ran (diverts.moves_returns machine _)
  · exact Attempt.obeysFrom_of_error ran (diverts.fails_full machine)

omit lawful in
theorem obeys_popReturn [diverts : conduct.Diverts] :
    (onReturns BoundedStack.pop).Obeys conduct := by
  intro machine
  rcases runOn_popReturn machine with ⟨frame, older, -, ran⟩ | ran
  · exact Attempt.obeysFrom_of_ok ran (diverts.moves_returns machine older)
  · exact Attempt.obeysFrom_of_error ran (diverts.fails_empty machine)

/-! ### Scanning -/

theorem obeys_findBracketWithin (opening closing : Keyword) (fuel depth : Nat) :
    (findBracketWithin opening closing fuel depth).Obeys conduct := by
  induction fuel generalizing depth with
  | zero => exact obeys_stalled
  | succ fuel ih =>
    refine obeys_token.bind fun token => .ite (obeys_fail (by decide)) (.ite ?_ (.ite ?_ ?_))
    · exact obeys_advance.bind fun _ => ih _
    · cases depth with
      | zero => exact .pure _
      | succ depth => exact obeys_advance.bind fun _ => ih _
    · exact obeys_advance.bind fun _ => ih _

theorem obeys_findBracket (opening closing : Keyword) :
    (findBracket opening closing).Obeys conduct :=
  Attempt.Obeys.get.bind fun _ => obeys_findBracketWithin _ _ _ _

end Machine

end PocketBasic
