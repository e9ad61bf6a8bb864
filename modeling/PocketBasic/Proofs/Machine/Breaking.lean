/-
**A break is transparent to `CONT`.** A break behind a statement stops the program there, and keeps
its variables, loops and subroutines. The line with `CONT` takes the place of the checkpoint that
was broken: from there on the program does what it would have done without the break, whatever that
is.

* `Disguise.typing`: the disguise of running programs, which are heedless of the typed line;
* `Machine.runOn_run_withStart`: where the statement before began is of no matter to a run either;
* `Machine.GoesOnAs`, `Machine.run_goesOnAs`: machines that differ in what was typed go on alike;
* `Machine.Does`, `Machine.MayBreak`: a program behind a statement that is done;
* `Machine.runOn_checkpoint`: where nothing can fire, all that happens there is that the host runs;
* **`Machine.break_is_transparent`**: what `CONT` makes of a break.
-/

import PocketBasic.Proofs.Machine.AtRest
import PocketBasic.Proofs.Machine.HeedlessRuns
import PocketBasic.Proofs.Machine.Interrupts
import PocketBasic.Proofs.Machine.PinDispatch
import PocketBasic.Proofs.Machine.Places
import PocketBasic.Proofs.Machine.Restarting
import PocketBasic.Proofs.Machine.Resuming

namespace PocketBasic

/-- Whether a place is in a program. -/
def Location.IsStored (place : Location) : Prop := place.mode ≠ .interactive

namespace Machine

variable {α : Type} {machine done moment passed : Machine} {line : TypedLine} {error : Error}

/-! ### The typed line of a running program -/

/-- The machine with another typed line, and with another place where a stopped program goes on. -/
def retyped (line : TypedLine) (continuation : Option Location) (machine : Machine) : Machine :=
  { machine with cursor := { machine.cursor with line }, continuation }

/-- Whether the machine reads a program, with its loops and subroutines all in programs. -/
structure ReadsProgram (machine : Machine) : Prop where
  mode : machine.cursor.mode ≠ .interactive
  loops : ∀ loop ∈ machine.loops.entries, loop.resume.IsStored
  returns : ∀ frame ∈ machine.returns.entries, frame.resume.IsStored
  bookmark : ∀ place ∈ machine.bookmark, place.IsStored

/-- Whether the machine reads a program, and comes back to places of programs only. -/
structure IsRunning (machine : Machine) : Prop extends machine.ReadsProgram where
  start : machine.statementStart.IsStored

/-- A program comes to a place of a program when its next statement begins. -/
theorem ReadsProgram.begun (reads : machine.ReadsProgram) :
    ({ machine with statementStart := machine.cursor.location } : Machine).IsRunning :=
  ⟨⟨reads.mode, reads.loops, reads.returns, reads.bookmark⟩, reads.mode⟩

end Machine

namespace Disguise

open Machine

/-- The disguise of running programs. As long as they come back to no place of the typed line,
neither that line nor the place where a stopped program would go on makes a difference. -/
def typing : Disguise where
  hides machine guise := machine.IsRunning ∧ guise.slots = machine.memory.lineCache
  admits mode := mode ≠ .interactive

theorem wearing_typing {machine : Machine} {guise : Guise} (hides : typing.hides machine guise) :
    machine.wearing guise = machine.retyped guise.line guise.continuation := by
  rw [wearing, hides.2]
  rfl

instance lawful_typing : typing.Lawful where
  stored := id
  goesOn hides :=
    ⟨hides.1.mode, hides.1.loops, hides.1.returns, hides.1.bookmark, hides.1.start⟩
  typed _ admitted := absurd rfl admitted
  change hides goesOn memory _ _ _ slots :=
    ⟨⟨⟨goesOn.mode, goesOn.loops, goesOn.returns, goesOn.bookmark⟩, goesOn.start⟩,
      slots.trans (hides.2.trans (congrArg Memory.lineCache memory).symm)⟩
  -- A program that ends leaves nothing of the typed line.
  halt {machine guise} hides same := by
    have halted : (machine.retyped guise.line guise.continuation).halt = machine.halt := by
      rw [same]
      rfl
    rw [wearing_typing hides, halted]
    exact .same _

/-- The memory is no part of the disguise. -/
theorem heedless_onMemory_typing {α : Type} (step : Attempt Memory α) :
    typing.Heedless (onMemory step) := by
  intro machine guise hides
  rw [wearing_typing hides]
  exact .hidden
    { guise with slots := (step.runOn machine.memory).2.lineCache }
    ⟨⟨⟨hides.1.mode, hides.1.loops, hides.1.returns, hides.1.bookmark⟩, hides.1.start⟩, rfl⟩
    fun _ _ => trivial

instance accesses_typing : typing.Accesses where
  memory _ := heedless_onMemory_typing _

instance performs_typing : typing.Performs where
  findLine _ := heedless_onMemory_typing _

/-- **A running program is heedless of the typed line.** -/
theorem heedless_run_typing (cycles : Nat) : typing.Heedless (run cycles) := by
  have spares : typing.Spares fun _ => false := ⟨fun _ => rfl, fun _ _ => heedless_pokeStatement⟩
  have steps : typing.Heedless step := stepUnless_none ▸ heedless_stepUnless spares
  exact run_eq cycles ▸ heedless_runBy steps cycles

end Disguise

namespace Machine

variable {α : Type} {machine done moment passed : Machine} {line : TypedLine} {error : Error}

/-! ### Breaks -/

/-- The place where a program goes on behind a break. -/
def breakPlace (machine : Machine) : Location :=
  if machine.cursor.token.isTerminator then machine.cursor.location else machine.statementStart

/-- A program that was broken: it waits for a line, and goes on behind the statement if this is
done. -/
def broken (machine : Machine) : Machine :=
  ({ machine with continuation := some machine.breakPlace }.abandon true).stop

theorem runOn_unwindBreak (reads : machine.cursor.mode ≠ .interactive) (error : Error) :
    (unwindBreak error).runOn machine = (.ok (.failed error), machine.broken) := by
  rw [unwindBreak, Attempt.runOn_get_bind, if_pos reads]
  rfl

/-! ### Where the statement before began -/

/-- The machine with another place where the current statement began. -/
def withStart (start : Location) (machine : Machine) : Machine :=
  { machine with statementStart := start }

theorem ignoresStart_advance : advance.Ignores withStart := by
  refine .of_modify fun machine start => ⟨start, ?_⟩
  rw [nextToken_eq, nextToken_eq]
  rfl

theorem ignoresStart_write (bytes : Bytes) : (write bytes).Ignores withStart := by
  have yields : yield.Ignores withStart := fun _ start => ⟨start, rfl⟩
  have marks (failed : Bool) : Attempt.Ignores withStart
      (modify fun machine => { machine with deviceFailed := failed } : Action Unit) :=
    fun _ start => ⟨start, rfl⟩
  have writesByte (byte : UInt8) : (writeByte byte).Ignores withStart := by
    refine .get_bind (fun _ _ => rfl) fun machine => ?_
    have writes : (onHost fun host => host.write machine.output byte).Ignores withStart :=
      fun _ start => ⟨start, rfl⟩
    exact writes.bind fun _ => .ite ((marks true).bind fun _ => yields) yields
  induction bytes with
  | nil => exact .pure ()
  | cons byte rest ih => exact (writesByte byte).bind fun _ => ih

theorem ignoresStart_findStatementWithin (fuel : Nat) :
    (findStatementWithin fuel).Ignores withStart := by
  induction fuel with
  | zero => exact .throw _
  | succ fuel ih =>
    have goesOn : Attempt.Ignores withStart (do
        advance
        findStatementWithin fuel : Action Bool) := ignoresStart_advance.bind fun _ => ih
    have reads : token.Ignores withStart := fun _ start => ⟨start, rfl⟩
    refine reads.bind fun token => ?_
    split
    · exact .pure _
    · exact goesOn
    · refine .get_bind (fun _ _ => rfl) fun _ => .ite ?_ goesOn
      exact (ignoresStart_write _).bind fun _ => goesOn
    · exact .pure _

/-- Where the statement before began is forgotten as soon as a statement begins; what is left of it
is the place itself. -/
theorem runOn_step_withStart (machine : Machine) (start : Location) :
    step.runOn (machine.withStart start) = step.runOn machine ∨
      ∃ result ended last, step.runOn machine = (result, ended) ∧
        step.runOn (machine.withStart start) = (result, ended.withStart last) ∧
        (result = .ok false ∨ ∃ failure, result = .error failure ∧
          ∀ error, failure ≠ .reported error) := by
  have length : (machine.withStart start).textLength = machine.textLength := by
    rcases machine with ⟨_, _, _, ⟨⟨⟩, _, _, _, _⟩⟩ <;> rfl
  obtain ⟨last, again⟩ := ignoresStart_findStatementWithin (machine.textLength + 2) machine start
  have ends := reportsNothing_findStatementWithin (machine.textLength + 2) machine
  simp only [step, Attempt.runOn_get_bind, length]
  rcases looked : (findStatementWithin (machine.textLength + 2)).runOn machine with
    ⟨failure | (_ | _), found⟩
  all_goals
    rw [looked] at again
    dsimp only at again
  · rw [Attempt.Ends, looked] at ends
    rw [Attempt.runOn_bind_error looked, Attempt.runOn_bind_error again]
    refine .inr ⟨_, _, last, rfl, rfl, .inr ⟨failure, rfl, fun error => ?_⟩⟩
    rw [show failure = .stalled from ends]
    exact Failure.noConfusion
  · rw [Attempt.runOn_bind_ok looked, Attempt.runOn_bind_ok again]
    exact .inr ⟨_, _, last, rfl, rfl, .inl rfl⟩
  · rw [Attempt.runOn_bind_ok looked, Attempt.runOn_bind_ok again]
    exact .inl rfl

/-- **A run does the same wherever the statement before it began.** -/
theorem runOn_run_withStart (cycles : Nat) (machine : Machine) (start : Location) :
    ∃ last, (run cycles).runOn (machine.withStart start) =
      (((run cycles).runOn machine).1, ((run cycles).runOn machine).2.withStart last) := by
  cases cycles with
  | zero => exact ⟨start, rfl⟩
  | succ cycles =>
    obtain same | ⟨result, ended, last, ran, again, rfl | ⟨failure, rfl, fatal⟩⟩ :=
      runOn_step_withStart machine start
    · refine ⟨((run (cycles + 1)).runOn machine).2.statementStart, ?_⟩
      have caught : step.caught.runOn (machine.withStart start) = step.caught.runOn machine := by
        rw [Attempt.caught, Attempt.runOn_ofRun, Attempt.runOn_ofRun, same]
      rw [run, Attempt.runOn_bind_eq_goOn, Attempt.runOn_bind_eq_goOn, caught]
      rfl
    · rw [runOn_run_of_end ran, runOn_run_of_end again]
      exact ⟨last, rfl⟩
    · rw [runOn_run_of_fatal ran fatal, runOn_run_of_fatal again fatal]
      exact ⟨last, rfl⟩

/-! ### Machines that go on alike -/

/-- Whether a machine is another one but for what was typed: the line, the place to go on, and the
place where the statement before began. When no program runs any more the first two are the same. -/
structure GoesOnAs (one other : Machine) : Prop where
  alike : other = (one.retyped other.cursor.line other.continuation).withStart other.statementStart
  ended : one.cursor.mode = .interactive →
    other.cursor.line = one.cursor.line ∧ other.continuation = one.continuation

/-- **Machines that differ in what was typed go on alike**, as long as the program runs. -/
theorem run_goesOnAs (reads : machine.ReadsProgram) (line : TypedLine)
    (continuation : Option Location) (start : Location) (cycles : Nat) :
    let other := (machine.retyped line continuation).withStart start
    ((run cycles).runOn other).1 = ((run cycles).runOn machine).1 ∧
      GoesOnAs ((run cycles).runOn machine).2 ((run cycles).runOn other).2 := by
  let begun := machine.withStart machine.cursor.location
  let guise : Guise := { line, continuation, slots := begun.memory.lineCache }
  have running : begun.IsRunning := reads.begun
  intro other
  obtain ⟨_, first⟩ := runOn_run_withStart cycles machine machine.cursor.location
  obtain ⟨last, second⟩ := runOn_run_withStart cycles (begun.wearing guise) start
  have other_eq : other = (begun.wearing guise).withStart start := rfl
  rw [other_eq, second]
  obtain same | ⟨result, after, guise, ran, again, hides, -⟩ :=
    (Disguise.heedless_run_typing cycles begun guise ⟨running, rfl⟩).eq_or_wearing
  · rw [← same, show begun = machine.withStart machine.cursor.location from rfl, first]
    exact ⟨rfl, rfl, fun _ => ⟨rfl, rfl⟩⟩
  · rw [show begun = machine.withStart machine.cursor.location from rfl, first] at ran
    cases ran
    rw [again, Disguise.wearing_typing hides]
    exact ⟨rfl, rfl, fun ended => absurd ended hides.1.mode⟩

/-! ### Behind a statement -/

/-- Whether the next statement of a machine comes to its end at another one, where a break is looked
for. -/
def Does (machine done : Machine) : Prop :=
  ∃ begun, machine.Begins begun ∧ wholeStatement.runOn begun = (.ok (), done)

theorem Does.runOn_step (does : machine.Does done) : step.runOn machine = (do
    checkpoint
    return true : Action Bool).runOn done := by
  obtain ⟨begun, begins, ran⟩ := does
  rw [runOn_step_of_begins begins, statementToBreak, bind_assoc, Attempt.runOn_bind_ok ran,
    checkpoint_eq, bind_assoc]
  congr 2
  funext mayFire
  cases mayFire <;> rfl

/-- What all statements do is done from a statement to the next one. -/
theorem Does.moves {conduct : Conduct Machine} (performs : conduct.Performs)
    [starts : conduct.StartsStatements] (all : performs.forbids = fun _ => false)
    (does : machine.Does done) : conduct.moves machine done := by
  obtain ⟨_, ⟨found, looked, rfl⟩, ran⟩ := does
  have whole : wholeStatement.Obeys conduct := by
    have obeys : (statementUnless performs.forbids).Obeys conduct := obeys_statementUnless
    rw [all, statementUnless_none] at obeys
    exact obeys.bind fun _ => obeys_atEnd.bind fun _ => .ite (obeys_fail (by decide)) (.pure _)
  exact conduct.trans ((obeys_findStatementWithin _ machine).moves looked)
    (conduct.trans (starts.moves_start found) ((whole _).moves ran))

/-- Whether no timer runs and no pin is watched. -/
structure IsUnarmed (machine : Machine) : Prop where
  after : machine.timers.after.isEnabled = false
  every : machine.timers.every.isEnabled = false
  pins : machine.pins.slots = []

theorem IsUnarmed.runOn_dispatch (unarmed : machine.IsUnarmed) :
    dispatch.runOn machine = (.ok (), machine) := by
  have after : ¬ machine.timers.after.isDue machine.host.millis = true := by
    simp [Timer.isDue, unarmed.after]
  have every : ¬ machine.timers.every.isDue machine.host.millis = true := by
    simp [Timer.isDue, unarmed.every]
  rw [dispatch, Attempt.runOn_get_bind]
  dsimp only
  rw [if_neg after, if_neg every]
  exact runOn_servePins_of_held fun watched => watched.2 unarmed.pins

/-- Whether a break waits: an interrupt, or the break byte on the console. -/
def wantsBreak (machine : Machine) : Bool :=
  machine.host.signals.interrupted ||
    ((machine.host.peek? Channel.console).isSome &&
      machine.host.peek? Channel.console = machine.config.breakByte)

/-- A break is looked for in the devices alone. -/
theorem runOn_breakRequested_of_wantsBreak (machine : Machine) :
    (machine.wantsBreak = true ∧ ∃ host,
        breakRequested.runOn machine = (.ok true, { machine with host })) ∨
      (machine.wantsBreak = false ∧ breakRequested.runOn machine = (.ok false, machine)) := by
  rcases runOn_takeInterrupt machine with ⟨waits, host, -, ran⟩ | ⟨none_waits, ran⟩
  · exact .inl ⟨by rw [wantsBreak, waits, Bool.true_or], host,
      (Attempt.runOn_bind_ok ran _).trans rfl⟩
  rw [wantsBreak, none_waits, Bool.false_or, breakRequested, Attempt.runOn_bind_ok ran,
    if_neg Bool.false_ne_true, Attempt.runOn_get_bind]
  dsimp only
  split
  · exact .inl ⟨‹_›, _, rfl⟩
  · exact .inr ⟨Bool.eq_false_iff.mpr ‹_›, rfl⟩

/-- **Where nothing can fire, all that happens behind a statement is that the host runs**, unless a
break waits then. -/
theorem runOn_checkpoint (unarmed : machine.IsUnarmed) :
    let yielded := { machine with host := machine.host.yield }
    (yielded.wantsBreak = true ∧ ∃ host, checkpoint.runOn machine =
        (.error (.reported { kind := .interrupted }), { machine with host })) ∨
      (yielded.wantsBreak = false ∧ checkpoint.runOn machine = (.ok (), yielded)) := by
  intro yielded
  have yields : yield.runOn machine = (.ok (), yielded) := rfl
  rw [checkpoint, Attempt.runOn_bind_ok yields]
  rcases runOn_breakRequested_of_wantsBreak yielded with ⟨wants, host, ran⟩ | ⟨free, ran⟩
  · exact .inl ⟨wants, host, (Attempt.runOn_bind_ok ran _).trans rfl⟩
  refine .inr ⟨free, ?_⟩
  have fires : dispatch.runOn yielded = (.ok (), yielded) :=
    IsUnarmed.runOn_dispatch ⟨unarmed.after, unarmed.every, unarmed.pins⟩
  rw [Attempt.runOn_bind_ok ran, if_neg Bool.false_ne_true, Attempt.runOn_get_bind,
    Attempt.runOn_ite]
  split
  · exact fires
  · rfl

/-- Whether a program may be broken where it is, and go on as if it had not been: it uses the
console, nothing can fire, and the statement that it did ended at a terminator, which still stands
in the program. -/
structure MayBreak (machine : Machine) : Prop extends machine.ReadsProgram, machine.IsUnarmed where
  terminated : machine.cursor.token.isTerminator = true
  settled : machine.IsSettled
  input : machine.input = Channel.console
  output : machine.output = Channel.console
  fieldWidth : machine.fieldWidth = 0

/-! ### CONT -/

/-- A cursor that is sent to a settled one is there. -/
theorem next_movedTo_location {texts : Mode → ProgramText} {width : AddressWidth}
    {cursor : Cursor} (settled : cursor.IsSettled texts width)
    (stored : cursor.mode ≠ .interactive) (other : Cursor) :
    (other.movedTo cursor.location).next texts width = { cursor with line := other.line } := by
  have token := settled.token
  have offset := settled.offset stored
  rcases cursor with ⟨_ | _ | _, line, offset, token, tokenOffset⟩
  · exact absurd rfl stored
  all_goals
    simp only [Cursor.location, Cursor.movedTo, Cursor.next] at token offset ⊢
    rw [token, offset]

/-- `CONT` in a typed line goes to the place where the program goes on. -/
theorem runOn_contStatement {place : Location} (typed : machine.cursor.mode = .interactive)
    (goesOn : machine.continuation = some place) :
    contStatement.runOn machine = (.ok (), jump place { machine with continuation := none }) := by
  rw [contStatement, isInteractive, bind_assoc, Attempt.runOn_get_bind, pure_bind,
    decide_eq_true typed, if_pos rfl, continueProgram, Attempt.runOn_get_bind, goesOn]
  rfl

theorem runOn_step_cont {place : Location} (begins : line.next.1 = .word .cont)
    (goesOn : machine.continuation = some place) :
    let begun := (machine.typed line).withStart { mode := .interactive, offset := line.position }
    step.runOn (machine.typed line) = (do
        if !(← atEnd) then Attempt.fail .syntaxError
        checkpoint
        return true : Action Bool).runOn (jump place { begun with continuation := none }) := by
  intro begun
  have runs : statement.runOn begun = contStatement.runOn begun := by
    rw [statement, Attempt.runOn_get_bind, statementWithin, statementWith, token, bind_assoc,
      Attempt.runOn_get_bind, pure_bind]
    rw [show begun.cursor.token = .word .cont from begins]
    rfl
  have ran := runs.trans (@runOn_contStatement begun place rfl goesOn)
  rw [step, Attempt.runOn_get_bind,
    Attempt.runOn_bind_ok (runOn_findStatementWithin_typed begins _)]
  dsimp only
  rw [if_pos rfl, Attempt.runOn_modify_bind]
  exact Attempt.runOn_bind_ok ran _

section Transparency

variable {before : Machine} {host : Host} {text : Bytes}

/-- What a break leaves of a program. -/
theorem runOn_unwind_break (reads : moment.cursor.mode ≠ .interactive)
    (kind : error.kind = .interrupted) :
    (unwind error).runOn moment =
      (.ok (some (.failed (located moment.failingLine error))), moment.broken) := by
  rw [unwind, Attempt.runOn_get_bind]
  dsimp only
  rw [if_pos kind, Attempt.runOn_bind_ok (runOn_unwindBreak reads _)]
  rfl

/-- The line with `CONT` brings the program to the checkpoint where it was broken. -/
theorem jump_broken (may : MayBreak { machine with host }) (busy : machine.IsBusy)
    (rested : machine.IsAtRest) (other : Host) (start : Location) :
    let stopped := ({ machine with host := other } : Machine).broken
    let begun := (({ stopped with host } : Machine).typed line).withStart start
    jump machine.cursor.location { begun with continuation := none } =
      (({ machine with host } : Machine).retyped line.next.2 none).withStart start := by
  intro stopped begun
  -- What the break and the line have set was so before.
  have cleared : machine.operands.clear = machine.operands := by
    rw [BoundedStack.clear, ← rested.operands]
  have input : machine.input = Channel.console := may.input
  have output : machine.output = Channel.console := may.output
  have fieldWidth : machine.fieldWidth = 0 := may.fieldWidth
  have same (cursor : Cursor) :
      { machine with
        host, cursor, statementStart := start, continuation := none, isIdle := false
        operands := machine.operands.clear, depth := 0
        input := Channel.console, output := Channel.console, fieldWidth := 0 } =
      { machine with host, cursor, statementStart := start, continuation := none } := by
    simp only [cleared, rested.depth, input, output, fieldWidth, busy.1]
  have place := next_movedTo_location may.settled may.mode begun.cursor
  rw [jump_eq]
  refine (congrArg (fun cursor => { begun with continuation := none, cursor }) place).trans ?_
  exact same { machine.cursor with line := line.next.2 }

/-- The statement `CONT` is done where the program was broken, if no break waits there any more. -/
theorem runOn_step_typed_cont (may : MayBreak { done with host }) (busy : done.IsBusy)
    (rested : done.IsAtRest) (begins : line.next.1 = .word .cont) (other : Host)
    (passes : checkpoint.runOn { done with host } = (.ok (), passed)) :
    passed = { done with host := host.yield } ∧
      step.runOn (({ ({ done with host := other } : Machine).broken with host }).typed line) =
        (.ok true, (passed.retyped line.next.2 none).withStart
          { mode := .interactive, offset := line.position }) := by
  have goesOn : ({ done with host := other } : Machine).breakPlace = done.cursor.location :=
    if_pos may.terminated
  -- The unbroken program passes the checkpoint, and so does the one that goes on.
  rcases runOn_checkpoint may.toIsUnarmed with ⟨-, _, fails⟩ | ⟨free, ran⟩
  · rw [fails] at passes
    cases passes
  rw [ran] at passes
  cases passes
  refine ⟨rfl, ?_⟩
  rw [runOn_step_cont begins (congrArg some goesOn), jump_broken may busy rested]
  let back := (({ done with host } : Machine).retyped line.next.2 none).withStart
    { mode := .interactive, offset := line.position }
  have ends : atEnd.runOn back = (.ok true, back) := by
    rw [atEnd, token, bind_assoc, Attempt.runOn_get_bind, pure_bind, isStatementEnd,
      show back.cursor.token.isTerminator = true from may.terminated, Bool.true_or]
    rfl
  have goesBy : checkpoint.runOn back = (.ok (), { back with host := host.yield }) := by
    rcases @runOn_checkpoint back ⟨may.after, may.every, may.pins⟩ with ⟨wants, -⟩ | ⟨-, ran⟩
    · exact absurd (free.symm.trans wants) Bool.false_ne_true
    · exact ran
  show (do
      if !(← atEnd) then Attempt.fail .syntaxError
      checkpoint
      return true : Action Bool).runOn back = _
  rw [Attempt.runOn_bind_ok ends]
  exact Attempt.runOn_bind_ok goesBy _

/-- **A break is transparent to `CONT`.** Where a statement of a program is done and a break is
found, the host is told of it. If the host then enters a line that begins with `CONT`, with the
devices as they would have been behind the statement without the break, then from there on the
program does what it would have done without the break: after any number of statements the host is
told the same, and the machine is the same but for the line that was typed. No statement is done
twice, and none is left out. -/
theorem break_is_transparent (busy : before.IsBusy) (rested : before.IsAtRest)
    (does : before.Does done) (may : MayBreak { done with host })
    (breaks : step.runOn before = (.error (.reported error), moment))
    (passes : checkpoint.runOn { done with host } = (.ok (), passed))
    (typing : line = TypedLine.ofText text (!done.config.wholeNumbers))
    (begins : line.next.1 = .word .cont) :
    ∃ told stopped typed, told.kind = .interrupted ∧
      (∀ cycles, (execute (cycles + 1)).runOn before = (.ok (.failed told), stopped)) ∧
      (enter text).runOn { stopped with host } = (.ok true, typed) ∧
      ∀ cycles, ((execute (cycles + 1)).runOn typed).1 = ((execute cycles).runOn passed).1 ∧
        GoesOnAs ((execute cycles).runOn passed).2 ((execute (cycles + 1)).runOn typed).2 := by
  have busyDone : done.IsBusy := does.moves performs_isBusy rfl busy
  have restedDone : done.IsAtRest := (does.moves (performs_settles fun _ => false) rfl).2 rested
  have unarmed : done.IsUnarmed := ⟨may.after, may.every, may.pins⟩
  -- The break is found at the checkpoint, which changes nothing but the devices.
  have broke : ∃ other, error = { kind := .interrupted } ∧
      moment = { done with host := other } := by
    rw [does.runOn_step] at breaks
    rcases runOn_checkpoint unarmed with ⟨-, other, ran⟩ | ⟨-, ran⟩
    · rw [Attempt.runOn_bind_error ran] at breaks
      cases breaks
      exact ⟨other, rfl, rfl⟩
    · rw [Attempt.runOn_bind_ok ran] at breaks
      cases breaks
  obtain ⟨other, rfl, rfl⟩ := broke
  obtain ⟨rfl, continues⟩ := runOn_step_typed_cont may busyDone restedDone begins other passes
  let failed : Machine := { done with host := other }
  have unwound := @runOn_unwind_break failed { kind := .interrupted } may.mode rfl
  refine ⟨located failed.failingLine { kind := .interrupted }, failed.broken, _, kind_located _ _,
    fun cycles => ?_, runOn_enter begins typing, fun cycles => ?_⟩
  · rw [busy.runOn_execute]
    exact runOn_run_of_unwound breaks unwound cycles
  · have goesOn : (({ failed.broken with host } : Machine).typed line).IsBusy := ⟨rfl, busyDone.2⟩
    have unbroken : ({ done with host := host.yield } : Machine).IsBusy := busyDone
    rw [goesOn.runOn_execute, unbroken.runOn_execute, runOn_run_of_turn (.done continues)]
    exact @run_goesOnAs { done with host := host.yield }
      ⟨may.mode, may.loops, may.returns, may.bookmark⟩ _ _ _ cycles

end Transparency

/-- A loop is broken behind a statement of its body, and goes on with the round that it was in. -/
theorem break_is_transparent_loop :
    let entering (machine : Machine) (text : String) := ((enter (ascii text)).runOn machine).2
    let host : Host := { streams := [(Channel.console, {})] }
    let typed := ["10 FOR A=1 TO 2:PRINT A:NEXT A", "RUN"].foldl entering
      (start { memorySize := 128 } host)
    let machine := ((execute 2).runOn typed).2
    let before := { machine with host := { machine.host with signals := Signals.interrupt {} } }
    let found := ((findStatementWithin (before.textLength + 2)).runOn before).2
    let done := (wholeStatement.runOn { found with statementStart := found.cursor.location }).2
    let passed := (checkpoint.runOn { done with host := machine.host }).2
    let stopped := ((execute 1).runOn before).2
    let goesOn := entering { stopped with host := machine.host } "CONT"
    done.loops.entries ≠ [] ∧
      ((execute 1).runOn before).1 = .ok (.failed { kind := .interrupted, line := some 10 }) ∧
      ((execute 8).runOn goesOn).1 = .ok .stopped ∧
      ∀ cycles, ((execute (cycles + 1)).runOn goesOn).1 = ((execute cycles).runOn passed).1 ∧
        GoesOnAs ((execute cycles).runOn passed).2 ((execute (cycles + 1)).runOn goesOn).2 := by
  intro entering host typed machine before found done passed stopped goesOn
  let line := TypedLine.ofText (ascii "CONT") true
  have seen : (before.isIdle = false ∧ before.pending = none) ∧ before.IsAtRest ∧
      ((findStatementWithin (before.textLength + 2)).runOn before).1 = .ok true ∧
      (wholeStatement.runOn { found with statementStart := found.cursor.location }).1 = .ok () ∧
      (step.runOn before).1 = .error (.reported { kind := .interrupted }) ∧
      (checkpoint.runOn { done with host := machine.host }).1 = .ok () ∧
      line = TypedLine.ofText (ascii "CONT") (!done.config.wholeNumbers) ∧
      line.next.1 = .word .cont := by
    decide +kernel
  have may : MayBreak { done with host := machine.host } := by
    obtain ⟨mode, loops, returns, bookmark, after, every, pins, terminated, settled, input, output,
        fieldWidth⟩ :
        done.cursor.mode ≠ .interactive ∧
        (∀ loop ∈ done.loops.entries, loop.resume.mode ≠ .interactive) ∧
        done.returns.entries = [] ∧ done.bookmark = none ∧
        done.timers.after.isEnabled = false ∧ done.timers.every.isEnabled = false ∧
        done.pins.slots = [] ∧ done.cursor.token.isTerminator = true ∧
        IsSettled { done with host := machine.host } ∧
        done.input = Channel.console ∧ done.output = Channel.console ∧ done.fieldWidth = 0 := by
      decide +kernel
    refine ⟨⟨mode, loops, ?_, ?_⟩, ⟨after, every, pins⟩, terminated, settled, input, output,
      fieldWidth⟩
    · rw [returns]
      exact fun _ => nofun
    · rw [bookmark]
      exact fun _ => nofun
  obtain ⟨busy, rested, looked, whole, fails, passes, typing, begins⟩ := seen
  obtain ⟨told, stops, goes, -, tells, entered, same⟩ :=
    break_is_transparent busy rested ⟨_, ⟨_, Prod.ext looked rfl, rfl⟩, Prod.ext whole rfl⟩ may
      (Prod.ext fails rfl) (Prod.ext passes rfl) typing begins
  obtain rfl : stopped = stops := congrArg Prod.snd (tells 0)
  obtain rfl : goesOn = goes := congrArg Prod.snd entered
  have ran : done.loops.entries ≠ [] ∧
      ((execute 1).runOn before).1 = .ok (.failed { kind := .interrupted, line := some 10 }) ∧
      ((execute 8).runOn goesOn).1 = .ok .stopped := by
    decide +kernel
  exact ⟨ran.1, ran.2.1, ran.2.2, same⟩

/-- A break behind the statement of `THEN` is not transparent if an `ELSE` follows: the statement
has ended there, but the program goes back to its start, and `CONT` reports an error that the
program does not have. -/
theorem break_before_else_is_felt :
    let entering (machine : Machine) (text : String) := ((enter (ascii text)).runOn machine).2
    let host : Host := { streams := [(Channel.console, {})] }
    let typed (host : Host) :=
      ["10 IF 1 THEN PRINT 1 ELSE PRINT 2", "20 PRINT 3", "RUN"].foldl entering
        (start { memorySize := 128 } host)
    let broken := (execute 9).runOn (typed { host with
      triggers := [{ yield := 4, interrupts := true }] })
    broken.1 = .ok (.failed { kind := .interrupted, line := some 10 }) ∧
      ((execute 9).runOn (entering broken.2 "CONT")).1 = .ok (.failed { kind := .syntaxError }) ∧
      ((execute 9).runOn (typed host)).1 = .ok .stopped := by
  decide +kernel

end Machine

end PocketBasic
