/-
**Subroutines of pins do not nest.** Serving a pin by a subroutine holds the others, and only its
`RETURN` releases them, unless the program does so by `EVENT CONT`. So the number of such
subroutines and the flag that holds pins go together, and what is said of the two only has to be
kept by the few steps that change them.

* `Machine.pinCalls`: how many subroutines of pins are under way;
* `PinRule`: a rule on that number and on whether pins are served, which those few steps keep;
* `PinRule.performs`: all statements keep it;
* **`Machine.pin_subroutines_do_not_nest`**: at most one is under way, and no pin is served during
  it;
* **`Machine.stopped_pins_stay_held`**: what `EVENT STOP` holds outside of such a subroutine stays
  held.
-/

import PocketBasic.Proofs.Machine.HeldPins
import PocketBasic.Proofs.Machine.PinDispatch

namespace PocketBasic

/-- How many subroutines of pins are under way. -/
def Machine.pinCalls (machine : Machine) : Nat := machine.returns.entries.countP (·.fromPin)

/-- Whether a machine keeps to a rule on the number of subroutines of pins under way and on whether
pins are served. -/
def Machine.KeepsTo (rule : Nat → Bool → Prop) (machine : Machine) : Prop :=
  rule machine.pinCalls machine.pins.isEnabled

/-- What subroutines and pins do to a rule: subroutines can be dropped, pins held, the subroutine of
a pin can come back, which releases pins, and it can begin, which holds them. -/
structure PinRule (rule : Nat → Bool → Prop) : Prop where
  dropped : ∀ {calls enabled}, rule calls enabled → rule 0 enabled
  held : ∀ {calls enabled}, rule calls enabled → rule calls false
  comesBack : ∀ {calls enabled}, rule (calls + 1) enabled → rule calls true
  served : ∀ {calls}, rule calls true → rule (calls + 1) false

namespace Machine

variable {α : Type} {machine : Machine} {rule : Nat → Bool → Prop}

theorem KeepsTo.of_same {after : Machine} (keeps : machine.KeepsTo rule)
    (returns : after.returns = machine.returns)
    (enabled : after.pins.isEnabled = machine.pins.isEnabled) : after.KeepsTo rule := by
  unfold KeepsTo pinCalls
  rw [returns, enabled]
  exact keeps

theorem isApart_keepsTo : IsApart (KeepsTo rule) := fun _ _ _ _ _ _ _ _ _ _ _ _ => id

instance : (Conduct.keeps (KeepsTo rule)).Jumps where
  evaluates := isApart_keepsTo.evaluates
  moves_registers shares keeps :=
    keeps.of_same shares.returns (congrArg PinTable.isEnabled shares.pins)
  moves_host _ _ keeps := keeps.of_same rfl rfl
  moves_loops _ _ keeps := keeps.of_same rfl rfl
  fails_full _ := id
  fails_empty _ := id
  findLine _ := isApart_keepsTo.ignoresMemory.onMemory (Memory.ordinary_always _)

instance : (Conduct.keeps (KeepsTo rule)).EditsProgram :=
  isApart_keepsTo.ignoresMemory.editsProgram

instance : (Conduct.keeps (KeepsTo rule)).StartsStatements :=
  ⟨fun _ keeps => keeps.of_same rfl rfl⟩

instance : (Conduct.keeps (KeepsTo rule)).Idles := ⟨fun _ _ keeps => keeps.of_same rfl rfl⟩

instance : (Conduct.keeps (KeepsTo rule)).SeeksData := ⟨fun _ _ keeps => keeps.of_same rfl rfl⟩

instance (repeats : Bool) : (Conduct.keeps (KeepsTo rule)).SetsTimer repeats :=
  ⟨fun _ _ keeps => keeps.of_same rfl rfl⟩

instance : (Conduct.keeps (KeepsTo rule)).Postpones := ⟨fun _ _ _ keeps => keeps.of_same rfl rfl⟩

end Machine

/-! ### Rules are kept -/

namespace PinRule

open Machine

variable {rule : Nat → Bool → Prop} {machine : Machine}

/-- Calling a subroutine otherwise changes nothing of the rule. -/
theorem call (resume : Location) :
    (onReturns (BoundedStack.push { resume, fromPin := false })).Obeys (.keeps (KeepsTo rule)) := by
  intro machine
  rcases runOn_pushReturn { resume, fromPin := false } machine with ran | ran
  · refine Attempt.obeysFrom_of_ok ran fun keeps => ?_
    simpa [KeepsTo, pinCalls] using keeps
  · exact Attempt.obeysFrom_of_error ran id

/-- **Coming back keeps the rule**, from the subroutine of a pin and from any other. -/
theorem comeBack (lawful : PinRule rule) : returnStatement.Obeys (.keeps (KeepsTo rule)) := by
  intro machine
  have resumed (place : Location) : (moveTo place).Obeys (.keeps (KeepsTo rule)) :=
    obeys_moveTo place
  rcases runOn_popReturn machine with ⟨frame, older, entries, popped⟩ | failed
  · by_cases pin : frame.fromPin = true
    · have released (keeps : machine.KeepsTo rule) : KeepsTo rule { machine with
          returns := { machine.returns with entries := older }
          pins := { machine.pins with isEnabled := true } } := by
        unfold KeepsTo pinCalls at keeps
        rw [entries, List.countP_cons_of_pos pin] at keeps
        exact lawful.comesBack keeps
      refine .of_run ?_ released (resumed frame.resume _)
      rw [returnStatement, Attempt.runOn_bind_ok popped, if_pos pin, Attempt.runOn_modify_bind]
    · have kept (keeps : machine.KeepsTo rule) : KeepsTo rule { machine with
          returns := { machine.returns with entries := older } } := by
        unfold KeepsTo pinCalls at keeps
        rw [entries, List.countP_cons_of_neg pin] at keeps
        exact keeps
      refine .of_run ?_ kept (resumed frame.resume _)
      rw [returnStatement, Attempt.runOn_bind_ok popped, if_neg pin]
  · exact Attempt.obeysFrom_of_error (Attempt.runOn_bind_error failed _) id

theorem departs (lawful : PinRule rule) : (Conduct.keeps (KeepsTo rule)).Departs :=
  Conduct.Steers.departs inferInstance call lawful.comeBack

/-- **Serving a pin by a subroutine keeps the rule**, from a machine that serves pins. -/
theorem respondPin (lawful : PinRule rule) (line : LineNumber)
    (serves : machine.pins.isEnabled = true) :
    (answerPin (.gosub line)).ObeysFrom (.keeps (KeepsTo rule)) machine := by
  have goes : (gotoLine line).Obeys (.keeps (KeepsTo rule)) := obeys_gotoLine line
  rcases runOn_pushReturn { resume := machine.cursor.location, fromPin := true }
    { machine with pins := { machine.pins with isEnabled := false } } with ran | ran
  · have begun (keeps : machine.KeepsTo rule) : KeepsTo rule { machine with
        pins := { machine.pins with isEnabled := false }
        returns :=
          { machine.returns with
            entries := { resume := machine.cursor.location, fromPin := true } ::
              machine.returns.entries } } := by
      unfold KeepsTo at keeps
      rw [serves] at keeps
      simpa [KeepsTo, pinCalls] using lawful.served keeps
    refine .of_run ?_ begun (goes _)
    exact Attempt.runOn_bind_ok ran _
  · refine Attempt.obeysFrom_of_error (Attempt.runOn_bind_error ran _) fun keeps => ?_
    exact lawful.held keeps

theorem servePins (lawful : PinRule rule) : Machine.servePins.Obeys (.keeps (KeepsTo rule)) := by
  intro machine
  by_cases serves : machine.pins.isEnabled = true ∧ machine.pins.slots ≠ []
  · have polled : (machine.pins.poll machine.host.signals).1.take.2.isEnabled =
        machine.pins.isEnabled := isEnabled_take (machine.pins.poll machine.host.signals).1
    refine .of_run (runOn_servePins serves.1 serves.2) (fun keeps => keeps.of_same rfl polled) ?_
    cases (machine.pins.poll machine.host.signals).1.take.1 with
    | none => exact .pure _
    | some response =>
      cases response with
      | goto line =>
        have goes : (gotoLine line).Obeys (.keeps (KeepsTo rule)) := obeys_gotoLine line
        exact goes _
      | gosub line => exact lawful.respondPin line (polled.trans serves.1)
  · exact Attempt.obeysFrom_of_ok (runOn_servePins_of_held serves) id

/-- **Statements keep the rule** if they may release pins and start afresh where they do. -/
@[reducible]
def performs (lawful : PinRule rule) (forbids : Machine → Bool)
    (clears : ∀ {machine : Machine}, machine.clearsAll = true → forbids machine = false →
      ∀ later : Machine, later.KeepsTo rule → rule 0 true)
    (releases : ∀ {machine : Machine}, machine.commands .event .cont = true →
      forbids machine = false → machine.KeepsTo rule → rule machine.pinCalls true) :
    (Conduct.keeps (KeepsTo rule)).Performs where
  toEdits := isApart_keepsTo.ignoresMemory.edits
  forbids := forbids
  remains := inferInstance
  editsProgram _ _ := inferInstance
  departs _ _ := lawful.departs
  clear begins allowed := by
    refine (isApart_keepsTo.ignoresMemory.onMemory Memory.obeys_clearHeap).bind fun _ =>
      .modify fun later keeps => ?_
    exact clears begins allowed later keeps
  watchPins _ _ same keeps := keeps.of_same rfl same
  takeDatum _ _ := obeys_takeDatum
  seekData _ _ _ _ keeps := keeps.of_same rfl rfl
  setTimer _ _ _ := obeys_timerStatement
  clearTimer _ := obeys_clearTimer
  holdPins _ _ := lawful.held
  releasePins {machine} begins allowed keeps := by
    rw [nextToken_eq, nextToken_eq] at keeps
    rw [nextToken_eq, nextToken_eq]
    have released := releases begins allowed keeps
    exact released
  clearReturns _ _ _ := lawful.dropped
  poke _ _ := isApart_keepsTo.ignoresMemory.usesMemory.pokeStatement
  forStatement _ _ := obeys_forStatement obeys_pushLoop _
  whileStatement _ _ := obeys_whileStatement obeys_pushLoop _
  repeatStatement _ _ := obeys_repeatStatement obeys_pushLoop _

end PinRule

namespace Machine

variable {α : Type} {machine : Machine}

/-! ### Nesting -/

/-- At most one subroutine of a pin is under way, and pins are held while it is. -/
def nestsOnce (calls : Nat) (enabled : Bool) : Prop := calls ≤ 1 ∧ (0 < calls → enabled = false)

theorem pinRule_nestsOnce : PinRule nestsOnce where
  dropped _ := ⟨Nat.zero_le 1, nofun⟩
  held keeps := ⟨keeps.1, fun _ => rfl⟩
  comesBack := by
    intro calls _ keeps
    obtain rfl : calls = 0 := Nat.le_zero.mp (Nat.le_of_succ_le_succ keeps.1)
    exact ⟨Nat.zero_le 1, nofun⟩
  served := by
    intro calls keeps
    -- Pins are served, so no subroutine of a pin is under way yet.
    obtain rfl : calls = 0 := Nat.eq_zero_of_not_pos fun some => nomatch keeps.2 some
    exact ⟨Nat.le_refl 1, fun _ => rfl⟩

/-- Whether the statement at the cursor is an `EVENT CONT` in the subroutine of a pin. -/
def resumesInside (machine : Machine) : Bool :=
  machine.commands .event .cont && decide (0 < machine.pinCalls)

instance departs_nestsOnce : (Conduct.keeps (KeepsTo nestsOnce)).Departs :=
  pinRule_nestsOnce.departs

instance performs_nestsOnce : (Conduct.keeps (KeepsTo nestsOnce)).Performs :=
  pinRule_nestsOnce.performs resumesInside (fun _ _ _ _ => ⟨Nat.zero_le 1, nofun⟩)
    fun {machine} begins allowed _ => by
      have outside : machine.pinCalls = 0 := by simpa [resumesInside, begins] using allowed
      rw [outside]
      exact ⟨Nat.zero_le 1, nofun⟩

/-- **Subroutines of pins do not nest.** From power on, with whatever lines, statements, errors,
timers and raised pins, and as long as no `EVENT CONT` begins in the subroutine of a pin, at most
one such subroutine is under way, and pins are held while it is. Where timers and pins may fire in
the next step this is so as well, and while the subroutine of a pin is under way no pin is
served. -/
theorem pin_subroutines_do_not_nest {config : Config} {host : Host}
    (reaches : ReachesUnless resumesInside True (start config host) machine) :
    machine.pinCalls ≤ 1 ∧ (0 < machine.pinCalls → machine.pins.isEnabled = false) ∧
    ∀ moment, DispatchesUnless resumesInside machine moment →
      moment.pinCalls ≤ 1 ∧ (0 < moment.pinCalls →
        moment.pins.isEnabled = false ∧ servePins.runOn moment = (.ok (), moment)) := by
  have starts (config : Config) (host : Host) : (start config host).KeepsTo nestsOnce :=
    ⟨Nat.zero_le 1, nofun⟩
  have keeps : machine.KeepsTo nestsOnce :=
    holds_of_reachesUnless (.refl _) Conduct.recovers_keeps pinRule_nestsOnce.servePins
      (fun _ => pinRule_nestsOnce.dropped) (fun _ _ keeps => keeps.of_same rfl rfl)
      (fun _ => (isApart_keepsTo.ignoresMemory.onMemory Memory.obeys_clearHeap).bind fun _ =>
        .modify fun _ _ => ⟨Nat.zero_le 1, nofun⟩)
      (fun _ _ _ => starts _ _) (starts config host) reaches
  refine ⟨keeps.1, keeps.2, fun moment dispatches => ?_⟩
  have there : moment.KeepsTo nestsOnce := holds_of_dispatchesUnless (.refl _) keeps dispatches
  refine ⟨there.1, fun inside => ⟨there.2 inside, runOn_servePins_of_held ?_⟩⟩
  rintro ⟨serves, -⟩
  rw [there.2 inside] at serves
  cases serves

/-- A pin that is raised again in its own subroutine waits. -/
theorem pin_subroutines_do_not_nest_inside :
    let host : Host :=
      { triggers := [{ yield := 3, pin := some 1 }, { yield := 4, pin := some 1 }] }
    let entering (machine : Machine) (text : String) := ((enter (ascii text)).runOn machine).2
    let typed := ["10 EVENT 1,0 GOSUB 30", "20 GOTO 20", "30 GOTO 30", "RUN"].foldl entering
      (start { memorySize := 128 } host)
    let machine := ((execute 5).runOn typed).2
    let moment := ((stepToDispatch resumesInside).runOn machine).2
    machine.pinCalls = 1 ∧ machine.pins.isEnabled = false ∧
      (moment.host.signals.take 1).1 = true ∧ servePins.runOn moment = (.ok (), moment) := by
  intro host entering typed machine moment
  have reaches : ReachesUnless resumesInside True (start { memorySize := 128 } host) machine :=
    ReachesUnless.execute_of_isSome (.enter _ (.enter _ (.enter _ (.enter _ .refl))))
      (by decide +kernel)
  have dispatches : DispatchesUnless resumesInside machine moment :=
    dispatchesUnless_of_mayFire (by decide +kernel)
  obtain ⟨-, held, waits⟩ := pin_subroutines_do_not_nest reaches
  obtain ⟨inside, raised, still⟩ : machine.pinCalls = 1 ∧ (moment.host.signals.take 1).1 = true ∧
      moment.pinCalls = 1 := by decide +kernel
  obtain ⟨-, served⟩ := (waits moment dispatches).2 (still ▸ Nat.one_pos)
  exact ⟨inside, held (inside ▸ Nat.one_pos), raised, served⟩

/-! ### Stopping -/

/-- Pins are held, and no subroutine of a pin is under way. -/
def holdsOutside (calls : Nat) (enabled : Bool) : Prop := calls = 0 ∧ enabled = false

theorem pinRule_holdsOutside : PinRule holdsOutside where
  dropped keeps := ⟨rfl, keeps.2⟩
  held keeps := ⟨keeps.1, rfl⟩
  comesBack keeps := nomatch keeps.1
  served keeps := nomatch keeps.2

/-- Whether the statement at the cursor releases pins that `EVENT STOP` holds: `EVENT CONT`, or one
that starts the machine afresh. -/
def releasesPins (machine : Machine) : Bool := machine.commands .event .cont || machine.clearsAll

instance departs_holdsOutside : (Conduct.keeps (KeepsTo holdsOutside)).Departs :=
  pinRule_holdsOutside.departs

instance performs_holdsOutside : (Conduct.keeps (KeepsTo holdsOutside)).Performs :=
  pinRule_holdsOutside.performs releasesPins
    (fun begins allowed => by simp [releasesPins, begins] at allowed)
    (fun begins allowed => by simp [releasesPins, begins] at allowed)

/-- Whether a machine in the middle of a step can come to another one: it goes on between two
statements, an error ends the step, and a host goes on with it as long as nothing releases pins. -/
inductive GoesOn (first : Machine) : Machine → Prop
  | refl : GoesOn first first
  | checkpoint {machine : Machine} :
    GoesOn first machine → GoesOn first (checkpoint.runOn machine).2
  | unwind {machine : Machine} (error : Error) :
    GoesOn first machine → GoesOn first ((unwind error).runOn machine).2
  | reaches {machine after : Machine} :
    GoesOn first machine → ReachesUnless releasesPins False machine after → GoesOn first after

theorem GoesOn.keepsTo {first : Machine} (keeps : first.KeepsTo holdsOutside)
    (goesOn : GoesOn first machine) : machine.KeepsTo holdsOutside := by
  induction goesOn with
  | refl => exact keeps
  | checkpoint _ ih =>
    exact holds_after (obeys_checkpoint (.refl _) pinRule_holdsOutside.servePins) ih
  | unwind error _ ih =>
    have unwinds : (Machine.unwind error).Obeys (.keeps (KeepsTo holdsOutside)) := fun _ =>
      obeysFrom_unwind Conduct.recovers_keeps fun _ => pinRule_holdsOutside.dropped
    exact holds_after unwinds ih
  | reaches _ reaches ih =>
    exact holds_of_reachesUnless (.refl _) Conduct.recovers_keeps pinRule_holdsOutside.servePins
      (fun _ => pinRule_holdsOutside.dropped) (fun _ _ keeps => keeps.of_same rfl rfl) False.elim
      (fun _ => False.elim) ih reaches

/-- `EVENT STOP` holds pins, and does nothing else. -/
theorem runOn_eventStop (stops : machine.commands .event .stop = true) :
    statement.runOn machine = (.ok (),
      { machine.nextToken.nextToken with
        pins := { machine.nextToken.nextToken.pins with isEnabled := false } }) := by
  simp only [commands, Bool.and_eq_true, decide_eq_true_eq] at stops
  have word : (statementWithin (machine.textLength + 1)).runOn machine =
      eventStatement.runOn machine := by
    rw [statementWithin, statementWith, token, bind_assoc, Attempt.runOn_get_bind, pure_bind,
      stops.1]
    rfl
  rw [statement, Attempt.runOn_get_bind, word, eventStatement, advance, Attempt.runOn_modify_bind,
    token, bind_assoc, Attempt.runOn_get_bind, pure_bind, stops.2]
  rfl

/-- **What `EVENT STOP` holds stays held.** From an `EVENT STOP` outside of the subroutines of pins
on, whatever else happens, pins are held and no pin is served where timers and pins fire, as long as
no `EVENT CONT`, `RUN`, `NEW` or `CLR` alone begins. -/
theorem stopped_pins_stay_held {last : Machine} (stops : machine.commands .event .stop = true)
    (outside : machine.pinCalls = 0) (goesOn : GoesOn (statement.runOn machine).2 last) :
    (statement.runOn machine).1 = .ok () ∧ last.pins.isEnabled = false ∧
    ∀ moment, approach.runOn last = (.ok true, moment) ∨
        DispatchesUnless releasesPins last moment →
      servePins.runOn moment = (.ok (), moment) := by
  have held : ((statement.runOn machine).2).KeepsTo holdsOutside := by
    rw [runOn_eventStop stops, nextToken_eq, nextToken_eq]
    exact ⟨outside, rfl⟩
  have keeps := goesOn.keepsTo held
  refine ⟨by rw [runOn_eventStop stops], keeps.2, fun moment comes => ?_⟩
  have there : moment.KeepsTo holdsOutside := by
    rcases comes with approaches | dispatches
    · have obeys : approach.Obeys (.keeps (KeepsTo holdsOutside)) := obeys_approach
      exact (obeys last).moves approaches keeps
    · exact holds_of_dispatchesUnless (.refl _) keeps dispatches
  refine runOn_servePins_of_held ?_
  rintro ⟨serves, -⟩
  rw [there.2] at serves
  cases serves

/-- A pin that is raised after `EVENT STOP` waits. -/
theorem stopped_pins_stay_held_raised :
    let host : Host := { triggers := [{ yield := 3, pin := some 1 }] }
    let entering (machine : Machine) (text : String) := ((enter (ascii text)).runOn machine).2
    let typed := ["10 EVENT 1,0 GOSUB 40", "20 EVENT STOP", "30 GOTO 30", "40 RETURN",
      "RUN"].foldl entering (start { memorySize := 128 } host)
    let machine := ((findStatementWithin 2).runOn ((execute 2).runOn typed).2).2
    let next := (checkpoint.runOn (statement.runOn machine).2).2
    let last := ((execute 2).runOn next).2
    let moment := ((stepToDispatch releasesPins).runOn last).2
    last.pins.isEnabled = false ∧ (moment.host.signals.take 1).1 = true ∧
      servePins.runOn moment = (.ok (), moment) := by
  intro host entering typed machine next last moment
  have goesOn : GoesOn (statement.runOn machine).2 last :=
    .reaches (.checkpoint .refl) (ReachesUnless.execute_of_isSome .refl (by decide +kernel))
  have dispatches : DispatchesUnless releasesPins last moment :=
    dispatchesUnless_of_mayFire (by decide +kernel)
  obtain ⟨stops, outside, raised⟩ : machine.commands .event .stop = true ∧ machine.pinCalls = 0 ∧
      (moment.host.signals.take 1).1 = true := by decide +kernel
  obtain ⟨-, held, waits⟩ := stopped_pins_stay_held stops outside goesOn
  exact ⟨held, raised, waits moment (.inr dispatches)⟩

/-- `RETURN` from the subroutine of a pin releases the pins that an `EVENT STOP` in it holds, and
the next one is served. -/
theorem stopped_pins_released_by_return :
    let host : Host :=
      { triggers := [{ yield := 2, pin := some 1 }, { yield := 5, pin := some 1 }] }
    let entering (machine : Machine) (text : String) := ((enter (ascii text)).runOn machine).2
    let typed := ["10 EVENT 1,0 GOSUB 30", "20 GOTO 20", "30 EVENT STOP", "40 RETURN",
      "RUN"].foldl entering (start { memorySize := 128 } host)
    let inside := ((execute 2).runOn typed).2
    let run (cycles : Nat) := (executeUnless releasesPins cycles).runOn inside
    ((findStatementWithin 2).runOn inside).2.commands .event .stop = true ∧
      (run 1).2.pins.isEnabled = false ∧ (run 2).2.pinCalls = 0 ∧
      (run 3).1.toOption = some .running ∧ (run 3).2.pinCalls = 1 := by
  decide +kernel

end Machine

end PocketBasic
