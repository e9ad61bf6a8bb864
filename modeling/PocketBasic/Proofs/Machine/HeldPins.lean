/-
**Pins are not held for good.** While the subroutine of a pin runs other pins wait, and its `RETURN`
lets them be served again. Only a statement that holds them on purpose, one that drops the
subroutines under way, and an error while they wait can take that `RETURN` away.

* `Machine.WillServePins`: pins are served, or a subroutine of a pin is under way;
* `Conduct.keepsServing`: what keeps it so;
* `Machine.executes_keepsServing`: the parts of statements do, but for the hazards;
* **`Machine.pins_are_served`**: wherever a host brings the machine without them.
-/

import PocketBasic.Proofs.Machine.Running

namespace PocketBasic

/-- Whether pins are served, or a subroutine is under way whose end lets them be served again. -/
def Machine.WillServePins (machine : Machine) : Prop :=
  machine.pins.isEnabled = true ∨ ∃ frame ∈ machine.returns.entries, frame.fromPin = true

/-- What keeps pins from being held for good. -/
def Conduct.keepsServing : Conduct Machine where
  moves before after := before.WillServePins → after.WillServePins
  fails before _ after := before.WillServePins → after.WillServePins
  refl _ := id
  trans first second will := second (first will)
  fails_of_moves first second will := second (first will)
  fails_moves first second will := second (first will)

/-- What keeps pins from being held for good unless it ends in an error. -/
def Conduct.keepsServingAtBreaks : Conduct Machine where
  moves before after := before.WillServePins → after.WillServePins
  fails before failure after :=
    before.WillServePins → ∀ error, failure = .reported error → error.kind = .interrupted →
      after.WillServePins
  refl _ := id
  trans first second will := second (first will)
  fails_of_moves first second will := second (first will)
  fails_moves first second will error same broken := second (first will error same broken)

namespace Machine

open Conduct (keepsServing keepsServingAtBreaks)

variable {α : Type} {machine : Machine}

theorem WillServePins.of_same {after : Machine} (will : machine.WillServePins)
    (returns : after.returns = machine.returns) (pins : after.pins = machine.pins) :
    after.WillServePins := by
  rw [WillServePins, returns, pins]
  exact will

/-! ### Evaluations and jumps -/

theorem ignoresMemory_keepsServing : keepsServing.IgnoresMemory :=
  ⟨fun _ _ will => will.of_same rfl rfl, fun _ _ _ _ will => will.of_same rfl rfl⟩

theorem willServePins_jump (place : Location) (will : machine.WillServePins) :
    (jump place machine).WillServePins := by
  rw [jump, nextToken_eq]
  exact will.of_same rfl rfl

instance evaluates_keepsServing : keepsServing.Evaluates where
  toReads := ignoresMemory_keepsServing.usesMemory.reads ⟨fun _ => id⟩
    (fun _ _ _ _ _ _ _ _ _ _ _ _ _ will => will.of_same rfl rfl) (fun _ => id) fun _ => id
  toMakes := ignoresMemory_keepsServing.usesMemory.makes
  moves_excursion _ first second will :=
    willServePins_jump _ (second (willServePins_jump _ (first will)))
  fails_excursion _ first second will := second (willServePins_jump _ (first will))
  fails_otherwise := id
  fails_first first second will := second (first will)
  fails_second first second will := second (first will)
  storeScalar := ignoresMemory_keepsServing.usesMemory.storeScalar
  deleteScalar := ignoresMemory_keepsServing.usesMemory.delete .scalar

instance jumps_keepsServing : keepsServing.Jumps where
  evaluates := evaluates_keepsServing
  moves_registers shares will := will.of_same shares.returns shares.pins
  moves_host _ _ will := will.of_same rfl rfl
  moves_loops _ _ will := will.of_same rfl rfl
  fails_full _ := id
  fails_empty _ := id
  findLine _ := ignoresMemory_keepsServing.onMemory (Memory.ordinary_always _)

instance : keepsServing.StartsStatements := ⟨fun _ will => will.of_same rfl rfl⟩

instance idles_keepsServing : keepsServing.Idles := ⟨fun _ _ will => will.of_same rfl rfl⟩

instance seeksData_keepsServing : keepsServing.SeeksData :=
  ⟨fun _ _ will => will.of_same rfl rfl⟩

instance setsTimer_keepsServing (repeats : Bool) : keepsServing.SetsTimer repeats :=
  ⟨fun _ _ will => will.of_same rfl rfl⟩

instance postpones_keepsServing : keepsServing.Postpones :=
  ⟨fun _ _ _ will => will.of_same rfl rfl⟩

/-! ### Subroutines -/

/-- Calling a subroutine leaves the others under way. -/
theorem keepsServing_call (resume : Location) :
    (onReturns (BoundedStack.push { resume, fromPin := false })).Obeys keepsServing := by
  intro machine
  rcases runOn_pushReturn { resume, fromPin := false } machine with ran | ran
  · refine Attempt.obeysFrom_of_ok ran fun will => will.imp_right ?_
    rintro ⟨frame, among, pin⟩
    exact ⟨frame, List.mem_cons_of_mem _ among, pin⟩
  · exact Attempt.obeysFrom_of_error ran id

/-- **Coming back from the subroutine of a pin lets pins be served again.** -/
theorem keepsServing_comeBack : returnStatement.Obeys keepsServing := by
  intro machine
  rcases runOn_popReturn machine with ⟨frame, older, entries, popped⟩ | failed
  · have resumed : (moveTo frame.resume).Obeys keepsServing := obeys_moveTo _
    by_cases pin : frame.fromPin = true
    · have enabled : WillServePins { machine with
          returns := { machine.returns with entries := older }
          pins := { machine.pins with isEnabled := true } } := .inl rfl
      refine .of_run ?_ (fun _ => enabled) (resumed _)
      rw [returnStatement, Attempt.runOn_bind_ok popped, if_pos pin, Attempt.runOn_modify_bind]
    · have kept (will : machine.WillServePins) : WillServePins { machine with
          returns := { machine.returns with entries := older } } := by
        refine will.imp_right ?_
        rintro ⟨other, among, served⟩
        rw [entries] at among
        rcases List.mem_cons.mp among with rfl | among
        · exact absurd served pin
        · exact ⟨other, among, served⟩
      refine .of_run ?_ kept (resumed _)
      rw [returnStatement, Attempt.runOn_bind_ok popped, if_neg pin]
  · exact Attempt.obeysFrom_of_error (Attempt.runOn_bind_error failed _) id

/-! ### Pins -/

theorem isEnabled_take (pins : PinTable) : pins.take.2.isEnabled = pins.isEnabled := by
  rw [PinTable.take]
  split <;> rfl

theorem refines_keepsServing : keepsServing.Refines keepsServingAtBreaks :=
  ⟨id, fun fails will _ _ _ => fails will⟩

/-- **Serving a pin by a subroutine puts it under way**, or fails for want of room. -/
theorem keepsServing_respondPin (line : LineNumber) (machine : Machine) : (do
      modify fun machine => { machine with pins := { machine.pins with isEnabled := false } }
      respond (.gosub line) true : Action Unit).ObeysFrom keepsServingAtBreaks machine := by
  have served : (gotoLine line).Obeys keepsServing := obeys_gotoLine line
  rcases runOn_pushReturn { resume := machine.cursor.location, fromPin := true }
    { machine with pins := { machine.pins with isEnabled := false } } with ran | ran
  · have under (will : machine.WillServePins) : WillServePins { machine with
        pins := { machine.pins with isEnabled := false }
        returns := { machine.returns with entries :=
          { resume := machine.cursor.location, fromPin := true } :: machine.returns.entries } } :=
      .inr ⟨_, List.mem_cons_self, rfl⟩
    refine Attempt.ObeysFrom.of_refines (.of_run ?_ under (served _)) refines_keepsServing
    rw [Attempt.runOn_modify_bind]
    exact Attempt.runOn_bind_ok ran _
  · refine Attempt.obeysFrom_of_error (Attempt.runOn_bind_error ran _) ?_
    rintro - _ ⟨⟩ ⟨⟩

theorem keepsServing_servePins : servePins.Obeys keepsServingAtBreaks := by
  refine .get_bind fun machine => .ite (fun enabled => ?_) fun _ => .pure _
  rw [Bool.and_eq_true] at enabled
  have jumps (line : LineNumber) : (gotoLine line).Obeys keepsServing := obeys_gotoLine line
  refine .bind (fun _ => .inl ((isEnabled_take _).trans enabled.1)) fun _ =>
    obeys_answer (fun response => ?_) _
  cases response with
  | goto line => exact (jumps line).of_refines refines_keepsServing
  | gosub line => exact keepsServing_respondPin line

/-! ### Statements -/

theorem keepsServing_clear : clear.Obeys keepsServing := by
  refine (ignoresMemory_keepsServing.onMemory Memory.obeys_clearHeap).bind fun _ =>
    .modify fun _ _ => ?_
  exact .inl rfl

/-- **What statements are made of lets pins be served again**, but for the hazards. -/
instance executes_keepsServing : keepsServing.Executes where
  toEdits := ignoresMemory_keepsServing.edits
  toEditsProgram := ignoresMemory_keepsServing.editsProgram
  refused := [.eventStop, .clearReturns, .chain, .heldError]
  jumps := jumps_keepsServing
  seeks := seeksData_keepsServing
  timers := setsTimer_keepsServing
  clear := keepsServing_clear
  call := keepsServing_call
  comeBack := keepsServing_comeBack
  moves_pins machine pins released will :=
    released.elim (fun same => will.imp_left same.trans) .inl
  poke _ := ignoresMemory_keepsServing.usesMemory.pokeStatement
  holdPins allowed := absurd (by decide) allowed
  clearReturns allowed := absurd allowed (by decide)

/-! ### Runs -/

/-- What can take the `RETURN` away that lets pins be served again. -/
def pinHazards : List Hazard := [.eventStop, .clearReturns, .chain, .heldError]

theorem recovers_keepsServing : keepsServing.Recovers := id

theorem keepsServing_step : (stepRefusing pinHazards).Obeys keepsServingAtBreaks :=
  @obeys_stepRefusing _ _ inferInstance executes_keepsServing refines_keepsServing
    keepsServing_servePins

/-- After a statement pins will be served. -/
theorem willServePins_stepWithout {after : Machine} {more : Bool} (will : machine.WillServePins)
    (ran : (stepWithout pinHazards).runOn machine = (.ok more, after)) : after.WillServePins := by
  rw [stepWithout, refusingErrors, Attempt.runOn_ofRun] at ran
  rcases inner : (stepRefusing pinHazards).runOn machine with ⟨(error | - | - | -) | value, last⟩
  all_goals
    rw [inner] at ran
    dsimp only at ran
  · split at ran <;> cases ran
  · cases ran
  · cases ran
  · cases ran
  · cases ran
    exact (keepsServing_step machine).moves inner will

/-- After an error that is not refused pins are served, or it was a break and pins will be
served. -/
theorem willServePins_error {after : Machine} {error : Error} (will : machine.WillServePins)
    (ran : (stepWithout pinHazards).runOn machine = (.error (.reported error), after)) :
    after.WillServePins ∧ (error.kind ≠ .interrupted → after.pins.isEnabled = true) := by
  rw [stepWithout, refusingErrors, Attempt.runOn_ofRun] at ran
  rcases inner : (stepRefusing pinHazards).runOn machine with ⟨(error | - | - | -) | value, last⟩
  all_goals
    rw [inner] at ran
    dsimp only at ran
  · split at ran
    · cases ran
    · rename_i allowed
      cases ran
      have released (other : error.kind ≠ .interrupted) : after.pins.isEnabled = true := by
        simpa [refusesError, pinHazards, other] using allowed
      by_cases broken : error.kind = .interrupted
      · exact ⟨(keepsServing_step machine).fails inner will error rfl broken, released⟩
      · exact ⟨.inl (released broken), released⟩
  · cases ran
  · cases ran
  · cases ran
  · cases ran

theorem willServePins_runWithout {after : Machine} {cycles : Nat} {outcome : Outcome}
    (will : machine.WillServePins)
    (ran : (runWithout pinHazards cycles).runOn machine = (.ok outcome, after)) :
    after.WillServePins := by
  induction cycles generalizing machine with
  | zero =>
    cases ran
    exact will
  | succ cycles ih =>
    rw [runWithout, Attempt.runOn_bind_eq_goOn, Attempt.caught, Attempt.runOn_ofRun] at ran
    rcases stepped : (stepWithout pinHazards).runOn machine with
      ⟨(error | - | - | -) | more, middle⟩
    all_goals
      rw [stepped] at ran
      dsimp only at ran
    · obtain ⟨willMiddle, released⟩ := willServePins_error will stepped
      have unwinds : (unwind error).ObeysFrom keepsServing middle :=
        obeysFrom_unwind recovers_keepsServing fun other _ => .inl (released other)
      rw [Attempt.goOn_ok, Attempt.runOn_bind_eq_goOn] at ran
      rcases unwound : (unwind error).runOn middle with ⟨failure | ending, last⟩
      all_goals rw [unwound] at ran
      · cases ran
      · have willLast := unwinds.moves unwound willMiddle
        cases ending with
        | some ending =>
          cases ran
          exact willLast
        | none => exact ih willLast ran
    · cases ran
    · cases ran
    · cases ran
    · have willMiddle := willServePins_stepWithout will stepped
      cases more with
      | true => exact ih willMiddle ran
      | false =>
        have finishes : finish.ObeysFrom keepsServing middle := obeys_finish middle
        exact finishes.moves ran willMiddle

theorem willServePins_executeWithout {after : Machine} {cycles : Nat} {outcome : Outcome}
    (will : machine.WillServePins)
    (ran : (executeWithout pinHazards cycles).runOn machine = (.ok outcome, after)) :
    after.WillServePins := by
  rw [executeWithout, Attempt.runOn_get_bind] at ran
  split at ran
  · cases ran
    exact will.of_same rfl rfl
  · rw [Attempt.runOn_ite] at ran
    split at ran
    · cases ran
      exact will
    · exact willServePins_runWithout will ran

/-- What obeys ends where pins will be served, whether it fails or not. -/
theorem WillServePins.after {step : Action α} (will : machine.WillServePins)
    (obeys : step.Obeys keepsServing) : (step.runOn machine).2.WillServePins := by
  rcases ran : step.runOn machine with ⟨failure | value, after⟩
  · exact (obeys machine).fails ran will
  · exact (obeys machine).moves ran will

/-- **Pins are not held for good.** From a machine that serves pins a host comes only to machines
that serve them or have a subroutine under way whose `RETURN` lets them be served again, as long as
no `EVENT STOP` holds them, no `CLR GOSUB` and no `LOAD` of a program drops the subroutines, and no
error but a break is reported while they wait. -/
theorem pins_are_served {first : Machine} (will : first.WillServePins)
    (reaches : Reaches pinHazards first machine) : machine.WillServePins := by
  induction reaches with
  | refl => exact will
  | devices host _ ih => exact ih.of_same rfl rfl
  | enter text _ ih => exact ih.after (obeys_enter recovers_keepsServing text)
  | execute _ ran ih => exact willServePins_executeWithout ih ran
  | autorun _ ih => exact ih.after (obeys_autorun keepsServing_clear)
  | restart _ ih => exact .inl rfl

/-- A pin that is served: its subroutine has begun. -/
theorem pins_are_served_inside :
    let host : Host := { triggers := [{ yield := 3, pin := some 1 }] }
    let entering (machine : Machine) (text : String) := ((enter (ascii text)).runOn machine).2
    let typed := ["10 EVENT 1,0 GOSUB 30", "20 GOTO 20", "30 RETURN", "RUN"].foldl entering
      (start { memorySize := 128 } host)
    let machine := ((execute 3).runOn typed).2
    machine.pins.isEnabled = false ∧ machine.WillServePins := by
  intro host entering typed machine
  have goesOn : ((executeWithout pinHazards 3).runOn typed).1.toOption = some .running := by
    decide +kernel
  rcases ran : (executeWithout pinHazards 3).runOn typed with ⟨failure | outcome, after⟩
  · rw [ran] at goesOn
    cases goesOn
  · have same : machine = after := congrArg Prod.snd (execute_of_executeWithout ran)
    have will : typed.WillServePins := .inl (by decide +kernel)
    exact ⟨by decide +kernel, pins_are_served will (same ▸ .execute .refl ran)⟩

/-- An error in the subroutine of a pin drops it, and pins are held for good although nothing else
holds them. -/
theorem pins_held_by_error :
    let host : Host := { triggers := [{ yield := 3, pin := some 1 }] }
    let entering (machine : Machine) (text : String) := ((enter (ascii text)).runOn machine).2
    let typed := ["10 ERROR GOTO 40", "20 EVENT 1,0 GOSUB 100", "30 GOTO 30",
      "40 FOR I=1 TO 9", "50 NEXT", "60 END", "100 PRINT \"PIN\";",
      "110 IF X=0 THEN X=1:A=1/0", "120 RETURN", "RUN"].foldl entering
        (start { memorySize := 256 } host)
    let run := (executeWithout [.eventStop, .clearReturns, .chain] 6).runOn typed
    run.1.toOption = some .running ∧ typed.pins.isEnabled = true ∧
      run.2.pins.isEnabled = false ∧ run.2.returns.entries = [] := by
  decide +kernel

end Machine

end PocketBasic
