/-
**A running program stays within itself.** As long as it is not edited, a program that runs reads
one token after the other, goes to its lines, and comes back to places where tokens of it begin;
so no statement begins that does not stand in its text.

* `Machine.FailsWithin`, `Conduct.within`: the conduct of what stays within a program;
* `Machine.meddles`: the statements that edit the program, or could;
* **`Machine.departs_within`**: jumps lead to tokens of the program;
* **`Machine.performs_within`**: all other statements stay within the program.
-/

import PocketBasic.Proofs.Machine.TokenPlaces

namespace PocketBasic

/-! ### Staying within a program -/

/-- What is so behind a failure: nothing, if all is to be known exactly. -/
def Machine.FailsWithin (config : Config) (text : ProgramText) (exactly : Bool) (_ : Failure)
    (after : Machine) : Prop :=
  exactly = false → after.IsWithin config text exactly

/-- What keeps a machine within the program that it reads. -/
def Conduct.within (config : Config) (text : ProgramText) (exactly : Bool) : Conduct Machine where
  moves before after :=
    before.IsWithin config text exactly → after.IsWithin config text exactly
  fails before failure after :=
    before.IsWithin config text exactly → after.FailsWithin config text exactly failure
  refl _ := id
  trans first second before := second (first before)
  fails_of_moves first second before := second (first before)
  fails_moves first second before same := second (first before same)

namespace Machine

open Conduct (staysWithin within)

variable {α : Type} {config : Config} {text : ProgramText} {exactly : Bool} {place : Location}
  {machine after : Machine} {step : Action α}

/-- Whether the statement at the cursor edits the program, or could: `POKE`, and what replaces the
program. -/
def meddles (machine : Machine) : Bool :=
  machine.cursor.token = .word .poke || machine.editsProgram

theorem obeysFrom_within (ends : machine.IsWithin config text exactly →
      step.Ends machine (fun _ after => after.IsWithin config text exactly)
        (FailsWithin config text exactly)) :
    step.ObeysFrom (within config text exactly) machine := by
  rcases ran : step.runOn machine with ⟨failure | value, after⟩
  · exact Attempt.obeysFrom_of_error ran fun before => (ends before).excused ran
  · exact Attempt.obeysFrom_of_ok ran fun before => (ends before).kept ran

namespace IsWithin

variable (before : machine.IsWithin config text exactly)

include before

theorem ends (obeys : step.Obeys (within config text exactly)) :
    step.Ends machine (fun _ after => after.IsWithin config text exactly)
      (FailsWithin config text exactly) :=
  (obeys machine).ends.mono (fun _ _ moves => moves before) fun _ _ fails => fails before

theorem of_shares (reads : after.HasProgram config text) (shares : machine.SharesFrames after)
    (exact : exactly = true → after.ReadsToken) : after.IsWithin config text exactly :=
  { reads with token := exact, frames := shares.admitsFrames before.frames }

theorem fails_of_shares {failure : Failure} (reads : after.HasProgram config text)
    (shares : machine.SharesFrames after) : after.FailsWithin config text exactly failure :=
  fun inexact => before.of_shares reads shares fun exact =>
    Bool.noConfusion (exact.symm.trans inexact)

/-- What comes back stays within the program, with the places that are remembered. -/
theorem ends_evaluation (obeys : step.Obeys (staysWithin config text)) :
    step.Ends machine
      (fun _ after => after.IsWithin config text exactly ∧ machine.SharesFrames after)
      (FailsWithin config text exactly) := by
  refine (obeys machine).ends.mono (fun _ after moves => ?_) fun _ after fails => ?_
  · obtain ⟨reads, shares, exact⟩ := moves before.toHasProgram
    exact ⟨before.of_shares reads shares fun same => exact (before.token same), shares⟩
  · obtain ⟨reads, shares⟩ := fails before.toHasProgram
    exact before.fails_of_shares reads shares

theorem ends_gotoLine (line : LineNumber) :
    (gotoLine line).Ends machine (fun _ after => after.IsWithin config text exactly)
      (FailsWithin config text exactly) :=
  (before.toHasProgram.ends_gotoLine before.frames line).mono (fun _ _ => id)
    fun _ _ stays => before.fails_of_shares stays.1 stays.2

theorem ends_moveTo (admits : machine.Admits exactly place) :
    (moveTo place).Ends machine (fun _ after => after.IsWithin config text exactly)
      (FailsWithin config text exactly) :=
  .jump before.toHasProgram before.frames admits

/-- A subroutine that begins comes back to a place that the machine may be sent to. -/
theorem ends_pushReturn (admits : machine.Admits exactly place) (fromPin : Bool) :
    (onReturns (BoundedStack.push { resume := place, fromPin })).Ends machine
      (fun _ after => after.IsWithin config text exactly) (FailsWithin config text exactly) := by
  rcases runOn_pushReturn { resume := place, fromPin } machine with ran | ran
  · refine .of_ok ran (before.of_frames rfl rfl rfl ⟨before.frames.loops, fun frame among => ?_⟩)
    rcases List.mem_cons.mp among with rfl | older
    · exact admits
    · exact before.frames.returns frame older
  · exact .of_error ran fun _ => before

theorem ends_respond (response : Response) (fromPin : Bool) :
    (respond response fromPin).Ends machine (fun _ after => after.IsWithin config text exactly)
      (FailsWithin config text exactly) := by
  cases response with
  | goto line => exact before.ends_gotoLine line
  | gosub line =>
    exact .get_bind ((before.ends_pushReturn before.admits_location fromPin).bind
      fun _ _ called => called.ends_gotoLine line)

end IsWithin

/-- **A machine that halts has nothing left of what was typed.** -/
theorem IsWithin.halt (before : machine.IsWithin config text exactly) :
    machine.halt.IsWithin config text exactly where
  remembers := before.remembers.of_same rfl rfl
  program := before.program
  mode := nofun
  typed _ := ⟨rfl, rfl⟩
  token _ := nofun
  frames :=
    have admits {place : Location} (admitted : machine.Admits exactly place) :
        machine.halt.Admits exactly place := by
      rcases place with ⟨_ | _ | _, offset⟩
      · exact rfl
      · exact admitted
      · exact admitted
    ⟨fun loop among => admits (before.frames.loops loop among),
      fun frame among => admits (before.frames.returns frame among)⟩

/-! ### What is allowed -/

theorem refines_within : (staysWithin config text).Refines (within config text exactly) := by
  refine ⟨fun moves before => ?_, fun fails before => ?_⟩
  · obtain ⟨reads, shares, exact⟩ := moves before.toHasProgram
    exact before.of_shares reads shares fun same => exact (before.token same)
  · obtain ⟨reads, shares⟩ := fails before.toHasProgram
    exact before.fails_of_shares reads shares

instance remains_within [config.IsRoomy] : (within config text exactly).Remains where
  toOperates := refines_within.operates
  moves_settings shares cursor before :=
    before.of_same shares.config shares.memory cursor shares.loops shares.returns
  moves_host _ _ _ before := before.of_same rfl rfl rfl rfl rfl
  findLine line := (staysWithin_findLine line).of_refines refines_within
  fails_interrupted _ _ _ before _ := before.of_same rfl rfl rfl rfl rfl
  moves_halt _ before := before.halt
  moves_loops _ _ older before :=
    before.of_fewer rfl rfl rfl older.subset (List.Subset.refl _)
  fails_empty _ before _ := before

instance : (within config text exactly).StartsStatements :=
  ⟨fun _ before => before.of_same rfl rfl rfl rfl rfl⟩

instance (repeats : Bool) : (within config text exactly).SetsTimer repeats :=
  ⟨fun _ _ before => before.of_same rfl rfl rfl rfl rfl⟩

instance : (within config text exactly).SeeksData :=
  ⟨fun _ _ before => before.of_same rfl rfl rfl rfl rfl⟩

/-! ### Jumps -/

/-- Whether a machine may be sent to the place that is marked. -/
def AdmitsBookmark (exactly : Bool) (machine : Machine) : Prop :=
  ∀ place ∈ machine.bookmark, machine.Admits exactly place

theorem SharesFrames.admitsBookmark (shares : machine.SharesFrames after)
    (admits : machine.AdmitsBookmark exactly) : after.AdmitsBookmark exactly :=
  fun place marked => shares.admits (admits place (shares.bookmark ▸ marked))

namespace IsWithin

/-- The current token is marked. -/
theorem mark (before : machine.IsWithin config text exactly) :
    let marked := { machine with bookmark := some machine.cursor.location }
    marked.IsWithin config text exactly ∧ marked.AdmitsBookmark exactly := by
  refine ⟨before.of_same rfl rfl rfl rfl rfl, ?_⟩
  rintro _ ⟨⟩
  exact before.admits_location

theorem admits_top {loop : Loop} (before : machine.IsWithin config text exactly)
    (top : machine.loops.top? = some loop) : machine.Admits exactly loop.resume :=
  before.frames.loops loop (List.mem_of_head? top)

variable (before : machine.IsWithin config text exactly)

include before

theorem ends_popLoop :
    (onLoops BoundedStack.pop).Ends machine
      (fun _ after => after.IsWithin config text exactly ∧
        (machine.AdmitsBookmark exactly → after.AdmitsBookmark exactly))
      (FailsWithin config text exactly) := by
  cases entries : machine.loops.entries with
  | nil => exact .of_error (runOn_onLoops (BoundedStack.runOn_pop_of_nil entries)) fun _ => before
  | cons newest older =>
    have left : older ⊆ machine.loops.entries := entries ▸ List.subset_cons_self newest older
    exact .of_ok (runOn_onLoops (BoundedStack.runOn_pop_of_cons entries))
      ⟨before.of_fewer rfl rfl rfl left (List.Subset.refl _), id⟩

theorem ends_pushLoop {loop : Loop} (admits : machine.Admits exactly loop.resume) :
    (onLoops (BoundedStack.push loop)).Ends machine
      (fun _ after => after.IsWithin config text exactly) (FailsWithin config text exactly) := by
  cases room : machine.loops.isFull with
  | true => exact .of_error (runOn_onLoops (BoundedStack.runOn_push_of_full room)) fun _ => before
  | false =>
    refine .of_ok (runOn_onLoops (BoundedStack.runOn_push_of_room room))
      (before.of_frames rfl rfl rfl ⟨fun other among => ?_, before.frames.returns⟩)
    rcases List.mem_cons.mp among with rfl | older
    · exact admits
    · exact before.frames.loops other older

/-- A loop that is counted on goes on where it is remembered to. -/
theorem ends_counterWithin (wanted : Option Name) (fuel : Nat) :
    (counterWithin wanted fuel).Ends machine
      (fun found after => after.IsWithin config text exactly ∧
        after.Admits exactly found.2.2.2) (FailsWithin config text exactly) := by
  induction fuel generalizing machine with
  | zero => exact fun _ => before
  | succ fuel ih =>
    refine .get_bind ?_
    split
    · rename_i top
      refine .ite (fun _ => ⟨before, before.admits_top top⟩) fun _ => ?_
      exact before.ends_popLoop.bind fun _ _ ⟨popped, _⟩ => ih popped
    · exact fun _ => before

/-- The place that was marked is come back to. -/
theorem ends_takeBookmark (admits : machine.AdmitsBookmark exactly) (detail : String) :
    (takeBookmark detail).Ends machine (fun _ after => after.IsWithin config text exactly)
      (FailsWithin config text exactly) := by
  refine .get_bind ?_
  split
  · rename_i place marked
    have dropped : { machine with bookmark := none }.IsWithin config text exactly :=
      before.of_same rfl rfl rfl rfl rfl
    exact .modify_bind (dropped.ends_moveTo (admits place marked))
  · exact fun _ => before

/-- A subroutine that ends comes back to where it was called. -/
theorem ends_returnStatement :
    returnStatement.Ends machine (fun _ after => after.IsWithin config text exactly)
      (FailsWithin config text exactly) := by
  rcases runOn_popReturn machine with ⟨frame, older, entries, ran⟩ | ran
  · have left : older ⊆ machine.returns.entries := entries ▸ List.subset_cons_self frame older
    have admits := before.frames.returns frame (by rw [entries]; exact List.mem_cons_self)
    have popped : IsWithin config text exactly
        { machine with returns := { machine.returns with entries := older } } :=
      before.of_fewer rfl rfl rfl (List.Subset.refl _) left
    refine .ok_bind ran (.ite (fun _ => ?_) fun _ => popped.ends_moveTo admits)
    exact .modify_bind (IsWithin.ends_moveTo
      (popped.of_same rfl rfl rfl rfl rfl) admits)
  · exact .of_error (Attempt.runOn_bind_error ran _) fun _ => before

variable [config.IsRoomy]

theorem ends_gotoNumber (number : Single) :
    (gotoNumber number).Ends machine (fun _ after => after.IsWithin config text exactly)
      (FailsWithin config text exactly) :=
  (before.ends (obeys_orFail (by decide) _)).bind fun line _ found => found.ends_gotoLine line

theorem ends_switchStatement :
    switchStatement.Ends machine (fun _ after => after.IsWithin config text exactly)
      (FailsWithin config text exactly) := by
  refine .modify_bind ((before.nextToken.ends obeys_value).bind fun wanted _ judged => ?_)
  obtain ⟨marked, admits⟩ := judged.mark
  refine .modify_bind (.get_bind ?_)
  refine (marked.ends_evaluation (obeys_findCaseWithin _ _ _)).bind
    fun found _ ⟨there, shares⟩ => ?_
  refine .ite (fun _ => ?_) fun _ => there.ends_takeBookmark (shares.admitsBookmark admits) _
  exact there.of_same rfl rfl rfl rfl rfl

theorem ends_nextRound (wanted : Option Name) :
    (nextRound wanted).Ends machine (fun _ after => after.IsWithin config text exactly)
      (FailsWithin config text exactly) := by
  refine .get_bind ((before.ends_counterWithin wanted _).bind fun found _ ⟨there, admits⟩ => ?_)
  refine (there.ends_evaluation (obeys_getScalar _)).bind fun old _ ⟨read, shares⟩ => ?_
  refine (read.ends_evaluation (obeys_setScalar _ _)).bind fun _ _ ⟨counted, again⟩ => ?_
  refine .ite (fun _ => counted.ends_popLoop.bind fun _ _ ⟨popped, _⟩ => popped) fun _ => ?_
  exact counted.ends_moveTo (again.admits (shares.admits admits))

theorem ends_wendStatement :
    wendStatement.Ends machine (fun _ after => after.IsWithin config text exactly)
      (FailsWithin config text exactly) := by
  refine .get_bind ?_
  split
  · rename_i place top
    let marked : Machine :=
      { machine.nextToken with bookmark := some machine.nextToken.cursor.location }
    obtain ⟨within, admits⟩ : marked.IsWithin config text exactly ∧
      marked.AdmitsBookmark exactly := before.nextToken.mark
    have resume : marked.Admits exactly place :=
      (SharesFrames.nextToken machine).admits (before.admits_top top)
    have gone : (Machine.jump place marked).IsWithin config text exactly :=
      .jump within.toHasProgram within.frames resume
    have still := (SharesFrames.jump place marked).admitsBookmark admits
    refine .modify_bind (.modify_bind (.modify_bind ?_))
    refine (gone.ends_evaluation obeys_value).bind fun condition _ ⟨judged, shares⟩ => ?_
    refine .ite (fun _ => ?_) fun _ => judged.ends_popLoop.bind fun _ _ ⟨popped, keeps⟩ => ?_
    · exact judged.of_same rfl rfl rfl rfl rfl
    · exact popped.ends_takeBookmark (keeps (shares.admitsBookmark still)) _
  · exact fun _ => before

theorem ends_untilStatement :
    untilStatement.Ends machine (fun _ after => after.IsWithin config text exactly)
      (FailsWithin config text exactly) := by
  refine .get_bind ?_
  split
  · rename_i top
    have resume := (SharesFrames.nextToken machine).admits (before.admits_top top)
    refine .modify_bind ?_
    refine (before.nextToken.ends_evaluation obeys_value).bind fun ends _ ⟨judged, shares⟩ => ?_
    refine .ite (fun _ => judged.ends_popLoop.bind fun _ _ ⟨popped, _⟩ => popped) fun _ => ?_
    exact judged.ends_moveTo (shares.admits resume)
  · exact fun _ => before

end IsWithin

/-- A program that starts is read from one of its lines, or from its beginning. -/
theorem ends_goAfresh (remembers : machine.Remembers config)
    (program : machine.memory.program = text) (frames : machine.AdmitsFrames exactly)
    (line : Option LineNumber) :
    (goAfresh .run line).Ends machine (fun _ after => after.IsWithin config text exactly)
      (FailsWithin config text exactly) := by
  refine .modify_bind ?_
  generalize started : ({ machine with
    continuation := none, cursor := { machine.cursor with mode := .run } } : Machine) = begun
  have reads : begun.HasProgram config text := by
    subst started
    exact .of_running (remembers.of_same rfl rfl) program rfl
  have admits : begun.AdmitsFrames exactly := by
    subst started
    exact ⟨frames.loops, frames.returns⟩
  cases line with
  | some line =>
    refine (reads.ends_gotoLine admits line).mono (fun _ _ => id) fun _ after stays same => ?_
    exact
      { stays.1 with
        token := fun exact => Bool.noConfusion (exact.symm.trans same)
        frames := stays.2.admitsFrames admits }
  | none => exact .jump reads admits (.run ProgramText.isBoundary_zero)

/-- **Jumps lead to tokens of the program.** -/
instance departs_within [config.IsRoomy] : (within config text exactly).Departs where
  gotoLine line _ := obeysFrom_within fun before => before.ends_gotoLine line
  callNumber number _ := obeysFrom_within fun before => .get_bind
    ((before.ends_pushReturn before.admits_location false).bind
      fun _ _ called => called.ends_gotoNumber number)
  returnStatement _ := obeysFrom_within fun before => before.ends_returnStatement
  nextRound wanted _ := obeysFrom_within fun before => before.ends_nextRound wanted
  wendStatement _ := obeysFrom_within fun before => before.ends_wendStatement
  untilStatement _ := obeysFrom_within fun before => before.ends_untilStatement
  switchStatement _ := obeysFrom_within fun before => before.ends_switchStatement
  continueProgram begins typed := obeysFrom_within fun before =>
    absurd (begins.symm.trans (before.typed typed).2) nofun
  startOf _ := obeysFrom_within fun before => before.ends_moveTo (.run ProgramText.isBoundary_zero)
  goAfresh mode line running := obeysFrom_within fun before => by
    rcases running with rfl | ⟨same, stored⟩
    · exact ends_goAfresh before.remembers before.program before.frames line
    · exact absurd (same.symm.trans stored) before.mode
  respond response _ := obeysFrom_within fun before => before.ends_respond response false

/-! ### Loops that begin -/

/-- What only matters within a program. -/
theorem obeysFrom_within_of (obeys : machine.IsWithin config text exactly →
      step.ObeysFrom (within config text exactly) machine) :
    step.ObeysFrom (within config text exactly) machine :=
  obeysFrom_within fun before => (obeys before).ends.mono (fun _ _ moves => moves before)
    fun _ _ fails => fails before

/-- A place in a program is the same one for all machines that read it. -/
theorem IsWithin.admits_later (before : machine.IsWithin config text exactly)
    (running : machine.cursor.mode = .run) (later : after.HasProgram config text) :
    after.Admits exactly machine.cursor.location := by
  have admits := before.admits_location
  have width : after.memory.width = machine.memory.width :=
    later.width_eq.trans before.width_eq.symm
  unfold Admits Cursor.location at admits ⊢
  rw [running] at admits ⊢
  rwa [later.program, width, ← before.program]

/-- Where there is a token, it is one of the program. -/
theorem HasProgram.mode_eq (reads : machine.HasProgram config text)
    (some : machine.cursor.token ≠ .endOfText) : machine.cursor.mode = .run := by
  have typed := reads.typed
  have mode := reads.mode
  cases there : machine.cursor.mode with
  | interactive => exact absurd (typed there).2 some
  | run => rfl
  | runStore => exact absurd there mode

theorem within_clear : clear.Obeys (within config text exactly) := by
  have clears : (onMemory Memory.clearHeap).Obeys (within config text exactly) :=
    (staysPut_clearHeap.of_refines refines_staysWithin).of_refines refines_within
  refine clears.bind fun _ => .modify fun machine before => ?_
  exact before.of_fewer rfl rfl rfl (List.nil_subset _) (List.nil_subset _)

theorem within_enablePins (enabled : Bool) :
    (enablePins enabled).Obeys (within config text exactly) :=
  .modify fun _ before => before.of_same rfl rfl rfl rfl rfl

/-- **Pins are served within the program.** -/
theorem within_servePins : servePins.Obeys (within config text exactly) := by
  refine .get_bind fun machine => .ite (fun _ => ?_) fun _ => .pure _
  refine .bind (fun before =>
    before.of_same rfl rfl rfl rfl rfl) fun _ => ?_
  refine obeys_answer (fun response => ?_) _
  have responds : (respond response true).Obeys (within config text exactly) := fun _ =>
    obeysFrom_within fun before => before.ends_respond response true
  exact .ite ((within_enablePins false).bind fun _ => responds) responds

section Performs

variable [config.IsRoomy]

theorem within_beginFor (counter : Name) (limit step : Single) :
    (beginFor counter limit step).Obeys (within config text exactly) := by
  refine (obeys_unwindLoops _).bind fun _ => (obeys_getScalar _).bind fun _ => ?_
  refine .ite obeys_leaveFor fun machine => obeysFrom_within fun before => ?_
  exact .get_bind (before.ends_pushLoop before.admits_location)

/-- **A loop whose body begins behind the current token goes on at a token of the program.** -/
theorem IsWithin.within_beginLoop (before : machine.IsWithin config text exactly)
    (begins : machine.cursor.token ≠ .endOfText) (kind : LoopKind) :
    (beginLoop { kind, resume := machine.nextToken.cursor.location }).Obeys
      (within config text exactly) := by
  have running : machine.nextToken.cursor.mode = .run := by
    rw [nextToken_eq, Cursor.mode_next]
    exact before.mode_eq begins
  refine (obeys_unwindLoops _).bind fun _ later => obeysFrom_within fun within => ?_
  exact within.ends_pushLoop (before.nextToken.admits_later running within.toHasProgram)

/-- **Statements stay within the program**, as long as none edits it. -/
instance performs_within : (within config text exactly).Performs where
  toEdits := refines_within.edits
  forbids := meddles
  remains := inferInstance
  editsProgram edits allowed := by simp [meddles, edits] at allowed
  departs _ _ := inferInstance
  clear _ _ := within_clear
  watchPins _ _ _ before :=
    before.of_same rfl rfl rfl rfl rfl
  takeDatum _ _ := obeys_takeDatum
  seekData _ _ _ _ before :=
    before.of_same rfl rfl rfl rfl rfl
  setTimer _ _ _ := obeys_timerStatement
  clearTimer _ := obeys_clearTimer
  holdPins _ _ := within_enablePins false _
  releasePins _ _ := within_enablePins true _
  clearReturns _ _ _ before :=
    before.of_fewer rfl rfl rfl (List.Subset.refl _) (List.nil_subset _)
  poke pokes allowed := by simp [meddles, pokes] at allowed
  forStatement _ _ := obeysFrom_forStatement fun counter limit step _ =>
    within_beginFor counter limit step
  whileStatement begins _ := obeysFrom_within_of fun before =>
    obeysFrom_whileStatement (before.within_beginLoop (by rw [begins]; exact nofun) .while)
  repeatStatement begins _ := obeysFrom_within_of fun before =>
    obeysFrom_repeatStatement (before.within_beginLoop (by rw [begins]; exact nofun) .repeat)

/-- **A step stays within the program**, as long as no statement edits it. -/
theorem within_stepUnless : (stepUnless meddles).Obeys (within config text exactly) := by
  have steps := obeys_stepUnless (Conduct.Refines.refl (within config text exactly))
    within_servePins
  exact steps

end Performs

end Machine

end PocketBasic
