/-
**A dispatch serves pins as the steps of a delivery do.** A dispatch that the host leaves alone
looks at one slot after the other and serves one pin, and what statements do to pins are deeds of
the program. So what is said of deliveries holds of machines.

* `Machine.delivery`: the pins of a machine between two dispatches;
* `Machine.answerPin`: what a dispatch does about the pin that it serves;
* `Machine.servePins_delivers`: serving a pin is looking at all slots, and then answering for one;
* **`Machine.dispatch_delivers`**: a dispatch is such a run, and it does what the pin that it serves
  is watched for;
* `Machine.setsPins_eventStatement` and the others: what statements do to pins.
-/

import Mathlib.Tactic.Common
import PocketBasic.Machine.Timing
import PocketBasic.Proofs.Event.PinTurns
import PocketBasic.Proofs.Machine.HeldPins
import PocketBasic.Proofs.Machine.PinDelivery
import PocketBasic.Proofs.Number.Order

namespace PocketBasic

/-! ### A dispatch without the host -/

/-- The pins of a machine between two dispatches. -/
def Machine.delivery (machine : Machine) : Delivery :=
  { table := machine.pins, signals := machine.host.signals }

/-- What leaves the pins alone. -/
def Conduct.leavesPins : Conduct Machine where
  moves before after := after.delivery = before.delivery
  fails before _ after := after.delivery = before.delivery
  refl _ := rfl
  trans first second := second.trans first
  fails_of_moves first second := second.trans first
  fails_moves first second := second.trans first

namespace Machine

open Conduct (leavesPins)

variable {machine : Machine}

theorem delivery_jump (place : Location) : (jump place machine).delivery = machine.delivery := by
  rw [jump, nextToken_eq]
  rfl

theorem obeys_leavesPins_iff {α : Type} {step : Action α} :
    step.Obeys leavesPins ↔ ∀ machine, (step.runOn machine).2.delivery = machine.delivery := by
  refine forall_congr' fun machine => ?_
  unfold Attempt.ObeysFrom
  rcases step.runOn machine with ⟨failure | value, after⟩ <;> exact Iff.rfl

theorem leavesPins_gotoLine (line : LineNumber) : (gotoLine line).Obeys leavesPins := by
  have finds (found : Option Nat) :
      (Attempt.orFail .undefinedLine found : Action Nat).Obeys leavesPins := by
    cases found <;> exact fun _ => rfl
  have looks : (onMemory (Attempt.always fun memory => memory.findLine line)).Obeys leavesPins :=
    obeys_leavesPins_iff.mpr fun _ => rfl
  refine .bind (.get_bind fun machine => ?_) fun _ => .modify fun machine => delivery_jump _
  split
  · exact (finds _).bind (fun _ => .pure _) machine
  · exact looks.bind (fun found => (finds found).bind fun _ => .pure _) machine

theorem leavesPins_respond (response : Response) (fromPin : Bool) :
    (respond response fromPin).Obeys leavesPins := by
  cases response with
  | goto line => exact leavesPins_gotoLine line
  | gosub line =>
    have pushes (frame : Return) : (onReturns (BoundedStack.push frame)).Obeys leavesPins :=
      obeys_leavesPins_iff.mpr fun _ => rfl
    refine .bind (.get_bind fun machine => .pure _) fun resume => ?_
    exact (pushes _).bind fun _ => leavesPins_gotoLine line

theorem delivery_respond (response : Response) (fromPin : Bool) (machine : Machine) :
    ((respond response fromPin).runOn machine).2.delivery = machine.delivery :=
  obeys_leavesPins_iff.mp (leavesPins_respond response fromPin) machine

/-- Does what the pin is watched for whose turn it is. While its subroutine runs no other pin is
served. -/
def answerPin (response : Response) : Action Unit := do
  if response.isCall then
    modify fun machine => { machine with pins := { machine.pins with isEnabled := false } }
  respond response true

/-- The machine with its raised pins taken over and the next one served, but not answered yet. -/
def pinTaken (machine : Machine) : Machine :=
  let (pins, signals) := machine.pins.poll machine.host.signals
  { machine with pins := pins.take.2, host := { machine.host with signals } }

theorem delivery_pinTaken (machine : Machine) :
    machine.pinTaken.delivery =
      { table := (machine.pins.poll machine.host.signals).1.take.2
        signals := (machine.pins.poll machine.host.signals).2 } := rfl

theorem delivery_answerPin (response : Response) (machine : Machine) :
    ((answerPin response).runOn machine).2.delivery =
      { machine.delivery with
        table :=
          { machine.delivery.table with
            isEnabled := machine.delivery.table.isEnabled && !response.isCall } } := by
  cases response with
  | goto line =>
    show ((respond (.goto line) true).runOn machine).2.delivery = _
    rw [delivery_respond]
    simp [delivery, Response.isCall]
  | gosub line =>
    show ((respond (.gosub line) true).runOn
      { machine with pins := { machine.pins with isEnabled := false } }).2.delivery = _
    rw [delivery_respond]
    simp [delivery, Response.isCall]

/-- A dispatch that serves pins looks at every slot first. -/
theorem run?_looks (serves : machine.pins.isEnabled = true) (watches : machine.pins.slots ≠ [])
    (ends : PinDeed) :
    machine.delivery.run?
        (.begin :: (List.replicate machine.pins.slots.length .poll ++ [ends])) =
      Delivery.after?
        { table := (machine.pins.poll machine.host.signals).1
          signals := (machine.pins.poll machine.host.signals).2
          polled := some (machine.pins.poll machine.host.signals).1.slots.length } ends := by
  have begins : machine.delivery.after? .begin = some { machine.delivery with polled := some 0 } :=
    if_pos ⟨rfl, serves, watches⟩
  have looks := Delivery.run?_polls machine.pins [] machine.pins.slots machine.host.signals
  rw [Delivery.run?_cons, begins, Option.bind_some, Delivery.run?_append]
  refine (congrArg (fun reached => Option.bind reached (Delivery.run? · [ends])) looks).trans ?_
  rw [Option.bind_some, Delivery.run?_cons]
  exact Option.bind_fun_some _

/-- What a dispatch that serves pins does when it has looked at the slots. -/
theorem runOn_servePins (serves : machine.pins.isEnabled = true)
    (watches : machine.pins.slots ≠ []) :
    servePins.runOn machine =
      (match (machine.pins.poll machine.host.signals).1.take.1 with
        | some response => answerPin response
        | none => return () : Action Unit).runOn machine.pinTaken := by
  have condition : (machine.pins.isEnabled && !machine.pins.slots.isEmpty) = true := by
    simp [serves, watches]
  rw [servePins, Attempt.runOn_get_bind, if_pos condition]
  rfl

/-- A dispatch serves no pin where pins are held, or none is watched. -/
theorem runOn_servePins_of_held
    (held : ¬ (machine.pins.isEnabled = true ∧ machine.pins.slots ≠ [])) :
    servePins.runOn machine = (.ok (), machine) := by
  have condition : ¬ (machine.pins.isEnabled && !machine.pins.slots.isEmpty) = true := by
    simpa using held
  rw [servePins, Attempt.runOn_get_bind, if_neg condition]
  rfl

/-- A dispatch that serves pins and is left alone looks at every slot and serves one pin or none.
The pin that it serves is answered with the response of its slot. -/
theorem servePins_delivers (serves : machine.pins.isEnabled = true)
    (watches : machine.pins.slots ≠ []) :
    ∃ ends : PinDeed,
      (ends = .pass ∧ servePins.runOn machine = (.ok (), machine.pinTaken) ∨
        ∃ slot ∈ machine.pins.slots, ends = .serve slot.pin ∧
          servePins.runOn machine = (answerPin slot.response).runOn machine.pinTaken) ∧
      machine.delivery.run?
          (.begin :: (List.replicate machine.pins.slots.length .poll ++ [ends])) =
        some (servePins.runOn machine).2.delivery := by
  cases next : (machine.pins.poll machine.host.signals).1.nextSlot? with
  | none =>
    have nobody : (machine.pins.poll machine.host.signals).1.nextActive? = none := by
      by_contra some_place
      obtain ⟨place, active⟩ := Option.ne_none_iff_exists'.mp some_place
      obtain ⟨slot, found⟩ := PinTable.exists_nextSlot? active
      rw [next] at found
      cases found
    have taken := PinTable.take_of_none nobody
    have passes : servePins.runOn machine = (.ok (), machine.pinTaken) := by
      rw [runOn_servePins serves watches, taken]
      rfl
    refine ⟨.pass, .inl ⟨rfl, passes⟩, (run?_looks serves watches _).trans ?_⟩
    rw [passes, delivery_pinTaken, taken]
    exact if_pos ⟨rfl, next⟩
  | some slot =>
    obtain ⟨before, after, start, split, -, taken⟩ := PinTable.take_of_nextSlot? next
    have answers : servePins.runOn machine =
        (answerPin slot.response).runOn machine.pinTaken := by
      rw [runOn_servePins serves watches, taken]
    -- Looking at the slots changes no more than which pins wait.
    have among : slot ∈ (machine.pins.poll machine.host.signals).1.slots := by
      rw [split]
      exact List.mem_append_right _ List.mem_cons_self
    obtain ⟨old, watched, activates⟩ := (PinTable.activates_poll _ _).exists_old among
    refine ⟨.serve slot.pin, .inr ⟨old, watched, by rw [activates.pin], ?_⟩,
      (run?_looks serves watches _).trans ?_⟩
    · rw [answers, activates.response]
    · rw [answers, delivery_answerPin, delivery_pinTaken]
      refine (if_pos ⟨rfl, by rw [next]; rfl⟩).trans ?_
      rw [Delivery.serveNext, taken]
      rfl

/-- **A dispatch that the host leaves alone is a run of these steps**, in which no pin is raised. If
it serves a pin, it does what the pin is watched for. -/
theorem dispatch_delivers (machine : Machine) :
    ∃ deeds, (∀ pin, PinDeed.raised pin deeds = 0) ∧
      machine.delivery.run? deeds = some (dispatch.runOn machine).2.delivery ∧
      ∀ pin, .serve pin ∈ deeds → ∃ slot ∈ machine.pins.slots, slot.pin = pin ∧
        dispatch.runOn machine = (answerPin slot.response).runOn machine.pinTaken := by
  have idle {after : Machine} (same : after.delivery = machine.delivery) :
      ∃ deeds, (∀ pin, PinDeed.raised pin deeds = 0) ∧
        machine.delivery.run? deeds = some after.delivery ∧
        ∀ pin, .serve pin ∈ deeds → ∃ slot ∈ machine.pins.slots, slot.pin = pin ∧
          dispatch.runOn machine = (answerPin slot.response).runOn machine.pinTaken :=
    ⟨[], fun _ => rfl, by rw [same]; rfl, nofun⟩
  have answers (timers : Timers) (response : Option Response) :
      ((match response with
        | some response => respond response false
        | none => return () : Action Unit).runOn { machine with timers }).2.delivery =
          machine.delivery := by
    cases response with
    | none => rfl
    | some response => exact delivery_respond response false { machine with timers }
  by_cases once : machine.timers.after.isDue machine.host.millis = true
  · refine idle ?_
    rw [dispatch, Attempt.runOn_get_bind]
    dsimp only
    rw [if_pos once]
    exact answers _ _
  by_cases again : machine.timers.every.isDue machine.host.millis = true
  · refine idle ?_
    rw [dispatch, Attempt.runOn_get_bind]
    dsimp only
    rw [if_neg once, if_pos again]
    exact answers _ _
  have serving : dispatch.runOn machine = servePins.runOn machine := by
    rw [dispatch, Attempt.runOn_get_bind]
    dsimp only
    rw [if_neg once, if_neg again]
  rw [serving] at idle ⊢
  by_cases serves : machine.pins.isEnabled = true ∧ machine.pins.slots ≠ []
  · obtain ⟨ends, kind, ran⟩ := servePins_delivers serves.1 serves.2
    refine ⟨_, fun pin => ?_, ran, fun pin among => ?_⟩
    · rw [PinDeed.raised, List.count_eq_zero]
      rcases kind with ⟨rfl, -⟩ | ⟨slot, -, rfl, -⟩ <;> simp
    · rcases kind with ⟨rfl, -⟩ | ⟨slot, watched, rfl, answers⟩
      · simp at among
      · have served : pin = slot.pin := by simpa using among
        exact ⟨slot, watched, served.symm, answers⟩
  · refine idle ?_
    rw [runOn_servePins_of_held serves]

end Machine

/-! ### Statements -/

/-- Whether a deed is one of a statement. -/
def PinDeed.isOfProgram : PinDeed → Bool
  | watch _ _ | forget _ | clear | enable _ => true
  | raise _ | begin | poll | serve _ | pass => false

/-- What watches and gives up pins, holds them and lets them be served, one after the other. -/
def Conduct.setsPins : Conduct Machine where
  moves before after := ∀ signals, ∃ deeds, (∀ deed ∈ deeds, deed.isOfProgram = true) ∧
    Delivery.run? { table := before.pins, signals } deeds = some { table := after.pins, signals }
  fails before _ after := ∀ signals, ∃ deeds, (∀ deed ∈ deeds, deed.isOfProgram = true) ∧
    Delivery.run? { table := before.pins, signals } deeds = some { table := after.pins, signals }
  refl _ _ := ⟨[], by simp, rfl⟩
  trans first second signals := Delivery.exists_run?_trans (first signals) (second signals)
  fails_of_moves first second signals := Delivery.exists_run?_trans (first signals) (second signals)
  fails_moves first second signals := Delivery.exists_run?_trans (first signals) (second signals)

namespace Machine

open Conduct (setsPins)

theorem setsPins_of_same {before after : Machine} (same : after.pins = before.pins) :
    setsPins.moves before after := by
  intro signals
  refine ⟨[], by simp, ?_⟩
  rw [same]
  rfl

theorem setsPins_of_after? {before after : Machine} (deed : PinDeed)
    (program : deed.isOfProgram = true)
    (does : ∀ signals, Delivery.after? { table := before.pins, signals } deed =
      some { table := after.pins, signals }) : setsPins.moves before after := by
  intro signals
  refine ⟨[deed], by simpa using program, ?_⟩
  rw [Delivery.run?_cons, does]
  rfl

theorem ignoresMemory_setsPins : setsPins.IgnoresMemory :=
  ⟨fun _ _ => setsPins_of_same rfl, fun _ _ _ _ => setsPins_of_same rfl⟩

theorem pins_jump (place : Location) (machine : Machine) :
    (jump place machine).pins = machine.pins := by
  rw [jump, nextToken_eq]

theorem setsPins_excursion {before middle after : Machine} (place : Location)
    (first : setsPins.moves before middle) (second : setsPins.moves (jump place middle) after) :
    setsPins.moves before after :=
  setsPins.trans first (setsPins.trans (setsPins_of_same (pins_jump place middle)) second)

instance evaluates_setsPins : setsPins.Evaluates where
  toReads := ignoresMemory_setsPins.usesMemory.reads ⟨fun _ => setsPins_of_same rfl⟩
    (fun _ _ _ _ _ _ _ _ _ _ _ _ _ => setsPins_of_same rfl) (fun _ => setsPins_of_same rfl)
    fun _ => setsPins_of_same rfl
  toMakes := ignoresMemory_setsPins.usesMemory.makes
  moves_excursion _ first second :=
    setsPins.trans (setsPins_excursion _ first second) (setsPins_of_same (pins_jump _ _))
  fails_excursion _ first second := setsPins_excursion _ first second
  fails_otherwise := id
  fails_first first second := setsPins.trans first second
  fails_second first second := setsPins.trans first second
  storeScalar := ignoresMemory_setsPins.usesMemory.storeScalar
  deleteScalar := ignoresMemory_setsPins.usesMemory.delete .scalar

instance jumps_setsPins : setsPins.Jumps where
  evaluates := evaluates_setsPins
  moves_registers shares := setsPins_of_same shares.pins
  moves_host _ _ := setsPins_of_same rfl
  moves_loops _ _ := setsPins_of_same rfl
  fails_full _ := setsPins_of_same rfl
  fails_empty _ := setsPins_of_same rfl
  findLine _ := ignoresMemory_setsPins.onMemory (Memory.ordinary_always _)

/-- A pin that a number denotes exists. -/
theorem runOn_pinNumber {number : Single} {machine after : Machine} {pin : UInt8}
    (ran : (pinNumber number).runOn machine = (.ok pin, after)) :
    after = machine ∧ pin.toNat < 64 := by
  unfold pinNumber at ran
  rw [Attempt.runOn_ite] at ran
  split at ran <;> cases ran
  rename_i inside
  simp only [Bool.or_eq_true, not_or, Bool.not_eq_true] at inside
  have small : number.toSize ≤ 63 := Single.toSize_le_of_exact (by decide) inside.2
  refine ⟨rfl, ?_⟩
  rw [Single.toByte, UInt8.toNat_ofNat']
  exact Nat.lt_of_le_of_lt (Nat.mod_le _ _)
    (Nat.lt_succ_of_le (Nat.le_trans (number.clampToNat_le_toSize (by decide)) small))

theorem setsPins_forget (pin : UInt8) :
    (modify fun machine => { machine with pins := machine.pins.remove pin } :
      Action Unit).Obeys setsPins :=
  .modify fun _ => setsPins_of_after? (.forget pin) rfl fun _ => rfl

theorem setsPins_enablePins (enabled : Bool) : (enablePins enabled).Obeys setsPins :=
  .modify fun _ => setsPins_of_after? (.enable enabled) rfl fun _ => rfl

/-- Watching a pin. -/
theorem setsPins_watch {pin : UInt8} (exists_pin : pin.toNat < 64) (response : Response) :
    (do
      match (← get).pins.add? pin response with
      | some pins => modify fun machine => { machine with pins }
      | none =>
        modify fun machine => { machine with pins := machine.pins.remove pin }
        Attempt.failWith .outOfMemory "EVENT" : Action Unit).Obeys setsPins := by
  refine .get_bind fun machine => ?_
  split
  · rename_i table added
    refine setsPins_of_after? (.watch pin response) rfl fun signals => ?_
    refine (if_pos ⟨rfl, exists_pin⟩).trans ?_
    rw [added]
    rfl
  · exact ((setsPins_forget pin).bind fun _ => obeys_failWith (by decide)) machine

theorem setsPins_watchPin : watchPin.Obeys setsPins := by
  refine obeys_value.bind fun number machine => ?_
  have numbers : (pinNumber number).Obeys setsPins := .ite (obeys_fail (by decide)) (.pure _)
  refine (numbers machine).bind_of_ran fun pin after ran => ?_
  have exists_pin := (runOn_pinNumber ran).2
  refine (obeys_atEnd.bind fun _ => .ite (setsPins_forget pin) ?_) after
  refine (obeys_expect _).bind fun _ => obeys_value.bind fun _ => .ite (obeys_fail (by decide)) ?_
  refine obeys_response?.bind fun _ => (obeys_orFail (by decide) _).bind fun response => ?_
  exact setsPins_watch exists_pin response

/-- **`EVENT` gives up a pin, watches one that exists, or holds pins and lets them be served**, and
does nothing else to them. -/
theorem setsPins_eventStatement : eventStatement.Obeys setsPins := by
  refine obeys_advance.bind fun _ => obeys_token.bind fun token => ?_
  split
  · exact obeys_advance.bind fun _ => setsPins_enablePins false
  · exact obeys_advance.bind fun _ => setsPins_enablePins true
  · exact setsPins_watchPin

theorem setsPins_clear : clear.Obeys setsPins := by
  refine (ignoresMemory_setsPins.onMemory Memory.obeys_clearHeap).bind fun _ =>
    .modify fun _ => ?_
  exact setsPins_of_after? .clear rfl fun _ => rfl

theorem setsPins_returnStatement : returnStatement.Obeys setsPins := by
  have pops : (onReturns BoundedStack.pop).Obeys setsPins := by
    intro machine
    rcases runOn_popReturn machine with ⟨frame, older, -, ran⟩ | ran
    · exact Attempt.obeysFrom_of_ok ran (setsPins_of_same rfl)
    · exact Attempt.obeysFrom_of_error ran (setsPins_of_same rfl)
  refine pops.bind fun frame => .ite ?_ (obeys_moveTo _)
  exact (setsPins_enablePins true).bind fun _ => obeys_moveTo _

end Machine

end PocketBasic
