/-
**What statements have no part in.** Some registers of the machine are changed in a few places only:
neither evaluations nor jumps, loops, subroutines and pins say anything of them. A property of such
registers is kept by every statement, but for those few places.

* `Machine.IsAside`: such a property;
* `Machine.IsAside.jumps`, `Machine.IsAside.diverts`: jumps, loops, subroutines and pins keep it;
* **`Machine.IsAside.performs`**: so do statements, if the data are taken and sought, and timers are
  set, in such a way that it is kept, and if starting afresh keeps it.
-/

import PocketBasic.Proofs.Machine.Running

namespace PocketBasic.Machine

/-- Whether a property says nothing of what evaluations and jumps change, nor of loops, subroutines
and pins. -/
structure IsAside (holds : Machine → Prop) : Prop where
  apart : IsApart holds
  registers : ∀ {before after : Machine}, before.Shares after → holds before → holds after
  frames : ∀ (machine : Machine) loops returns pins, holds machine →
    holds { machine with loops, returns, pins }

namespace IsAside

variable {holds : Machine → Prop} (aside : IsAside holds)

include aside

theorem jumps : (Conduct.keeps holds).Jumps where
  evaluates := aside.apart.evaluates
  moves_registers := aside.registers
  moves_host machine _ := aside.apart machine machine.memory machine.cursor machine.operands
    machine.depth _ machine.deviceFailed machine.input machine.output machine.random
    machine.seed rfl
  moves_loops machine loops := aside.frames machine loops machine.returns machine.pins
  fails_full _ := id
  fails_empty _ := id
  findLine _ := aside.apart.ignoresMemory.onMemory (Memory.ordinary_always _)

theorem diverts : (Conduct.keeps holds).Diverts where
  moves_returns machine _ := aside.frames machine machine.loops _ machine.pins
  fails_full _ := id
  fails_empty _ := id
  moves_pins machine pins := aside.frames machine machine.loops machine.returns pins

theorem departs : (Conduct.keeps holds).Departs :=
  @Conduct.Diverts.departs _ aside.jumps.steers aside.diverts

/-- **Serving a pin keeps the property.** -/
theorem servePins : Machine.servePins.Obeys (.keeps holds) :=
  @obeys_servePins _ aside.jumps.steers.toGoes aside.diverts

/-- **Statements keep a property that is aside** of what they do, if starting afresh and the
statements on data and timers keep it where they are not forbidden. -/
@[reducible]
def performs (forbids : Machine → Bool)
    (clears : ∀ {machine : Machine}, machine.clearsAll = true → forbids machine = false →
      Machine.clear.Obeys (.keeps holds))
    (takes : ∀ {machine : Machine}, machine.cursor.token = .word .read → forbids machine = false →
      takeDatum.Obeys (.keeps holds))
    (seeks : ∀ {machine : Machine}, machine.seeksData = true → forbids machine = false →
      ∀ (later : Machine) data, holds later → holds { later with data })
    (sets : ∀ {machine : Machine} (repeats : Bool), machine.setsTimer repeats = true →
      forbids machine = false → (timerStatement repeats).Obeys (.keeps holds))
    (clearsTimer : ∀ repeats, (clearTimer repeats).Obeys (.keeps holds)) :
    (Conduct.keeps holds).Performs where
  toEdits := aside.apart.ignoresMemory.edits
  forbids := forbids
  remains := aside.jumps.steers.toRemains
  editsProgram _ _ := aside.apart.ignoresMemory.editsProgram
  departs _ _ := aside.departs
  clear := clears
  watchPins machine pins _ := aside.diverts.moves_pins machine pins
  takeDatum := takes
  seekData := seeks
  setTimer := sets
  clearTimer := clearsTimer
  holdPins _ _ := aside.diverts.moves_pins _ _
  releasePins _ _ := aside.diverts.moves_pins _ _
  clearReturns _ _ later := aside.diverts.moves_returns later []
  poke _ _ := @Conduct.UsesMemory.pokeStatement _ aside.apart.ignoresMemory.usesMemory
    aside.jumps.steers.toRemains.toOperates
  forStatement _ _ :=
    @obeys_forStatement _ aside.jumps.steers.toRemains (@obeys_pushLoop _ aside.jumps) _
  whileStatement _ _ :=
    @obeys_whileStatement _ aside.jumps.steers.toRemains (@obeys_pushLoop _ aside.jumps) _
  repeatStatement _ _ :=
    @obeys_repeatStatement _ aside.jumps.steers.toRemains (@obeys_pushLoop _ aside.jumps) _

end IsAside

end PocketBasic.Machine
