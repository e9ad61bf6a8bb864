/-
**What goes unnoticed.** Some parts of a machine make no difference to what it does for as long as
it does not look at them: a typed line while a program runs, the place where a stopped program would
go on, the lines that are remembered. Two machines that differ in such parts do the same, and differ
in nothing else behind it. What differs is a disguise; it has to stay unnoticed by each of the few
things that a machine does with its places and its texts.

* `Guise`, `Machine.wearing`: a machine with other parts of this kind;
* `Disguise`: which guises go unnoticed, and in which modes a machine goes on;
* `Disguise.EndsAlike`: ends of a step that differ in a guise at most;
* `Disguise.Gives`, `Disguise.Heedless`: steps that end alike in any guise;
* `Disguise.Gives.bind` and the others: one law for each way of building a step;
* `Disguise.Lawful`, `Disguise.Accesses`: what a disguise has to stand.
-/

import PocketBasic.Machine.Run
import PocketBasic.Proofs.Machine.Ahead
import PocketBasic.Proofs.Memory.LineSlots

namespace PocketBasic

/-- What a machine may have in the place of its own: a typed line, a place where a stopped program
goes on, and lines that are remembered. -/
structure Guise where
  line : TypedLine
  continuation : Option Location
  slots : LineCache

/-- Which guises of which machines go unnoticed, and the modes of the places that machines go to. -/
structure Disguise where
  hides : Machine → Guise → Prop
  admits : Mode → Prop

namespace Machine

/-- The machine in a guise. -/
def wearing (guise : Guise) (machine : Machine) : Machine :=
  { machine with
    cursor := { machine.cursor with line := guise.line }
    continuation := guise.continuation
    memory := machine.memory.withSlots guise.slots }

/-- Whether a machine reads on in an admitted mode, and has only places of such modes in mind. -/
structure GoesOnIn (admits : Mode → Prop) (machine : Machine) : Prop where
  mode : admits machine.cursor.mode
  loops : ∀ loop ∈ machine.loops.entries, admits loop.resume.mode
  returns : ∀ frame ∈ machine.returns.entries, admits frame.resume.mode
  bookmark : ∀ place ∈ machine.bookmark, admits place.mode
  start : admits machine.statementStart.mode

/-- Whether two machines have the same places in mind. -/
structure SharesPlaces (before after : Machine) : Prop where
  same : (after.cursor.mode, after.loops, after.returns, after.bookmark, after.statementStart) =
    (before.cursor.mode, before.loops, before.returns, before.bookmark, before.statementStart)

/-- Whether two machines read on in the same texts, with the same places in mind. -/
structure SharesReading (before after : Machine) : Prop where
  same : (after.cursor.mode, after.loops, after.returns, after.bookmark, after.statementStart,
      after.cursor.line, after.continuation, after.memory, after.config) =
    (before.cursor.mode, before.loops, before.returns, before.bookmark, before.statementStart,
      before.cursor.line, before.continuation, before.memory, before.config)

variable {admits : Mode → Prop} {machine after : Machine}

theorem GoesOnIn.of_shares (goesOn : machine.GoesOnIn admits)
    (shares : machine.SharesPlaces after) : after.GoesOnIn admits := by
  have same := shares.same
  simp only [Prod.mk.injEq] at same
  obtain ⟨mode, loops, returns, bookmark, start⟩ := same
  exact ⟨mode ▸ goesOn.mode, loops ▸ goesOn.loops, returns ▸ goesOn.returns,
    bookmark ▸ goesOn.bookmark, start ▸ goesOn.start⟩

end Machine

namespace Disguise

open Machine

variable {α β : Type} {disguise : Disguise} {machine other : Machine} {good : α → Prop}
  {fine : β → Prop}

/-! ### Steps that end alike -/

/-- Whether two steps ended alike: with the same result, and with the same machine but for a guise
that goes unnoticed. Of the result something is known. -/
inductive EndsAlike (disguise : Disguise) (good : α → Prop) :
    Except Failure α × Machine → Except Failure α × Machine → Prop
  | same (ended : Except Failure α × Machine) : EndsAlike disguise good ended ended
  | hidden {result : Except Failure α} {after : Machine} (guise : Guise)
      (hides : disguise.hides after guise) (known : ∀ value, result = .ok value → good value) :
      EndsAlike disguise good (result, after) (result, after.wearing guise)

/-- Whether a step ends alike in any guise that goes unnoticed, with something known of its
value. -/
def Gives (disguise : Disguise) (good : α → Prop) (step : Action α) : Prop :=
  ∀ machine guise, disguise.hides machine guise →
    disguise.EndsAlike good (step.runOn machine) (step.runOn (machine.wearing guise))

/-- Whether a step ends alike in any guise that goes unnoticed. -/
abbrev Heedless (disguise : Disguise) (step : Action α) : Prop :=
  disguise.Gives (fun _ => True) step

theorem EndsAlike.eq_or_wearing {one other : Except Failure α × Machine}
    (ends : disguise.EndsAlike good one other) :
    one = other ∨ ∃ result after guise, one = (result, after) ∧
      other = (result, after.wearing guise) ∧ disguise.hides after guise ∧
        ∀ value, result = .ok value → good value := by
  cases ends with
  | same => exact .inl rfl
  | hidden guise hides known => exact .inr ⟨_, _, guise, rfl, rfl, hides, known⟩

/-! ### Steps that are not made of others -/

theorem Gives.pure {value : α} (known : good value) :
    disguise.Gives good (Pure.pure value : Action α) :=
  fun _ guise hides => .hidden guise hides fun _ same => Except.ok.inj same ▸ known

theorem gives_throw (failure : Failure) : disguise.Gives good (throw failure : Action α) :=
  fun _ guise hides => .hidden guise hides nofun

theorem gives_fail (kind : ErrorKind) : disguise.Gives good (Attempt.fail kind : Action α) :=
  gives_throw _

theorem gives_failWith (kind : ErrorKind) (detail : String) :
    disguise.Gives good (Attempt.failWith kind detail : Action α) := gives_throw _

theorem heedless_fail (kind : ErrorKind) : disguise.Heedless (Attempt.fail kind : Action α) :=
  gives_fail kind

theorem heedless_lift (result : Except Error α) :
    disguise.Heedless (Attempt.lift result : Action α) := by
  cases result with
  | ok value => exact .pure trivial
  | error error => exact gives_throw _

theorem heedless_orFault (value : Option α) :
    disguise.Heedless (Attempt.orFault value : Action α) := by
  cases value with
  | some value => exact .pure trivial
  | none => exact gives_throw _

theorem gives_orFail (kind : ErrorKind) {value : Option α} (known : ∀ inner ∈ value, good inner) :
    disguise.Gives good (Attempt.orFail kind value : Action α) := by
  cases value with
  | some value => exact .pure (known value rfl)
  | none => exact gives_fail kind

theorem heedless_orFail (kind : ErrorKind) (value : Option α) :
    disguise.Heedless (Attempt.orFail kind value : Action α) := gives_orFail kind fun _ _ => trivial

/-- A change that no guise has a part in. -/
theorem heedless_modify {change : Machine → Machine}
    (alike : ∀ machine guise, disguise.hides machine guise →
      ∃ next, change (machine.wearing guise) = (change machine).wearing next ∧
        disguise.hides (change machine) next) :
    disguise.Heedless (modify change : Action Unit) := by
  intro machine guise hides
  obtain ⟨next, moved, hides⟩ := alike machine guise hides
  rw [Attempt.runOn_modify, Attempt.runOn_modify, moved]
  exact .hidden next hides fun _ _ => trivial

/-! ### Steps one after the other -/

/-- What is known of the first value is known where the second step begins. -/
theorem EndsAlike.bind {step : Action α} {next : α → Action β}
    (first : disguise.EndsAlike good (step.runOn machine) (step.runOn other))
    (second : ∀ value, good value → disguise.Gives fine (next value)) :
    disguise.EndsAlike fine ((step >>= next).runOn machine) ((step >>= next).runOn other) := by
  rw [Attempt.runOn_bind_eq_goOn, Attempt.runOn_bind_eq_goOn]
  obtain same | ⟨result, after, guise, ran, again, hides, known⟩ := first.eq_or_wearing
  · rw [same]
    exact .same _
  rw [ran, again]
  cases result with
  | error failure => exact .hidden guise hides nofun
  | ok value => exact second value (known value rfl) after guise hides

theorem Gives.bind {step : Action α} {next : α → Action β} (first : disguise.Gives good step)
    (second : ∀ value, good value → disguise.Gives fine (next value)) :
    disguise.Gives fine (step >>= next) :=
  fun machine guise hides => (first machine guise hides).bind second

theorem Heedless.bind {step : Action α} {next : α → Action β} (first : disguise.Heedless step)
    (second : ∀ value, disguise.Gives fine (next value)) : disguise.Gives fine (step >>= next) :=
  Gives.bind first fun value _ => second value

theorem Heedless.map {step : Action α} (heedless : disguise.Heedless step) (change : α → β) :
    disguise.Heedless (change <$> step) := by
  rw [← bind_pure_comp]
  exact heedless.bind fun _ => .pure trivial

/-- What follows a look at the machine, if no guise has a part in what is looked at. -/
theorem Gives.get_bind {next : Machine → Action β}
    (same : ∀ machine guise, disguise.hides machine guise →
      next (machine.wearing guise) = next machine)
    (second : ∀ machine guise, disguise.hides machine guise → disguise.Gives fine (next machine)) :
    disguise.Gives fine (get >>= next) := by
  intro machine guise hides
  rw [Attempt.runOn_get_bind, Attempt.runOn_get_bind, same machine guise hides]
  exact second machine guise hides machine guise hides

theorem Gives.ite {condition : Prop} [Decidable condition] {first second : Action α}
    (holds : disguise.Gives good first) (fails : disguise.Gives good second) :
    disguise.Gives good (if condition then first else second) := by
  split
  · exact holds
  · exact fails

/-! ### Steps around others -/

theorem Heedless.ensuring {step : Action α} (heedless : disguise.Heedless step)
    {change : Machine → Machine}
    (alike : ∀ machine guise, disguise.hides machine guise →
      change (machine.wearing guise) = (change machine).wearing guise ∧
        disguise.hides (change machine) guise) : disguise.Heedless (step.ensuring change) := by
  intro machine guise hides
  rw [Attempt.ensuring, Attempt.runOn_ofRun, Attempt.runOn_ofRun]
  obtain same | ⟨result, after, guise, ran, again, hides, -⟩ :=
    (heedless machine guise hides).eq_or_wearing
  · rw [same]
    exact .same _
  obtain ⟨moved, hides⟩ := alike after guise hides
  rw [ran, again]
  dsimp only
  rw [moved]
  exact .hidden guise hides fun _ _ => trivial

theorem EndsAlike.caught {step : Action α}
    (ends : disguise.EndsAlike good (step.runOn machine) (step.runOn other)) :
    disguise.EndsAlike (fun _ => True) (step.caught.runOn machine) (step.caught.runOn other) := by
  rw [Attempt.caught, Attempt.runOn_ofRun, Attempt.runOn_ofRun]
  obtain same | ⟨result, after, guise, ran, again, hides, -⟩ := ends.eq_or_wearing
  · rw [same]
    exact .same _
  rw [ran, again]
  rcases result with (error | - | - | -) | value
  all_goals exact .hidden guise hides fun _ _ => trivial

theorem Heedless.caught {step : Action α} (heedless : disguise.Heedless step) :
    disguise.Heedless (Attempt.caught step) :=
  fun machine guise hides => (heedless machine guise hides).caught

theorem Heedless.reportingAs {step : Action α} (heedless : disguise.Heedless step)
    (kind : ErrorKind) : disguise.Heedless (step.reportingAs kind) := by
  intro machine guise hides
  rw [Attempt.reportingAs, Attempt.runOn_ofRun, Attempt.runOn_ofRun]
  obtain same | ⟨result, after, guise, ran, again, hides, -⟩ :=
    (heedless machine guise hides).eq_or_wearing
  · rw [same]
    exact .same _
  rw [ran, again]
  rcases result with (error | - | - | -) | value
  all_goals exact .hidden guise hides fun _ _ => trivial

/-! ### What a disguise has to stand -/

/-- A disguise that goes unnoticed wherever a machine reads on. A typed line that can be read is no
part of it. -/
class Lawful (disguise : Disguise) : Prop where
  /-- Programs can be gone to. -/
  stored {mode : Mode} : mode ≠ .interactive → disguise.admits mode
  goesOn {machine : Machine} {guise : Guise} :
    disguise.hides machine guise → machine.GoesOnIn disguise.admits
  typed {machine : Machine} {guise : Guise} :
    disguise.hides machine guise → disguise.admits .interactive →
      guise.line = machine.cursor.line ∧ guise.continuation = machine.continuation
  /-- What was the same in a guise stays the same. -/
  change {machine after : Machine} {guise next : Guise} : disguise.hides machine guise →
    after.GoesOnIn disguise.admits →
    after.memory = machine.memory → after.config = machine.config →
    (guise.line = machine.cursor.line → next.line = after.cursor.line) →
    (guise.continuation = machine.continuation → next.continuation = after.continuation) →
    next.slots = guise.slots → disguise.hides after next
  halt {machine : Machine} {guise : Guise} : disguise.hides machine guise →
    guise.continuation = machine.continuation →
    disguise.EndsAlike (fun _ => True) (Except.ok (), machine.halt)
      (Except.ok (), (machine.wearing guise).halt)

/-- A disguise that steps on memory do not see through, as long as they look no line up. -/
class Accesses (disguise : Disguise) : Prop extends disguise.Lawful where
  memory {α : Type} {step : Attempt Memory α} :
    Memory.Ignorant step → disguise.Heedless (onMemory step)

end Disguise

end PocketBasic
