/-
**What evaluations keep.** An expression can call functions that are defined elsewhere in the
program, give their parameters values and make arrays on the way. The texts that are read stay as
they are all the same, with the settings, the loops and the bookmark, and whatever bytes were poked
into the heap.

* `Machine.KeepsTexts`: what an evaluation leaves as it was;
* `Conduct.SparesProgram`: a conduct that lets memory change behind the program, and the steps on
  variables that obey it;
* `Conduct.keepsTexts`: what leaves the texts as they were, for a memory whose heap is above the
  program; `Conduct.stays`: what does not read on either;
* **`Machine.evaluates_keepsTexts`**, **`Machine.accesses_stays`**: evaluations obey them.
-/

import PocketBasic.Proofs.Machine.Loading
import PocketBasic.Proofs.Memory.Guarded

namespace PocketBasic

/-! ### Cursors and texts -/

namespace Cursor

namespace SharesText

variable {before middle after : Cursor}

theorem refl (cursor : Cursor) : cursor.SharesText cursor := ⟨rfl, rfl, rfl⟩

theorem trans (first : before.SharesText middle) (second : middle.SharesText after) :
    before.SharesText after :=
  ⟨second.mode.trans first.mode, second.text.trans first.text,
    second.fractions.trans first.fractions⟩

end SharesText

/-- The cursor at a place, where the token is not read yet. -/
def movedTo (place : Location) (cursor : Cursor) : Cursor :=
  match place.mode with
  | .interactive => { cursor with mode := .interactive, line := cursor.line.seek place.offset }
  | mode => { cursor with mode, offset := place.offset }

@[simp]
theorem mode_movedTo (place : Location) (cursor : Cursor) :
    (cursor.movedTo place).mode = place.mode := by
  unfold movedTo
  split <;> simp only [*]

/-- The typed line stays when the cursor moves, also to another text. -/
theorem line_movedTo (place : Location) (cursor : Cursor) :
    (cursor.movedTo place).line.text = cursor.line.text ∧
      (cursor.movedTo place).line.fractions = cursor.line.fractions := by
  unfold movedTo
  split
  · exact ⟨rfl, rfl⟩
  · exact ⟨rfl, rfl⟩

end Cursor

namespace Machine

/-- A jump moves the cursor and nothing else. -/
theorem jump_eq (place : Location) (machine : Machine) :
    jump place machine = { machine with
      cursor := (machine.cursor.movedTo place).next machine.programText machine.memory.width } := by
  rw [jump, nextToken_eq]
  unfold Cursor.movedTo
  rcases place with ⟨_ | _ | _, offset⟩ <;> rfl

/-- What an evaluation leaves of a machine as it was: settings, loops, bookmark and texts. -/
structure KeepsTexts (before after : Machine) : Prop where
  config : after.config = before.config
  loops : after.loops = before.loops
  bookmark : after.bookmark = before.bookmark
  store : after.host.store = before.host.store
  memory : before.memory.SameProgram after.memory
  cursor : before.cursor.SharesText after.cursor

namespace KeepsTexts

variable {before middle after : Machine}

theorem refl (machine : Machine) : machine.KeepsTexts machine :=
  ⟨rfl, rfl, rfl, rfl, ⟨rfl, rfl⟩, .refl _⟩

theorem trans (first : before.KeepsTexts middle) (second : middle.KeepsTexts after) :
    before.KeepsTexts after where
  config := second.config.trans first.config
  loops := second.loops.trans first.loops
  bookmark := second.bookmark.trans first.bookmark
  store := second.store.trans first.store
  memory := ⟨second.memory.size.trans first.memory.size,
    second.memory.program.trans first.memory.program⟩
  cursor := first.cursor.trans second.cursor

theorem width (keeps : before.KeepsTexts after) : after.memory.width = before.memory.width :=
  keeps.memory.width

theorem programText (keeps : before.KeepsTexts after) : after.programText = before.programText := by
  funext mode
  unfold Machine.programText
  rw [keeps.store, keeps.width, keeps.memory.program]

theorem of_cursor {cursor : Cursor} (shares : before.cursor.SharesText cursor) :
    before.KeepsTexts { before with cursor } :=
  ⟨rfl, rfl, rfl, rfl, ⟨rfl, rfl⟩, shares⟩

/-- What goes elsewhere comes back. -/
theorem excursion {place : Location} (first : before.KeepsTexts middle)
    (second : (jump place middle).KeepsTexts after) :
    before.KeepsTexts (jump before.cursor.location after) := by
  rw [jump_eq] at second ⊢
  have away := second.cursor
  have there := @Cursor.sharesText_next middle.programText middle.memory.width
    (middle.cursor.movedTo place)
  have back := @Cursor.sharesText_next after.programText after.memory.width
    (after.cursor.movedTo before.cursor.location)
  refine ⟨second.config.trans first.config, second.loops.trans first.loops,
    second.bookmark.trans first.bookmark, second.store.trans first.store,
    ⟨second.memory.size.trans first.memory.size,
      second.memory.program.trans first.memory.program⟩, ?_, ?_, ?_⟩
  · exact back.mode.trans (Cursor.mode_movedTo _ _)
  · rw [back.text, (Cursor.line_movedTo _ _).1, away.text, there.text, (Cursor.line_movedTo _ _).1,
      first.cursor.text]
  · rw [back.fractions, (Cursor.line_movedTo _ _).2, away.fractions, there.fractions,
      (Cursor.line_movedTo _ _).2, first.cursor.fractions]

end KeepsTexts

end Machine

/-- A conduct that says nothing of steps that fail, and lets memory change as long as the heap stays
above the program and the program as it was. Of other memories it says nothing. -/
structure Conduct.SparesProgram (conduct : Conduct Machine) : Prop where
  fails : ∀ before failure after, conduct.fails before failure after
  moves : ∀ (machine : Machine) {memory : Memory},
    (machine.memory.IsGuarded → memory.IsGuarded ∧ machine.memory.SameProgram memory) →
      conduct.moves machine { machine with memory }
  moves_of_guarded : ∀ {before after : Machine},
    (before.memory.IsGuarded → conduct.moves before after) → conduct.moves before after

namespace Conduct.SparesProgram

open Machine

variable {conduct : Conduct Machine} {machine : Machine} {α : Type}

theorem mayFail (spares : conduct.SparesProgram) : conduct.MayFail :=
  ⟨fun machine _ _ => spares.fails machine _ machine⟩

theorem obeysFrom_onMemory (spares : conduct.SparesProgram) {step : Attempt Memory α}
    (obeys : step.ObeysFrom Memory.sparing machine.memory) :
    (onMemory step).ObeysFrom conduct machine := by
  rcases ran : step.runOn machine.memory with ⟨failure | value, edited⟩
  · exact Attempt.obeysFrom_of_error (runOn_onMemory_of ran) (spares.fails _ _ _)
  · exact Attempt.obeysFrom_of_ok (runOn_onMemory_of ran) (spares.moves machine (obeys.moves ran))

theorem onMemory (spares : conduct.SparesProgram) {step : Attempt Memory α}
    (obeys : step.Obeys Memory.sparing) : (Machine.onMemory step).Obeys conduct :=
  fun machine => spares.obeysFrom_onMemory (obeys machine.memory)

/-- A step is looked at where the heap is above the program. -/
theorem of_guarded (spares : conduct.SparesProgram) {step : Action α}
    (obeys : machine.memory.IsGuarded → step.ObeysFrom conduct machine) :
    step.ObeysFrom conduct machine := by
  rcases ran : step.runOn machine with ⟨failure | value, after⟩
  · exact Attempt.obeysFrom_of_error ran (spares.fails _ _ _)
  · exact Attempt.obeysFrom_of_ok ran
      (spares.moves_of_guarded fun guarded => (obeys guarded).moves ran)

theorem lookup (spares : conduct.SparesProgram) (kind : ObjectKind) (name : Name) :
    (Machine.lookup kind name).Obeys conduct :=
  spares.onMemory (Memory.sparing_lookup kind name)

/-- Making an object and writing into it leaves the program as it was. -/
theorem allocate_write (spares : conduct.SparesProgram) (kind : ObjectKind) (name : Name)
    (count : Nat) {write : Nat → Attempt Memory Unit}
    (writes : ∀ start (memory : Memory), memory.top ≤ start →
      (write start).ObeysFrom Memory.writing memory) : (do
    let start ← Machine.onMemory (Memory.allocate kind name count)
    Machine.onMemory (write start) : Action Unit).Obeys conduct := by
  refine fun machine => spares.of_guarded fun guarded => ?_
  refine (spares.onMemory (Memory.sparing_allocate kind name count) machine).bind_of_ran
    fun start after ran => ?_
  exact spares.obeysFrom_onMemory (Memory.sparing_of_writing
    (writes start _ (Memory.top_le_of_allocate guarded (ran_of_onMemory ran))))

theorem createArray (spares : conduct.SparesProgram) (name : Name) (rows columns : Nat) :
    (Machine.createArray name rows columns).Obeys conduct :=
  spares.allocate_write _ _ _ fun _ _ behind =>
    Memory.writing_writeAddress (Nat.le_add_right_of_le behind) _

/-- **Assigning to a scalar leaves the program as it was**, wherever the scalar is found. -/
theorem storeScalar (spares : conduct.SparesProgram) (name : Name) (value : Single) :
    (Machine.storeScalar name value).Obeys conduct := by
  refine fun machine => spares.of_guarded fun guarded => ?_
  have looked : (Machine.lookup .scalar name).runOn machine =
    (.ok (machine.memory.find .scalar name).1, machine.foundIn .scalar name) := runOn_lookup _ _ _
  refine Attempt.ObeysFrom.of_run (Attempt.runOn_bind_ok looked _)
    ((spares.lookup .scalar name machine).moves looked) ?_
  cases found : (machine.memory.find .scalar name).1 with
  | none =>
    exact spares.allocate_write _ _ _
      (fun _ _ behind => Memory.writing_write behind value.toBytes) _
  | some payload =>
    have above := guarded.himem_le found
    obtain ⟨recent, same⟩ := Memory.HoldsObjects.find_snd machine.memory .scalar name
    refine spares.obeysFrom_onMemory (Memory.sparing_of_writing (Memory.writing_write ?_ _))
    rw [foundIn, same]
    exact Nat.le_trans guarded.below above

/-- What evaluations do where they are, if it may change registers. -/
theorem accesses (spares : conduct.SparesProgram)
    (moves : ∀ (machine : Machine) operands depth (host : Host) deviceFailed input output random
      seed, machine.host.Consulted host →
      operands.overflowDetail = machine.operands.overflowDetail → conduct.moves machine
        { machine with operands, depth, host, deviceFailed, input, output, random, seed }) :
    conduct.Accesses :=
  spares.mayFail.accesses spares.lookup moves (fun _ => spares.fails _ _ _)
    fun _ => spares.fails _ _ _

/-- The objects that evaluations make. -/
theorem makes (spares : conduct.SparesProgram) : conduct.Makes where
  allocateBuffer name size := spares.onMemory (Memory.sparing_allocate .buffer name size)
  loadElement name row column :=
    (spares.mayFail.elementAddress spares.lookup spares.createArray name row column).bind
      fun _ => spares.mayFail.numberAt _

end Conduct.SparesProgram

/-- What keeps the texts, and the heap above the program. Of what fails nothing is said. -/
def Conduct.keepsTexts : Conduct Machine where
  moves before after := before.memory.IsGuarded →
    after.memory.IsGuarded ∧ before.KeepsTexts after
  fails _ _ _ := True
  refl machine guarded := ⟨guarded, .refl machine⟩
  trans first second guarded :=
    have ⟨middle, keeps⟩ := first guarded
    have ⟨last, again⟩ := second middle
    ⟨last, keeps.trans again⟩
  fails_of_moves _ _ := trivial
  fails_moves _ _ := trivial

/-- What keeps the texts and stays where it is in them. -/
def Conduct.stays : Conduct Machine where
  moves before after := before.memory.IsGuarded →
    after.memory.IsGuarded ∧ before.KeepsTexts after ∧ after.cursor = before.cursor
  fails _ _ _ := True
  refl machine guarded := ⟨guarded, .refl machine, rfl⟩
  trans first second guarded :=
    have ⟨middle, keeps, here⟩ := first guarded
    have ⟨last, again, there⟩ := second middle
    ⟨last, keeps.trans again, there.trans here⟩
  fails_of_moves _ _ := trivial
  fails_moves _ _ := trivial

namespace Machine

open Conduct (keepsTexts stays)

theorem sparesProgram_keepsTexts : keepsTexts.SparesProgram where
  fails _ _ _ := trivial
  moves _ _ spares guarded :=
    have ⟨kept, same⟩ := spares guarded
    ⟨kept, rfl, rfl, rfl, rfl, same, .refl _⟩
  moves_of_guarded moves guarded := moves guarded guarded

/-- **Evaluations keep the texts.** -/
instance evaluates_keepsTexts : keepsTexts.Evaluates where
  toAccesses := sparesProgram_keepsTexts.accesses fun _ _ _ _ _ _ _ _ _ used _ guarded =>
    ⟨guarded, rfl, rfl, rfl, used.store, ⟨rfl, rfl⟩, .refl _⟩
  fails_stalled _ := trivial
  moves_next machine guarded := by
    rw [nextToken_eq]
    exact ⟨guarded, .of_cursor machine.cursor.sharesText_next⟩
  toMakes := sparesProgram_keepsTexts.makes
  moves_excursion _ first second guarded := by
    have ⟨middle, keeps⟩ := first guarded
    obtain ⟨last, away⟩ := second (by rwa [memory_jump])
    exact ⟨by rwa [memory_jump], keeps.excursion away⟩
  fails_excursion _ _ _ := trivial
  fails_otherwise _ := trivial
  fails_first _ _ := trivial
  fails_second _ _ := trivial
  storeScalar := sparesProgram_keepsTexts.storeScalar
  deleteScalar name := sparesProgram_keepsTexts.onMemory (Memory.sparing_delete .scalar name)

theorem sparesProgram_stays : stays.SparesProgram where
  fails _ _ _ := trivial
  moves _ _ spares guarded :=
    have ⟨kept, same⟩ := spares guarded
    ⟨kept, ⟨rfl, rfl, rfl, rfl, same, .refl _⟩, rfl⟩
  moves_of_guarded moves guarded := moves guarded guarded

/-- **Evaluations stay where they are** until they read on. -/
instance accesses_stays : stays.Accesses :=
  sparesProgram_stays.accesses fun _ _ _ _ _ _ _ _ _ used _ guarded =>
    ⟨guarded, ⟨rfl, rfl, rfl, used.store, ⟨rfl, rfl⟩, .refl _⟩, rfl⟩

instance makes_stays : stays.Makes := sparesProgram_stays.makes

instance assigns_stays : stays.Assigns where
  storeScalar := sparesProgram_stays.storeScalar
  deleteScalar name := sparesProgram_stays.onMemory (Memory.sparing_delete .scalar name)

end Machine

end PocketBasic
