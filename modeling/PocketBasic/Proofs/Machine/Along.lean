/-
**Machines along a text.** A loop or a block is run from its beginning to its end with any
variables; what matters of the machines on the way is how far they have come in the text.

* `Machine.IsReady`, `Machine.ReadsOn`: a machine that can come back to its place, and the steps
  that keep it so;
* `Machine.IsAlong`: a machine that has come some tokens further in the text of another one;
* `Machine.IsAlong.jump`, `Machine.IsAlong.reads`, `Machine.IsAlong.ahead`: going to another place,
  reading the tokens there, evaluating an expression;
* **`Machine.exists_end_of_value`**: an expression of the text has one end, whichever machine
  evaluates it.
-/

import PocketBasic.Proofs.Machine.InStep

namespace PocketBasic.Machine

variable {α β : Type} {machine start before after other : Machine} {count more : Nat}

/-! ### Machines that can come back -/

/-- Whether a machine can come back to the current token: it stands where the cursor says, and the
heap is above the program. -/
@[mk_iff]
structure IsReady (machine : Machine) : Prop where
  settled : machine.IsSettled
  guarded : machine.memory.IsGuarded

instance (machine : Machine) : Decidable machine.IsReady :=
  decidable_of_iff' _ (isReady_iff machine)

/-- Whether a step that succeeds at a certain token leaves the texts as they were, and the machine
ready again. -/
def ReadsOn (here : Token → Prop) (step : Action α) : Prop :=
  ∀ machine : Machine, machine.IsReady → here machine.cursor.token →
    ∀ value after, step.runOn machine = (.ok value, after) →
      machine.KeepsTexts after ∧ after.IsReady

theorem IsReady.of_ahead (ready : before.IsReady) (ahead : before.IsAhead after count) :
    after.IsReady := ⟨ahead.isSettled ready.settled, ahead.guarded⟩

theorem IsReady.of_stays (ready : machine.IsReady) (stays : Conduct.stays.moves machine after) :
    after.IsReady := by
  obtain ⟨guarded, keeps, place⟩ := stays ready.guarded
  refine ⟨?_, guarded⟩
  unfold IsSettled
  rw [place, keeps.programText, keeps.width]
  exact ready.settled

namespace ReadsOn

variable {here : Token → Prop} {step : Action α}

theorem pure (value : α) : ReadsOn here (pure value : Action α) := by
  intro machine ready _ _ _ ran
  cases ran
  exact ⟨.refl _, ready⟩

theorem fail (kind : ErrorKind) : ReadsOn here (Attempt.fail kind : Action α) := by
  intro _ _ _ _ _ ran
  cases ran

theorem fail_bind {next : α → Action β} (kind : ErrorKind) :
    ReadsOn here ((Attempt.fail kind : Action α) >>= next) := by
  intro _ _ _ _ _ ran
  cases ran

theorem bind {next : α → Action β} (begins : ReadsOn here step)
    (goesOn : ∀ value, ReadsOn anywhere (next value)) : ReadsOn here (step >>= next) := by
  intro machine ready at_ _ _ ran
  obtain ⟨value, middle, first, last⟩ := Attempt.exists_of_runOn_bind ran
  obtain ⟨keeps, again⟩ := begins machine ready at_ _ _ first
  obtain ⟨further, ends⟩ := goesOn value middle again trivial _ _ last
  exact ⟨keeps.trans further, ends⟩

theorem token_bind {next : Token → Action β} (goesOn : ∀ token, ReadsOn (· = token) (next token)) :
    ReadsOn here (token >>= next) :=
  fun machine ready _ _ _ ran => goesOn _ machine ready rfl _ _ ran

/-- A machine reads on ready over every word but `REM`. -/
theorem advance {read : Token} (plain : read ≠ .word .rem) : ReadsOn (· = read) advance := by
  intro machine ready at_ _ _ ran
  cases ran
  have settled := Cursor.IsSettled.next ready.settled (at_ ▸ plain)
  rw [nextToken_eq]
  exact ⟨.of_cursor (Cursor.sharesText_next _), settled, ready.guarded⟩

theorem of_stays (obeys : step.Obeys Conduct.stays) : ReadsOn here step := by
  intro machine ready _ _ after ran
  have stays := (obeys machine).moves ran
  exact ⟨(stays ready.guarded).2.1, ready.of_stays stays⟩

theorem value : ReadsOn here value := by
  intro machine ready _ _ after ran
  obtain ⟨count, ahead⟩ := exists_isAhead_value ready.settled ready.guarded ran
  exact ⟨ahead.keeps, ready.of_ahead ahead⟩

end ReadsOn

theorem stays_setScalar (name : Name) (value : Single) :
    (setScalar name value).Obeys Conduct.stays :=
  .ite (obeys_setSpecial _ value) (sparesProgram_stays.storeScalar name value)

/-! ### How far a machine has come -/

/-- Whether a machine has come some tokens further in the text of another one, whatever has become
of variables, loops and devices. -/
structure IsAlong (start : Machine) (count : Nat) (machine : Machine) : Prop where
  config : machine.config = start.config
  store : machine.host.store = start.host.store
  memory : start.memory.SameProgram machine.memory
  guarded : machine.memory.IsGuarded
  place : (start.cursorAt count).SamePlace machine.cursor

theorem IsReady.isAlong (ready : machine.IsReady) : machine.IsAlong 0 machine :=
  ⟨rfl, rfl, ⟨rfl, rfl⟩, ready.guarded, .refl _⟩

theorem IsAhead.isAlong (ahead : start.IsAhead machine count) : start.IsAlong count machine :=
  ⟨ahead.keeps.config, ahead.keeps.store, ahead.keeps.memory, ahead.guarded, ahead.place⟩

/-- The typed line is the same one along a text. -/
theorem sharesText_cursorAt (machine : Machine) (count : Nat) :
    machine.cursor.SharesText (machine.cursorAt count) := by
  induction count with
  | zero => exact .refl _
  | succ count ih =>
    rw [cursorAt_succ]
    exact ih.trans (Cursor.sharesText_next _)

namespace IsAlong

theorem width (along : start.IsAlong count machine) :
    machine.memory.width = start.memory.width := along.memory.width

theorem programText (along : start.IsAlong count machine) :
    machine.programText = start.programText := by
  funext mode
  unfold Machine.programText
  rw [along.store, along.width, along.memory.program]

theorem trans (first : start.IsAlong count before) (second : before.IsAlong more after) :
    start.IsAlong (count + more) after where
  config := second.config.trans first.config
  store := second.store.trans first.store
  memory := ⟨second.memory.size.trans first.memory.size,
    second.memory.program.trans first.memory.program⟩
  guarded := second.guarded
  place := by
    refine .trans ?_ second.place
    rw [← cursorAt_add]
    refine samePlace_cursorAt ?_ ?_ ?_ more
    · rw [iterate_nextToken]
      exact first.programText
    · rw [width_iterate]
      exact first.width
    · rw [iterate_nextToken]
      exact first.place

/-- Reading on along the text. -/
theorem iterate (along : start.IsAlong count machine) (more : Nat) :
    start.IsAlong (count + more) (nextToken^[more] machine) := by
  refine along.trans ?_
  rw [iterate_nextToken]
  exact ⟨rfl, rfl, ⟨rfl, rfl⟩, along.guarded, .refl _⟩

theorem nextToken (along : start.IsAlong count machine) :
    start.IsAlong (count + 1) machine.nextToken := along.iterate 1

/-- What a machine has elsewhere than in its texts does not matter. -/
theorem of_same (along : start.IsAlong count machine) (config : after.config = machine.config)
    (store : after.host.store = machine.host.store) (memory : after.memory = machine.memory)
    (cursor : after.cursor = machine.cursor) : start.IsAlong count after where
  config := config.trans along.config
  store := store.trans along.store
  memory := memory ▸ along.memory
  guarded := memory ▸ along.guarded
  place := cursor ▸ along.place

/-- What stays where it is stays along the text. -/
theorem stays (along : start.IsAlong count machine)
    (stays : Conduct.stays.moves machine after) : start.IsAlong count after := by
  obtain ⟨guarded, keeps, place⟩ := stays along.guarded
  have there : machine.IsAlong 0 after :=
    ⟨keeps.config, keeps.store, keeps.memory, guarded, place ▸ .refl _⟩
  exact along.trans there

theorem ahead (along : start.IsAlong count machine) (ahead : machine.IsAhead after more) :
    start.IsAlong (count + more) after := along.trans ahead.isAlong

theorem token (along : start.IsAlong count machine) :
    machine.cursor.token = (start.cursorAt count).token := along.place.token

/-- The tokens of the text. -/
theorem reads_of_iterate {tokens : List Token} (along : start.IsAlong count machine)
    (reads : (Machine.nextToken^[count] start).Reads tokens) : machine.Reads tokens := by
  induction tokens generalizing machine count with
  | nil => exact trivial
  | cons token tokens ih =>
    refine ⟨?_, ih along.nextToken ?_⟩
    · rw [along.token, ← token_iterate]
      exact reads.1
    · rw [Function.iterate_succ_apply']
      exact reads.2

theorem reads {front tokens : List Token} (along : start.IsAlong front.length machine)
    (reads : start.Reads (front ++ tokens)) : machine.Reads tokens :=
  along.reads_of_iterate (reads_append.mp reads).2

/-- **At a word of the text a machine can come back.** -/
theorem isReady_of_whole (along : start.IsAlong count machine) (ready : start.IsReady)
    (whole : machine.cursor.token.isWhole = true) : machine.IsReady := by
  refine ⟨?_, along.guarded⟩
  have there : (start.cursorAt count).IsSettled start.programText start.memory.width := by
    rw [along.token] at whole
    cases count with
    | zero => exact ready.settled
    | succ count =>
      rw [cursorAt_succ] at whole ⊢
      exact Cursor.isSettled_next whole
  unfold IsSettled
  rw [along.programText, along.width]
  exact there.of_samePlace along.place

/-- Machines along one text that are at one place. -/
theorem of_samePlace (along : start.IsAlong count machine) (there : start.IsAlong more other)
    (place : other.cursor.SamePlace machine.cursor) : other.IsAlong 0 machine where
  config := along.config.trans there.config.symm
  store := along.store.trans there.store.symm
  memory := ⟨along.memory.size.trans there.memory.size.symm,
    along.memory.program.trans there.memory.program.symm⟩
  guarded := along.guarded
  place := place

/-- **A jump to a place of the text comes there**, from wherever in the text. -/
theorem jump (along : start.IsAlong count machine) (there : start.IsAlong more other)
    (ready : other.IsReady) : other.IsAlong 0 (jump other.cursor.location machine) := by
  have texts : machine.programText = other.programText :=
    along.programText.trans there.programText.symm
  have width : machine.memory.width = other.memory.width := along.width.trans there.width.symm
  rw [jump_eq]
  refine ⟨along.config.trans there.config.symm, along.store.trans there.store.symm,
    ⟨along.memory.size.trans there.memory.size.symm,
      along.memory.program.trans there.memory.program.symm⟩, along.guarded, ?_⟩
  rw [texts, width]
  refine Cursor.SamePlace.trans ready.settled ?_
  cases typed : other.cursor.mode with
  | interactive =>
    have shares := start.sharesText_cursorAt count
    have others := start.sharesText_cursorAt more
    have typing : (start.cursorAt more).mode = .interactive := there.place.mode.symm.trans typed
    have line := along.place.line (shares.mode.trans (others.mode.symm.trans typing))
    have other := there.place.line typing
    exact .movedTo (by rw [line, other, shares.text, others.text])
      (by rw [line, other, shares.fractions, others.fractions]) _
  | run | runStore =>
    unfold Cursor.location Cursor.movedTo
    rw [typed]
    dsimp only
    exact ⟨rfl, rfl, rfl, nofun, fun _ => rfl⟩

theorem abreast (along : start.IsAlong count machine) (others : start.IsAlong count other)
    (ready : machine.IsReady) : machine.IsAbreast other where
  config := others.config.trans along.config.symm
  texts := others.programText.trans along.programText.symm
  width := others.width.trans along.width.symm
  place := along.place.symm.trans others.place
  settled := ready.settled
  guarded := along.guarded
  others := others.guarded

end IsAlong

/-- **An expression of a text has one end.** Whichever machine evaluates it, and whatever the
variables are, it comes to the same place. -/
theorem exists_end_of_value (start : Machine) (count : Nat) : ∃ place : Cursor,
    ∀ machine, start.IsAlong count machine → machine.IsReady → ∀ value after,
      Machine.value.runOn machine = (.ok value, after) → place.SamePlace after.cursor := by
  by_cases some : ∃ machine, start.IsAlong count machine ∧ machine.IsReady ∧ ∃ value after,
      Machine.value.runOn machine = (.ok value, after)
  · obtain ⟨first, along, ready, value, ended, ran⟩ := some
    refine ⟨ended.cursor, fun machine others _ again after evaluated => ?_⟩
    have abreast := along.abreast others ready
    obtain ⟨-, count, one, two⟩ := inStep_value first machine abreast trivial
      _ _ _ _ ran evaluated
    exact (abreast.ahead one two).place
  · exact ⟨start.cursor, fun machine along ready value after ran =>
      absurd ⟨machine, along, ready, value, after, ran⟩ some⟩

end PocketBasic.Machine
