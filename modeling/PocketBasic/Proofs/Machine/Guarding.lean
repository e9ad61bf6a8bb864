/-
**The heap stays above the program**, whatever lines are typed and whatever programs run, `POKE`
included: the two are kept apart by where they end, which is no byte of memory, and what a statement
makes goes between them. So wherever a machine is sent, it can come back to the place, which is what
conditionals, loops and switches rely on.

* `Machine.IsGuarded`: the heap is above the program;
* `Machine.usesMemory_guarded`, `Machine.performs_guarded`: steps on memory and statements keep it
  so;
* `Machine.isReady_jump`, `Machine.isReady_nextToken`: a machine that was sent to a place, or has
  read a word or a name, can come back;
* `Machine.isReady_of_findStatement`: so can one that has found its next statement;
* **`Machine.heap_stays_above_program`**: both, wherever a host brings the machine.
-/

import PocketBasic.Proofs.Machine.Along
import PocketBasic.Proofs.Machine.Running
import PocketBasic.Proofs.Memory.Integrity

namespace PocketBasic

/-! ### Steps on memory -/

namespace Memory

variable {α : Type} {memory : Memory}

theorem keeps_of_sparing {step : Attempt Memory α} (spares : step.Obeys sparing) :
    step.Obeys (.keeps IsGuarded) :=
  spares.of_refines ⟨fun kept guarded => (kept guarded).1, fun kept guarded => (kept guarded).1⟩

theorem keeps_of_after {step : Attempt Memory α}
    (kept : ∀ memory : Memory, memory.IsGuarded → (step.runOn memory).2.IsGuarded) :
    step.Obeys (.keeps IsGuarded) := by
  intro memory
  have after := kept memory
  rcases ran : step.runOn memory with ⟨failure | value, edited⟩
  all_goals rw [ran] at after
  · exact Attempt.obeysFrom_of_error ran after
  · exact Attempt.obeysFrom_of_ok ran after

/-- Writing anywhere changes bytes only. -/
theorem keeps_write (start : Nat) (data : Bytes) : (write start data).Obeys (.keeps IsGuarded) := by
  refine keeps_of_after fun memory guarded => ?_
  by_cases inside : start + data.length ≤ memory.size
  · obtain ⟨bytes, same, ran, -⟩ := exists_runOn_write inside
    rw [ran]
    exact guarded.holding same
  · rw [write, Attempt.runOn_get_bind, if_neg inside, Attempt.runOn_throw]
    exact guarded

/-- And so does a `POKE`. -/
theorem keeps_poke (address : Nat) (value : UInt8) :
    (Attempt.always fun memory : Memory => memory.poke address value).Obeys (.keeps IsGuarded) := by
  refine keeps_of_after fun memory guarded => ?_
  have same : (memory.poke address value).2 =
      memory.holding (memory.contents.set address value) := by
    rw [poke, holding, contents, ← Array.toList_setIfInBounds, Array.toArray_toList]
  rw [Attempt.runOn_always, same]
  exact guarded.holding (by rw [List.length_set, length_contents])

theorem keeps_storeLine (line : LineNumber) (body : List Token) :
    (storeLine line body).Obeys (.keeps IsGuarded) := by
  refine keeps_of_after fun memory guarded => ?_
  rcases storeLine_keepsHeap guarded.below guarded.inside line body with
    ⟨error, ran | ran⟩ | ⟨edited, ran, kept⟩
  · rw [ran]
    exact guarded
  · rw [ran]
    exact ⟨guarded.below, guarded.inside, guarded.recent⟩
  · rw [ran]
    exact guarded.of_keepsHeap kept

theorem keeps_clearProgram : clearProgram.Obeys (.keeps IsGuarded) :=
  keeps_of_after fun _ guarded =>
    guarded.of_keepsHeap (clearProgram_keepsHeap guarded.below guarded.inside)

theorem keeps_loadProgram (image : Bytes) : (loadProgram image).Obeys (.keeps IsGuarded) := by
  refine keeps_of_after fun memory guarded => ?_
  rcases loadProgram_keepsHeap guarded.below guarded.inside image with
    ⟨error, ran⟩ | ⟨edited, ran, kept⟩
  · rw [ran]
    exact guarded
  · rw [ran]
    exact guarded.of_keepsHeap kept

theorem keeps_findLine (line : LineNumber) :
    (Attempt.always fun memory : Memory => memory.findLine line).Obeys (.keeps IsGuarded) :=
  keeps_of_after fun _ guarded => guarded.of_keepsHeap (findLine_keepsHeap guarded.below line)

theorem keeps_clearHeap : clearHeap.Obeys (.keeps IsGuarded) := keeps_of_sparing sparing_clearHeap

end Memory

namespace Machine

variable {α : Type} {machine after : Machine}

/-! ### Statements -/

/-- Whether the heap of a machine is above its program. -/
def IsGuarded (machine : Machine) : Prop := machine.memory.IsGuarded

theorem keeps_onMemory {step : Attempt Memory α} (keeps : step.Obeys (.keeps Memory.IsGuarded)) :
    (onMemory step).Obeys (.keeps IsGuarded) := by
  intro machine
  rcases ran : step.runOn machine.memory with ⟨failure | value, edited⟩
  · exact Attempt.obeysFrom_of_error (runOn_onMemory_of ran) ((keeps machine.memory).fails ran)
  · exact Attempt.obeysFrom_of_ok (runOn_onMemory_of ran) ((keeps machine.memory).moves ran)

theorem usesMemory_guarded : (Conduct.keeps IsGuarded).UsesMemory where
  fails _ _ _ := id
  lookup kind name := keeps_onMemory (Memory.keeps_of_sparing (Memory.sparing_lookup kind name))
  allocate kind name size :=
    keeps_onMemory (Memory.keeps_of_sparing (Memory.sparing_allocate kind name size))
  delete kind name := keeps_onMemory (Memory.keeps_of_sparing (Memory.sparing_delete kind name))
  write start data := keeps_onMemory (Memory.keeps_write start data)
  poke address value := keeps_onMemory (Memory.keeps_poke address value)

instance evaluates_guarded : (Conduct.keeps IsGuarded).Evaluates where
  toReads := usesMemory_guarded.reads ⟨fun _ => id⟩ (fun _ _ _ _ _ _ _ _ _ _ _ _ _ => id)
    (fun _ => id) fun _ => id
  toMakes := usesMemory_guarded.makes
  moves_excursion _ first second guarded := by
    rw [jump_eq]
    refine second ?_
    rw [jump_eq]
    exact first guarded
  fails_excursion _ first second guarded := by
    refine second ?_
    rw [jump_eq]
    exact first guarded
  fails_otherwise := id
  fails_first first second guarded := second (first guarded)
  fails_second first second guarded := second (first guarded)
  storeScalar := usesMemory_guarded.storeScalar
  deleteScalar := usesMemory_guarded.delete .scalar

instance jumps_guarded : (Conduct.keeps IsGuarded).Jumps where
  evaluates := evaluates_guarded
  moves_registers shares guarded := by
    unfold IsGuarded
    rw [shares.memory]
    exact guarded
  moves_host _ _ := id
  moves_loops _ _ := id
  fails_full _ := id
  fails_empty _ := id
  findLine line := keeps_onMemory (Memory.keeps_findLine line)

instance editsProgram_guarded : (Conduct.keeps IsGuarded).EditsProgram where
  clearProgram := keeps_onMemory Memory.keeps_clearProgram
  loadProgram image := keeps_onMemory (Memory.keeps_loadProgram image)
  storeLine line body := keeps_onMemory (Memory.keeps_storeLine line body)

instance : (Conduct.keeps IsGuarded).SeeksData := ⟨fun _ _ => id⟩

instance : (Conduct.keeps IsGuarded).StartsStatements := ⟨fun _ => id⟩

instance : (Conduct.keeps IsGuarded).Idles := ⟨fun _ _ => id⟩

instance : (Conduct.keeps IsGuarded).Postpones := ⟨fun _ _ _ => id⟩

instance (repeats : Bool) : (Conduct.keeps IsGuarded).SetsTimer repeats := ⟨fun _ _ => id⟩

instance diverts_guarded : (Conduct.keeps IsGuarded).Diverts where
  moves_returns _ _ := id
  fails_full _ := id
  fails_empty _ := id
  moves_pins _ _ := id

theorem guarded_clear : clear.Obeys (.keeps IsGuarded) :=
  (keeps_onMemory Memory.keeps_clearHeap).bind fun _ => .modify fun _ => id

/-- **Statements keep the heap above the program**, whichever of them are forbidden. -/
@[reducible]
def performs_guarded (forbids : Machine → Bool) : (Conduct.keeps IsGuarded).Performs where
  toEdits := usesMemory_guarded.edits
  forbids := forbids
  remains := inferInstance
  editsProgram _ _ := inferInstance
  departs _ _ := inferInstance
  clear _ _ := guarded_clear
  watchPins _ _ _ := id
  takeDatum _ _ := obeys_takeDatum
  seekData _ _ _ _ := id
  setTimer _ _ _ := obeys_timerStatement
  clearTimer _ := obeys_clearTimer
  holdPins _ _ := obeys_enablePins false _
  releasePins _ _ := obeys_enablePins true _
  clearReturns _ _ _ := id
  poke _ _ := usesMemory_guarded.pokeStatement
  forStatement _ _ := obeys_forStatement obeys_pushLoop _
  whileStatement _ _ := obeys_whileStatement obeys_pushLoop _
  repeatStatement _ _ := obeys_repeatStatement obeys_pushLoop _

theorem isGuarded_start (config : Config) (host : Host) : (start config host).IsGuarded :=
  Memory.isGuarded_ofSize config.memorySize

/-- **Wherever a host brings a machine, its heap is above its program.** -/
theorem ReachesUnless.isGuarded {forbids : Machine → Bool} {again : Prop} {first : Machine}
    (guarded : first.IsGuarded) (reaches : ReachesUnless forbids again first machine) :
    machine.IsGuarded :=
  @holds_of_reachesUnless _ IsGuarded again (.keeps IsGuarded) (performs_guarded forbids)
    inferInstance inferInstance inferInstance inferInstance inferInstance inferInstance
    inferInstance inferInstance (.refl _) Conduct.recovers_keeps obeys_servePins (fun _ => id)
    (fun _ _ => id) (fun _ => guarded_clear) (fun _ _ _ => isGuarded_start _ _) _ guarded reaches

/-! ### Coming back -/

/-- **A machine that was sent to a place can come back to it.** -/
theorem isReady_jump (guarded : machine.IsGuarded) (place : Location) :
    (jump place machine).IsReady := by
  refine ⟨isSettled_jump place machine, ?_⟩
  rw [jump_eq]
  exact guarded

/-- **So can one that has read a word or a name**: neither is read byte by byte. -/
theorem isReady_nextToken (guarded : machine.IsGuarded)
    (whole : machine.nextToken.cursor.token.isWhole = true) : machine.nextToken.IsReady := by
  rw [nextToken_eq] at whole ⊢
  exact ⟨Cursor.isSettled_next whole, guarded⟩

/-- **A statement that is looked for begins with a machine that can come back**, if it begins with a
word or a name and the machine does not stand there already. -/
theorem isReady_of_findStatement {fuel : Nat} {found : Bool} (guarded : machine.IsGuarded)
    (ran : (findStatementWithin fuel).runOn machine = (.ok found, after))
    (whole : after.cursor.token.isWhole = true) :
    Conduct.stays.moves machine after ∨ after.IsReady := by
  induction fuel generalizing machine with
  | zero => cases ran
  | succ fuel ih =>
    -- Behind a colon or a line number the machine has read on, and so it is ready where it stops.
    have readsOn {machine : Machine} (guarded : machine.IsGuarded)
        (ran : (advance >>= fun _ => findStatementWithin fuel).runOn machine =
          (.ok found, after)) : after.IsReady := by
      have there : machine.nextToken.IsGuarded := by
        rw [nextToken_eq]
        exact guarded
      rcases ih there ran with stays | ready
      · refine (isReady_nextToken guarded ?_).of_stays stays
        rwa [← (stays there).2.2]
      · exact ready
    have read : token.runOn machine = (.ok machine.cursor.token, machine) := rfl
    rw [findStatementWithin, Attempt.runOn_bind_ok read] at ran
    split at ran
    · cases ran
      exact .inl (Conduct.stays.refl _)
    · exact .inr (readsOn guarded ran)
    · rw [Attempt.runOn_get_bind, Attempt.runOn_ite] at ran
      split at ran
      · obtain ⟨_, written, wrote, ran⟩ := Attempt.exists_of_runOn_bind ran
        have stays : Conduct.stays.moves machine _ := (obeys_write _ machine).moves wrote
        exact .inr (readsOn (stays guarded).1 ran)
      · exact .inr (readsOn guarded ran)
    · cases ran
      exact .inl (Conduct.stays.refl _)

/-- **The heap stays above the program.** Wherever a host brings the machine, with any lines and any
statements, `POKE` among them, the heap is above the program. So a machine that is sent to a place
can come back to it, and so can one that looks for its next statement, if it has read on to a word
or a name. -/
theorem heap_stays_above_program {forbids : Machine → Bool} {again : Prop} {config : Config}
    {host : Host} (reaches : ReachesUnless forbids again (start config host) machine) :
    machine.memory.IsGuarded ∧ (∀ place, (jump place machine).IsReady) ∧
      ∀ fuel found after, (findStatementWithin fuel).runOn machine = (.ok found, after) →
        after.cursor.token.isWhole = true →
          after.cursor = machine.cursor ∨ after.IsReady := by
  have guarded := reaches.isGuarded (isGuarded_start config host)
  refine ⟨guarded, isReady_jump guarded, fun fuel found after ran whole => ?_⟩
  exact (isReady_of_findStatement guarded ran whole).imp_left fun stays => (stays guarded).2.2

end Machine

end PocketBasic
