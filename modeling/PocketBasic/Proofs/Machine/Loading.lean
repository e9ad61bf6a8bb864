/-
**What a failed load leaves.** Reading a name leaves the program alone, and so does a load from the
byte store that fails, or one for which there is no file. The listing in a file is stored line by
line, over a program that was dropped: where a line cannot be stored, the program is made of the
lines in front of it.

* `Conduct.keepsProgram`: the program stays, above it a heap made of objects;
* `Machine.loadImage_fails`, `Machine.exists_of_storeLines`: the two ways to load, when they fail;
* `Machine.StopsInListing`: a load that came to a line that it could not store;
* **`Machine.failed_load_keeps_program`**: what a `LOAD` or a `RUN` leaves that ends in an error;
* `Machine.program_lost_by_failed_load`: a listing that destroys the program.
-/

import PocketBasic.Proofs.Machine.Storing
import PocketBasic.Proofs.Machine.Undisturbed

namespace PocketBasic

/-! ### Programs that stay -/

/-- What leaves the program as it is, unless the machine faults or stalls. -/
def Conduct.keepsProgram : Conduct Machine where
  moves before after := before.memory.IsHeld →
    after.memory.IsHeld ∧ after.memory.program = before.memory.program
  fails before failure after := failure.IsReported → before.memory.IsHeld →
    after.memory.IsHeld ∧ after.memory.program = before.memory.program
  refl _ held := ⟨held, rfl⟩
  trans first second held :=
    have ⟨middle, same⟩ := first held
    have ⟨last, again⟩ := second middle
    ⟨last, again.trans same⟩
  fails_of_moves first second reported held :=
    have ⟨middle, same⟩ := first held
    have ⟨last, again⟩ := second reported middle
    ⟨last, again.trans same⟩
  fails_moves first second reported held :=
    have ⟨middle, same⟩ := first reported held
    have ⟨last, again⟩ := second middle
    ⟨last, again.trans same⟩

namespace Machine

open Conduct (growsHeap keepsProgram)

variable {machine after : Machine} {α : Type}

theorem keepsProgram_of_grows (grows : machine.memory.Grows after.memory) :
    keepsProgram.moves machine after := by
  rintro ⟨tops, width, records, held⟩
  obtain ⟨program, newer, kept, -⟩ := grows width records held tops
  exact ⟨⟨program.below, width, _, kept⟩,
    program.program_eq (Nat.le_trans tops held.inside)⟩

theorem growsHeap_refines_keepsProgram : growsHeap.Refines keepsProgram :=
  ⟨keepsProgram_of_grows, fun grows reported => keepsProgram_of_grows (grows reported)⟩

theorem keepsProgram_of_same (same : after.memory = machine.memory) :
    keepsProgram.moves machine after := by
  intro held
  rw [same]
  exact ⟨held, rfl⟩

theorem keepsProgram_modify {change : Machine → Machine}
    (same : ∀ machine, (change machine).memory = machine.memory) :
    (modify change : Action Unit).Obeys keepsProgram :=
  .modify fun machine => keepsProgram_of_same (same machine)

theorem keepsProgram_fail (kind : ErrorKind) :
    (Attempt.fail kind : Action α).Obeys keepsProgram :=
  fun _ _ held => ⟨held, rfl⟩

theorem keepsProgram_fileName : fileName.Obeys keepsProgram := by
  have named : (Attempt.reportingAs .syntaxError text).Obeys growsHeap := by
    intro machine
    have obeys : text.ObeysFrom growsHeap machine := obeys_text machine
    rw [Attempt.ObeysFrom, Attempt.reportingAs, Attempt.runOn_ofRun]
    rcases ran : text.runOn machine with ⟨(error | - | - | -) | value, after⟩
    · exact fun _ => obeys.fails ran trivial
    · exact obeys.fails ran
    · exact obeys.fails ran
    · exact obeys.fails ran
    · exact obeys.moves ran
  exact (named.bind fun _ => .pure _).of_refines growsHeap_refines_keepsProgram

theorem keepsProgram_gotoLine (line : LineNumber) : (gotoLine line).Obeys keepsProgram := by
  have finds (found : Option Nat) :
      (Attempt.orFail .undefinedLine found : Action Nat).Obeys keepsProgram := by
    cases found with
    | none => exact keepsProgram_fail _
    | some start => exact .pure _
  have looks : (onMemory (Attempt.always fun memory => memory.findLine line)).Obeys
      keepsProgram := by
    intro machine held
    show (machine.memory.findLine line).2.IsHeld ∧ (machine.memory.findLine line).2.program = _
    unfold Memory.findLine
    split
    · exact ⟨held, rfl⟩
    · split
      · exact ⟨held, rfl⟩
      · exact ⟨held.of_keepsHeap ⟨rfl, rfl, rfl, rfl, rfl, held.1⟩, rfl⟩
  refine .bind (.get_bind fun machine => ?_) fun _ => keepsProgram_modify fun machine => ?_
  · split
    · exact (finds _).bind (fun _ => .pure _) machine
    · exact looks.bind (fun found => (finds found).bind fun _ => .pure _) machine
  · rw [jump, nextToken_eq]

theorem keepsProgram_clear : clear.Obeys keepsProgram := by
  refine .bind (fun machine => ?_) fun _ => keepsProgram_modify fun _ => rfl
  unfold Attempt.ObeysFrom
  rw [runOn_onMemory]
  by_cases held : machine.memory.IsHeld
  · obtain ⟨tops, width, records, objects⟩ := held
    obtain ⟨cleared, ran, kept, program⟩ := objects.clearHeap tops
    rw [ran]
    intro _
    exact ⟨⟨program.below, width, [], kept⟩,
      program.program_eq (Nat.le_trans tops objects.inside)⟩
  · split
    · exact fun there => absurd there held
    · exact fun _ there => absurd there held

/-! ### Images -/

/-- **A load from the store loads a program, or changes nothing.** -/
theorem loadImage_cases (held : machine.memory.IsHeld) :
    (∃ loaded : Memory, loadImage.runOn machine = (.ok (), { machine with memory := loaded }) ∧
        loaded.IsHeld) ∨
      ∃ failure, loadImage.runOn machine = (.error failure, machine) := by
  rw [loadImage, Attempt.runOn_get_bind]
  split
  · exact .inr ⟨_, rfl⟩
  split
  · exact .inr ⟨_, rfl⟩
  rw [Attempt.runOn_ite]
  split
  · rename_i image _ _
    rcases Memory.loadProgram_keepsHeap held.1 held.inside image.bytes with
      ⟨error, ran⟩ | ⟨loaded, ran, kept⟩
    · exact .inr ⟨_, runOn_onMemory_of ran⟩
    · exact .inl ⟨loaded, runOn_onMemory_of ran, held.of_keepsHeap kept⟩
  · exact .inr ⟨_, rfl⟩

/-! ### Listings -/

/-- Lines are stored one after the other. -/
theorem storeLines_cons (fractions : Bool) (line : Bytes) (rest : List Bytes) :
    storeLines fractions (line :: rest) =
      storeLines fractions [line] >>= fun _ => storeLines fractions rest := by
  rw [storeLines, storeLines]
  dsimp only
  split
  · rfl
  · simp only [bind_assoc]
    rfl
  · simp only [bind_assoc]
    rfl

/-- **A line is stored, or the program stays.** -/
theorem storeLines_one (held : machine.memory.IsHeld) (fractions : Bool) (line : Bytes) :
    ∃ result, ∃ left : Memory, (storeLines fractions [line]).runOn machine =
      (result, { machine with memory := left }) ∧ left.IsHeld ∧
        ∀ failure, result = .error failure → left.program = machine.memory.program := by
  rw [storeLines]
  dsimp only
  split
  · exact ⟨_, machine.memory, rfl, held, fun _ _ => rfl⟩
  · rename_i number body _
    rw [Range.line]
    cases LineNumber.ofSingle? number with
    | none => exact ⟨_, machine.memory, rfl, held, fun _ _ => rfl⟩
    | some line =>
      show ∃ result, ∃ left : Memory, (onMemory (Memory.storeLine line body) >>= fun _ =>
        storeLines fractions []).runOn machine = _ ∧ _
      rcases Memory.storeLine_keepsHeap held.1 held.inside line body with
        ⟨error, ran | ran⟩ | ⟨stored, ran, kept⟩
      · exact ⟨_, machine.memory, Attempt.runOn_bind_error (runOn_onMemory_of ran) _, held,
          fun _ _ => rfl⟩
      · exact ⟨_, machine.memory.withoutCache, Attempt.runOn_bind_error (runOn_onMemory_of ran) _,
          held.of_keepsHeap ⟨rfl, rfl, rfl, rfl, rfl, held.1⟩, fun _ _ => rfl⟩
      · exact ⟨.ok (), stored, Attempt.runOn_bind_ok (runOn_onMemory_of ran) _,
          held.of_keepsHeap kept, fun _ failed => by cases failed⟩
  · exact ⟨_, machine.memory, rfl, held, fun _ _ => rfl⟩

/-- **Where a listing cannot be stored, the lines in front of one of its lines were**, and that line
left the program alone. -/
theorem storeLines_cases (held : machine.memory.IsHeld) {fractions : Bool} {lines : List Bytes}
    {result : Except Failure Unit}
    (ran : (storeLines fractions lines).runOn machine = (result, after)) :
    after.memory.IsHeld ∧ ∀ failure, result = .error failure →
      ∃ earlier line later stored, lines = earlier ++ line :: later ∧
        (storeLines fractions earlier).runOn machine = (.ok (), stored) ∧
        ((storeLines fractions [line]).runOn stored).1 = .error failure ∧
        after.memory.program = stored.memory.program := by
  induction lines generalizing machine with
  | nil =>
    cases ran
    exact ⟨held, nofun⟩
  | cons line rest ih =>
    rw [storeLines_cons] at ran
    obtain ⟨failure | ⟨⟩, left, one, kept, same⟩ := storeLines_one held fractions line
    · rw [Attempt.runOn_bind_error one] at ran
      cases ran
      refine ⟨kept, fun failure failed => ?_⟩
      cases failed
      exact ⟨[], line, rest, machine, rfl, rfl, by rw [one], same _ rfl⟩
    · rw [Attempt.runOn_bind_ok one] at ran
      obtain ⟨keeps, stops⟩ := ih kept ran
      refine ⟨keeps, fun failure failed => ?_⟩
      obtain ⟨earlier, bad, later, stored, rfl, begins, fails, same⟩ := stops failure failed
      refine ⟨line :: earlier, bad, later, stored, rfl, ?_, fails, same⟩
      rw [storeLines_cons, Attempt.runOn_bind_ok one, begins]

/-- The lines of the listing that a load reads: there are none in the store. -/
def listing? (machine : Machine) (name : Bytes) : Option (List Bytes) :=
  if name = storeName then none
  else do
    let files ← machine.host.files
    let content ← files.content? name
    return Unicode.lines (Unicode.repaired content.toList)

/-- Whether a load came to a line of a listing that it could not store: the program was dropped,
the lines in front of that line were stored, and they are the program now. -/
def StopsInListing (machine : Machine) (name : Bytes) (failure : Failure)
    (after : Machine) : Prop :=
  ∃ earlier line later host dropped stored,
    machine.listing? name = some (earlier ++ line :: later) ∧
    Memory.clearProgram.runOn machine.memory = (.ok (), dropped) ∧
    (storeLines (!machine.config.wholeNumbers) earlier).runOn
      { machine with host, memory := dropped } = (.ok (), stored) ∧
    ((storeLines (!machine.config.wholeNumbers) [line]).runOn stored).1 = .error failure ∧
    after.memory.program = stored.memory.program

/-- The program is dropped in front of the first line of a listing. -/
theorem runOn_dropProgram (held : machine.memory.IsHeld) :
    ∃ dropped, Memory.clearProgram.runOn machine.memory = (.ok (), dropped) ∧ dropped.IsHeld := by
  have kept := Memory.clearProgram_keepsHeap held.1 held.inside
  rcases ran : Memory.clearProgram.runOn machine.memory with ⟨failure | ⟨⟩, dropped⟩
  · rw [Memory.runOn_clearProgram (Nat.le_trans held.1 held.inside)] at ran
    cases ran
  · rw [ran] at kept
    exact ⟨dropped, rfl, held.of_keepsHeap kept⟩

theorem runOn_onFiles_none (none_there : machine.host.files = none) (step : Files → α × Files) :
    (onFiles step).runOn machine = (.error (.reported { kind := .badFileNumber }), machine) := by
  rw [onFiles, Attempt.runOn_bind_ok (runOn_onHost _ machine), Host.onFiles, none_there]
  rfl

theorem runOn_onFiles_some {files : Files} (there : machine.host.files = some files)
    (step : Files → α × Files) : (onFiles step).runOn machine =
      (.ok (step files).1,
        { machine with host := { machine.host with files := some (step files).2 } }) := by
  rw [onFiles, Attempt.runOn_bind_ok (runOn_onHost _ machine), Host.onFiles, there]
  rfl

/-- **A load of a listing stores it, or changes nothing, or stops in the listing.** -/
theorem loadListing_cases (held : machine.memory.IsHeld) {name : Bytes} (other : name ≠ storeName)
    {result : Except Failure Unit} (ran : (loadListing name).runOn machine = (result, after)) :
    after.memory.IsHeld ∧ ∀ failure, result = .error failure →
      after.memory.program = machine.memory.program ∨
        StopsInListing machine name failure after := by
  rw [loadListing] at ran
  cases there : machine.host.files with
  | none =>
    rw [Attempt.runOn_bind_error (runOn_onFiles_none there _)] at ran
    cases ran
    exact ⟨held, fun _ _ => .inl rfl⟩
  | some files =>
    rw [Attempt.runOn_bind_ok (runOn_onFiles_some there _), Files.openRead] at ran
    cases found : files.content? name with
    | none =>
      rw [found] at ran
      cases ran
      exact ⟨held, fun _ _ => .inl rfl⟩
    | some content =>
      obtain ⟨dropped, drops, kept⟩ := runOn_dropProgram held
      have dropping (host : Host) : (onMemory Memory.clearProgram).runOn { machine with host } =
          (.ok (), { machine with host, memory := dropped }) := runOn_onMemory_of drops
      rw [found] at ran
      simp only [reduceIte] at ran
      rw [Attempt.runOn_bind_ok (Attempt.runOn_orFail_some _ _ _),
        Attempt.runOn_bind_ok (dropping _), Attempt.runOn_get_bind] at ran
      obtain ⟨last, stops⟩ := storeLines_cases kept ran
      refine ⟨last, fun failure failed => ?_⟩
      obtain ⟨earlier, line, later, stored, lines, begins, fails, same⟩ := stops failure failed
      refine .inr ⟨earlier, line, later, _, dropped, stored, ?_, drops, begins, fails, same⟩
      rw [listing?, if_neg other, there, ← lines]
      simp only [Option.bind_eq_bind, Option.bind_some, found, pure]

/-- **A load that fails changes nothing, or stops in a listing.** -/
theorem loadProgram_cases (held : machine.memory.IsHeld) {name : Bytes}
    {result : Except Failure Unit} (ran : (loadProgram name).runOn machine = (result, after)) :
    after.memory.IsHeld ∧ ∀ failure, result = .error failure →
      after.memory.program = machine.memory.program ∨
        StopsInListing machine name failure after := by
  rw [loadProgram] at ran
  by_cases other : name = storeName
  · rw [if_pos other] at ran
    rcases loadImage_cases held with ⟨loaded, loads, kept⟩ | ⟨failure, fails⟩
    · rw [loads] at ran
      cases ran
      exact ⟨kept, fun _ failed => by cases failed⟩
    · rw [fails] at ran
      cases ran
      exact ⟨held, fun _ _ => .inl rfl⟩
  · rw [if_neg other] at ran
    exact loadListing_cases held other ran

/-! ### Statements -/

/-- **A `LOAD` that ends in an error** leaves the program, or stopped in the listing of the file
that it names. -/
theorem loadStatement_fails (held : machine.memory.IsHeld) {error : Error}
    (ran : loadStatement.runOn machine = (.error (.reported error), after)) :
    after.memory.program = machine.memory.program ∨
      ∃ name reader, fileName.runOn machine.nextToken = (.ok name, reader) ∧
        StopsInListing reader name (.reported error) after := by
  have begins : machine.nextToken.memory = machine.memory := by rw [nextToken_eq]
  rw [loadStatement, advance, Attempt.runOn_modify_bind] at ran
  rcases named : fileName.runOn machine.nextToken with ⟨failure | name, reader⟩
  · rw [Attempt.runOn_bind_error named] at ran
    cases ran
    have kept := (keepsProgram_fileName _).fails named trivial (begins ▸ held)
    exact .inl (kept.2.trans (congrArg Memory.program begins))
  · have kept := (keepsProgram_fileName _).moves named (begins ▸ held)
    have asked : isInteractive.runOn reader =
      (.ok (decide (reader.cursor.mode = .interactive)), reader) := rfl
    rw [Attempt.runOn_bind_ok named, Attempt.runOn_bind_ok asked] at ran
    rcases loads : (loadProgram name).runOn reader with ⟨failure | ⟨⟩, left⟩
    · rw [Attempt.runOn_bind_error loads] at ran
      cases ran
      refine ((loadProgram_cases kept.1 loads).2 _ rfl).imp (fun same => ?_) fun stops => ?_
      · rw [same, kept.2, begins]
      · exact ⟨name, reader, rfl, stops⟩
    · rw [Attempt.runOn_bind_ok loads, Attempt.runOn_modify_bind] at ran
      split at ran
      · cases ran
      · cases ran

/-- A program starts from new, and stays. -/
theorem keepsProgram_startAfresh (loaded : Bool) (line : Option LineNumber) : (do
    let mode := if (← get).cursor.mode = .runStore && !loaded then Mode.runStore else .run
    clear
    modify fun machine =>
      { machine with continuation := none, cursor := { machine.cursor with mode } }
    match line with
    | some line => gotoLine line
    | none => startOf mode : Action Unit).Obeys keepsProgram := by
  refine Attempt.Obeys.get.bind fun _ => keepsProgram_clear.bind fun _ => ?_
  refine .bind (keepsProgram_modify fun _ => rfl) fun _ => ?_
  cases line with
  | some line => exact keepsProgram_gotoLine line
  | none => exact keepsProgram_modify fun _ => by rw [jump, nextToken_eq]

/-- What `RUN` does behind a name, or without one. -/
theorem keepsProgram_startNamed (loaded : Bool) : (do
    let line ← if ← atEnd then pure none else some <$> (do Range.line (← value))
    let mode := if (← get).cursor.mode = .runStore && !loaded then Mode.runStore else .run
    clear
    modify fun machine =>
      { machine with continuation := none, cursor := { machine.cursor with mode } }
    match line with
    | some line => gotoLine line
    | none => startOf mode : Action Unit).Obeys keepsProgram := by
  have numbered : (do Range.line (← value) : Action LineNumber).Obeys growsHeap :=
    obeys_value.bind fun _ => obeys_orFail (by decide) _
  refine obeys_atEnd.bind fun _ => .ite (keepsProgram_startAfresh loaded none) ?_
  refine .bind ?_ fun line => keepsProgram_startAfresh loaded line
  exact (numbered.map some).of_refines growsHeap_refines_keepsProgram

/-- **A `RUN` with a name that ends in an error** leaves the program, or stopped in the listing of
the file, or it loaded the program that is there. -/
theorem runStatement_fails (held : machine.memory.IsHeld) {text : Bytes}
    (named : machine.nextToken.cursor.token = .literal text) {error : Error}
    (ran : runStatement.runOn machine = (.error (.reported error), after)) :
    after.memory.program = machine.memory.program ∨
      StopsInListing machine.behindName (Unicode.repaired text) (.reported error) after ∨
      ∃ loaded, (loadProgram (Unicode.repaired text)).runOn machine.behindName = (.ok (), loaded) ∧
        after.memory.program = loaded.memory.program := by
  have begins : machine.behindName.memory = machine.memory := by rw [behindName_eq]
  have loading : loadNamed.runOn machine.nextToken =
      (do
        loadProgram (Unicode.repaired text)
        return true : Action Bool).runOn machine.behindName := by
    rw [loadNamed, token, bind_assoc, Attempt.runOn_get_bind, Attempt.runOn_pure_bind, named]
    rfl
  rw [runStatement, advance, Attempt.runOn_modify_bind] at ran
  rcases loads : (loadProgram (Unicode.repaired text)).runOn machine.behindName with
    ⟨failure | ⟨⟩, loaded⟩
  · rw [Attempt.runOn_bind_error (loading.trans (Attempt.runOn_bind_error loads _))] at ran
    cases ran
    refine ((loadProgram_cases (begins ▸ held) loads).2 _ rfl).imp (fun same => ?_) .inl
    rw [same, begins]
  · rw [Attempt.runOn_bind_ok (loading.trans (Attempt.runOn_bind_ok loads _))] at ran
    have kept := (keepsProgram_startNamed true loaded).fails ran trivial
      (loadProgram_cases (begins ▸ held) loads).1
    exact .inr (.inr ⟨loaded, rfl, kept.2⟩)

/-- **What a failed load leaves.** A `LOAD` that ends in an error leaves the program byte for byte,
or came to a line of the listing of its file that it could not store: then the program is made of
the lines in front of that one. The same holds of a `RUN` with a name, unless its error is one of
the line that it was to start at; then the program is the loaded one. -/
theorem failed_load_keeps_program {config : Config} (intact : machine.IsIntact config)
    (error : Error) (after : Machine) :
    (loadStatement.runOn machine = (.error (.reported error), after) →
      after.memory.program = machine.memory.program ∨
        ∃ name reader, fileName.runOn machine.nextToken = (.ok name, reader) ∧
          StopsInListing reader name (.reported error) after) ∧
    ∀ text, machine.nextToken.cursor.token = .literal text →
      runStatement.runOn machine = (.error (.reported error), after) →
        after.memory.program = machine.memory.program ∨
          StopsInListing machine.behindName (Unicode.repaired text) (.reported error) after ∨
          ∃ loaded,
            (loadProgram (Unicode.repaired text)).runOn machine.behindName = (.ok (), loaded) ∧
            after.memory.program = loaded.memory.program :=
  ⟨loadStatement_fails intact.memory.isHeld,
    fun _ named => runStatement_fails intact.memory.isHeld named⟩

/-- A load from a store that holds no program. -/
theorem failed_load_keeps_program_erased :
    let config : Config := { memorySize := 64 }
    let typed := ((enter (ascii "10 X=1")).runOn
      (start config { store := some (ByteStore.erased 24) })).2
    let loader := ((enter (ascii "LOAD \"!\"")).runOn typed).2
    loader.memory.top = 12 ∧ ∃ error after,
      loadStatement.runOn loader = (.error (.reported error), after) ∧
        after.memory.program = loader.memory.program := by
  intro config typed loader
  have sound : config.IsSound := ⟨by decide, by decide⟩
  have seen : loader.memory.top = 12 ∧ loader.NamesStore ∧
      (loadStatement.runOn loader).1 =
        .error (.reported { kind := .storeError, detail := "NO PROGRAM" }) := by
    decide +kernel
  obtain ⟨top, names, fails⟩ := seen
  have reaches : Reaches [.poke] (start config { store := some (ByteStore.erased 24) }) loader :=
    .enter _ (.enter _ .refl)
  have intact : loader.IsIntact config := reaches.isIntact (isIntact_start _ _)
  refine ⟨top, _, _, Prod.ext fails rfl, ?_⟩
  rcases (failed_load_keeps_program intact _ _).1 (Prod.ext fails rfl) with
    same | ⟨name, reader, named, earlier, line, later, -, -, -, listing, -⟩
  · exact same
  · rw [runOn_storeName names] at named
    cases named
    rw [listing?, if_pos rfl] at listing
    cases listing

/-- A file with a line without number destroys the program and puts another one in its place. -/
theorem program_lost_by_failed_load :
    let files : Files :=
      { contents := [(ascii "BAD", (ascii "20 PRINT 2\nPRINT 3\n").toArray)] }
    let typed := ((enter (ascii "10 PRINT 1")).runOn
      (start { memorySize := 64 } { files := some files })).2
    let failed := (execute 1).runOn ((enter (ascii "LOAD \"BAD\"")).runOn typed).2
    failed.1 = .ok (.failed { kind := .syntaxError, detail := "DIRECT STATEMENT IN FILE" }) ∧
      typed.memory.lines.map (·.number.toNat) = [10] ∧
      failed.2.memory.lines.map (·.number.toNat) = [20] := by
  decide +kernel

end Machine

end PocketBasic
