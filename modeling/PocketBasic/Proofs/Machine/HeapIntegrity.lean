/-
**The heap of a running machine stays intact.** Whatever lines are typed and whatever programs run,
as long as no `POKE` is among their statements: the program ends below the heap, the heap is made of
well-formed objects up to the end of memory, and no error blames the header of an array or a string.

* `Conduct.keepsHeap`: an intact heap stays intact, and failures blame no header and access nothing
  outside memory;
* `Machine.executes_keepsHeap`: the parts of statements obey it, but for `POKE`.
-/

import PocketBasic.Proofs.Machine.Assigning
import PocketBasic.Proofs.Machine.Running

namespace PocketBasic

/-- Whether a failure blames no header, and is no access outside memory if all cells of memory have
exact numbers. -/
def Config.Allows (config : Config) : Failure → Prop
  | .reported error => ¬ error.BlamesHeader
  | .fault => numberSize * Single.exactLimit < config.memorySize
  | .zeroDivisor | .stalled => True

theorem Config.Excuses.allows {config : Config} {failure : Failure}
    (excused : config.Excuses failure) : config.Allows failure := by
  cases failure with
  | reported error => exact excused
  | fault => exact excused
  | zeroDivisor | stalled => exact trivial

theorem Failure.IsSafe.allows {config : Config} {failure : Failure} (safe : failure.IsSafe) :
    config.Allows failure := by
  cases failure with
  | reported error => exact safe.1
  | fault | stalled => exact safe.elim
  | zeroDivisor => exact trivial

/-- What keeps the heap intact, blames no header and stays inside memory. -/
def Conduct.keepsHeap (config : Config) : Conduct Machine where
  moves before after := before.IsIntact config → after.IsIntact config
  fails before failure after :=
    before.IsIntact config → after.IsIntact config ∧ config.Allows failure
  refl _ := id
  trans first second intact := second (first intact)
  fails_of_moves first second intact := second (first intact)
  fails_moves first second intact := ⟨second (first intact).1, (first intact).2⟩

namespace Machine

variable {α : Type} {config : Config} {machine : Machine}

/-! ### Steps that keep the heap -/

theorem IsIntact.of_same {after : Machine} (intact : machine.IsIntact config)
    (sameConfig : after.config = machine.config) (sameMemory : after.memory = machine.memory) :
    after.IsIntact config :=
  ⟨sameConfig.trans intact.config_eq, sameMemory ▸ intact.memory⟩

theorem keepsHeap_of_leads {step : Action α} (leads : ∀ machine : Machine, machine.IsIntact config →
      Leads config step machine fun _ after => after.IsIntact config) :
    step.Obeys (.keepsHeap config) := by
  intro machine
  rcases ran : step.runOn machine with ⟨failure | value, after⟩
  · refine Attempt.obeysFrom_of_error ran fun intact => ?_
    obtain ⟨-, kept, excused⟩ := (leads machine intact).excused ran
    exact ⟨kept, excused.allows⟩
  · refine Attempt.obeysFrom_of_ok ran fun intact => ?_
    exact ((leads machine intact).kept ran).2

theorem keepsHeap_onMemory {step : Attempt Memory α}
    (stays : ∀ memory : Memory, memory.IsIntact config.memorySize →
      Memory.StaysIntact config.memorySize (step.runOn memory))
    (ordinary : step.Obeys .isOrdinary) : (onMemory step).Obeys (.keepsHeap config) := by
  intro machine
  rcases ran : step.runOn machine.memory with ⟨failure | value, edited⟩
  · refine Attempt.obeysFrom_of_error (runOn_onMemory_of ran) fun intact => ?_
    have ⟨kept, inside⟩ := stays machine.memory intact.memory
    rw [ran] at kept inside
    refine ⟨⟨intact.config_eq, kept⟩, ?_⟩
    cases failure with
    | reported error => exact ((ordinary machine.memory).fails ran).1
    | fault => exact absurd rfl inside
    | zeroDivisor | stalled => exact trivial
  · refine Attempt.obeysFrom_of_ok (runOn_onMemory_of ran) fun intact => ?_
    have kept := (stays machine.memory intact.memory).1
    rw [ran] at kept
    exact ⟨intact.config_eq, kept⟩

/-- A change outside of memory. -/
theorem keepsHeap_outside {change : Machine → Machine}
    (sameConfig : ∀ machine, (change machine).config = machine.config)
    (sameMemory : ∀ machine, (change machine).memory = machine.memory) :
    (modify change : Action Unit).Obeys (.keepsHeap config) :=
  .modify fun machine intact => intact.of_same (sameConfig machine) (sameMemory machine)

/-! ### Evaluations and jumps -/

instance evaluates_keepsHeap [config.IsSound] : (Conduct.keepsHeap config).Evaluates where
  moves_registers _ _ _ _ _ _ _ _ _ _ _ intact := intact.of_same rfl rfl
  moves_next machine intact := by
    rw [nextToken_eq]
    exact intact.of_same rfl rfl
  moves_excursion _ first second intact := by
    rw [jump, nextToken_eq]
    refine IsIntact.of_same (second ?_) rfl rfl
    rw [jump, nextToken_eq]
    exact (first intact).of_same rfl rfl
  fails_excursion _ first second intact := by
    refine second ?_
    rw [jump, nextToken_eq]
    exact (first intact).of_same rfl rfl
  fails_safe _ _ safe intact := ⟨intact, safe.allows⟩
  fails_stalled _ intact := ⟨intact, trivial⟩
  fails_full _ intact := ⟨intact, Error.not_blamesHeader_of_kind nofun⟩
  fails_empty _ intact := ⟨intact, Error.not_blamesHeader_of_detail rfl⟩
  fails_otherwise fails intact := ⟨(fails intact).1, Error.not_blamesHeader_of_detail rfl⟩
  fails_first first second intact :=
    ⟨(second (first intact).1).1, (first intact).2⟩
  fails_second first second intact := second (first intact).1
  lookup kind name := keepsHeap_of_leads fun _ intact =>
    (leads_lookup intact kind name).mono fun _ _ => And.left
  storeScalar name value := keepsHeap_of_leads fun _ intact => leads_storeScalar intact name value
  deleteScalar name := keepsHeap_onMemory (fun _ intact => intact.delete _ _)
    (Memory.obeys_delete _ _)
  allocateBuffer name size := keepsHeap_of_leads fun _ intact =>
    (leads_allocate intact .buffer name size).mono fun _ _ made =>
      let ⟨_, is, _, _, holds⟩ := made
      holds.isIntact (HeapRecord.isWellFormed_of_buffer is.1)
  storedScalar? name := keepsHeap_of_leads fun _ intact => leads_storedScalar? intact name
  loadElement name row column := keepsHeap_of_leads fun _ intact =>
    leads_loadElement intact name row column
  loadFreeCell index := keepsHeap_of_leads fun _ intact => leads_loadFreeCell intact index
  loadText name selector := keepsHeap_of_leads fun _ intact => leads_loadText intact name selector
  definition name := keepsHeap_of_leads fun _ intact => leads_definition intact name

instance jumps_keepsHeap [config.IsSound] : (Conduct.keepsHeap config).Jumps where
  evaluates := evaluates_keepsHeap
  moves_registers shares intact := intact.of_same shares.config shares.memory
  moves_host _ _ intact := intact.of_same rfl rfl
  moves_loops _ _ intact := intact.of_same rfl rfl
  fails_full _ intact := ⟨intact, Error.not_blamesHeader_of_kind nofun⟩
  fails_empty _ intact := ⟨intact, Error.not_blamesHeader_of_detail rfl⟩
  findLine line := keepsHeap_onMemory (fun _ intact => ⟨intact.findLine line, nofun⟩)
    fun _ => trivial

instance : (Conduct.keepsHeap config).StartsStatements := ⟨fun _ intact => intact.of_same rfl rfl⟩

instance idles_keepsHeap : (Conduct.keepsHeap config).Idles :=
  ⟨fun _ _ intact => intact.of_same rfl rfl⟩

instance seeksData_keepsHeap : (Conduct.keepsHeap config).SeeksData :=
  ⟨fun _ _ intact => intact.of_same rfl rfl⟩

instance setsTimer_keepsHeap (repeats : Bool) : (Conduct.keepsHeap config).SetsTimer repeats :=
  ⟨fun _ _ intact => intact.of_same rfl rfl⟩

instance postpones_keepsHeap : (Conduct.keepsHeap config).Postpones :=
  ⟨fun _ _ _ intact => intact.of_same rfl rfl⟩

/-! ### Subroutines -/

instance diverts_keepsHeap : (Conduct.keepsHeap config).Diverts where
  moves_returns _ _ intact := intact.of_same rfl rfl
  fails_full _ intact := ⟨intact, Error.not_blamesHeader_of_kind nofun⟩
  fails_empty _ intact := ⟨intact, Error.not_blamesHeader_of_detail rfl⟩
  moves_pins _ _ intact := intact.of_same rfl rfl

/-! ### Statements -/

theorem keepsHeap_clear : clear.Obeys (.keepsHeap config) := by
  refine .bind (keepsHeap_onMemory (fun _ intact => intact.clearHeap) Memory.obeys_clearHeap)
    fun _ => keepsHeap_outside (fun _ => rfl) fun _ => rfl

/-- **What statements are made of keeps the heap intact**, but for `POKE`. -/
instance executes_keepsHeap [config.IsSound] : (Conduct.keepsHeap config).Executes where
  refused := [.poke]
  jumps := jumps_keepsHeap
  seeks := seeksData_keepsHeap
  timers := setsTimer_keepsHeap
  clear := keepsHeap_clear
  clearProgram := keepsHeap_onMemory (fun _ intact => intact.clearProgram) Memory.obeys_clearProgram
  loadProgram image := keepsHeap_onMemory (fun _ intact => intact.loadProgram image)
    (Memory.obeys_loadProgram image)
  storeLine line body := keepsHeap_onMemory (fun _ intact => intact.storeLine line body)
    (Memory.obeys_storeLine line body)
  storeFunction name entry parameter _ goesOn := by
    rw [storeFunction_eq_bind]
    exact (keepsHeap_of_leads fun _ intact =>
      leads_storeFunction intact name entry parameter).bind fun _ => goesOn
  createArray name _ _ rowsPositive columnsPositive := keepsHeap_of_leads fun _ intact =>
    leads_createArray intact name rowsPositive columnsPositive
  createString name capacity _ positive := keepsHeap_of_leads fun _ intact =>
    leads_createString intact name capacity positive
  storeElement name row column value := keepsHeap_of_leads fun _ intact =>
    leads_storeElement intact name row column value
  storeFreeCell index value := keepsHeap_of_leads fun _ intact =>
    leads_storeFreeCell intact index value
  storeText name selector source := keepsHeap_of_leads fun _ intact =>
    leads_storeText intact name selector source
  delete kind name := keepsHeap_onMemory (fun _ intact => intact.delete kind name)
    (Memory.obeys_delete kind name)
  call _ := obeys_pushReturn _
  comeBack := obeys_returnStatement
  moves_pins _ _ _ intact := intact.of_same rfl rfl
  poke notRefused := absurd (List.mem_singleton_self _) notRefused
  holdPins _ := keepsHeap_outside (fun _ => rfl) fun _ => rfl
  clearReturns _ _ intact := intact.of_same rfl rfl

/-! ### Runs -/

theorem recovers_keepsHeap : (Conduct.keepsHeap config).Recovers :=
  fun fails intact => (fails intact).1

theorem keepsHeap_stepWithout [config.IsSound] :
    (stepWithout [.poke]).Obeys (.keepsHeap config) := by
  rw [stepWithout, refusingErrors_eq (by decide)]
  exact @obeys_stepRefusing _ _ inferInstance executes_keepsHeap (.refl _) obeys_servePins

theorem keepsHeap_executeWithout [config.IsSound] (cycles : Nat) :
    (executeWithout [.poke] cycles).Obeys (.keepsHeap config) := by
  rw [executeWithout_eq]
  exact obeys_executeBy recovers_keepsHeap keepsHeap_stepWithout
    (fun _ intact => intact.of_same rfl rfl) cycles

theorem isIntact_start (config : Config) (host : Host) : (start config host).IsIntact config :=
  ⟨rfl, Memory.IsIntact.ofSize config.memorySize⟩

/-- What obeys ends in a machine with an intact heap, whether it fails or not. -/
theorem IsIntact.after {step : Action α} (intact : machine.IsIntact config)
    (obeys : step.Obeys (.keepsHeap config)) : (step.runOn machine).2.IsIntact config := by
  rcases ran : step.runOn machine with ⟨failure | value, after⟩
  · exact ((obeys machine).fails ran intact).1
  · exact (obeys machine).moves ran intact

theorem Reaches.isIntact [config.IsSound] {first : Machine} (intact : first.IsIntact config)
    (reaches : Reaches [.poke] first machine) : machine.IsIntact config := by
  induction reaches with
  | refl => exact intact
  | devices host _ ih => exact ih.of_same rfl rfl
  | enter text _ ih => exact ih.after (obeys_enter recovers_keepsHeap text)
  | execute _ ran ih => exact (keepsHeap_executeWithout _ _).moves ran ih
  | autorun _ ih => exact ih.after (obeys_autorun keepsHeap_clear)
  | restart _ ih =>
    rw [Machine.restart, ih.config_eq]
    exact isIntact_start config _

/-- A machine in the middle of a statement: with the cursor anywhere, and after any evaluations and
assignments. -/
inductive Underway (config : Config) (host : Host) : Machine → Prop
  | reached {machine : Machine} (reaches : Reaches [.poke] (start config host) machine) :
    Underway config host machine
  | moved {machine : Machine} (cursor : Cursor) (underway : Underway config host machine) :
    Underway config host { machine with cursor }
  | evaluated {machine : Machine} {α : Type} {step : Action α} (reads : ReadsExpression step)
    (underway : Underway config host machine) : Underway config host (step.runOn machine).2
  | targeted {machine : Machine} (underway : Underway config host machine) :
    Underway config host (target.runOn machine).2
  | assignedNumber {machine : Machine} (target : Target) (value : Single)
    (underway : Underway config host machine) :
    Underway config host ((assignNumber target value).runOn machine).2
  | assignedText {machine : Machine} (target : Target) (text : Bytes)
    (underway : Underway config host machine) :
    Underway config host ((assignText target text).runOn machine).2

theorem Underway.isIntact [config.IsSound] {host : Host} (underway : Underway config host machine) :
    machine.IsIntact config := by
  induction underway with
  | reached reaches => exact reaches.isIntact (isIntact_start config host)
  | moved cursor _ ih => exact ih.of_same rfl rfl
  | evaluated reads _ ih => exact ih.after reads.obeys
  | targeted _ ih => exact ih.after obeys_target
  | assignedNumber target value _ ih => exact ih.after (obeys_assignNumber target value)
  | assignedText target text _ ih => exact ih.after (obeys_assignText target text)

/-- **Without `POKE` the heap stays intact.** Wherever a host brings the machine, the program ends
below the heap, the bytes from there to the end of memory are objects with different names, as many
as are counted, each well-formed, and the next statement blames no header, unless it is a `POKE`. -/
theorem heap_stays_intact [config.IsRoomy] {host : Host}
    (reaches : Reaches [.poke] (start config host) machine) :
    machine.memory.top ≤ machine.memory.himem ∧ machine.memory.himem ≤ config.memorySize ∧
    machine.memory.size = config.memorySize ∧
    (∃ records : List (HeapRecord (AddressWidth.forSize config.memorySize)),
      machine.memory.contents.drop machine.memory.himem = HeapRecord.image records ∧
      machine.memory.objects = records.length ∧
      records.Pairwise (fun newer older => ¬ older.Is newer.kind newer.name) ∧
      ∀ record ∈ records, record.IsWellFormed) ∧
    ∀ error after, (stepWithout [.poke]).runOn machine = (.error (.reported error), after) →
      ¬ error.BlamesHeader := by
  have intact := reaches.isIntact (isIntact_start config host)
  have size := intact.memory.size_eq
  obtain ⟨records, held, wellFormed⟩ := intact.memory.objects
  refine ⟨intact.memory.below, size ▸ intact.memory.inside, size,
    ⟨records, held.heap, held.objects, held.distinct, wellFormed⟩, fun error after ran => ?_⟩
  exact ((keepsHeap_stepWithout machine).fails ran intact).2

/-- An array that is made by an assignment. -/
theorem heap_stays_intact_assigned :
    let config : Config := { memorySize := 128 }
    let typed := ((enter (ascii "A(2)=3")).runOn (start config {})).2
    let machine := ((execute 2).runOn typed).2
    Reaches [.poke] (start config {}) machine ∧ machine.memory.objects = 1 ∧
      machine.memory.top ≤ machine.memory.himem := by
  intro config typed machine
  have roomy : config.IsRoomy := ⟨by decide, by decide⟩
  have goesOn : ((executeWithout [.poke] 2).runOn typed).1.toOption = some .stopped := by
    decide +kernel
  rcases ran : (executeWithout [.poke] 2).runOn typed with ⟨failure | outcome, after⟩
  · rw [ran] at goesOn
    cases goesOn
  · have same : machine = after := congrArg Prod.snd (execute_of_executeWithout ran)
    have reaches : Reaches [.poke] (start config {}) machine :=
      same ▸ .execute (.enter _ .refl) ran
    exact ⟨reaches, by decide +kernel, (heap_stays_intact reaches).1⟩

/-- Where arrays that are made by themselves have no elements, a subscript that is no number is the
place of one all the same, and assigning to it breaks the header. -/
theorem header_breaks_without_elements :
    let config : Config := { memorySize := 128, arraySize := 0 }
    let typing (text : String) (machine : Machine) : Except Failure Outcome × Machine :=
      (execute 4).runOn ((enter (ascii text)).runOn machine).2
    let beside := (typing "X=1" (start config {})).2
    let broken := (typing "A(VAL(\"NAN\"))=0" beside).2
    (typing "PRINT A(1)" broken).1 =
      .ok (.failed { kind := .internalError, detail := "ARRAY HEADER" }) := by
  decide +kernel

end Machine

end PocketBasic
