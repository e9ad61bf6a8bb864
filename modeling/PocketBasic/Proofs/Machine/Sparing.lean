/-
**Variables stay out of the way.** What is done to variables, to operands and to devices changes the
heap and no other byte of memory, as long as no `POKE` is done: the program stays as it is, and so
do the lines that are remembered, the place of the machine and what is under way. So the lines are
remembered where they are, whatever a host lets such a machine do.

* `Machine.StaysPut`, `Conduct.staysPut`: what is left as it was, whether a step fails or not;
* `Machine.edits_staysPut` and the others: the steps on variables obey it;
* `Conduct.remembers`: the conduct of what keeps the lines where they are remembered;
* **`Machine.Reaches.remembers`**: without `POKE` they are, wherever a host brings a machine.
-/

import PocketBasic.Proofs.Machine.HeapIntegrity
import PocketBasic.Proofs.Memory.LineLookup

namespace PocketBasic

/-! ### Changes of memory -/

/-- What changes memory only, and leaves the slots for lines as they are. -/
def Conduct.changesMemory : Conduct Machine where
  moves before after := after = { before with memory := after.memory } ∧
    after.memory.lineCache = before.memory.lineCache
  fails before _ after := after = { before with memory := after.memory } ∧
    after.memory.lineCache = before.memory.lineCache
  refl _ := ⟨rfl, rfl⟩
  trans first second := ⟨by rw [second.1, first.1], second.2.trans first.2⟩
  fails_of_moves first second := ⟨by rw [second.1, first.1], second.2.trans first.2⟩
  fails_moves first second := ⟨by rw [second.1, first.1], second.2.trans first.2⟩

namespace Machine

variable {α : Type} {config : Config} {machine before middle after : Machine}

theorem changesMemory_onMemory {step : Attempt Memory α} (obeys : step.Obeys .keepsSlots) :
    (onMemory step).Obeys .changesMemory := by
  intro machine
  rcases ran : step.runOn machine.memory with ⟨failure | value, edited⟩
  · exact Attempt.obeysFrom_of_error (runOn_onMemory_of ran) ⟨rfl, (obeys _).fails ran⟩
  · exact Attempt.obeysFrom_of_ok (runOn_onMemory_of ran) ⟨rfl, (obeys _).moves ran⟩

theorem usesMemory_changesMemory : Conduct.changesMemory.UsesMemory where
  fails _ _ _ := ⟨rfl, rfl⟩
  lookup kind name := changesMemory_onMemory (Memory.obeys_lookup kind name)
  allocate kind name size := changesMemory_onMemory (Memory.obeys_allocate kind name size)
  delete kind name := changesMemory_onMemory (Memory.obeys_delete kind name)
  write start data := changesMemory_onMemory (Memory.obeys_write start data)
  poke address value := changesMemory_onMemory (Memory.obeys_poke address value)

/-! ### Staying put -/

/-- What a step leaves of a machine as it was: the program, the lines that are remembered, the place
that is read, and what is under way. The heap is intact. -/
structure StaysPut (config : Config) (before after : Machine) : Prop where
  intact : after.IsIntact config
  program : before.memory.SameProgram after.memory
  slots : after.memory.lineCache = before.memory.lineCache
  cursor : after.cursor = before.cursor
  loops : after.loops = before.loops
  returns : after.returns = before.returns
  bookmark : after.bookmark = before.bookmark

theorem StaysPut.trans (first : before.StaysPut config middle)
    (second : middle.StaysPut config after) : before.StaysPut config after where
  intact := second.intact
  program := ⟨second.program.size.trans first.program.size,
    second.program.program.trans first.program.program⟩
  slots := second.slots.trans first.slots
  cursor := second.cursor.trans first.cursor
  loops := second.loops.trans first.loops
  returns := second.returns.trans first.returns
  bookmark := second.bookmark.trans first.bookmark

theorem IsIntact.staysPut (intact : machine.IsIntact config) : machine.StaysPut config machine :=
  ⟨intact, ⟨rfl, rfl⟩, rfl, rfl, rfl, rfl, rfl⟩

end Machine

/-- What leaves a machine with an intact heap where it is, whether it fails or not. -/
def Conduct.staysPut (config : Config) : Conduct Machine where
  moves before after := before.IsIntact config → before.StaysPut config after
  fails before _ after := before.IsIntact config → before.StaysPut config after
  refl _ intact := intact.staysPut
  trans first second intact := (first intact).trans (second (first intact).intact)
  fails_of_moves first second intact := (first intact).trans (second (first intact).intact)
  fails_moves first second intact := (first intact).trans (second (first intact).intact)

namespace Machine

variable {α : Type} {config : Config} {machine before after : Machine}

/-- What changes memory only stays put, if it keeps the heap intact and spares the program. -/
theorem StaysPut.of_changes (changes : Conduct.changesMemory.moves before after)
    (intact : after.IsIntact config) (program : before.memory.SameProgram after.memory) :
    before.StaysPut config after := by
  obtain ⟨same, slots⟩ := changes
  rw [same] at intact ⊢
  exact ⟨intact, program, slots, rfl, rfl, rfl, rfl⟩

/-- **What leads from one intact heap to another one stays put**, if it changes memory only. -/
theorem staysPut_of_leads [roomy : config.IsRoomy] {step : Action α}
    (changes : step.Obeys .changesMemory)
    (leads : ∀ machine : Machine, machine.IsIntact config →
      Leads config step machine fun _ after => after.IsIntact config) :
    step.Obeys (.staysPut config) := by
  have small : config.memorySize ≤ numberSize * Single.exactLimit :=
    Nat.le_trans roomy.memorySize_le (Nat.le_mul_of_pos_left _ (by decide))
  intro machine
  rcases ran : step.runOn machine with ⟨failure | value, after⟩
  · refine Attempt.obeysFrom_of_error ran fun intact => ?_
    obtain ⟨spares, kept, -⟩ := (leads machine intact).excused ran
    exact .of_changes ((changes machine).fails ran) kept (spares small)
  · refine Attempt.obeysFrom_of_ok ran fun intact => ?_
    obtain ⟨spares, kept⟩ := (leads machine intact).kept ran
    exact .of_changes ((changes machine).moves ran) kept (spares small)

theorem staysPut_onMemory {step : Attempt Memory α} (slots : step.Obeys .keepsSlots)
    (spares : step.Obeys Memory.sparing)
    (stays : ∀ memory : Memory, memory.IsIntact config.memorySize →
      Memory.StaysIntact config.memorySize (step.runOn memory)) :
    (onMemory step).Obeys (.staysPut config) := by
  intro machine
  have changes := changesMemory_onMemory slots machine
  rcases ran : step.runOn machine.memory with ⟨failure | value, edited⟩
  all_goals have there := runOn_onMemory_of ran
  · refine Attempt.obeysFrom_of_error there fun intact => ?_
    have kept := (stays machine.memory intact.memory).1
    rw [ran] at kept
    exact .of_changes (changes.fails there) ⟨intact.config_eq, kept⟩
      ((spares machine.memory).fails ran intact.isGuarded).2
  · refine Attempt.obeysFrom_of_ok there fun intact => ?_
    have kept := (stays machine.memory intact.memory).1
    rw [ran] at kept
    exact .of_changes (changes.moves there) ⟨intact.config_eq, kept⟩
      ((spares machine.memory).moves ran intact.isGuarded).2

theorem staysPut_delete (kind : ObjectKind) (name : Name) :
    (onMemory (Memory.delete kind name)).Obeys (.staysPut config) :=
  staysPut_onMemory (Memory.obeys_delete kind name) (Memory.sparing_delete kind name)
    fun _ intact => intact.delete kind name

theorem staysPut_clearHeap : (onMemory Memory.clearHeap).Obeys (.staysPut config) :=
  staysPut_onMemory Memory.obeys_clearHeap Memory.sparing_clearHeap fun _ intact => intact.clearHeap

variable [config.IsRoomy]

/-- **What evaluations do where they are stays put.** -/
instance accesses_staysPut : (Conduct.staysPut config).Accesses where
  fails_safe _ _ _ intact := intact.staysPut
  lookup kind name := staysPut_of_leads (usesMemory_changesMemory.lookup kind name)
    fun _ intact => (leads_lookup intact kind name).mono fun _ _ => And.left
  storedScalar? name := staysPut_of_leads
    (usesMemory_changesMemory.storedScalar? usesMemory_changesMemory.lookup name)
    fun _ intact => leads_storedScalar? intact name
  loadFreeCell index := staysPut_of_leads
    ((usesMemory_changesMemory.freeCell index).bind fun _ => usesMemory_changesMemory.numberAt _)
    fun _ intact => leads_loadFreeCell intact index
  loadText name selector := staysPut_of_leads
    (usesMemory_changesMemory.loadText usesMemory_changesMemory.lookup name selector)
    fun _ intact => leads_loadText intact name selector
  definition name := staysPut_of_leads
    (usesMemory_changesMemory.definition usesMemory_changesMemory.lookup name)
    fun _ intact => leads_definition intact name
  moves_registers _ _ _ _ _ _ _ _ _ _ _ intact :=
    ⟨intact.of_same rfl rfl, ⟨rfl, rfl⟩, rfl, rfl, rfl, rfl, rfl⟩
  fails_full _ intact := intact.staysPut
  fails_empty _ intact := intact.staysPut

instance makes_staysPut : (Conduct.staysPut config).Makes where
  allocateBuffer name size := staysPut_of_leads
    (usesMemory_changesMemory.allocate .buffer name size)
    fun _ intact => (leads_allocate intact .buffer name size).mono fun _ _ made =>
      let ⟨_, is, _, _, holds⟩ := made
      holds.isIntact (HeapRecord.isWellFormed_of_buffer is.1)
  loadElement name row column := staysPut_of_leads
    (usesMemory_changesMemory.makes.loadElement name row column)
    fun _ intact => leads_loadElement intact name row column

theorem staysPut_storeScalar (name : Name) (value : Single) :
    (storeScalar name value).Obeys (.staysPut config) :=
  staysPut_of_leads (usesMemory_changesMemory.storeScalar name value)
    fun _ intact => leads_storeScalar intact name value

/-- **What statements do to variables stays put.** -/
instance edits_staysPut : (Conduct.staysPut config).Edits where
  storeFunction name entry parameter _ goesOn := by
    rw [storeFunction_eq_bind]
    exact (staysPut_of_leads (usesMemory_changesMemory.storeFunction name entry parameter (.pure _))
      fun _ intact => leads_storeFunction intact name entry parameter).bind fun _ => goesOn
  createArray name rows columns rowsPositive columnsPositive :=
    staysPut_of_leads (usesMemory_changesMemory.createArray name rows columns)
      fun _ intact => leads_createArray intact name rowsPositive columnsPositive
  createString name capacity count positive :=
    staysPut_of_leads (usesMemory_changesMemory.createString name capacity count)
      fun _ intact => leads_createString intact name capacity positive
  storeElement name row column value := staysPut_of_leads
    (usesMemory_changesMemory.edits.storeElement name row column value)
    fun _ intact => leads_storeElement intact name row column value
  storeFreeCell index value := staysPut_of_leads
    (usesMemory_changesMemory.edits.storeFreeCell index value)
    fun _ intact => leads_storeFreeCell intact index value
  storeText name selector source := staysPut_of_leads
    (usesMemory_changesMemory.edits.storeText name selector source)
    fun _ intact => leads_storeText intact name selector source
  delete := staysPut_delete

end Machine

/-! ### Lines that are remembered -/

/-- Whether the heap of a machine is intact, and the lines are where they are remembered. -/
structure Machine.Remembers (config : Config) (machine : Machine) : Prop where
  intact : machine.IsIntact config
  truly : machine.memory.TellsTruly

/-- What keeps the lines where they are remembered. -/
def Conduct.remembers (config : Config) : Conduct Machine :=
  .keeps (Machine.Remembers config)

namespace Machine

open Conduct (remembers)

variable {α : Type} {config : Config} {machine : Machine}

theorem Remembers.of_same {after : Machine} (remembers : machine.Remembers config)
    (sameConfig : after.config = machine.config) (sameMemory : after.memory = machine.memory) :
    after.Remembers config :=
  ⟨remembers.intact.of_same sameConfig sameMemory, sameMemory ▸ remembers.truly⟩

theorem Remembers.of_staysPut {after : Machine} (remembers : machine.Remembers config)
    (stays : machine.StaysPut config after) : after.Remembers config :=
  ⟨stays.intact, remembers.truly.of_same stays.slots stays.program.program stays.program.size⟩

theorem refines_remembers : (Conduct.staysPut config).Refines (remembers config) :=
  ⟨fun stays remembers => remembers.of_staysPut (stays remembers.intact),
    fun stays remembers => remembers.of_staysPut (stays remembers.intact)⟩

theorem remembers_onMemory {step : Attempt Memory α}
    (stays : ∀ memory : Memory, memory.IsIntact config.memorySize →
      Memory.StaysIntact config.memorySize (step.runOn memory))
    (truly : ∀ memory : Memory, memory.IsIntact config.memorySize → memory.TellsTruly →
      (step.runOn memory).2.TellsTruly) : (onMemory step).Obeys (remembers config) := by
  intro machine
  rcases ran : step.runOn machine.memory with ⟨failure | value, edited⟩
  · refine Attempt.obeysFrom_of_error (runOn_onMemory_of ran) fun before => ?_
    have kept := (stays machine.memory before.intact.memory).1
    have tells := truly machine.memory before.intact.memory before.truly
    rw [ran] at kept tells
    exact ⟨⟨before.intact.config_eq, kept⟩, tells⟩
  · refine Attempt.obeysFrom_of_ok (runOn_onMemory_of ran) fun before => ?_
    have kept := (stays machine.memory before.intact.memory).1
    have tells := truly machine.memory before.intact.memory before.truly
    rw [ran] at kept tells
    exact ⟨⟨before.intact.config_eq, kept⟩, tells⟩

theorem remembers_jump {place : Location} (remembers : machine.Remembers config) :
    (jump place machine).Remembers config := by
  rw [jump, nextToken_eq]
  exact remembers.of_same rfl rfl

instance evaluates_remembers [config.IsRoomy] : (remembers config).Evaluates where
  toAccesses := refines_remembers.accesses
  fails_stalled _ := id
  moves_next machine before := by
    rw [nextToken_eq]
    exact before.of_same rfl rfl
  toMakes := refines_remembers.makes
  moves_excursion _ first second before :=
    remembers_jump (second (remembers_jump (first before)))
  fails_excursion _ first second before := second (remembers_jump (first before))
  fails_otherwise := id
  fails_first first second before := second (first before)
  fails_second first second before := second (first before)
  storeScalar name value := (staysPut_storeScalar name value).of_refines refines_remembers
  deleteScalar name := (staysPut_delete .scalar name).of_refines refines_remembers

instance jumps_remembers [config.IsRoomy] : (remembers config).Jumps where
  evaluates := evaluates_remembers
  moves_registers shares before := before.of_same shares.config shares.memory
  moves_host _ _ before := before.of_same rfl rfl
  moves_loops _ _ before := before.of_same rfl rfl
  fails_full _ := id
  fails_empty _ := id
  findLine line := remembers_onMemory (fun _ intact => ⟨intact.findLine line, nofun⟩)
    fun _ _ truly => truly.findLine_snd line

instance : (remembers config).StartsStatements := ⟨fun _ before => before.of_same rfl rfl⟩

instance : (remembers config).Idles := ⟨fun _ _ before => before.of_same rfl rfl⟩

instance seeksData_remembers : (remembers config).SeeksData :=
  ⟨fun _ _ before => before.of_same rfl rfl⟩

instance setsTimer_remembers (repeats : Bool) : (remembers config).SetsTimer repeats :=
  ⟨fun _ _ before => before.of_same rfl rfl⟩

instance : (remembers config).Postpones := ⟨fun _ _ _ before => before.of_same rfl rfl⟩

instance : (remembers config).Diverts where
  moves_returns _ _ before := before.of_same rfl rfl
  fails_full _ := id
  fails_empty _ := id
  moves_pins _ _ before := before.of_same rfl rfl

theorem remembers_clear : clear.Obeys (remembers config) :=
  (staysPut_clearHeap.of_refines refines_remembers).bind fun _ =>
    .modify fun _ before => before.of_same rfl rfl

/-- **Editing the program forgets the lines**, or finds them where they were. -/
instance editsProgram_remembers : (remembers config).EditsProgram where
  clearProgram := remembers_onMemory (fun _ intact => intact.clearProgram)
    fun _ intact truly => Access.tellsTruly_leave intact.isHeld truly .clearProgram
  loadProgram image := remembers_onMemory (fun _ intact => intact.loadProgram image)
    fun _ intact truly => Access.tellsTruly_leave intact.isHeld truly (.loadProgram image)
  storeLine line body := remembers_onMemory (fun _ intact => intact.storeLine line body)
    fun _ intact truly => Access.tellsTruly_leave intact.isHeld truly (.storeLine line body)

/-- **What statements are made of keeps the lines where they are remembered**, but for `POKE`. -/
instance executes_remembers [config.IsRoomy] : (remembers config).Executes where
  toEdits := refines_remembers.edits
  toEditsProgram := editsProgram_remembers
  refused := [.poke]
  jumps := jumps_remembers
  seeks := seeksData_remembers
  timers := setsTimer_remembers
  clear := remembers_clear
  call _ := obeys_pushReturn _
  comeBack := obeys_returnStatement
  moves_pins _ _ _ before := before.of_same rfl rfl
  poke notRefused := absurd (List.mem_singleton_self _) notRefused
  holdPins _ := .modify fun _ before => before.of_same rfl rfl
  clearReturns _ _ before := before.of_same rfl rfl

theorem recovers_remembers : (remembers config).Recovers := id

theorem remembers_executeWithout [config.IsRoomy] (cycles : Nat) :
    (executeWithout [.poke] cycles).Obeys (remembers config) := by
  rw [executeWithout_eq, stepWithout, refusingErrors_eq (by decide)]
  refine obeys_executeBy recovers_remembers ?_ (fun _ before => before.of_same rfl rfl) cycles
  exact @obeys_stepRefusing _ _ inferInstance executes_remembers (.refl _) obeys_servePins

theorem remembers_start (config : Config) (host : Host) : (start config host).Remembers config :=
  ⟨isIntact_start config host, fun _ has => absurd has LineCache.not_has_empty⟩

theorem Remembers.after {step : Action α} (before : machine.Remembers config)
    (obeys : step.Obeys (remembers config)) : (step.runOn machine).2.Remembers config :=
  holds_after obeys before

/-- **Without `POKE` the lines are where they are remembered**, wherever a host brings a machine. -/
theorem Reaches.remembers [config.IsRoomy] {host : Host}
    (reaches : Reaches [.poke] (start config host) machine) : machine.Remembers config := by
  induction reaches with
  | refl => exact remembers_start config host
  | devices host _ ih => exact ih.of_same rfl rfl
  | enter text _ ih => exact ih.after (obeys_enter recovers_remembers text)
  | execute _ ran ih => exact (remembers_executeWithout _ _).moves ran ih
  | autorun _ ih => exact ih.after (obeys_autorun remembers_clear)
  | restart _ ih =>
    rw [Machine.restart, ih.intact.config_eq]
    exact remembers_start config _

end Machine

end PocketBasic
