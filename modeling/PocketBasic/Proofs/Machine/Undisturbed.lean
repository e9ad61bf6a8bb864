/-
**Expressions leave memory undisturbed.** The only objects that an evaluation leaves behind are
arrays that were not dimensioned and buffers, all of them in front of the objects that were there. A
user function gives its parameter a value for a while, in a scalar that it makes or overwrites; when
its expression is done, or has failed, that scalar is gone or as it was, however functions are
nested.

* `Memory.Grows`: the program stays, and so do the objects, but for new ones in front of them;
* `HeapRecord.Shadows`: the objects while a parameter has the value of an argument;
* `Machine.binds_parameter`, `Machine.unbinds_parameter`: giving a parameter its value, and taking
  it back behind whatever was made in between;
* **`Machine.calls_growsHeap`**: user functions only let memory grow;
* **`Machine.expressions_leave_memory`**: so do all expressions, in every run without `POKE`.
-/

import PocketBasic.Proofs.Machine.HeapIntegrity
import PocketBasic.Proofs.Machine.Objects

namespace PocketBasic

variable {width : AddressWidth} {α : Type}

/-! ### Memory that grows -/

/-- Whether an object is of a kind that expressions make and keep. -/
def HeapRecord.IsArrayOrBuffer (record : HeapRecord width) : Prop :=
  record.kind = .array ∨ record.kind = .buffer

namespace Memory

/-- Whether the program of a memory stayed, and some objects, but for new arrays and buffers in
front of them. -/
structure GrownOver (records : List (HeapRecord width)) (memory edited : Memory) : Prop where
  program : KeepsProgram memory edited
  objects : ∃ newer : List (HeapRecord width), edited.HoldsObjects (newer ++ records) ∧
    ∀ record ∈ newer, record.IsArrayOrBuffer

/-- Whether the program and the objects of a memory stayed, but for new arrays and buffers. -/
def Grows (memory edited : Memory) : Prop :=
  ∀ (width : AddressWidth) (records : List (HeapRecord width)), memory.HoldsObjects records →
    memory.top ≤ memory.himem → GrownOver records memory edited

variable {memory edited final : Memory} {records : List (HeapRecord width)}

theorem GrownOver.of_held (program : KeepsProgram memory edited)
    (held : edited.HoldsObjects records) : GrownOver records memory edited :=
  ⟨program, [], held, nofun⟩

theorem Grows.refl (memory : Memory) : memory.Grows memory :=
  fun _ _ held tops => .of_held ⟨rfl, rfl, rfl, tops⟩ held

theorem Grows.trans (first : memory.Grows edited) (second : edited.Grows final) :
    memory.Grows final := by
  intro width records held tops
  obtain ⟨program, newer, grown, extra⟩ := first width records held tops
  obtain ⟨again, newest, further, more⟩ := second width _ grown program.below
  exact ⟨program.trans again, newest ++ newer, by rwa [List.append_assoc],
    List.forall_mem_append.mpr ⟨more, extra⟩⟩

/-- What is found stays where it is. -/
theorem GrownOver.scan? (grown : GrownOver records memory edited)
    (held : memory.HoldsObjects records) {kind : ObjectKind} {name : Name} {payload : Extent}
    (found : memory.scan? kind name = some payload) : edited.scan? kind name = some payload := by
  obtain ⟨program, newer, kept, -⟩ := grown
  rw [held.scan?_eq] at found
  rw [kept.scan?_eq, program.size]
  exact HeapRecord.locate?_append_of_new (List.pairwise_append.mp kept.distinct).2.2 found

/-- Without a new array or buffer, the objects are those that were there. -/
theorem GrownOver.holds (grown : GrownOver records memory edited)
    (held : memory.HoldsObjects records)
    (none : ∀ kind name, kind = .array ∨ kind = .buffer → memory.scan? kind name = none →
      edited.scan? kind name = none) : edited.HoldsObjects records := by
  obtain ⟨program, newer, kept, extra⟩ := grown
  rcases newer with _ | ⟨record, rest⟩
  · exact kept
  have new := (List.pairwise_append.mp kept.distinct).2.2 record (List.mem_cons_self ..)
  have gone : memory.scan? record.kind record.name = Option.none := by
    rw [held.scan?_eq]
    exact HeapRecord.locate?_eq_none new
  have there := none _ _ (extra record (List.mem_cons_self ..)) gone
  rw [kept.scan?_eq, List.cons_append, HeapRecord.locate?, if_pos ⟨rfl, rfl⟩] at there
  cases there

theorem grows_find (memory : Memory) (kind : ObjectKind) (name : Name) :
    memory.Grows (memory.find kind name).2 := by
  intro width records held tops
  obtain ⟨recent, same⟩ := HoldsObjects.find_snd memory kind name
  exact .of_held (same ▸ keepsProgram_of_recent tops recent) (held.find kind name)

theorem grows_allocate (memory : Memory) {kind : ObjectKind} (kept : kind = .array ∨ kind = .buffer)
    (name : Name) (size : Nat) : memory.Grows ((allocate kind name size).runOn memory).2 := by
  intro width records held tops
  rcases ran : (allocate kind name size).runOn memory with ⟨failure | start, edited⟩
  · obtain ⟨same, program⟩ := held.allocate_failed tops ran
    exact .of_held program same
  · obtain ⟨record, is, -, -, -, made, program, -⟩ := held.exists_allocated tops ran
    exact ⟨program, [record], made, by simpa [HeapRecord.IsArrayOrBuffer, is.1] using kept⟩

end Memory

/-! ### Steps that only let memory grow -/

/-- Whether a failure is an error of the language. -/
def Failure.IsReported : Failure → Prop
  | .reported _ => True
  | .fault | .zeroDivisor | .stalled => False

/-- Whether a step ended in a value or in an error of the language. -/
def Told (result : Except Failure α) : Prop :=
  ∀ failure, result = .error failure → failure.IsReported

theorem told_ok (value : α) : Told (.ok value) := nofun

theorem told_error {failure : Failure} :
    Told (.error failure : Except Failure α) ↔ failure.IsReported :=
  ⟨fun told => told _ rfl, fun reported _ same => Except.error.inj same ▸ reported⟩

/-- What only lets memory grow, also when it fails with an error of the language. -/
def Conduct.growsHeap : Conduct Machine where
  moves before after := before.memory.Grows after.memory
  fails before failure after := failure.IsReported → before.memory.Grows after.memory
  refl _ := .refl _
  trans first second := first.trans second
  fails_of_moves first second reported := first.trans (second reported)
  fails_moves first second reported := (first reported).trans second

namespace Machine

open Conduct (growsHeap)

variable {machine after : Machine} {records : List (HeapRecord width)} {step : Action α}
  {result : Except Failure α}

theorem growsHeap_of_told (grows : ∀ result after, step.runOn machine = (result, after) →
      Told result → machine.memory.Grows after.memory) : step.ObeysFrom growsHeap machine := by
  rcases ran : step.runOn machine with ⟨failure | value, after⟩
  · exact Attempt.obeysFrom_of_error ran fun reported => grows _ _ ran (told_error.mpr reported)
  · exact Attempt.obeysFrom_of_ok ran (grows _ _ ran (told_ok value))

theorem grows_of_obeysFrom (obeys : step.ObeysFrom growsHeap machine)
    (ran : step.runOn machine = (result, after)) (told : Told result) :
    machine.memory.Grows after.memory := by
  rcases result with failure | value
  · exact obeys.fails ran (told_error.mp told)
  · exact obeys.moves ran

theorem growsHeap_onMemory {step : Attempt Memory α}
    (grows : ∀ memory, Memory.Grows memory (step.runOn memory).2) :
    (onMemory step).Obeys growsHeap := by
  refine fun machine => growsHeap_of_told fun result after ran _ => ?_
  rw [runOn_onMemory, Prod.mk.injEq] at ran
  rw [← ran.2]
  exact grows machine.memory

theorem growsHeap_createArray (name : Name) (rows columns : Nat) :
    (createArray name rows columns).Obeys growsHeap := by
  refine fun machine => growsHeap_of_told fun result after ran _ width records held tops => ?_
  rcases creates_array held tops name rows columns with
    ⟨failure, left, failed, leaves⟩ | ⟨left, record, made, is, -, leaves⟩
  · rw [failed] at ran
    cases ran
    exact .of_held leaves.program leaves.held
  · rw [made] at ran
    cases ran
    exact ⟨leaves.program, [record], leaves.held,
      by simpa [HeapRecord.IsArrayOrBuffer] using Or.inl is.1⟩

theorem mayFail_growsHeap : growsHeap.MayFail := ⟨fun machine _ _ _ => .refl machine.memory⟩

theorem growsHeap_lookup (kind : ObjectKind) (name : Name) :
    (lookup kind name).Obeys growsHeap :=
  growsHeap_onMemory fun memory => memory.grows_find kind name

/-- Evaluations without user functions only let memory grow. -/
instance reads_growsHeap : growsHeap.Reads :=
  mayFail_growsHeap.reads growsHeap_lookup
    ⟨fun _ _ => .refl _⟩ (fun _ _ _ _ _ _ _ _ _ _ _ _ _ => .refl _) (fun _ _ => .refl _)
    fun _ _ => .refl _

end Machine

/-! ### Parameters -/

namespace HeapRecord

/-- The objects while a parameter has the value of an argument, beside the ones before: nothing
changed where there is no parameter or where its name is special, the payload of a scalar changed,
or a scalar was made. -/
inductive Shadows (records : List (HeapRecord width)) :
    Option (Name × Option Single) → List (HeapRecord width) → Prop
  | none : Shadows records none records
  | special {name : Name} {old : Option Single} (special : name.isSpecial = true)
    (absent : old = .none → ∀ record ∈ records, ¬ record.Is .scalar name) :
    Shadows records (some (name, old)) records
  | present {newer older : List (HeapRecord width)} {record : HeapRecord width} {name : Name}
    (value : Single) (ordinary : name.isSpecial = false) (is : record.Is .scalar name)
    (same : records = newer ++ record :: older) :
    Shadows records (some (name, some (record.numberAt 0)))
      (newer ++ record.written 0 value.toBytes :: older)
  | absent {record : HeapRecord width} {name : Name} (is : record.Is .scalar name) :
    Shadows records (some (name, .none)) (record :: records)

theorem dropThrough?_append_cons {kind : ObjectKind} {name : Name}
    {newer older : List (HeapRecord width)} {record : HeapRecord width}
    (before : ∀ other ∈ newer, ¬ other.Is kind name) (is : record.Is kind name) :
    dropThrough? kind name (newer ++ record :: older) = some older := by
  induction newer with
  | nil => rw [List.nil_append, dropThrough?, if_pos is]
  | cons other rest ih =>
    obtain ⟨first, others⟩ := List.forall_mem_cons.mp before
    rw [List.cons_append, dropThrough?, if_neg first, ih others]

theorem IsArrayOrBuffer.not_scalar {record : HeapRecord width} (kept : record.IsArrayOrBuffer)
    (name : Name) : ¬ record.Is .scalar name := by
  rintro ⟨scalar, -⟩
  rcases kept with array | buffer
  · exact absurd (scalar.symm.trans array) nofun
  · exact absurd (scalar.symm.trans buffer) nofun

end HeapRecord

namespace Machine

open Conduct (growsHeap)

variable {config : Config} {machine after : Machine} {records : List (HeapRecord width)}

/-- What a scalar was before it is assigned to. -/
structure WasScalar (records : List (HeapRecord width)) (name : Name) (old : Option Single) :
    Prop where
  absent : old = none → ∀ record ∈ records, ¬ record.Is .scalar name
  present : ∀ number, old = some number → ∃ newer older, ∃ record : HeapRecord width,
    records = newer ++ record :: older ∧ record.Is .scalar name ∧ number = record.numberAt 0

theorem reads_scalar (held : machine.memory.HoldsObjects records) (name : Name) :
    ∃ old, (storedScalar? name).runOn machine = (.ok old, machine.foundIn .scalar name) ∧
      WasScalar records name old := by
  by_cases absent : ∀ record ∈ records, ¬ record.Is .scalar name
  · exact ⟨none, runOn_storedScalar?_absent held absent, fun _ => absent, nofun⟩
  · push Not at absent
    obtain ⟨record, among, is⟩ := absent
    obtain ⟨newer, older, rfl⟩ := List.append_of_mem among
    refine ⟨_, runOn_storedScalar? held among is, nofun, fun number same => ?_⟩
    exact ⟨newer, older, record, rfl, is, (Option.some.inj same).symm⟩

theorem memory_writeByte (byte : UInt8) (machine : Machine) :
    ((writeByte byte).runOn machine).2.memory = machine.memory := by
  rw [writeByte, Attempt.runOn_get_bind, Attempt.runOn_bind_ok (runOn_onHost _ _),
    Attempt.runOn_ite]
  split <;> rfl

/-- Views of the machine are no objects. -/
theorem memory_setSpecial (letter : UInt8) (value : Single) (machine : Machine) :
    ((setSpecial letter value).runOn machine).2.memory = machine.memory := by
  unfold setSpecial Range.channel
  split_ifs <;> first | rfl | exact memory_writeByte _ _

/-- Assigning to a parameter shadows a scalar, or fails and leaves the objects alone. -/
theorem sets_parameter (held : machine.memory.HoldsObjects records)
    (tops : machine.memory.top ≤ machine.memory.himem) {parameter : Name} {old : Option Single}
    (was : WasScalar records parameter old) {value : Single} {result : Except Failure Unit}
    (ran : (setScalar parameter value).runOn machine = (result, after)) :
    Memory.KeepsProgram machine.memory after.memory ∧
      match result with
      | .ok _ => ∃ shadowed, HeapRecord.Shadows records (some (parameter, old)) shadowed ∧
          after.memory.HoldsObjects shadowed
      | .error _ => after.memory.HoldsObjects records := by
  by_cases special : parameter.isSpecial = true
  · have same := memory_setSpecial parameter.second value machine
    rw [setScalar, if_pos special] at ran
    rw [ran] at same
    rw [show after.memory = machine.memory from same]
    refine ⟨⟨rfl, rfl, rfl, tops⟩, ?_⟩
    cases result with
    | ok _ => exact ⟨_, .special special was.absent, held⟩
    | error _ => exact held
  rw [setScalar, if_neg special] at ran
  rw [Bool.not_eq_true] at special
  cases old with
  | none =>
    rcases stores_absent held tops (was.absent rfl) value with
      ⟨failure, left, failed, leaves, -⟩ | ⟨left, record, made, is, -, leaves⟩
    · rw [failed] at ran
      cases ran
      exact ⟨leaves.program, leaves.held⟩
    · rw [made] at ran
      cases ran
      exact ⟨leaves.program, _, .absent is, leaves.held⟩
  | some number =>
    obtain ⟨newer, older, record, rfl, is, rfl⟩ := was.present _ rfl
    obtain ⟨left, stored, leaves⟩ := stores_present held tops is value
    rw [stored] at ran
    cases ran
    exact ⟨leaves.program, _, .present value special is rfl, leaves.held⟩

/-- **Giving a parameter its value** shadows a scalar, or fails and leaves the objects alone. -/
theorem binds_parameter (held : machine.memory.HoldsObjects records)
    (tops : machine.memory.top ≤ machine.memory.himem) {parameter : Name}
    {argument : Option Single} {result : Except Failure (Option (Name × Option Single))}
    (ran : (Evaluator.bindParameter parameter argument).runOn machine = (result, after)) :
    Memory.KeepsProgram machine.memory after.memory ∧
      match result with
      | .ok bound => ∃ shadowed,
          HeapRecord.Shadows records bound shadowed ∧ after.memory.HoldsObjects shadowed
      | .error _ => after.memory.HoldsObjects records := by
  have still : Memory.KeepsProgram machine.memory machine.memory := ⟨rfl, rfl, rfl, tops⟩
  cases argument with
  | none =>
    rw [Evaluator.bindParameter, Attempt.runOn_ite] at ran
    split at ran <;> cases ran
    · exact ⟨still, records, .none, held⟩
    · exact ⟨still, held⟩
  | some value =>
    rw [Evaluator.bindParameter, Attempt.runOn_ite] at ran
    split at ran
    · cases ran
      exact ⟨still, held⟩
    obtain ⟨old, read, was⟩ := reads_scalar held parameter
    have program := keepsProgram_foundIn tops .scalar parameter
    have found := holdsObjects_foundIn held .scalar parameter
    rw [Attempt.runOn_bind_ok read] at ran
    rcases set : (setScalar parameter value).runOn (machine.foundIn .scalar parameter) with
      ⟨failure | ⟨⟩, left⟩
    · rw [Attempt.runOn_bind_error set] at ran
      cases ran
      obtain ⟨again, kept⟩ := sets_parameter found program.below was set
      exact ⟨program.trans again, kept⟩
    · rw [Attempt.runOn_bind_ok set] at ran
      cases ran
      obtain ⟨again, shadowed⟩ := sets_parameter found program.below was set
      exact ⟨program.trans again, shadowed⟩

/-- Taking the value back from a special name leaves memory alone. -/
theorem unbinds_special {name : Name} {old : Option Single} (special : name.isSpecial = true)
    (held : machine.memory.HoldsObjects records) (tops : machine.memory.top ≤ machine.memory.himem)
    (absent : old = none → ∀ record ∈ records, ¬ record.Is .scalar name)
    {result : Except Failure Unit}
    (ran : (Evaluator.unbindParameter (some (name, old))).runOn machine = (result, after)) :
    after.memory = machine.memory := by
  cases old with
  | none =>
    have deleted := held.delete tops .scalar name
    rw [HeapRecord.locate?_eq_none_iff.mp
      (HeapRecord.locate?_eq_none (absent rfl) : HeapRecord.locate? 0 .scalar name _ = none)]
      at deleted
    rw [Evaluator.unbindParameter, Attempt.runOn_bind_ok (runOn_onMemory_of deleted)] at ran
    cases ran
    rfl
  | some number =>
    rw [Evaluator.unbindParameter, setScalar, if_pos special] at ran
    have same := memory_setSpecial name.second number machine
    rwa [ran] at same

/-- A scalar that was there before gets its number back. -/
theorem restores_present {newer older : List (HeapRecord width)} {record : HeapRecord width}
    {name : Name} (ordinary : name.isSpecial = false) (is : record.Is .scalar name) (value : Single)
    (held : machine.memory.HoldsObjects (newer ++ record.written 0 value.toBytes :: older))
    (tops : machine.memory.top ≤ machine.memory.himem) :
    ∃ after, (Evaluator.unbindParameter (some (name, some (record.numberAt 0)))).runOn machine =
        (.ok (), after) ∧
      machine.LeftWith after (newer ++ record :: older) := by
  obtain ⟨after, stored, leaves⟩ := stores_present held tops (HeapRecord.is_written.mpr is)
    (record.numberAt 0)
  rw [HeapRecord.written_numberAt (by rw [record.number is.1]; exact Nat.le_refl _)] at leaves
  refine ⟨after, ?_, leaves⟩
  rw [Evaluator.unbindParameter, setScalar, ordinary, if_neg Bool.false_ne_true, stored]

/-- A scalar that was made for a parameter is dropped, with the arrays and buffers that were made in
the meantime. -/
theorem restores_absent {newer : List (HeapRecord width)} {record : HeapRecord width} {name : Name}
    (is : record.Is .scalar name) (held : machine.memory.HoldsObjects (newer ++ record :: records))
    (extra : ∀ record ∈ newer, record.IsArrayOrBuffer)
    (tops : machine.memory.top ≤ machine.memory.himem) :
    ∃ after, (Evaluator.unbindParameter (some (name, none))).runOn machine = (.ok (), after) ∧
      machine.LeftWith after records := by
  have deleted := held.delete tops .scalar name
  rw [HeapRecord.dropThrough?_append_cons
    (fun record among => (extra record among).not_scalar name) is] at deleted
  obtain ⟨edited, dropped, kept, program⟩ := deleted
  refine ⟨{ machine with memory := edited }, ?_, rfl, kept, program⟩
  rw [Evaluator.unbindParameter, Attempt.runOn_bind_ok (runOn_onMemory_of dropped)]
  rfl

/-- **Taking the value back** restores the objects, also behind arrays and buffers that were made in
the meantime; no others are left. -/
theorem unbinds_parameter {bound : Option (Name × Option Single)}
    {newer shadowed : List (HeapRecord width)} (shadows : HeapRecord.Shadows records bound shadowed)
    (held : machine.memory.HoldsObjects (newer ++ shadowed))
    (extra : ∀ record ∈ newer, record.IsArrayOrBuffer)
    (tops : machine.memory.top ≤ machine.memory.himem) {result : Except Failure Unit}
    (ran : (Evaluator.unbindParameter bound).runOn machine = (result, after)) :
    Memory.KeepsProgram machine.memory after.memory ∧
      ∃ left ⊆ newer, after.memory.HoldsObjects (left ++ records) := by
  have still : Memory.KeepsProgram machine.memory machine.memory := ⟨rfl, rfl, rfl, tops⟩
  cases shadows with
  | none =>
    cases ran
    exact ⟨still, newer, List.Subset.refl _, held⟩
  | @special name old special absent =>
    have same := unbinds_special special held tops (fun none => List.forall_mem_append.mpr
      ⟨fun record new => (extra record new).not_scalar name, absent none⟩) ran
    rw [same]
    exact ⟨still, newer, List.Subset.refl _, held⟩
  | @present before older record name value ordinary is same =>
    rw [← List.append_assoc] at held
    obtain ⟨left, restored, leaves⟩ := restores_present ordinary is value held tops
    rw [restored] at ran
    cases ran
    have kept := leaves.held
    rw [List.append_assoc, ← same] at kept
    exact ⟨leaves.program, newer, List.Subset.refl _, kept⟩
  | @absent record name is =>
    obtain ⟨left, restored, leaves⟩ := restores_absent is held extra tops
    rw [restored] at ran
    cases ran
    exact ⟨leaves.program, [], List.nil_subset _, leaves.held⟩

/-! ### User functions -/

/-- A step whose errors are caught ends in a result if it ends in a value or in an error of the
language, and fails otherwise. -/
theorem caught_cases (step : Action α) (machine : Machine) :
    (∃ ended caught after, step.runOn machine = (ended, after) ∧ Told ended ∧
      step.caught.runOn machine = (.ok caught, after)) ∨
    ∃ failure after, step.caught.runOn machine = (.error failure, after) ∧
      ¬ failure.IsReported := by
  rw [Attempt.caught, Attempt.runOn_ofRun]
  rcases ran : step.runOn machine with ⟨(error | - | - | -) | value, after⟩
  · exact .inl ⟨_, _, _, rfl, told_error.mpr trivial, rfl⟩
  · exact .inr ⟨_, _, rfl, id⟩
  · exact .inr ⟨_, _, rfl, id⟩
  · exact .inr ⟨_, _, rfl, id⟩
  · exact .inl ⟨_, _, _, rfl, told_ok _, rfl⟩

/-- Both steps of a recovery were done, if it ended in a value or in an error of the language. -/
theorem recover_told {first last : Action Unit} {result : Except Failure Unit}
    (ran : (Evaluator.Obeys.recover first last).runOn machine = (result, after))
    (told : Told result) :
    ∃ ended middle restored, first.runOn machine = (ended, middle) ∧ Told ended ∧
      last.runOn middle = (restored, after) ∧ Told restored := by
  rw [Evaluator.Obeys.recover] at ran
  rcases caught_cases first machine with
    ⟨ended, caught, middle, firstRan, firstTold, began⟩ | ⟨failure, left, failed, silent⟩
  swap
  · rw [Attempt.runOn_bind_error failed] at ran
    cases ran
    exact (silent (told_error.mp told)).elim
  rw [Attempt.runOn_bind_ok began] at ran
  rcases caught_cases last middle with
    ⟨restored, again, final, lastRan, lastTold, ended'⟩ | ⟨failure, left, failed, silent⟩
  swap
  · rw [Attempt.runOn_bind_error failed] at ran
    cases ran
    exact (silent (told_error.mp told)).elim
  rw [Attempt.runOn_bind_ok ended'] at ran
  -- What was caught is told again, which changes nothing.
  have same : final = after := by
    cases caught <;> cases again <;> cases ran <;> rfl
  exact ⟨ended, middle, restored, firstRan, firstTold, same ▸ lastRan, lastTold⟩

theorem memory_jump (place : Location) (machine : Machine) :
    (jump place machine).memory = machine.memory := by
  rw [jump, nextToken_eq]

/-- While a parameter has the value of an argument, an expression and what takes the value back only
let memory grow over the objects that were there before. -/
theorem grows_recover {body : Action Unit} (obeys : body.Obeys growsHeap)
    {bound : Option (Name × Option Single)} {shadowed : List (HeapRecord width)}
    (shadows : HeapRecord.Shadows records bound shadowed)
    (held : machine.memory.HoldsObjects shadowed)
    (tops : machine.memory.top ≤ machine.memory.himem) {result : Except Failure Unit}
    (ran : (Evaluator.Obeys.recover body (Evaluator.unbindParameter bound)).runOn machine =
      (result, after)) (told : Told result) :
    Memory.GrownOver records machine.memory after.memory := by
  obtain ⟨ended, middle, restored, bodyRan, bodyTold, lastRan, -⟩ := recover_told ran told
  obtain ⟨program, newer, kept, extra⟩ :=
    grows_of_obeysFrom (obeys machine) bodyRan bodyTold _ _ held tops
  obtain ⟨again, left, among, final⟩ := unbinds_parameter shadows kept extra program.below lastRan
  exact ⟨program.trans again, left, final, fun record found => extra record (among found)⟩

/-- **A call of a user function only lets memory grow**, if its expression does. -/
theorem growsHeap_call {deeper : Evaluator} (obeys : deeper.Obeys growsHeap) (entry : Nat)
    (parameter : Name) (argument : Option Single) :
    (Evaluator.Obeys.call deeper entry parameter argument).Obeys growsHeap := by
  refine fun machine => growsHeap_of_told fun result after ran told width records held tops => ?_
  have here : location.runOn machine = (.ok machine.cursor.location, machine) := rfl
  rw [Evaluator.Obeys.call, Attempt.runOn_bind_ok here] at ran
  rcases bind : (Evaluator.bindParameter parameter argument).runOn machine with
    ⟨failure | bound, began⟩
  · rw [Attempt.runOn_bind_error bind] at ran
    cases ran
    obtain ⟨program, kept⟩ := binds_parameter held tops bind
    exact .of_held program kept
  obtain ⟨program, shadowed, shadows, kept⟩ := binds_parameter held tops bind
  rw [Attempt.runOn_bind_ok bind, moveTo, Attempt.runOn_modify_bind] at ran
  have goesOn {place : Location} {result : Except Failure Unit} {left : Machine}
      (ran : (Evaluator.Obeys.recover deeper.functionBody
        (Evaluator.unbindParameter bound)).runOn (jump place began) = (result, left))
      (told : Told result) : Memory.GrownOver records machine.memory left.memory := by
    have same := memory_jump place began
    obtain ⟨again, grown⟩ := grows_recover obeys.functionBody shadows (same ▸ kept)
      (same ▸ program.below) ran told
    rw [same] at again
    exact ⟨program.trans again, grown⟩
  rw [Attempt.runOn_bind_eq_goOn] at ran
  generalize recovered : (Evaluator.Obeys.recover deeper.functionBody
    (Evaluator.unbindParameter bound)).runOn _ = reached at ran
  rcases reached with ⟨failure | ⟨⟩, left⟩
  · cases ran
    exact goesOn recovered (told_error.mpr (told_error.mp told))
  · rw [Attempt.goOn_ok, moveTo, Attempt.runOn_modify] at ran
    cases ran
    rw [memory_jump]
    exact goesOn recovered (told_ok ())

/-- **User functions only let memory grow**, however they are nested. -/
instance calls_growsHeap : growsHeap.Calls where
  reads := reads_growsHeap
  allocateBuffer _ name size :=
    growsHeap_onMemory fun memory => memory.grows_allocate (.inr rfl) name size
  loadElement name row column _ _ :=
    (mayFail_growsHeap.elementAddress growsHeap_lookup growsHeap_createArray name row column).bind
      fun _ => mayFail_growsHeap.numberAt _
  userFunction _ _ obeys := obeys.userFunction_of_call (growsHeap_call obeys)

/-! ### Expressions -/

/-- **Expressions leave memory undisturbed.** Wherever a host brings the machine, also in the middle
of a statement, whatever text is read and whatever functions are defined: an expression that ends in
a value or in an error of the language leaves the program and its end as they were, and every object
at its place with its bytes. Objects that it leaves behind are arrays and buffers below the others;
when there is no new one of these, the start of the heap and the number of objects are what they
were. -/
theorem expressions_leave_memory [config.IsSound] {host : Host} {machine after : Machine}
    (underway : Underway config host machine) {step : Action α} (reads : ReadsExpression step)
    {result : Except Failure α} (ran : step.runOn machine = (result, after)) (told : Told result) :
    after.memory.top = machine.memory.top ∧
    after.memory.contents.take machine.memory.top =
      machine.memory.contents.take machine.memory.top ∧
    after.memory.himem ≤ machine.memory.himem ∧
    after.memory.contents.drop machine.memory.himem =
      machine.memory.contents.drop machine.memory.himem ∧
    (∀ kind name payload, machine.memory.scan? kind name = some payload →
      after.memory.scan? kind name = some payload) ∧
    ((∀ kind name, kind = .array ∨ kind = .buffer → machine.memory.scan? kind name = none →
        after.memory.scan? kind name = none) →
      after.memory.himem = machine.memory.himem ∧
        after.memory.objects = machine.memory.objects) := by
  have intact := underway.isIntact
  obtain ⟨records, held, -⟩ := intact.memory.objects
  have grown := grows_of_obeysFrom (reads.obeys _) ran told _ records held intact.memory.below
  have ⟨program, newer, kept, _⟩ := grown
  have before := held.size_eq
  have behind := kept.size_eq
  have same := program.size
  have front := kept.length_below
  rw [HeapRecord.image_append, List.length_append] at behind
  refine ⟨program.top, ?_, ?_, ?_, fun _ _ _ found => grown.scan? held found, fun none => ?_⟩
  · have bytes := program.program
    rwa [program.top] at bytes
  · omega
  · rw [held.heap, kept.contents_eq, HeapRecord.image_append, ← List.append_assoc]
    refine List.drop_left' ?_
    rw [List.length_append, front]
    omega
  · have alone := grown.holds held none
    have := alone.size_eq
    exact ⟨by omega, alone.objects.trans held.objects.symm⟩

/-- A function whose parameter hides a variable, called inside its own argument: its array is the
only object that is left, and the variable is where it was. -/
theorem expressions_leave_memory_call :
    let config : Config := { memorySize := 80, arraySize := 1 }
    let typed := ((enter (ascii "10 Y=7:DEF FN B(Y)=Y+A(1)")).runOn (start config {})).2
    let machine := ((execute 4).runOn ((enter (ascii "RUN")).runOn typed).2).2
    let called := { machine with cursor := ((enter (ascii "FNB(FNB(3))")).runOn machine).2.cursor }
    let after := (value.runOn called).2
    Reaches [.poke] (start config {}) machine ∧
      (value.runOn called).1 = .ok (Single.ofNat 3) ∧
      after.memory.objects = machine.memory.objects + 1 ∧
      machine.memory.scan? .scalar ⟨89, 0⟩ = some { start := 76, length := 4 } ∧
      after.memory.scan? .scalar ⟨89, 0⟩ = some { start := 76, length := 4 } := by
  intro config typed machine called after
  have sound : config.IsSound := ⟨by decide, by decide⟩
  have seen : ((executeWithout [.poke] 4).runOn
        ((enter (ascii "RUN")).runOn typed).2).1.toOption.isSome = true ∧
      (value.runOn called).1 = .ok (Single.ofNat 3) ∧
      after.memory.objects = machine.memory.objects + 1 ∧
      machine.memory.scan? .scalar ⟨89, 0⟩ = some { start := 76, length := 4 } := by
    decide +kernel
  obtain ⟨goesOn, ended, objects, there⟩ := seen
  have reaches : Reaches [.poke] (start config {}) machine :=
    .execute_of_isSome (.enter _ (.enter _ .refl)) goesOn
  have undisturbed := expressions_leave_memory (.moved _ (.reached reaches)) .value
    (Prod.ext ended rfl) (told_ok _)
  exact ⟨reaches, ended, objects, there, undisturbed.2.2.2.2.1 _ _ _ there⟩

/-- Where arrays that are made by themselves have no elements, a subscript that is no number breaks
the header of another object, and the end of a user function counts the objects anew. -/
theorem objects_vanish_without_elements :
    let config : Config := { memorySize := 88, arraySize := 0 }
    let typed := ((enter (ascii "10 X=1:A(VAL(\"NAN\"))=0:DEF FN B(Y)=Y")).runOn
      (start config {})).2
    let machine := ((execute 5).runOn ((enter (ascii "RUN")).runOn typed).2).2
    let called := ((enter (ascii "FNB(2)")).runOn machine).2.cursor
    machine.memory.objects = 3 ∧
      (value.runOn { machine with cursor := called }).1 = .ok (Single.ofNat 2) ∧
      (value.runOn { machine with cursor := called }).2.memory.objects = 2 := by
  decide +kernel

end Machine

end PocketBasic
