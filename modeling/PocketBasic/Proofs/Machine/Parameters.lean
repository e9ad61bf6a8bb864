/-
**Parameters are local names.** While the expression of a user function is evaluated, its parameter
has the value of the argument and everything else is as the caller has it; afterwards the parameter
is what it was.

* `Memory.object?`: an object as it can be read, by its place and its bytes;
* `Machine.IsLasting`: what is read the same, however much of memory is free;
* `Machine.BindsOver`: a machine in which a parameter has a value, beside the machine of the caller;
* `Machine.binds_ordinary`: giving an ordinary parameter its value succeeds, unless there is no room
  for it;
* `Machine.restores_ordinary`: taking the value back succeeds;
* **`Machine.parameters_are_local`**: calls of user functions, however they are nested;
* `Machine.parameter_outlives_call`: a parameter that is a view of the machine is not taken back.
-/

import PocketBasic.Proofs.Machine.Undisturbed
import PocketBasic.Proofs.Machine.Variables

namespace PocketBasic

variable {width : AddressWidth} {α : Type}

/-! ### Objects beside a parameter -/

namespace Memory

/-- An object as it can be read: where its payload is, and the bytes of it. -/
def object? (memory : Memory) (kind : ObjectKind) (name : Name) : Option (Extent × Bytes) := do
  let payload ← memory.scan? kind name
  return (payload, ← memory.read? payload.start payload.length)

variable {memory edited : Memory} {records changed : List (HeapRecord width)} {kind : ObjectKind}
  {name : Name}

/-- An object of the list is read as its payload. -/
theorem HoldsObjects.object?_of_mem (held : memory.HoldsObjects records)
    {record : HeapRecord width} (among : record ∈ records) (is : record.Is kind name) :
    memory.object? kind name = (HeapRecord.locate? memory.size kind name records).map
      fun payload => (payload, record.payload) := by
  obtain ⟨rfl, rfl⟩ := is
  obtain ⟨payload, -, -, found, -, -, long⟩ := held.exists_cut among
  have read := held.read?_piece among found
    (show 0 + record.payload.length ≤ record.payload.length by omega)
  have located := (held.find_eq _ _).symm.trans found
  have whole : record.piece 0 record.payload.length = record.payload := List.take_length
  rw [Nat.add_zero, ← long, long, whole] at read
  rw [object?, held.scan?_eq, located]
  simp only [Option.bind_eq_bind, Option.bind_some, long, read, Option.map_some]
  rfl

end Memory

namespace HeapRecord

/-- Whether two lists have the same objects at the same places, but for a scalar. -/
structure AgreesBeside (parameter : Name) (records changed : List (HeapRecord width)) : Prop where
  located : ∀ size kind name, ¬ (kind = .scalar ∧ name = parameter) →
    locate? size kind name changed = locate? size kind name records
  among : ∀ record : HeapRecord width, ¬ record.Is .scalar parameter →
    (record ∈ changed ↔ record ∈ records)

namespace AgreesBeside

variable {parameter : Name} {records newer older : List (HeapRecord width)}
  {record : HeapRecord width}

/-- Another number in the scalar. -/
theorem of_written (before : ∀ other ∈ newer, ¬ other.Is .scalar parameter)
    (is : record.Is .scalar parameter) (data : Bytes) :
    AgreesBeside parameter (newer ++ record :: older)
      (newer ++ record.written 0 data :: older) where
  located size kind name _ := by
    have same :=
      locate?_overwrite size .scalar parameter 0 data (newer ++ record :: older) kind name
    rwa [overwrite_append before is] at same
  among other different := by
    have one : other ≠ record.written 0 data := fun same =>
      different (same ▸ is_written.mpr is)
    have two : other ≠ record := fun same => different (same ▸ is)
    simp only [List.mem_append, List.mem_cons, one, two, false_or]

/-- A new scalar in front of all objects. -/
theorem of_cons (is : record.Is .scalar parameter) :
    AgreesBeside parameter records (record :: records) where
  located size kind name different := by
    refine if_neg ?_
    rintro ⟨rfl, rfl⟩
    exact different is
  among other different := by
    have one : other ≠ record := fun same => different (same ▸ is)
    simp only [List.mem_cons, one, false_or]

/-- **All other objects are read the same.** -/
theorem object?_eq {memory edited : Memory} {changed : List (HeapRecord width)}
    (agrees : AgreesBeside parameter records changed) (held : memory.HoldsObjects records)
    (kept : edited.HoldsObjects changed) (size : edited.size = memory.size) {kind : ObjectKind}
    {name : Name} (different : ¬ (kind = .scalar ∧ name = parameter)) :
    edited.object? kind name = memory.object? kind name := by
  have same := agrees.located memory.size kind name different
  cases located : locate? memory.size kind name records with
  | none =>
    rw [Memory.object?, Memory.object?, held.scan?_eq, kept.scan?_eq, size, same, located]
    rfl
  | some payload =>
    obtain ⟨front, record, back, rfl, is, -⟩ := exists_of_locate? located
    have other : ¬ record.Is .scalar parameter := by
      rintro ⟨scalar, named⟩
      exact different ⟨is.1.symm.trans scalar, is.2.symm.trans named⟩
    have among : record ∈ front ++ record :: back := by simp
    rw [kept.object?_of_mem ((agrees.among record other).mpr among) is,
      held.object?_of_mem among is, size, same]

end AgreesBeside

end HeapRecord

namespace Machine

variable {config : Config} {machine after : Machine}
  {records changed : List (HeapRecord (AddressWidth.forSize config.memorySize))}

/-! ### Reading other variables -/

/-- What a variable that does not exist reads as. -/
def unset : Target → Content
  | .text _ _ => .text []
  | _ => .number Single.zero

/-- A scalar or a string that does not exist. -/
theorem Keeps.runOn_fetch_absent (keeps : machine.Keeps config records) {target : Target}
    (ordinary : target.name.isSpecial = false)
    (absent : ∀ record ∈ records, ¬ record.Is target.kind target.name)
    (noArray : target.kind ≠ .array) : ((fetch target).runOn machine).1 = .ok (unset target) := by
  cases target <;> simp only [Target.kind, Target.name] at ordinary absent noArray
  case scalar name =>
    have read := runOn_storedScalar?_absent keeps.held absent
    rw [fetch, getScalar, ordinary, if_neg Bool.false_ne_true, bind_assoc,
      Attempt.runOn_bind_ok read]
    rfl
  case element => exact absurd rfl noArray
  case text name selector =>
    have looked := keeps.lookup_absent absent
    rw [fetch, readString, ordinary, if_neg Bool.false_ne_true, existingSlot, bind_assoc,
      bind_assoc,
      Attempt.runOn_bind_ok looked]
    rfl

/-- **Other variables read the same.** -/
theorem fetch_eq_of_agrees [config.IsSound] {parameter : Name}
    (agrees : HeapRecord.AgreesBeside parameter records changed)
    (keeps : machine.Keeps config records) (kept : after.Keeps config changed) {target : Target}
    (ordinary : target.name.isSpecial = false) (different : target ≠ .scalar parameter)
    (there : target.kind = .array → (machine.memory.scan? .array target.name).isSome) :
    ((fetch target).runOn after).1 = ((fetch target).runOn machine).1 := by
  have other (record : HeapRecord (AddressWidth.forSize config.memorySize))
      (is : record.Is target.kind target.name) : ¬ record.Is .scalar parameter := by
    rintro ⟨scalar, named⟩
    cases target with
    | scalar name => exact different (congrArg _ (is.2.symm.trans named))
    | element => cases is.1.symm.trans scalar
    | text => cases is.1.symm.trans scalar
  by_cases absent : ∀ record ∈ records, ¬ record.Is target.kind target.name
  · have noArray : target.kind ≠ .array := by
      intro array
      obtain ⟨payload, found⟩ := Option.isSome_iff_exists.mp (there array)
      obtain ⟨record, among, is, -⟩ := keeps.exists_found found
      exact absent record among (array ▸ is)
    have absentToo : ∀ record ∈ changed, ¬ record.Is target.kind target.name :=
      fun record among is =>
      absent record ((agrees.among record (other record is)).mp among) is
    rw [keeps.runOn_fetch_absent ordinary absent noArray,
      kept.runOn_fetch_absent ordinary absentToo noArray]
  · push Not at absent
    obtain ⟨record, among, is⟩ := absent
    rw [keeps.runOn_fetch ordinary among is,
      kept.runOn_fetch ordinary ((agrees.among record (other record is)).mpr among) is]

/-! ### Reading views of the machine -/

/-- Views other than that of free memory show nothing of memory. -/
theorem getSpecial_beside {letter : UInt8} (view : letter ≠ 0) (machine : Machine)
    (memory : Memory) : ((getSpecial letter).runOn { machine with memory }).1 =
      ((getSpecial letter).runOn machine).1 := by
  simp only [getSpecial, view, if_false]
  split_ifs <;> try rfl
  -- What is left is a byte from the input channel.
  simp only [Attempt.runOn_bind, Attempt.runOn_get, runOn_onHost]
  cases (machine.host.read machine.input).1 <;> rfl

theorem getSpecialElement_beside {letter : UInt8} (view : letter ≠ 0) (index : Single)
    (machine : Machine) (memory : Memory) :
    ((getSpecialElement letter index).runOn { machine with memory }).1 =
      ((getSpecialElement letter index).runOn machine).1 := by
  simp only [getSpecialElement, view, if_false]
  split_ifs <;> try rfl
  · cases store : machine.host.store with
    | none =>
      simp only [storeCell, Attempt.runOn_bind, Attempt.runOn_get, store, Attempt.runOn_failWith]
    | some bytes =>
      simp only [storeCell, Attempt.runOn_bind, Attempt.runOn_get, store]
      split_ifs
      · rfl
      · simp only [Attempt.runOn_pure, store]
  · simp only [clockField]
    split_ifs <;> try rfl
    cases clock : machine.host.clock <;> simp only [pure_bind, Attempt.runOn_get_bind, clock] <;>
      rfl

theorem getSpecialText_beside (letter : UInt8) (machine : Machine) (memory : Memory) :
    ((getSpecialText letter).runOn { machine with memory }).1 =
      ((getSpecialText letter).runOn machine).1 := by
  rw [getSpecialText]
  split_ifs <;> rfl

theorem second_ne_zero {name : Name} (special : name.isSpecial = true) (view : name ≠ ⟨64, 0⟩) :
    name.second ≠ 0 := by
  rintro zero
  have first : name.first = 64 := of_decide_eq_true special
  exact view (by rw [← first, ← zero])

theorem fst_runOn_map {step : Action α} {first second : Machine}
    (same : (step.runOn first).1 = (step.runOn second).1) (use : α → Content) :
    ((use <$> step).runOn first).1 = ((use <$> step).runOn second).1 := by
  rw [map_eq_pure_bind, Attempt.runOn_bind_eq_goOn, Attempt.runOn_bind_eq_goOn]
  generalize step.runOn first = one at same
  generalize step.runOn second = two at same
  rcases one with ⟨_, _⟩
  rcases two with ⟨_ | _, _⟩ <;> cases same <;> rfl

/-- Whether a target reads the same however much of memory is free: it is not a view of free memory,
nor an array that would have to be made. -/
def IsLasting (machine : Machine) : Target → Prop
  | .scalar name => name ≠ ⟨64, 0⟩
  | .element name _ _ =>
    name ≠ ⟨64, 0⟩ ∧ (name.isSpecial = false → (machine.memory.scan? .array name).isSome)
  | .text _ _ => True

/-- **All that is lasting reads the same**, but for the parameter. -/
theorem fetch_eq_of_lasting [config.IsSound] {parameter : Name}
    (agrees : HeapRecord.AgreesBeside parameter records changed)
    (keeps : machine.Keeps config records) (kept : after.Keeps config changed)
    (outside : after = { machine with memory := after.memory }) {target : Target}
    (lasting : machine.IsLasting target) (different : target ≠ .scalar parameter) :
    ((fetch target).runOn after).1 = ((fetch target).runOn machine).1 := by
  by_cases ordinary : target.name.isSpecial = false
  · refine fetch_eq_of_agrees agrees keeps kept ordinary different fun array => ?_
    cases target with
    | scalar => cases array
    | element => exact lasting.2 ordinary
    | text => cases array
  rw [Bool.not_eq_false] at ordinary
  rw [outside]
  cases target with
  | scalar name =>
    have view := second_ne_zero ordinary lasting
    simp only [fetch, getScalar, show name.isSpecial = true from ordinary, if_true, bind_pure_comp]
    exact fst_runOn_map (getSpecial_beside view machine after.memory) _
  | element name row column =>
    have view := second_ne_zero ordinary lasting.1
    simp only [fetch, getElement, show name.isSpecial = true from ordinary, if_true, bind_pure_comp]
    exact fst_runOn_map (getSpecialElement_beside view row machine after.memory) _
  | text name selector =>
    simp only [fetch, readString, show name.isSpecial = true from ordinary, if_true, bind_pure_comp]
    exact fst_runOn_map (getSpecialText_beside name.second machine after.memory) _

/-! ### Giving a parameter its value -/

/-- A machine in which the parameter of a function has a value, beside the machine of the caller:
only memory differs, the program in it is the same, and so are all objects but the parameter and
all that is read. -/
structure BindsOver (config : Config) (caller inside : Machine) (parameter : Name)
    (value : Single) : Prop where
  intact : inside.IsIntact config
  outside : inside = { caller with memory := inside.memory }
  program : Memory.KeepsProgram caller.memory inside.memory
  objects : ∀ kind name, ¬ (kind = .scalar ∧ name = parameter) →
    inside.memory.object? kind name = caller.memory.object? kind name
  reads : ((fetch (.scalar parameter)).runOn inside).1 = .ok (.number value)
  others : ∀ other, caller.IsLasting other → other ≠ .scalar parameter →
    ((fetch other).runOn inside).1 = ((fetch other).runOn caller).1

theorem Keeps.isIntact (keeps : machine.Keeps config records) : machine.IsIntact config :=
  ⟨keeps.config_eq, keeps.size_eq, keeps.below, records, keeps.held, keeps.wellFormed⟩

theorem Keeps.bindsOver [config.IsSound] {inside : Machine} {parameter : Name} {value : Single}
    {record : HeapRecord (AddressWidth.forSize config.memorySize)}
    (ordinary : parameter.isSpecial = false) (keeps : machine.Keeps config records)
    (left : machine.LeftWith inside changed) (wellFormed : ∀ record ∈ changed, record.IsWellFormed)
    (agrees : HeapRecord.AgreesBeside parameter records changed) (among : record ∈ changed)
    (is : record.Is .scalar parameter) (assigned : record.numberAt 0 = value) :
    BindsOver config machine inside parameter value where
  intact := (keeps.leftWith left wellFormed).isIntact
  outside := left.same
  program := left.program
  objects _ _ different := agrees.object?_eq keeps.held left.held left.program.size different
  reads := by
    have read : ((fetch (.scalar parameter)).runOn inside).1 = _ :=
      (keeps.leftWith left wellFormed).runOn_fetch ordinary among is
    rw [read, Target.valueIn, assigned]
  others _ lasting different :=
    fetch_eq_of_lasting agrees keeps (keeps.leftWith left wellFormed) left.same lasting different

/-- **Giving an ordinary parameter its value** succeeds, unless it has to be made and there is no
room for it. -/
theorem binds_ordinary [config.IsSound] (keeps : machine.Keeps config records) {parameter : Name}
    (ordinary : parameter.isSpecial = false) (named : parameter ≠ Name.none) (value : Single) :
    (machine.memory.scan? .scalar parameter = none ∧ machine.memory.free < 3 + numberSize ∧
      ((Evaluator.bindParameter parameter (some value)).runOn machine).1 =
        .error (.reported { kind := .outOfMemory })) ∨
    ∃ old inside shadowed,
      (Evaluator.bindParameter parameter (some value)).runOn machine =
        (.ok (some (parameter, old)), inside) ∧
      HeapRecord.Shadows records (some (parameter, old)) shadowed ∧
      machine.LeftWith inside shadowed ∧ BindsOver config machine inside parameter value := by
  have found := keeps.foundIn .scalar parameter
  have program := keepsProgram_foundIn keeps.below .scalar parameter
  have binds {old : Option Single} {result : Except Failure Unit} {left : Machine}
      (read : (storedScalar? parameter).runOn machine =
        (.ok old, machine.foundIn .scalar parameter))
      (stored : (storeScalar parameter value).runOn (machine.foundIn .scalar parameter) =
        (result, left)) :
      (Evaluator.bindParameter parameter (some value)).runOn machine =
        ((fun _ => some (parameter, old)) <$> result, left) := by
    rw [Evaluator.bindParameter, if_neg named, Attempt.runOn_bind_ok read, setScalar, ordinary,
      if_neg Bool.false_ne_true, Attempt.runOn_bind_eq_goOn, stored]
    cases result <;> rfl
  by_cases absent : ∀ record ∈ records, ¬ record.Is .scalar parameter
  · have read := runOn_storedScalar?_absent keeps.held absent
    rcases stores_absent found.held found.below absent value with
      ⟨failure, left, failed, -, rfl, full⟩ | ⟨left, record, made, is, assigned, leaves⟩
    · refine .inl ⟨?_, free_foundIn machine .scalar parameter ▸ full, ?_⟩
      · rw [keeps.held.scan?_eq]
        exact HeapRecord.locate?_eq_none absent
      · rw [binds read failed]
        rfl
    · have left' : machine.LeftWith left (record :: records) :=
        ⟨leaves.same, leaves.held, program.trans leaves.program⟩
      refine .inr ⟨none, left, _, binds read made, .absent is, left', ?_⟩
      exact keeps.bindsOver ordinary left' (List.forall_mem_cons.mpr
        ⟨HeapRecord.isWellFormed_of_scalar is.1, keeps.wellFormed⟩) (.of_cons is)
        (List.mem_cons_self ..) is assigned
  · push Not at absent
    obtain ⟨record, among, is⟩ := absent
    have read := runOn_storedScalar? keeps.held among is
    obtain ⟨newer, older, rfl⟩ := List.append_of_mem among
    obtain ⟨left, stored, leaves⟩ := stores_present found.held found.below is value
    have left' : machine.LeftWith left (newer ++ record.written 0 value.toBytes :: older) :=
      ⟨leaves.same, leaves.held, program.trans leaves.program⟩
    have written : (record.written 0 value.toBytes).Is .scalar parameter :=
      HeapRecord.is_written.mpr is
    refine .inr ⟨_, left, _, binds read stored, .present value ordinary is rfl, left', ?_⟩
    refine keeps.bindsOver ordinary left'
      (keeps.wellFormed_changed (HeapRecord.isWellFormed_of_scalar written.1))
      (.of_written ?_ is _) (by simp) written (HeapRecord.numberAt_written ?_)
    · obtain ⟨scalar, rfl⟩ := is
      exact scalar ▸ keeps.held.before_of_middle
    · rw [record.number is.1, Nat.zero_add]

/-! ### Taking the value back -/

/-- **Taking the value of an ordinary parameter back** succeeds, and the objects of the caller are
left. -/
theorem restores_ordinary {records newer shadowed : List (HeapRecord width)} {parameter : Name}
    {old : Option Single} (ordinary : parameter.isSpecial = false)
    (shadows : HeapRecord.Shadows records (some (parameter, old)) shadowed)
    (held : machine.memory.HoldsObjects (newer ++ shadowed))
    (extra : ∀ record ∈ newer, record.IsArrayOrBuffer)
    (tops : machine.memory.top ≤ machine.memory.himem) :
    ∃ after newest, (Evaluator.unbindParameter (some (parameter, old))).runOn machine =
      (.ok (), after) ∧ machine.LeftWith after (newest ++ records) := by
  cases shadows with
  | special special =>
    rw [ordinary] at special
    cases special
  | @present before older record name value ordinary is same =>
    rw [← List.append_assoc] at held
    obtain ⟨after, restored, left⟩ := restores_present ordinary is value held tops
    rw [List.append_assoc, ← same] at left
    exact ⟨after, newer, restored, left⟩
  | absent is =>
    obtain ⟨after, restored, left⟩ := restores_absent is held extra tops
    exact ⟨after, [], restored, left⟩

/-- A recovery that succeeds ends like the step before it. -/
theorem runOn_recover {first last : Action Unit} {ended : Except Failure Unit} {middle : Machine}
    (ran : first.runOn machine = (ended, middle)) (told : Told ended)
    (recovered : last.runOn middle = (.ok (), after)) :
    (Evaluator.Obeys.recover first last).runOn machine = (ended, after) := by
  have again : last.caught.runOn middle = (.ok (.ok ()), after) := by
    rw [Attempt.caught, Attempt.runOn_ofRun, recovered]
  rcases ended with (error | _ | _ | _) | ⟨⟩
  · have caught : first.caught.runOn machine = (.ok (.error error), middle) := by
      rw [Attempt.caught, Attempt.runOn_ofRun, ran]
    rw [Evaluator.Obeys.recover, Attempt.runOn_bind_ok caught, Attempt.runOn_bind_ok again]
    rfl
  · exact (told_error.mp told).elim
  · exact (told_error.mp told).elim
  · exact (told_error.mp told).elim
  · have caught : first.caught.runOn machine = (.ok (.ok ()), middle) := by
      rw [Attempt.caught, Attempt.runOn_ofRun, ran]
    rw [Evaluator.Obeys.recover, Attempt.runOn_bind_ok caught, Attempt.runOn_bind_ok again]
    rfl

end Machine

/-! ### Calls -/

namespace Evaluator

open Machine

/-- What comes before the parameter of a user function gets its value: the name of the function, its
argument, its definition and the check that another evaluation may be opened. -/
def arrival (deeper : Evaluator) : Action (Nat × Name × Option Single) := do
  advance
  let name ← match ← token with
    | .scalar name | .array name => pure name
    | _ => Attempt.fail .syntaxError
  advance
  let argument ← deeper.argument
  let (entry, parameter) ← definition name
  checkDepth "FN"
  return (entry, parameter, argument)

theorem userFunction_eq (deeper : Evaluator) : deeper.userFunction = (do
    let (entry, parameter, argument) ← deeper.arrival
    Obeys.call deeper entry parameter argument) := by
  rw [userFunction, arrival, bind_assoc]
  refine bind_congr fun _ => ?_
  rw [bind_assoc]
  refine bind_congr fun token => ?_
  split <;> simp only [Obeys.call, Obeys.recover, bind_assoc, pure_bind]

theorem obeys_arrival {conduct : Conduct Machine} [lawful : conduct.Reads] {deeper : Evaluator}
    (obeys : deeper.Obeys conduct) : deeper.arrival.Obeys conduct := by
  have rest (name : Name) : (do
      advance
      let argument ← deeper.argument
      let (entry, parameter) ← definition name
      checkDepth "FN"
      return (entry, parameter, argument) : Action _).Obeys conduct := by
    refine obeys_advance.bind fun _ => obeys.argument.bind fun argument => ?_
    refine (lawful.definition name).bind fun defined => ?_
    exact (obeys_checkDepth (by decide)).bind fun _ => .pure _
  refine obeys_advance.bind fun _ => obeys_token.bind fun token => ?_
  split
  · exact rest _
  · exact rest _
  · exact (obeys_fail (by decide)).bind rest

end Evaluator

namespace Machine

variable {config : Config} {machine called after : Machine}

/-- **A call whose parameter is ordinary** ends like its expression, evaluated where the parameter
has the value of the argument. -/
theorem runOn_call [config.IsSound] (budget : Nat) (intact : called.IsIntact config)
    {entry : Nat} {parameter : Name} {argument : Single} (ordinary : parameter.isSpecial = false)
    (named : parameter ≠ Name.none) {result : Except Failure Unit}
    (ran : (Evaluator.Obeys.call (evaluator budget) entry parameter (some argument)).runOn called =
      (result, after)) (told : Told result) :
    (called.memory.scan? .scalar parameter = none ∧ called.memory.free < 3 + numberSize ∧
      result = .error (.reported { kind := .outOfMemory })) ∨
    ∃ inside left, BindsOver config called inside parameter argument ∧
      (evaluator budget).functionBody.runOn (jump (bodyPlace called entry) inside) =
        (result, left) ∧
      after = { left with memory := after.memory, cursor := after.cursor } := by
  obtain ⟨records, keeps⟩ := intact.exists_keeps
  have here : location.runOn called = (.ok called.cursor.location, called) := rfl
  rw [Evaluator.Obeys.call, Attempt.runOn_bind_ok here] at ran
  rcases binds_ordinary keeps ordinary named argument with
    ⟨absent, full, failed⟩ | ⟨old, inside, shadowed, bound, shadows, leaves, binds⟩
  · rw [Attempt.runOn_bind_error (Prod.ext failed rfl)] at ran
    exact .inl ⟨absent, full, (Prod.ext_iff.mp ran).1.symm⟩
  rw [Attempt.runOn_bind_ok bound, moveTo, Attempt.runOn_modify_bind,
    Attempt.runOn_bind_eq_goOn] at ran
  generalize recovered : (Evaluator.Obeys.recover (evaluator budget).functionBody
    (Evaluator.unbindParameter (some (parameter, old)))).runOn _ = reached at ran
  rcases reached with ⟨outcome, final⟩
  have toldToo : Told outcome := by
    rcases outcome with failure | ⟨⟩
    · rw [Attempt.goOn_error] at ran
      cases ran
      exact told_error.mpr (told_error.mp told)
    · exact told_ok ()
  obtain ⟨ended, left, restored, bodyRan, bodyTold, lastRan, -⟩ := recover_told recovered toldToo
  -- The expression only lets memory grow, so the scalar of the parameter is still there.
  have memory := memory_jump (bodyPlace called entry) inside
  obtain ⟨program, newer, kept, extra⟩ := grows_of_obeysFrom
    ((obeys_evaluator budget).functionBody _) bodyRan bodyTold _ _ (memory ▸ leaves.held)
    (memory ▸ leaves.program.below)
  obtain ⟨cleared, newest, back, leftWith⟩ :=
    restores_ordinary ordinary shadows kept extra program.below
  have whole := runOn_recover bodyRan bodyTold back
  obtain ⟨rfl, rfl⟩ := Prod.mk.inj (whole.symm.trans recovered)
  refine .inr ⟨inside, left, binds, ?_⟩
  rcases ended with failure | ⟨⟩
  · rw [Attempt.goOn_error] at ran
    cases ran
    refine ⟨bodyRan, ?_⟩
    rw [leftWith.same]
  · rw [Attempt.goOn_ok, moveTo, Attempt.runOn_modify] at ran
    cases ran
    refine ⟨bodyRan, ?_⟩
    rw [jump, nextToken_eq, leftWith.same]

/-- Ordinary scalars read the same where only arrays and buffers are new. -/
theorem fetch_scalar_of_grown {records newer : List (HeapRecord width)}
    (held : machine.memory.HoldsObjects records)
    (kept : after.memory.HoldsObjects (newer ++ records))
    (extra : ∀ record ∈ newer, record.IsArrayOrBuffer) {name : Name}
    (ordinary : name.isSpecial = false) :
    ((fetch (.scalar name)).runOn after).1 = ((fetch (.scalar name)).runOn machine).1 := by
  simp only [fetch, getScalar, ordinary, if_neg Bool.false_ne_true, bind_assoc]
  by_cases absent : ∀ record ∈ records, ¬ record.Is .scalar name
  · have absentToo : ∀ record ∈ newer ++ records, ¬ record.Is .scalar name :=
      List.forall_mem_append.mpr ⟨fun record among => (extra record among).not_scalar name, absent⟩
    rw [Attempt.runOn_bind_ok (runOn_storedScalar?_absent held absent),
      Attempt.runOn_bind_ok (runOn_storedScalar?_absent kept absentToo)]
    rfl
  · push Not at absent
    obtain ⟨record, among, is⟩ := absent
    rw [Attempt.runOn_bind_ok (runOn_storedScalar? held among is),
      Attempt.runOn_bind_ok (runOn_storedScalar? kept (List.mem_append_right _ among) is)]
    rfl

/-- **Parameters are local names.** Whatever functions are defined and however their calls are
nested: a call whose parameter is an ordinary name, and which ends in a value or in an error of the
language, ends like the expression of the function, evaluated where the parameter has the value of
the argument and all else is as the caller has it; only a parameter that is new may find no room.
After every call all ordinary scalars, the parameter among them, read as before it. -/
theorem parameters_are_local [config.IsSound] (budget : Nat) (intact : machine.IsIntact config)
    {result : Except Failure Unit}
    (ran : (evaluator budget).userFunction.runOn machine = (result, after)) (told : Told result) :
    (∀ entry parameter argument called,
      (evaluator budget).arrival.runOn machine = (.ok (entry, parameter, some argument), called) →
      parameter.isSpecial = false → parameter ≠ Name.none →
      (called.memory.scan? .scalar parameter = none ∧ called.memory.free < 3 + numberSize ∧
        result = .error (.reported { kind := .outOfMemory })) ∨
      ∃ inside left, BindsOver config called inside parameter argument ∧
        (evaluator budget).functionBody.runOn (jump (bodyPlace called entry) inside) =
          (result, left) ∧
        after = { left with memory := after.memory, cursor := after.cursor }) ∧
    ∀ name, name.isSpecial = false →
      ((fetch (.scalar name)).runOn after).1 = ((fetch (.scalar name)).runOn machine).1 := by
  refine ⟨fun entry parameter argument called arrives ordinary named => ?_, fun name ordinary => ?_⟩
  · have obeys : (evaluator budget).arrival.Obeys (.keepsHeap config) :=
      Evaluator.obeys_arrival (obeys_evaluator budget)
    have calledIntact : called.IsIntact config := (obeys machine).moves arrives intact
    rw [Evaluator.userFunction_eq, Attempt.runOn_bind_ok arrives] at ran
    exact runOn_call budget calledIntact ordinary named ran told
  · obtain ⟨records, keeps⟩ := intact.exists_keeps
    have obeys : (evaluator budget).userFunction.Obeys .growsHeap :=
      (obeys_evaluator budget).userFunction_of_call (growsHeap_call (obeys_evaluator budget))
    obtain ⟨-, newer, kept, extra⟩ :=
      grows_of_obeysFrom (obeys machine) ran told _ _ keeps.held keeps.below
    exact fetch_scalar_of_grown keeps.held kept extra ordinary

/-- A function that calls another one with a parameter of the same name, which is a variable. -/
theorem parameters_are_local_nested :
    let config : Config := { memorySize := 128 }
    let typed := ((enter (ascii "10 X=7:DEF FN A(X)=X+FNB(X+1):DEF FN B(X)=X*2")).runOn
      (start config {})).2
    let machine := ((execute 6).runOn ((enter (ascii "RUN")).runOn typed).2).2
    let caller := { machine with cursor := ((enter (ascii "FNA(5)")).runOn machine).2.cursor }
    let arrived := (evaluator 8).arrival.runOn caller
    let ended := (evaluator 8).userFunction.runOn caller
    Reaches [.poke] (start config {}) machine ∧
      arrived.1 = .ok (23, ⟨88, 0⟩, some (Single.ofNat 5)) ∧
      (pop.runOn ended.2).1 = .ok (Single.ofNat 17) ∧
      (∃ inside left, BindsOver config arrived.2 inside ⟨88, 0⟩ (Single.ofNat 5) ∧
        (evaluator 8).functionBody.runOn (jump (bodyPlace arrived.2 23) inside) = (.ok (), left) ∧
        left.operands = ended.2.operands) ∧
      ((fetch (.scalar ⟨88, 0⟩)).runOn ended.2).1 = .ok (.number (Single.ofNat 7)) := by
  intro config typed machine caller arrived ended
  have sound : config.IsSound := ⟨by decide, by decide⟩
  have seen : ((executeWithout [.poke] 6).runOn
        ((enter (ascii "RUN")).runOn typed).2).1.toOption.isSome = true ∧
      arrived.1 = .ok (23, ⟨88, 0⟩, some (Single.ofNat 5)) ∧
      ended.1 = .ok () ∧
      (pop.runOn ended.2).1 = .ok (Single.ofNat 17) ∧
      ((fetch (.scalar ⟨88, 0⟩)).runOn caller).1 = .ok (.number (Single.ofNat 7)) := by
    decide +kernel
  obtain ⟨goesOn, arrives, ok, popped, before⟩ := seen
  have reaches : Reaches [.poke] (start config {}) machine :=
    .execute_of_isSome (.enter _ (.enter _ .refl)) goesOn
  have intact : caller.IsIntact config := (Underway.reached reaches).isIntact.of_same rfl rfl
  obtain ⟨inside, others⟩ := parameters_are_local 8 intact (Prod.ext ok rfl) (told_ok ())
  refine ⟨reaches, arrives, popped, ?_, (others _ rfl).trans before⟩
  rcases inside _ _ _ _ (Prod.ext arrives rfl) rfl (by decide) with
    ⟨-, -, failed⟩ | ⟨inside, left, binds, body, same⟩
  · cases failed
  · exact ⟨inside, left, binds, body, (congrArg Machine.operands same).symm⟩

/-- A parameter that is a view of the machine: the seed of the random numbers is not what it was
before the call. -/
theorem parameter_outlives_call :
    let config : Config := { memorySize := 64 }
    let typed := ((enter (ascii "10 @R=3:DEF FN A(@R)=@R*2")).runOn (start config {})).2
    let machine := ((execute 6).runOn ((enter (ascii "RUN")).runOn typed).2).2
    let caller := { machine with cursor := ((enter (ascii "FNA(5)")).runOn machine).2.cursor }
    let ended := (evaluator 8).userFunction.runOn caller
    ended.1 = .ok () ∧
      ((fetch (.scalar ⟨64, 82⟩)).runOn caller).1 = .ok (.number (Single.ofNat 3)) ∧
      ((fetch (.scalar ⟨64, 82⟩)).runOn ended.2).1 = .ok (.number (Single.ofNat 5)) := by
  decide +kernel

end Machine

end PocketBasic
