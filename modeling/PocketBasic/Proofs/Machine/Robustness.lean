/-
**No number breaks the machine.** Programs compute their arguments, subscripts, bounds and times,
and any number can come out, NaN and the infinities among them. Without `POKE`, whatever the machine
did before, a step that takes numbers ends in a value or in an error of the language for every one
of them, and no statement and no run accesses anything outside memory. The one exception divides by
zero: `MILLIS` of NaN.

* `Machine.TakesNumbers`: the steps that take numbers;
* `Machine.Subtracts`: what such steps take away, and from what;
* `Machine.leads_functionValue`, `Machine.leads_setElement` and the others: where they lead;
* **`Machine.no_number_breaks_the_machine`**: for every number they lead somewhere.
-/

import PocketBasic.Proofs.Machine.Undisturbed

namespace PocketBasic.Machine

variable {α β : Type} {config : Config} {machine : Machine}

/-! ### Steps that refuse some values -/

theorem Leads.failWith {promised : α → Machine → Prop} (intact : machine.IsIntact config)
    {kind : ErrorKind} (other : kind ≠ .internalError) (detail : String) :
    Leads config (Attempt.failWith kind detail) machine promised :=
  ⟨.refl machine, intact, Error.not_blamesHeader_of_kind other⟩

/-- What refuses some values goes on with the others in the same machine. -/
theorem leads_unless {refused : Prop} [Decidable refused] (intact : machine.IsIntact config)
    (kind : ErrorKind) (value : α) :
    Leads config (if refused then Attempt.fail kind else Pure.pure value) machine
      fun _ after => after = machine := by
  split
  · exact .fail intact kind
  · exact .pure rfl

theorem leads_orFail (intact : machine.IsIntact config) (kind : ErrorKind) (value : Option α) :
    Leads config (Attempt.orFail kind value) machine fun _ after => after = machine := by
  cases value with
  | none => exact .fail intact kind
  | some value => exact .pure rfl

theorem leads_lift (intact : machine.IsIntact config) {result : Except Error α}
    (plain : IsPlain result) :
    Leads config (Attempt.lift result) machine fun _ after => after = machine := by
  cases result with
  | error error => exact ⟨.refl machine, intact, (plain error rfl).1⟩
  | ok value => exact .pure rfl

/-- What leads somewhere ends in a value or in an error of the language, if all cells of memory have
exact numbers. -/
theorem Leads.told {step : Action α} {promised : α → Machine → Prop}
    (leads : Leads config step machine promised)
    (small : config.memorySize ≤ numberSize * Single.exactLimit) :
    Told (step.runOn machine).1 := by
  rcases ran : step.runOn machine with ⟨failure | value, after⟩
  · obtain ⟨-, -, excused⟩ := leads.excused ran
    cases failure with
    | reported error => exact told_error.mpr trivial
    | fault => exact absurd excused (Nat.not_lt.mpr small)
    | zeroDivisor | stalled => exact excused.elim
  · exact told_ok value

/-! ### Functions -/

/-- The divisor of `MILLIS` is zero for NaN alone. -/
theorem millisDivisor_eq_zero_iff (x : Single) :
    (if x.less Single.one then 1 else x.toSize) = 0 ↔ x.isNaN = true := by
  constructor
  · intro zero
    by_contra number
    split at zero
    · cases zero
    · rename_i notLess
      have least := Single.one_le_toSize
        (Single.atMost_of_not_less ⟨by simpa using number, by decide⟩ (by simpa using notLess))
      omega
  · intro nan
    simp [Single.less, Single.toSize, Single.clampToNat, nan]

/-- **`MILLIS` divides by zero for NaN alone.** -/
theorem millis_divides_by_zero_iff (arguments : List Single) (machine : Machine) :
    ((Evaluator.functionValue .millis arguments).runOn machine).1 = .error .zeroDivisor ↔
      (arguments.headD Single.zero).isNaN = true := by
  rw [← millisDivisor_eq_zero_iff, Evaluator.functionValue, Attempt.runOn_get_bind]
  dsimp only
  generalize (if (arguments.headD Single.zero).less Single.one then 1
    else (arguments.headD Single.zero).toSize) = divisor
  rw [Attempt.runOn_ite]
  split
  · exact ⟨fun _ => ‹_›, fun _ => rfl⟩
  · exact ⟨nofun, fun zero => absurd zero ‹_›⟩

/-- **The value of a function** is there for all numbers, or there is an error, but for `MILLIS` of
NaN. -/
theorem leads_functionValue (intact : machine.IsIntact config) (word : Keyword)
    (arguments : List Single)
    (defined : word = .millis → (arguments.headD Single.zero).isNaN = false) :
    Leads config (Evaluator.functionValue word arguments) machine fun _ _ => True := by
  refine .get_bind ?_
  dsimp only
  split
  · exact .of_ok rfl (.refl _) trivial
  · refine (leads_unless intact _ _ : Leads config (Range.count _) machine _).bind
      fun address _ same => ?_
    exact (leads_orFail (same ▸ intact) _ _).bind fun _ _ _ => .pure trivial
  · rw [if_neg (by rw [millisDivisor_eq_zero_iff, defined rfl]; exact Bool.false_ne_true)]
    exact .pure trivial
  · refine (leads_unless intact _ _ : Leads config (Range.channel _) machine _).bind
      fun _ _ _ => .pure trivial
  · refine (leads_unless intact _ _ : Leads config (Range.bufferName _) machine _).bind
      fun name _ same => ?_
    subst same
    refine (leads_unless intact _ _ : Leads config (Range.count _) _ _).bind fun size _ same => ?_
    subst same
    exact (leads_allocate intact .buffer name size).bind fun _ _ _ => .pure trivial
  · exact .pure trivial
  · exact .pure trivial
  · exact (leads_lift intact (Builtin.isPlain_evaluate word arguments _)).mono fun _ _ _ => trivial

/-! ### Elements -/

theorem leads_storeCell (intact : machine.IsIntact config) (index : Single) :
    Leads config (storeCell index) machine fun _ after => after = machine := by
  refine .get_bind ?_
  cases machine.host.store with
  | none => exact .failWith intact (by decide) _
  | some store => exact leads_unless intact _ _

theorem leads_clockField (intact : machine.IsIntact config) (index : Single) :
    Leads config (clockField index) machine fun _ after => after = machine := by
  rw [clockField]
  split
  · exact .fail intact _
  · dsimp only
    split
    · exact .pure rfl
    · exact .fail intact _

theorem leads_getElement [config.IsSound] (intact : machine.IsIntact config) (name : Name)
    (row : Single) (column : Option Single) :
    Leads config (getElement name row column) machine fun _ after => after.IsIntact config := by
  rw [getElement]
  split
  swap
  · exact leads_loadElement intact name row column
  rw [getSpecialElement]
  split
  · exact leads_loadFreeCell intact row
  split
  · refine (leads_storeCell intact row).bind fun offset _ same => ?_
    subst same
    refine .get_bind ?_
    cases Host.store _ with
    | none => exact .pure intact
    | some store => exact .pure intact
  split
  · refine (leads_clockField intact row).bind fun field _ same => ?_
    subst same
    refine .get_bind ?_
    cases Host.clock _ with
    | none => exact .pure intact
    | some clock => exact .pure intact
  · exact .fail intact _

theorem leads_setElement [config.IsSound] (intact : machine.IsIntact config) (name : Name)
    (row : Single) (column : Option Single) (value : Single) :
    Leads config (setElement name row column value) machine
      fun _ after => after.IsIntact config := by
  rw [setElement]
  split
  swap
  · exact leads_storeElement intact name row column value
  rw [setSpecialElement]
  split
  · exact leads_storeFreeCell intact row value
  split
  · refine (leads_storeCell intact row).bind fun offset _ same => ?_
    subst same
    exact .of_ok rfl (.refl _) (intact.of_same rfl rfl)
  split
  · refine (leads_clockField intact row).bind fun field _ same => ?_
    subst same
    exact .of_ok rfl (.refl _) (intact.of_same rfl rfl)
  · exact .fail intact _

/-! ### Dimensions -/

theorem leads_elementCount (intact : machine.IsIntact config) (bound : Single) :
    Leads config (elementCount bound) machine fun count after => 0 < count ∧ after = machine := by
  refine .get_bind ?_
  dsimp only
  split
  · exact .fail intact _
  · rename_i refused
    simp only [Bool.or_eq_true, Bool.not_eq_true', not_or] at refused
    exact .pure ⟨Single.one_le_toSize (by simpa using refused.1), rfl⟩

/-- What `DIM` makes of a bound goes on with a number of elements. -/
theorem leads_elementCount_bind (intact : machine.IsIntact config) {bound : Single}
    {next : Nat → Action Unit}
    (goesOn : ∀ count, 0 < count → Leads config (next count) machine fun _ after =>
      after.IsIntact config) :
    Leads config (elementCount bound >>= next) machine fun _ after => after.IsIntact config := by
  refine (leads_elementCount intact bound).bind fun count after counted => ?_
  obtain ⟨positive, rfl⟩ := counted
  exact goesOn count positive

/-! ### Parts of strings -/

theorem leads_readString [config.IsSound] (intact : machine.IsIntact config) (name : Name)
    (selector : Selector) :
    Leads config (readString name selector) machine fun _ after => after.IsIntact config := by
  rw [readString]
  split
  · rw [getSpecialText]
    split
    · exact .get_bind (.pure intact)
    · exact .fail intact _
  · exact leads_loadText intact name selector

theorem leads_writeString [config.IsSound] (intact : machine.IsIntact config) (name : Name)
    (selector : Selector) (source : Bytes) :
    Leads config (writeString name selector source) machine
      fun _ after => after.IsIntact config := by
  rw [writeString]
  split
  · exact .fail intact _
  · exact leads_storeText intact name selector source

/-! ### All numbers -/

/-- The steps that take numbers, for all numbers that they can take: the ranges of arguments, the
values of functions, elements, dimensions, and parts of strings. `MILLIS` of NaN is not among
them. -/
inductive TakesNumbers : {α : Type} → Action α → Prop
  | channel (number : Single) : TakesNumbers (Range.channel number)
  | byte (number : Single) : TakesNumbers (Range.byte number)
  | count (number : Single) : TakesNumbers (Range.count number)
  | bufferName (number : Single) : TakesNumbers (Range.bufferName number)
  | line (number : Single) : TakesNumbers (Range.line number)
  | pin (number : Single) : TakesNumbers (pinNumber number)
  | function (word : Keyword) (arguments : List Single)
    (defined : word = .millis → (arguments.headD Single.zero).isNaN = false) :
    TakesNumbers (Evaluator.functionValue word arguments)
  | element (name : Name) (row : Single) (column : Option Single) :
    TakesNumbers (getElement name row column)
  | assignedElement (name : Name) (row : Single) (column : Option Single) (value : Single) :
    TakesNumbers (setElement name row column value)
  | row (name : Name) (bound : Single) :
    TakesNumbers (do createArray name (← elementCount bound) 1)
  | grid (name : Name) (rows columns : Single) :
    TakesNumbers (do createArray name (← elementCount rows) (← elementCount columns))
  | strings (name : Name) (capacity count : Single) :
    TakesNumbers (do createString name capacity.toSize (← elementCount count))
  | part (name : Name) (selector : Selector) : TakesNumbers (readString name selector)
  | assignedPart (name : Name) (selector : Selector) (source : Bytes) :
    TakesNumbers (writeString name selector source)

theorem TakesNumbers.told [config.IsSound] {step : Action α} (takes : TakesNumbers step)
    (intact : machine.IsIntact config)
    (small : config.memorySize ≤ numberSize * Single.exactLimit) : Told (step.runOn machine).1 := by
  cases takes with
  | channel number => exact (leads_unless intact _ _).told small
  | byte number => exact (leads_unless intact _ _).told small
  | count number => exact (leads_unless intact _ _).told small
  | bufferName number => exact (leads_unless intact _ _).told small
  | line number => exact (leads_orFail intact _ _).told small
  | pin number => exact (leads_unless intact _ _).told small
  | function word arguments defined =>
    exact (leads_functionValue intact word arguments defined).told small
  | element name row column => exact (leads_getElement intact name row column).told small
  | assignedElement name row column value =>
    exact (leads_setElement intact name row column value).told small
  | row name bound =>
    exact (leads_elementCount_bind intact fun rows positive =>
      leads_createArray intact name positive Nat.one_pos).told small
  | grid name rows columns =>
    exact (leads_elementCount_bind intact fun rows rowsPositive =>
      leads_elementCount_bind intact fun columns columnsPositive =>
        leads_createArray intact name rowsPositive columnsPositive).told small
  | strings name capacity count =>
    exact (leads_elementCount_bind intact fun count positive =>
      leads_createString intact name _ positive).told small
  | part name selector => exact (leads_readString intact name selector).told small
  | assignedPart name selector source =>
    exact (leads_writeString intact name selector source).told small

/-! ### Subtractions -/

/-- What is taken away where numbers are worked with, and from what: one from a bound that counts
from one, the start of a part from its end, cells from the address they count down from, and what
stands behind the elements of an object from its length. An end that is NaN is not among them. -/
inductive Subtracts (machine : Machine) : Nat → Nat → Prop
  | bound {bound : Single} (counts : Single.one.atMost bound = true) :
    Subtracts machine bound.toSize 1
  | part {selector : Selector} {upper : Single} {length size : Nat} {part : Splice}
    (ends : selector.upper = some upper) (number : upper.isNaN = false)
    (ran : ((splice selector length size).runOn machine).1 = .ok part) :
    Subtracts machine upper.toSize part.start
  | freeCell {index : Single} {address : Nat}
    (ran : ((freeCell index).runOn machine).1 = .ok address) :
    Subtracts machine machine.memory.himem (numberSize * index.truncate.toSize)
  | storeCell {index : Single} {address : Nat} {store : ByteStore}
    (there : machine.host.store = some store)
    (small : store.size ≤ numberSize * Single.exactLimit)
    (ran : ((storeCell index).runOn machine).1 = .ok address) :
    Subtracts machine store.size (numberSize * index.truncate.toSize)
  | elements {kind : ObjectKind} {name : Name} {payload : Extent}
    (parts : kind = .array ∨ kind = .string)
    (found : ((lookup kind name).runOn machine).1 = .ok (some payload)) :
    Subtracts machine payload.length machine.memory.width.byteCount
  | room {name : Name} {payload : Extent} {count : Nat}
    (found : ((lookup .string name).runOn machine).1 = .ok (some payload))
    (counted : machine.memory.addressAt?
      (payload.start + payload.length - machine.memory.width.byteCount) = some count) :
    Subtracts machine ((payload.length - machine.memory.width.byteCount) / count) 1

/-- The start of a part is not behind its end. -/
theorem start_le_of_splice {selector : Selector} {upper : Single} {length size : Nat}
    {part : Splice}
    (ends : selector.upper = some upper) (number : upper.isNaN = false)
    (ran : ((splice selector length size).runOn machine).1 = .ok part) :
    part.start ≤ upper.toSize := by
  rw [splice] at ran
  split at ran
  · cases ran
    exact Nat.zero_le _
  · rename_i lower _
    rw [Attempt.runOn_ite] at ran
    split at ran
    · cases ran
    rename_i counts
    simp only [ends, Attempt.runOn_ite] at ran
    split at ran
    · cases ran
    rename_i ordered
    cases ran
    simp only [Bool.or_eq_true, Bool.not_eq_true', not_or, Bool.not_eq_false] at counts
    have lowerNumber : lower.isNaN = false := by
      have := counts.1
      simp only [Single.atMost, Bool.and_eq_true, Bool.not_eq_true'] at this
      exact this.1.2
    have mono := Single.toSize_mono
      (Single.atMost_of_not_less ⟨number, lowerNumber⟩ (by simpa using ordered))
    exact Nat.le_trans (Nat.sub_le _ _) mono

/-- The number of a cell that is not refused. -/
theorem inside_of_not_refused {index : Single} {count : Nat}
    (allowed : ¬ (!Single.one.atMost index || (Single.ofNat count).less index) = true) :
    (Single.ofNat count).less index = false := by
  rw [Bool.or_eq_true, not_or, Bool.not_eq_true, Bool.not_eq_true] at allowed
  exact allowed.2

/-- **Nothing is taken away from less.** -/
theorem Subtracts.le [config.IsSound] (intact : machine.IsIntact config)
    (small : config.memorySize ≤ numberSize * Single.exactLimit) {minuend subtrahend : Nat}
    (subtracts : machine.Subtracts minuend subtrahend) : subtrahend ≤ minuend := by
  have width := intact.memory.width_eq
  have known {kind : ObjectKind} {name : Name} {payload : Extent}
      (found : ((lookup kind name).runOn machine).1 = .ok (some payload)) :=
    intact.memory.exists_record (Except.ok.inj found)
  cases subtracts with
  | bound counts => exact Single.one_le_toSize counts
  | part ends number ran => exact start_le_of_splice ends number ran
  | @freeCell index address ran =>
    rw [Machine.freeCell, Attempt.runOn_get_bind] at ran
    dsimp only at ran
    rw [Attempt.runOn_ite] at ran
    split at ran
    · cases ran
    · rename_i allowed
      have free : machine.memory.free ≤ machine.memory.himem := Nat.sub_le _ _
      have inside := intact.memory.size_eq ▸ intact.memory.inside
      exact Nat.le_trans (cells_le (by omega) (inside_of_not_refused allowed)) free
  | @storeCell index address store there small ran =>
    rw [Machine.storeCell, Attempt.runOn_get_bind, there] at ran
    dsimp only at ran
    rw [Attempt.runOn_ite] at ran
    split at ran
    · cases ran
    · rename_i allowed
      exact cells_le small (inside_of_not_refused allowed)
  | @elements kind name payload parts found =>
    obtain ⟨record, is, wellFormed, has⟩ := known found
    rw [width, has.length_eq]
    rcases parts with rfl | rfl
    · obtain ⟨rows, columns, array⟩ := wellFormed.array is.1
      rw [array.length]
      exact Nat.le_add_left _ _
    · obtain ⟨capacity, count, string⟩ := wellFormed.string is.1
      rw [string.length]
      exact Nat.le_add_left _ _
  | @room name payload counted found there =>
    obtain ⟨record, is, wellFormed, has⟩ := known found
    obtain ⟨capacity, count, string⟩ := wellFormed.string is.1
    obtain ⟨recent, same⟩ := Memory.HoldsObjects.find_snd machine.memory .string name
    have last := has.addressAt?_end string.count_at string.count_le
    have length := has.length_eq.trans string.length
    rw [same] at last
    rw [width, length, ← Nat.add_assoc, Nat.add_sub_cancel] at there
    cases (Option.some.inj (there.symm.trans last) : counted = count)
    rw [width, length, Nat.add_sub_cancel, Nat.mul_div_cancel _ string.count_pos]
    exact Nat.succ_pos _

/-! ### Statements and runs -/

theorem ne_fault_of_obeys {step : Action α} (intact : machine.IsIntact config)
    (small : config.memorySize ≤ numberSize * Single.exactLimit)
    (obeys : step.Obeys (.keepsHeap config)) : (step.runOn machine).1 ≠ .error .fault := by
  intro faults
  have allowed := ((obeys machine).fails (Prod.ext faults rfl) intact).2
  exact absurd allowed (Nat.not_lt.mpr small)

/-- **No number breaks the machine.** Wherever a host brings it without `POKE`, and also in the
middle of a statement: every step that takes numbers ends in a value or in an error of the language,
for all of them, NaN and the infinities included; the next statement, and a run of any length,
accesses nothing outside memory; and nothing is taken away from less where numbers are worked with.
Two uses of NaN are left out: `MILLIS` of it divides by zero, and as the upper bound of a part that
is assigned to it counts as zero. Arrays that are made by themselves have elements, and the free
cells of memory are no more than the whole numbers that are exact. -/
theorem no_number_breaks_the_machine [config.IsSound] {host : Host}
    (small : config.memorySize ≤ numberSize * Single.exactLimit)
    (underway : Underway config host machine) :
    (∀ {α : Type} {step : Action α}, TakesNumbers step → Told (step.runOn machine).1) ∧
    ((stepWithout [.poke]).runOn machine).1 ≠ .error .fault ∧
    (∀ cycles, ((executeWithout [.poke] cycles).runOn machine).1 ≠ .error .fault) ∧
    ∀ minuend subtrahend, machine.Subtracts minuend subtrahend → subtrahend ≤ minuend := by
  have intact := underway.isIntact
  refine ⟨fun takes => takes.told intact small, ?_, fun cycles => ?_, fun _ _ subtracts => ?_⟩
  · exact ne_fault_of_obeys intact small keepsHeap_stepWithout
  · exact ne_fault_of_obeys intact small (keepsHeap_executeWithout cycles)
  · exact subtracts.le intact small

/-- An element at a subscript that is no number, of an array that an assignment made. -/
theorem no_number_breaks_the_machine_element :
    let config : Config := { memorySize := 128 }
    let machine := ((execute 2).runOn ((enter (ascii "A(2)=3")).runOn (start config {})).2).2
    Underway config {} machine ∧
      Told ((getElement ⟨65, 0⟩ Single.nan none).runOn machine).1 ∧
      ((executeWithout [.poke] 9).runOn machine).1 ≠ .error .fault := by
  intro config machine
  have sound : config.IsSound := ⟨by decide, by decide⟩
  have reaches : Reaches [.poke] (start config {}) machine :=
    .execute_of_isSome (.enter _ .refl) (by decide +kernel)
  have underway : Underway config {} machine := .reached reaches
  obtain ⟨told, -, runs, -⟩ := no_number_breaks_the_machine (by decide) underway
  exact ⟨underway, told (.element _ _ _), runs 9⟩

/-- The value of `MILLIS` for NaN: the machine has no next state. -/
theorem nan_breaks_millis :
    let config : Config := { memorySize := 128 }
    let typed := ((enter (ascii "PRINT MILLIS(VAL(\"NAN\"))")).runOn (start config {})).2
    ((execute 4).runOn typed).1 = .error .zeroDivisor := by
  decide +kernel

end PocketBasic.Machine
