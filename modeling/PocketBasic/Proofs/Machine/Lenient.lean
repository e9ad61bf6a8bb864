/-
**Conducts that say little of memory.** What reads variables fails in many ways that say nothing of
the machine, and what makes variables changes memory only.

* `Conduct.MayFail`: a conduct under which every step may fail where it is, unless it blames the
  loops or the operands, and the steps that obey it;
* `Conduct.UsesMemory`: a conduct that lets objects come and go and bytes change as well, and the
  steps on variables that obey it; `Conduct.IgnoresMemory`: one that says nothing of memory;
* **`Machine.IsApart.evaluates`**: evaluations keep a property that says nothing of what they
  change;
* `Conduct.keepsMode`: the text that is read is the same text;
* **`Machine.mode_fileName`**: reading a name leaves the machine in the text it was in.
-/

import Mathlib.Tactic.Common
import PocketBasic.Machine.Storage
import PocketBasic.Proofs.Machine.Evaluating
import PocketBasic.Proofs.Memory.AnyBytes

namespace PocketBasic

/-! ### What was made is found -/

/-- An object that was made is remembered. -/
theorem Memory.recent_of_allocate {memory after : Memory} {kind : ObjectKind} {name : Name}
    {size start : Nat} (ran : (allocate kind name size).runOn memory = (.ok start, after)) :
    ∃ payload, after.recent = some (kind, name, payload) := by
  let Remembers (step : Attempt Memory Nat) : Prop := ∀ memory,
    step.Ends memory (fun _ after => ∃ payload, after.recent = some (kind, name, payload))
      fun _ _ => True
  have behind {β : Type} (step : Attempt Memory β) {next : β → Attempt Memory Nat}
      (remembers : ∀ value, Remembers (next value)) : Remembers (step >>= next) := fun memory =>
    (Attempt.Ends.unknown step memory).bind fun value after _ => remembers value after
  have fails (kind : ErrorKind) : Remembers (Attempt.fail kind) := fun _ => trivial
  have remembers : Remembers (allocate kind name size) := by
    refine behind _ fun _ memory => .ite (fun _ => fails _ memory) fun _ => .get_bind ?_
    refine behind _ (fun _ memory => .ite (fun _ => fails _ memory) fun _ => ?_) memory
    refine behind _ (fun _ memory => .ite (fun _ => ?_) fun _ => ?_) memory
    · exact behind _ (fun _ => behind _ fun _ _ => .of_ok rfl ⟨_, rfl⟩) memory
    · exact behind _ (fun _ _ => .of_ok rfl ⟨_, rfl⟩) memory
  exact (remembers memory).kept ran

/-- Writing does not change what is remembered of objects. -/
theorem Memory.recent_of_write {memory after : Memory} {start : Nat} {data : Bytes}
    (ran : (write start data).runOn memory = (.ok (), after)) : after.recent = memory.recent := by
  rw [write, Attempt.runOn_get_bind, Attempt.runOn_ite] at ran
  split at ran
  · cases ran
    rfl
  · cases ran

namespace Machine

variable {machine after : Machine} {name : Name}

/-- What is remembered is found. -/
theorem runOn_lookup_of_recent {kind : ObjectKind} {payload : Extent}
    (recent : machine.memory.recent = some (kind, name, payload)) :
    (lookup kind name).runOn machine = (.ok (some payload), machine) := by
  show ((Except.ok (machine.memory.find kind name).1, { machine with
    memory := (machine.memory.find kind name).2 }) : Except Failure _ × Machine) = _
  rw [Memory.find_of_recent recent]

theorem ran_of_onMemory {α : Type} {step : Attempt Memory α} {result : Except Failure α}
    (ran : (onMemory step).runOn machine = (result, after)) :
    step.runOn machine.memory = (result, after.memory) := by
  rw [runOn_onMemory, Prod.mk.injEq] at ran
  rw [← ran.2]
  exact Prod.ext ran.1 rfl

/-- An object with a count behind its payload is found after it was made. -/
theorem exists_lookup_of_made {kind : ObjectKind} {size : Nat} {place count : Nat → Nat}
    (ran : (do
      let start ← onMemory (Memory.allocate kind name size)
      onMemory (Memory.writeAddress (place start) (count start)) : Action Unit).runOn machine =
        (.ok (), after)) :
    ∃ payload, (lookup kind name).runOn after = (.ok (some payload), after) := by
  obtain ⟨start, middle, made, wrote⟩ := Attempt.exists_of_runOn_bind ran
  obtain ⟨payload, recent⟩ := Memory.recent_of_allocate (ran_of_onMemory made)
  have written := ran_of_onMemory wrote
  rw [Memory.runOn_writeAddress] at written
  have kept := Memory.recent_of_write written
  exact ⟨payload, runOn_lookup_of_recent (kept.trans recent)⟩

theorem exists_lookup_of_createArray {rows columns : Nat}
    (ran : (createArray name rows columns).runOn machine = (.ok (), after)) :
    ∃ payload, (lookup .array name).runOn after = (.ok (some payload), after) :=
  exists_lookup_of_made ran

theorem exists_lookup_of_createString {capacity count : Nat}
    (ran : (createString name capacity count).runOn machine = (.ok (), after)) :
    ∃ payload, (lookup .string name).runOn after = (.ok (some payload), after) := by
  rw [createString, Attempt.runOn_ite] at ran
  split at ran
  · cases ran
  · exact exists_lookup_of_made ran

end Machine

/-! ### Failing anywhere -/

/-- A conduct under which every step may fail where it is, unless it blames the loops or the
operands. -/
structure Conduct.MayFail (conduct : Conduct Machine) : Prop where
  fails : ∀ (machine : Machine) {failure : Failure}, failure.SparesStacks →
    conduct.fails machine failure machine

namespace Conduct.MayFail

open Machine

variable {conduct : Conduct Machine} {α : Type}

theorem throw (mayFail : conduct.MayFail) {failure : Failure} (spares : failure.SparesStacks) :
    (MonadExcept.throw failure : Action α).Obeys conduct :=
  fun machine => mayFail.fails machine spares

theorem fail (mayFail : conduct.MayFail) {kind : ErrorKind} (other : kind ≠ .internalError) :
    (Attempt.fail kind : Action α).Obeys conduct :=
  mayFail.throw (Failure.sparesStacks_of_kind other)

theorem failWith (mayFail : conduct.MayFail) (kind : ErrorKind) {detail : String}
    (other : detail ≠ "LOOP" ∧ detail ≠ "") :
    (Attempt.failWith kind detail : Action α).Obeys conduct :=
  mayFail.throw ⟨fun blames => other.1 blames.2, fun blames => other.2 blames.2, nofun⟩

theorem orFault (mayFail : conduct.MayFail) (value : Option α) :
    (Attempt.orFault value : Action α).Obeys conduct := by
  cases value with
  | none => exact mayFail.throw ⟨not_false, not_false, nofun⟩
  | some value => exact .pure value

theorem orFail (mayFail : conduct.MayFail) {kind : ErrorKind} (other : kind ≠ .internalError)
    (value : Option α) : (Attempt.orFail kind value : Action α).Obeys conduct := by
  cases value with
  | none => exact mayFail.fail other
  | some value => exact .pure value

theorem numberAt (mayFail : conduct.MayFail) (address : Nat) :
    (Machine.numberAt address).Obeys conduct :=
  Attempt.Obeys.get.bind fun _ => mayFail.orFault _

theorem addressAt (mayFail : conduct.MayFail) (address : Nat) :
    (Machine.addressAt address).Obeys conduct :=
  Attempt.Obeys.get.bind fun _ => mayFail.orFault _

theorem byteAt (mayFail : conduct.MayFail) (address : Nat) :
    (Machine.byteAt address).Obeys conduct :=
  Attempt.Obeys.get.bind fun _ => mayFail.orFault _

theorem freeCell (mayFail : conduct.MayFail) (index : Single) :
    (Machine.freeCell index).Obeys conduct :=
  Attempt.Obeys.get.bind fun _ => .ite (mayFail.fail (by decide)) (.pure _)

theorem readSlot (mayFail : conduct.MayFail) (slot : StringSlot) (selector : Selector) :
    (Machine.readSlot slot selector).Obeys conduct := by
  refine .bind ((mayFail.byteAt _).bind fun _ => .pure _) fun length => ?_
  have rest (lower upper : Nat) : (do
      Attempt.orFault ((← get).memory.read? (slot.address + 1 + lower) (upper - lower)) :
        Action Bytes).Obeys conduct := Attempt.Obeys.get.bind fun _ => mayFail.orFault _
  cases selector.lower with
  | none => exact rest 0 _
  | some bound => exact .ite (rest _ _) ((mayFail.fail (by decide)).bind fun lower => rest lower _)

theorem place (mayFail : conduct.MayFail) (subscript : Single) (count : Nat) :
    (Machine.place subscript count).Obeys conduct :=
  Attempt.Obeys.get.bind fun _ => .ite (mayFail.fail (by decide)) (.pure _)

theorem splice (mayFail : conduct.MayFail) (selector : Selector) (length size : Nat) :
    (Machine.splice selector length size).Obeys conduct := by
  rw [Machine.splice]
  split
  · exact .pure _
  · refine .ite (mayFail.fail (by decide)) ?_
    dsimp only
    split
    · exact .pure _
    · exact .ite (mayFail.fail (by decide)) (.pure _)

theorem slotOf (mayFail : conduct.MayFail) (payload : Extent) (index : Option Single) :
    (Machine.slotOf payload index).Obeys conduct := by
  refine .bind (Attempt.Obeys.get.bind fun _ => .pure _) fun width => ?_
  refine (mayFail.addressAt _).bind fun count => .ite (mayFail.failWith _ (by decide)) ?_
  cases index with
  | none => exact .pure _
  | some index => exact (mayFail.place _ _).bind fun _ => .pure _

variable (looks : ∀ kind name, (Machine.lookup kind name).Obeys conduct)

include looks in
theorem storedScalar? (mayFail : conduct.MayFail) (name : Name) :
    (Machine.storedScalar? name).Obeys conduct := by
  refine (looks .scalar name).bind fun payload => ?_
  cases payload with
  | none => exact .pure _
  | some payload => exact (mayFail.numberAt _).bind fun _ => .pure _

include looks in
theorem definition (mayFail : conduct.MayFail) (name : Name) :
    (Evaluator.definition name).Obeys conduct := by
  refine (looks .function name).bind fun _ => (mayFail.orFail (by decide) _).bind fun payload => ?_
  refine (mayFail.addressAt _).bind fun entry => .bind (Attempt.Obeys.get.bind fun _ => .pure _)
    fun width => (mayFail.byteAt _).bind fun first => (mayFail.byteAt _).bind fun second => .pure _

include looks in
theorem existingSlot (mayFail : conduct.MayFail) (name : Name) (index : Option Single) :
    (Machine.existingSlot name index).Obeys conduct := by
  refine (looks _ _).bind fun payload => ?_
  cases payload with
  | some payload => exact (mayFail.slotOf payload index).bind fun _ => .pure _
  | none => exact .pure _

include looks in
theorem loadText (mayFail : conduct.MayFail) (name : Name) (selector : Selector) : (do
    match ← Machine.existingSlot name selector.index with
    | some slot => Machine.readSlot slot selector
    | none => return [] : Action Bytes).Obeys conduct := by
  refine (mayFail.existingSlot looks name _).bind fun slot => ?_
  cases slot with
  | none => exact .pure _
  | some slot => exact mayFail.readSlot slot selector

variable (makes : ∀ name rows columns, (Machine.createArray name rows columns).Obeys conduct)

include looks makes in
theorem arrayPayload (name : Name) : (Machine.arrayPayload name).Obeys conduct := by
  refine (looks _ _).bind fun payload => ?_
  cases payload with
  | some payload => exact .pure _
  | none =>
    refine Attempt.Obeys.get.bind fun _ machine => (makes _ _ _ machine).bind_of_ran ?_
    intro _ after ran
    obtain ⟨payload, found⟩ := exists_lookup_of_createArray ran
    exact Attempt.obeysFrom_of_ok (Attempt.runOn_bind_ok found _) (conduct.refl after)

/-- Looking for an element obeys what looking for its array obeys. -/
theorem elementAddress_of_payload (mayFail : conduct.MayFail) {name : Name} (row : Single)
    (column : Option Single) (payload : (Machine.arrayPayload name).Obeys conduct) :
    (Machine.elementAddress name row column).Obeys conduct := by
  refine payload.bind fun payload => ?_
  refine .bind (Attempt.Obeys.get.bind fun _ => .pure _) fun width => ?_
  refine (mayFail.addressAt _).bind fun columns => .ite (mayFail.failWith _ (by decide)) ?_
  refine (mayFail.place _ _).bind fun row => ?_
  cases column with
  | none => exact .pure _
  | some column => exact (mayFail.place _ _).bind fun _ => .pure _

include looks makes in
/-- **Looking for an element obeys what making an array obeys.** -/
theorem elementAddress (mayFail : conduct.MayFail) (name : Name) (row : Single)
    (column : Option Single) : (Machine.elementAddress name row column).Obeys conduct :=
  mayFail.elementAddress_of_payload row column (arrayPayload looks makes name)

include looks in
/-- **What steps that may fail anywhere read.** -/
theorem consults (mayFail : conduct.MayFail)
    (moves : ∀ (machine : Machine) (host : Host) deviceFailed input output random seed,
      machine.host.Consulted host → conduct.moves machine
        { machine with host, deviceFailed, input, output, random, seed }) :
    conduct.Consults where
  moves_devices := moves
  fails_safe machine _ safe := mayFail.fails machine safe.isOrdinary.sparesStacks
  lookup := looks
  storedScalar? := mayFail.storedScalar? looks
  loadFreeCell index := (mayFail.freeCell index).bind fun _ => mayFail.numberAt _
  loadText := mayFail.loadText looks
  definition := mayFail.definition looks

include looks in
/-- **What steps that may fail anywhere do where they are**, beyond making objects. -/
theorem accesses (mayFail : conduct.MayFail)
    (moves : ∀ (machine : Machine) operands depth (host : Host) deviceFailed input output random
      seed, machine.host.Consulted host →
      operands.overflowDetail = machine.operands.overflowDetail → conduct.moves machine
        { machine with operands, depth, host, deviceFailed, input, output, random, seed })
    (full : ∀ machine : Machine, conduct.fails machine
      (.reported { kind := .stackOverflow, detail := machine.operands.overflowDetail }) machine)
    (empty : ∀ machine : Machine, conduct.fails machine
      (.reported { kind := machine.operands.underflow }) machine) :
    conduct.Accesses where
  toConsults := mayFail.consults looks
    fun machine _ _ _ _ _ _ consulted => moves machine _ _ _ _ _ _ _ _ consulted rfl
  moves_registers := moves
  fails_full := full
  fails_empty := empty

include looks in
/-- **What steps that may fail anywhere are made of**, beyond making objects, if they may change all
registers. -/
theorem reads (mayFail : conduct.MayFail) (waits : conduct.Waits)
    (moves : ∀ (machine : Machine) (cursor : Cursor) operands depth host deviceFailed input output
      random seed, machine.host.Consulted host → cursor.mode = machine.cursor.mode →
      operands.overflowDetail = machine.operands.overflowDetail → conduct.moves machine
        { machine with cursor, operands, depth, host, deviceFailed, input, output, random, seed })
    (full : ∀ machine : Machine, conduct.fails machine
      (.reported { kind := .stackOverflow, detail := machine.operands.overflowDetail }) machine)
    (empty : ∀ machine : Machine, conduct.fails machine
      (.reported { kind := machine.operands.underflow }) machine) :
    conduct.Reads where
  toAccesses := mayFail.accesses looks
    (fun machine _ _ _ _ _ _ _ _ consulted same =>
      moves machine machine.cursor _ _ _ _ _ _ _ _ consulted rfl same)
    full empty
  toWaits := waits
  moves_next machine := by
    rw [nextToken_eq]
    exact moves machine _ machine.operands machine.depth machine.host machine.deviceFailed
      machine.input machine.output machine.random machine.seed (.refl _) (Cursor.mode_next _ _ _)
      rfl

end Conduct.MayFail

/-- A conduct that lets steps look for objects, make and drop them, and write anywhere in memory. -/
structure Conduct.UsesMemory (conduct : Conduct Machine) : Prop extends conduct.MayFail where
  lookup : ∀ kind name, (Machine.lookup kind name).Obeys conduct
  allocate : ∀ kind name size,
    (Machine.onMemory (Memory.allocate kind name size)).Obeys conduct
  delete : ∀ kind name, (Machine.onMemory (Memory.delete kind name)).Obeys conduct
  write : ∀ start data, (Machine.onMemory (Memory.write start data)).Obeys conduct
  poke : ∀ address value, (Machine.onMemory (Attempt.always fun memory =>
    memory.poke address value)).Obeys conduct

namespace Conduct.UsesMemory

open Machine

variable {conduct : Conduct Machine} (uses : conduct.UsesMemory)

include uses

theorem writeAddress (start address : Nat) :
    (Machine.onMemory (Memory.writeAddress start address)).Obeys conduct := by
  intro machine
  rw [Attempt.ObeysFrom, runOn_onMemory, Memory.runOn_writeAddress, ← runOn_onMemory]
  exact uses.write start (machine.memory.width.encode address) machine

theorem setNumberAt (address : Nat) (value : Single) :
    (Machine.setNumberAt address value).Obeys conduct := uses.write _ _

theorem storeScalar (name : Name) (value : Single) :
    (Machine.storeScalar name value).Obeys conduct := by
  refine (uses.lookup _ _).bind fun payload => ?_
  cases payload with
  | some payload => exact uses.setNumberAt _ _
  | none => exact (uses.allocate _ _ _).bind fun _ => uses.setNumberAt _ _

theorem createArray (name : Name) (rows columns : Nat) :
    (Machine.createArray name rows columns).Obeys conduct :=
  (uses.allocate _ _ _).bind fun _ => uses.writeAddress _ _

theorem createString (name : Name) (capacity count : Nat) :
    (Machine.createString name capacity count).Obeys conduct :=
  .ite (uses.fail (by decide)) ((uses.allocate _ _ _).bind fun _ => uses.writeAddress _ _)

theorem elementAddress (name : Name) (row : Single) (column : Option Single) :
    (Machine.elementAddress name row column).Obeys conduct :=
  uses.toMayFail.elementAddress uses.lookup uses.createArray name row column

theorem assignableSlot (name : Name) (index : Option Single) :
    (Machine.assignableSlot name index).Obeys conduct := by
  refine (uses.lookup _ _).bind fun payload => ?_
  cases payload with
  | some payload => exact uses.slotOf payload index
  | none =>
    refine Attempt.Obeys.get.bind fun _ machine => (uses.createString _ _ _ machine).bind_of_ran ?_
    intro _ after ran
    obtain ⟨payload, found⟩ := exists_lookup_of_createString ran
    refine .of_run (Attempt.runOn_bind_ok found _) (conduct.refl after) ?_
    exact uses.slotOf payload index after

theorem writeSlot (slot : StringSlot) (selector : Selector) (source : Bytes) :
    (Machine.writeSlot slot selector source).Obeys conduct := by
  refine .bind ((uses.byteAt _).bind fun _ => .pure _) fun length => ?_
  refine (uses.splice _ _ _).bind fun part => .ite (uses.fail (by decide)) ?_
  exact (uses.write _ _).bind fun _ => uses.write _ _

/-- What steps read that use memory. -/
theorem consults
    (moves : ∀ (machine : Machine) (host : Host) deviceFailed input output random seed,
      machine.host.Consulted host → conduct.moves machine
        { machine with host, deviceFailed, input, output, random, seed }) :
    conduct.Consults :=
  uses.toMayFail.consults uses.lookup moves

/-- The objects that steps make that use memory. -/
theorem makes : conduct.Makes where
  allocateBuffer := uses.allocate .buffer
  loadElement name row column :=
    (uses.elementAddress name row column).bind fun _ => uses.numberAt _

/-- What steps are made of that use memory. -/
theorem reads (waits : conduct.Waits)
    (moves : ∀ (machine : Machine) (cursor : Cursor) operands depth host deviceFailed input output
      random seed, machine.host.Consulted host → cursor.mode = machine.cursor.mode →
      operands.overflowDetail = machine.operands.overflowDetail → conduct.moves machine
        { machine with cursor, operands, depth, host, deviceFailed, input, output, random, seed })
    (full : ∀ machine : Machine, conduct.fails machine
      (.reported { kind := .stackOverflow, detail := machine.operands.overflowDetail }) machine)
    (empty : ∀ machine : Machine, conduct.fails machine
      (.reported { kind := machine.operands.underflow }) machine) :
    conduct.Reads :=
  uses.toMayFail.reads uses.lookup waits moves full empty

end Conduct.UsesMemory

/-- A conduct that says nothing of memory, whether steps on it fail or not. -/
structure Conduct.IgnoresMemory (conduct : Conduct Machine) : Prop where
  moves : ∀ (machine : Machine) memory, conduct.moves machine { machine with memory }
  fails : ∀ (machine : Machine) {failure : Failure} memory, failure.SparesStacks →
    conduct.fails machine failure { machine with memory }

namespace Conduct.IgnoresMemory

variable {conduct : Conduct Machine} {α : Type}

theorem onMemory (ignores : conduct.IgnoresMemory) {step : Attempt Memory α}
    (ordinary : step.Obeys .isOrdinary) : (Machine.onMemory step).Obeys conduct := by
  intro machine
  rcases ran : (step.runOn machine.memory).1 with failure | value
  · exact Attempt.obeysFrom_of_error (Prod.ext ran rfl)
      (ignores.fails _ _ ((ordinary _).fails (Prod.ext ran rfl)).sparesStacks)
  · exact Attempt.obeysFrom_of_ok (Prod.ext ran rfl) (ignores.moves _ _)

theorem usesMemory (ignores : conduct.IgnoresMemory) : conduct.UsesMemory where
  fails machine _ := ignores.fails machine machine.memory
  lookup kind name := ignores.onMemory (Memory.obeys_lookup kind name)
  allocate kind name size := ignores.onMemory (Memory.obeys_allocate kind name size)
  delete kind name := ignores.onMemory (Memory.obeys_delete kind name)
  write start data := ignores.onMemory (Memory.obeys_write start data)
  poke _ _ := ignores.onMemory (Memory.ordinary_always _)

end Conduct.IgnoresMemory

/-! ### Properties that evaluations keep -/

/-- Whether a property says nothing of memory, nor of what else evaluations change. -/
def Machine.IsApart (holds : Machine → Prop) : Prop :=
  ∀ (machine : Machine) memory cursor operands depth host deviceFailed input output random seed,
    operands.overflowDetail = machine.operands.overflowDetail → holds machine → holds
      { machine with
        memory, cursor, operands, depth, host, deviceFailed, input, output, random, seed }

namespace Machine.IsApart

variable {holds : Machine → Prop}

theorem jump (apart : IsApart holds) (place : Location) {machine : Machine}
    (before : holds machine) : holds (Machine.jump place machine) := by
  rw [Machine.jump, nextToken_eq]
  exact apart machine machine.memory _ machine.operands machine.depth machine.host
    machine.deviceFailed machine.input machine.output machine.random machine.seed rfl before

theorem ignoresMemory (apart : IsApart holds) : (Conduct.keeps holds).IgnoresMemory :=
  ⟨fun _ _ => apart _ _ _ _ _ _ _ _ _ _ _ rfl, fun _ _ _ _ => apart _ _ _ _ _ _ _ _ _ _ _ rfl⟩

/-- **Evaluations keep what says nothing of what they change.** -/
theorem evaluates (apart : IsApart holds) : (Conduct.keeps holds).Evaluates where
  toReads := apart.ignoresMemory.usesMemory.reads ⟨fun _ => id⟩
    (fun _ _ _ _ _ _ _ _ _ _ _ _ same => apart _ _ _ _ _ _ _ _ _ _ _ same) (fun _ => id) fun _ => id
  toMakes := apart.ignoresMemory.usesMemory.makes
  moves_excursion _ first second before :=
    apart.jump _ (second (apart.jump _ (first before)))
  fails_excursion _ first second before := second (apart.jump _ (first before))
  fails_otherwise := id
  fails_first first second before := second (first before)
  fails_second first second before := second (first before)
  storeScalar := apart.ignoresMemory.usesMemory.storeScalar
  deleteScalar := apart.ignoresMemory.usesMemory.delete .scalar

end Machine.IsApart

/-! ### Names of files -/

theorem Machine.obeys_fileName {conduct : Conduct Machine} [lawful : conduct.Operates] :
    Machine.fileName.Obeys conduct :=
  lawful.named.bind fun _ => .pure _

/-! ### The text that is read -/

/-- What reads on stays in the text. -/
def Conduct.keepsMode : Conduct Machine where
  moves before after := after.cursor.mode = before.cursor.mode
  fails _ _ _ := True
  refl _ := rfl
  trans first second := second.trans first
  fails_of_moves _ _ := trivial
  fails_moves _ _ := trivial

namespace Machine

@[simp]
theorem mode_nextToken (machine : Machine) :
    machine.nextToken.cursor.mode = machine.cursor.mode := by
  rw [nextToken_eq]
  exact Cursor.mode_next _ _ _

@[simp]
theorem mode_jump (location : Location) (machine : Machine) :
    (jump location machine).cursor.mode = location.mode := by
  rw [jump, mode_nextToken]
  dsimp only
  split <;> rfl

theorem ignoresMemory_keepsMode : Conduct.keepsMode.IgnoresMemory :=
  ⟨fun _ _ => rfl, fun _ _ _ _ => trivial⟩

instance evaluates_keepsMode : Conduct.keepsMode.Evaluates where
  toReads := ignoresMemory_keepsMode.usesMemory.reads ⟨fun _ => trivial⟩
    (fun _ _ _ _ _ _ _ _ _ _ _ same _ => same) (fun _ => trivial) fun _ => trivial
  toMakes := ignoresMemory_keepsMode.usesMemory.makes
  moves_excursion _ _ _ := mode_jump _ _
  fails_excursion _ _ _ := trivial
  fails_otherwise _ := trivial
  fails_first _ _ := trivial
  fails_second _ _ := trivial
  storeScalar := ignoresMemory_keepsMode.usesMemory.storeScalar
  deleteScalar := ignoresMemory_keepsMode.usesMemory.delete .scalar

/-- **A name is read in the text it begins in.** -/
theorem mode_fileName {machine after : Machine} {name : Bytes}
    (ran : fileName.runOn machine = (.ok name, after)) :
    after.cursor.mode = machine.cursor.mode :=
  Attempt.ObeysFrom.moves (obeys_fileName machine : fileName.ObeysFrom Conduct.keepsMode machine)
    ran

end Machine

end PocketBasic
