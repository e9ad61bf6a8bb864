/-
**What an evaluation leaves alone.** While an expression is read the machine moves its place in the
text and its operands, uses its devices, and reads and makes variables; nothing else changes. A
conduct that allows these is obeyed by every evaluation.

* `Conduct.Consults`, `Conduct.Follows`, `Conduct.Assigns`: conducts that allow what leaves the
  operands alone: to use devices and to read variables, to read on, and to assign to scalars;
  `Conduct.Waits`: one that allows to wait without an end; `Conduct.Breaks`: one that allows to stop
  for the interrupt;
* `Conduct.Makes`: a conduct that allows evaluations to make buffers and arrays;
* `Conduct.Accesses`: a conduct that allows what evaluations do where they are in the text;
* `Conduct.Reads`: a conduct that also lets them read on, but for user functions;
* `Conduct.Calls`: a conduct that evaluations obey as well where they make objects or call user
  functions, but where it says nothing of what stands there (`Conduct.Ignores`);
* `Conduct.Evaluates`: a conduct that allows what user functions are made of;
* `Conduct.Computes`, `Conduct.Operates`: conducts that allow whole evaluations, and what statements
  do around them;
* `Evaluator.Obeys.expression` and the others: the steps of an evaluation, one after the other;
* **`Machine.obeys_evaluate`**: the evaluations of statements.
-/

import Mathlib.Tactic.Common
import PocketBasic.Machine.Expression
import PocketBasic.Proofs.BoundedStack
import PocketBasic.Proofs.Host.Interrupts
import PocketBasic.Proofs.Machine.Ahead

namespace PocketBasic

/-- An evaluator whose evaluations obey a conduct. -/
structure Evaluator.Obeys (conduct : Conduct Machine) (deeper : Evaluator) : Prop where
  numeric : ∀ level, (deeper.numeric level).Obeys conduct
  string : ∀ word, (deeper.string word).Obeys conduct

/-- A conduct that allows devices to be used and variables to be read. -/
class Conduct.Consults (conduct : Conduct Machine) : Prop where
  /-- Devices are used, but for the byte store, which is only read; the interrupt is not taken. -/
  moves_devices : ∀ (machine : Machine) (host : Host) deviceFailed input output random seed,
    machine.host.Consulted host → conduct.moves machine
      { machine with host, deviceFailed, input, output, random, seed }
  /-- Steps fail where they are; what may access memory outside is among the steps below. -/
  fails_safe : ∀ (machine : Machine) {failure : Failure}, failure.IsSafe →
    conduct.fails machine failure machine
  lookup : ∀ kind name, (Machine.lookup kind name).Obeys conduct
  storedScalar? : ∀ name, (Machine.storedScalar? name).Obeys conduct
  loadFreeCell : ∀ index,
    (do Machine.numberAt (← Machine.freeCell index) : Action Single).Obeys conduct
  loadText : ∀ name selector, (do
    match ← Machine.existingSlot name selector.index with
    | some slot => Machine.readSlot slot selector
    | none => return [] : Action Bytes).Obeys conduct
  definition : ∀ name, (Evaluator.definition name).Obeys conduct

/-- A conduct that allows evaluations to make objects: buffers, and arrays of which an element is
read. -/
class Conduct.Makes (conduct : Conduct Machine) : Prop where
  allocateBuffer : ∀ name size,
    (Machine.onMemory (Memory.allocate .buffer name size)).Obeys conduct
  loadElement : ∀ name row column, (do
    Machine.numberAt (← Machine.elementAddress name row column) : Action Single).Obeys conduct

/-- A conduct that allows the interrupt to be taken, and to stop for it. -/
class Conduct.Breaks (conduct : Conduct Machine) : Prop where
  fails_interrupted : ∀ (machine : Machine) (host : Host), host.store = machine.host.store →
    conduct.fails machine (.reported { kind := .interrupted }) { machine with host }

/-- A conduct that allows to wait for something that never comes. -/
class Conduct.Waits (conduct : Conduct Machine) : Prop where
  fails_stalled : ∀ machine : Machine, conduct.fails machine .stalled machine

/-- A conduct that also allows to read on. -/
class Conduct.Follows (conduct : Conduct Machine) : Prop
    extends conduct.Consults, conduct.Waits where
  moves_next : ∀ machine : Machine, conduct.moves machine machine.nextToken

/-- A conduct that also allows to assign to scalars, and to drop them. -/
class Conduct.Assigns (conduct : Conduct Machine) : Prop extends conduct.Consults where
  storeScalar : ∀ name value, (Machine.storeScalar name value).Obeys conduct
  deleteScalar : ∀ name, (Machine.onMemory (Memory.delete .scalar name)).Obeys conduct

/-- A conduct that allows what evaluations do where they are in the text. -/
class Conduct.Accesses (conduct : Conduct Machine) : Prop extends conduct.Consults where
  /-- Evaluations keep operands and use devices. -/
  moves_registers : ∀ (machine : Machine) operands depth (host : Host) deviceFailed input output
    random seed, machine.host.Consulted host →
    operands.overflowDetail = machine.operands.overflowDetail → conduct.moves machine
      { machine with operands, depth, host, deviceFailed, input, output, random, seed }
  /-- There may be too many operands. -/
  fails_full : ∀ machine : Machine, conduct.fails machine
    (.reported { kind := .stackOverflow, detail := machine.operands.overflowDetail }) machine
  /-- There may be too few operands. -/
  fails_empty : ∀ machine : Machine, conduct.fails machine
    (.reported { kind := machine.operands.underflow }) machine
  moves_devices machine host deviceFailed input output random seed consulted :=
    moves_registers machine machine.operands machine.depth host deviceFailed input output random
      seed consulted rfl

/-- A conduct that allows what evaluations are made of, but for user functions. -/
class Conduct.Reads (conduct : Conduct Machine) : Prop extends conduct.Accesses, conduct.Follows

/-- Whether a conduct says nothing of machines at a certain token. -/
def Conduct.Ignores (conduct : Conduct Machine) (token : Token) : Prop :=
  ∀ machine : Machine, machine.cursor.token = token → ∀ after,
    conduct.moves machine after ∧ ∀ failure, conduct.fails machine failure after

/-- A conduct that all evaluations obey. Objects may be made, and user functions are called, unless
the conduct ignores the tokens for which that is done; user functions obey it if what they evaluate
does. -/
class Conduct.Calls (conduct : Conduct Machine) : Prop where
  reads : conduct.Reads
  allocateBuffer : ¬ conduct.Ignores (.word .malloc) → ∀ name size,
    (Machine.onMemory (Memory.allocate .buffer name size)).Obeys conduct
  loadElement : ∀ name row column, name.isSpecial = false → ¬ conduct.Ignores (.array name) → (do
    Machine.numberAt (← Machine.elementAddress name row column) : Action Single).Obeys conduct
  userFunction : ¬ conduct.Ignores (.word .fn) → ∀ {deeper : Evaluator}, deeper.Obeys conduct →
    deeper.userFunction.Obeys conduct

attribute [instance] Conduct.Calls.reads

/-- Where the expression of a user function is evaluated. -/
def Machine.bodyPlace (caller : Machine) (entry : Nat) : Location where
  mode := if caller.cursor.mode = .runStore then .runStore else .run
  offset := entry

/-- A conduct that allows what evaluations are made of. -/
class Conduct.Evaluates (conduct : Conduct Machine) : Prop
    extends conduct.Reads, conduct.Makes, conduct.Assigns where
  /-- An evaluation that goes to the expression of a function comes back. -/
  moves_excursion : ∀ {before middle after : Machine} (entry : Nat), conduct.moves before middle →
    conduct.moves (Machine.jump (before.bodyPlace entry) middle) after →
      conduct.moves before (Machine.jump before.cursor.location after)
  fails_excursion : ∀ {before middle after : Machine} {failure : Failure} (entry : Nat),
    conduct.moves before middle →
    conduct.fails (Machine.jump (before.bodyPlace entry) middle) failure after →
      conduct.fails before failure after
  /-- A syntax error may be told instead. -/
  fails_otherwise : ∀ {before after : Machine} {failure : Failure},
    conduct.fails before failure after →
      conduct.fails before (.reported { kind := .syntaxError }) after
  /-- Two failures, of which the first one is told. -/
  fails_first : ∀ {before middle after : Machine} {failure other : Failure},
    conduct.fails before failure middle → conduct.fails middle other after →
      conduct.fails before failure after
  /-- Two failures, of which the second one is told. -/
  fails_second : ∀ {before middle after : Machine} {failure other : Failure},
    conduct.fails before other middle → conduct.fails middle failure after →
      conduct.fails before failure after

/-! ### Stricter conducts -/

section Refines

variable {stricter conduct : Conduct Machine} (refines : stricter.Refines conduct)

include refines

/-- What a stricter conduct allows evaluations to do where they are is allowed. -/
theorem Conduct.Refines.accesses [lawful : stricter.Accesses] : conduct.Accesses where
  fails_safe machine _ safe := refines.fails (lawful.fails_safe machine safe)
  lookup kind name := (lawful.lookup kind name).of_refines refines
  storedScalar? name := (lawful.storedScalar? name).of_refines refines
  loadFreeCell index := (lawful.loadFreeCell index).of_refines refines
  loadText name selector := (lawful.loadText name selector).of_refines refines
  definition name := (lawful.definition name).of_refines refines
  moves_registers machine _ _ _ _ _ _ _ _ consulted same :=
    refines.moves (lawful.moves_registers machine _ _ _ _ _ _ _ _ consulted same)
  fails_full machine := refines.fails (lawful.fails_full machine)
  fails_empty machine := refines.fails (lawful.fails_empty machine)

theorem Conduct.Refines.makes [lawful : stricter.Makes] : conduct.Makes where
  allocateBuffer name size := (lawful.allocateBuffer name size).of_refines refines
  loadElement name row column := (lawful.loadElement name row column).of_refines refines

end Refines

namespace Machine

variable {α β : Type} {conduct : Conduct Machine}

/-! ### Parts of the machine -/

theorem runOn_onMemory (step : Attempt Memory α) (machine : Machine) :
    (onMemory step).runOn machine =
      ((step.runOn machine.memory).1, { machine with memory := (step.runOn machine.memory).2 }) :=
  rfl

theorem obeys_stalled [waits : conduct.Waits] : (throw .stalled : Action α).Obeys conduct :=
  waits.fails_stalled

section Consults

variable [lawful : conduct.Consults]

theorem moves_random (machine : Machine) (random : Random) (seed : Single) :
    conduct.moves machine { machine with random, seed } :=
  lawful.moves_devices machine machine.host machine.deviceFailed machine.input machine.output random
    seed (.refl _)

theorem obeysFrom_throw {machine : Machine} {failure : Failure} (safe : failure.IsSafe) :
    (throw failure : Action α).ObeysFrom conduct machine :=
  lawful.fails_safe machine safe

theorem obeys_throw {failure : Failure} (safe : failure.IsSafe) :
    (throw failure : Action α).Obeys conduct :=
  fun machine => lawful.fails_safe machine safe

theorem obeys_fail {kind : ErrorKind} (other : kind ≠ .internalError) :
    (Attempt.fail kind : Action α).Obeys conduct :=
  obeys_throw (Error.isOrdinary_of_kind other)

theorem obeys_failWith {kind : ErrorKind} {detail : String}
    (other : detail ∉ Error.blamingDetails) :
    (Attempt.failWith kind detail : Action α).Obeys conduct :=
  obeys_throw (Error.isOrdinary_of_detail other)

theorem obeys_orFail {kind : ErrorKind} (other : kind ≠ .internalError) (value : Option α) :
    (Attempt.orFail kind value : Action α).Obeys conduct := by
  cases value with
  | none => exact obeys_fail other
  | some value => exact .pure value

theorem obeys_lift {result : Except Error α} (plain : IsPlain result) :
    (Attempt.lift result : Action α).Obeys conduct := by
  cases result with
  | ok value => exact .pure value
  | error error => exact obeys_throw (plain error rfl)

theorem runOn_onHost (step : Host → α × Host) (machine : Machine) : (onHost step).runOn machine =
    (.ok (step machine.host).1, { machine with host := (step machine.host).2 }) := rfl

/-- A step on the host that does not write to the byte store, and leaves the interrupt. -/
theorem obeys_onDevices {step : Host → α × Host}
    (consults : ∀ host : Host, host.Consulted (step host).2) : (onHost step).Obeys conduct :=
  fun machine => lawful.moves_devices machine _ machine.deviceFailed machine.input machine.output
    machine.random machine.seed (consults machine.host)

/-! ### Devices -/

theorem obeys_yield : yield.Obeys conduct := obeys_onDevices Host.consulted_yield

theorem obeys_setFailed (failed : Bool) :
    (modify fun machine => { machine with deviceFailed := failed } : Action Unit).Obeys conduct :=
  .modify fun machine => lawful.moves_devices machine machine.host failed machine.input
    machine.output
    machine.random machine.seed (.refl _)

theorem obeys_writeByte (byte : UInt8) : (writeByte byte).Obeys conduct := by
  refine Attempt.Obeys.get.bind fun machine => ?_
  refine (obeys_onDevices fun host => host.consulted_write _ _).bind fun written => ?_
  exact .ite ((obeys_setFailed true).bind fun _ => obeys_yield) obeys_yield

theorem obeys_write (bytes : Bytes) : (write bytes).Obeys conduct := by
  induction bytes with
  | nil => exact .pure _
  | cons byte rest ih => exact (obeys_writeByte byte).bind fun _ => ih

theorem obeys_writeTimes (byte : UInt8) (count : Nat) : (writeTimes byte count).Obeys conduct := by
  induction count with
  | zero => exact .pure _
  | succ count ih => exact (obeys_writeByte byte).bind fun _ => ih

/-! ### Interrupts -/

omit lawful in
/-- The interrupt is taken if it waits, and otherwise nothing happens. -/
theorem runOn_takeInterrupt (machine : Machine) :
    (machine.host.signals.interrupted = true ∧ ∃ host : Host, host.store = machine.host.store ∧
        takeInterrupt.runOn machine = (.ok true, { machine with host })) ∨
      (machine.host.signals.interrupted = false ∧
        takeInterrupt.runOn machine = (.ok false, machine)) := by
  let taken : Host :=
    { machine.host with signals := { machine.host.signals with interrupted := false } }
  have ran : takeInterrupt.runOn machine =
      (.ok machine.host.signals.interrupted, { machine with host := taken }) := rfl
  cases waits : machine.host.signals.interrupted
  · have same : taken = machine.host := by
      show { machine.host with signals := { machine.host.signals with interrupted := false } } = _
      rw [← waits]
    exact .inr ⟨rfl, by rw [ran, waits, same]⟩
  · exact .inl ⟨rfl, taken, rfl, by rw [ran, waits]⟩

omit lawful in
/-- A break is requested, or no interrupt waits and nothing happens. -/
theorem runOn_breakRequested (machine : Machine) :
    (∃ host : Host, host.store = machine.host.store ∧
        breakRequested.runOn machine = (.ok true, { machine with host })) ∨
      (machine.host.signals.interrupted = false ∧
        breakRequested.runOn machine = (.ok false, machine)) := by
  rcases runOn_takeInterrupt machine with ⟨-, host, same, ran⟩ | ⟨none_waits, ran⟩
  · exact .inl ⟨host, same, (Attempt.runOn_bind_ok ran _).trans rfl⟩
  rw [breakRequested, Attempt.runOn_bind_ok ran, if_neg Bool.false_ne_true, Attempt.runOn_get_bind]
  dsimp only
  split
  · exact .inl ⟨_, (machine.host.consulted_read Channel.console).store, rfl⟩
  · exact .inr ⟨none_waits, rfl⟩

section Breaks

variable [breaks : conduct.Breaks]

omit lawful in
theorem obeys_unlessInterrupted {next : Action α} (obeys : next.Obeys conduct) :
    (do if ← takeInterrupt then Attempt.fail .interrupted else next : Action α).Obeys conduct := by
  intro machine
  rcases runOn_takeInterrupt machine with ⟨-, host, same, ran⟩ | ⟨-, ran⟩
  · exact Attempt.obeysFrom_of_error ((Attempt.runOn_bind_ok ran _).trans rfl)
      (breaks.fails_interrupted machine host same)
  · exact .of_run (Attempt.runOn_bind_ok ran _) (conduct.refl machine) (obeys machine)

omit lawful in
theorem obeys_unlessBroken {next : Action α} (obeys : next.Obeys conduct) :
    (do if ← breakRequested then Attempt.fail .interrupted else next : Action α).Obeys conduct := by
  intro machine
  rcases runOn_breakRequested machine with ⟨host, same, ran⟩ | ⟨-, ran⟩
  · exact Attempt.obeysFrom_of_error ((Attempt.runOn_bind_ok ran _).trans rfl)
      (breaks.fails_interrupted machine host same)
  · exact .of_run (Attempt.runOn_bind_ok ran _) (conduct.refl machine) (obeys machine)

end Breaks

section Waits

variable [conduct.Waits] [conduct.Breaks]

theorem obeys_readByteWithin (channel : UInt8) (fuel : Nat) :
    (readByteWithin channel fuel).Obeys conduct := by
  induction fuel with
  | zero => exact obeys_stalled
  | succ fuel ih =>
    refine (obeys_onDevices fun host => host.consulted_read _).bind fun byte => ?_
    cases byte with
    | some byte => exact .pure _
    | none =>
      refine Attempt.Obeys.get.bind fun _ => .ite (obeys_yield.bind fun _ => ?_) (.pure _)
      exact obeys_unlessInterrupted ih

theorem obeys_readLineWithin (channel : UInt8) (fuel : Nat) (read : Bytes) :
    (readLineWithin channel fuel read).Obeys conduct := by
  induction fuel generalizing read with
  | zero => exact obeys_stalled
  | succ fuel ih =>
    refine .bind (Attempt.Obeys.get.bind fun _ => obeys_readByteWithin _ _) fun byte => ?_
    split
    · exact .pure _
    · exact ih _
    · exact ih _
    · exact .ite ((obeys_setFailed true).bind fun _ => .pure _) (.pure _)

theorem obeys_readLine : readLine.Obeys conduct :=
  Attempt.Obeys.get.bind fun _ => obeys_readLineWithin _ _ _

end Waits

/-! ### Numbers with a range -/

theorem obeys_channel (number : Single) : (Range.channel number).Obeys conduct :=
  .ite (obeys_fail (by decide)) (.pure _)

theorem obeys_byte (number : Single) : (Range.byte number).Obeys conduct :=
  .ite (obeys_fail (by decide)) (.pure _)

theorem obeys_count (number : Single) : (Range.count number).Obeys conduct :=
  .ite (obeys_fail (by decide)) (.pure _)

theorem obeys_bufferName (number : Single) : (Range.bufferName number).Obeys conduct :=
  .ite (obeys_fail (by decide)) (.pure _)

/-! ### Variables -/

theorem obeys_getSpecial (letter : UInt8) : (getSpecial letter).Obeys conduct := by
  refine Attempt.Obeys.get.bind fun machine => ?_
  repeat' apply Attempt.Obeys.ite
  all_goals try exact .pure _
  · refine (obeys_onDevices fun host => host.consulted_read _).bind fun byte => ?_
    cases byte <;> exact .pure _
  · exact obeys_fail (by decide)

theorem obeys_setSpecial (letter : UInt8) (value : Single) :
    (setSpecial letter value).Obeys conduct := by
  refine .ite (obeys_setFailed _) (.ite ?_ (.ite ?_ (.ite (obeys_writeByte _)
    (.ite (.modify fun machine => moves_random machine _ value) (obeys_fail (by decide))))))
  · exact (obeys_channel value).bind fun channel => .modify fun machine =>
      lawful.moves_devices machine machine.host machine.deviceFailed channel machine.output
        machine.random machine.seed (.refl _)
  · exact (obeys_channel value).bind fun channel => .modify fun machine =>
      lawful.moves_devices machine machine.host machine.deviceFailed machine.input channel
        machine.random machine.seed (.refl _)

theorem obeys_storeCell (index : Single) : (storeCell index).Obeys conduct := by
  refine Attempt.Obeys.get.bind fun machine => ?_
  cases machine.host.store with
  | none => exact obeys_failWith (by decide)
  | some store => exact .ite (obeys_fail (by decide)) (.pure _)

theorem obeys_clockField (index : Single) : (clockField index).Obeys conduct := by
  refine .ite (obeys_fail (by decide)) ?_
  dsimp only
  split
  · exact .pure _
  · exact obeys_fail (by decide)

theorem obeys_getSpecialElement (letter : UInt8) (index : Single) :
    (getSpecialElement letter index).Obeys conduct := by
  refine .ite (lawful.loadFreeCell index) (.ite ?_ (.ite ?_ (obeys_fail (by decide))))
  · refine (obeys_storeCell index).bind fun _ => Attempt.Obeys.get.bind fun machine => ?_
    cases machine.host.store <;> exact .pure _
  · refine (obeys_clockField index).bind fun _ => Attempt.Obeys.get.bind fun machine => ?_
    cases machine.host.clock <;> exact .pure _

theorem obeys_getSpecialText (letter : UInt8) : (getSpecialText letter).Obeys conduct :=
  .ite (.bind .get fun _ => .pure _) (obeys_fail (by decide))

theorem obeys_getScalar (name : Name) : (getScalar name).Obeys conduct :=
  .ite (obeys_getSpecial _) ((lawful.storedScalar? name).bind fun _ => .pure _)

omit lawful in
theorem obeys_setScalar [lawful : conduct.Assigns] (name : Name) (value : Single) :
    (setScalar name value).Obeys conduct :=
  .ite (obeys_setSpecial _ value) (lawful.storeScalar name value)

theorem obeys_getElement {name : Name} {row : Single} {column : Option Single}
    (loads : name.isSpecial = false → (do
      numberAt (← elementAddress name row column) : Action Single).Obeys conduct) :
    (getElement name row column).Obeys conduct := by
  rw [getElement]
  split
  · exact obeys_getSpecialElement _ row
  · rename_i ordinary
    exact loads (Bool.not_eq_true _ ▸ ordinary)

theorem obeys_readString (name : Name) (selector : Selector) :
    (readString name selector).Obeys conduct :=
  .ite (obeys_getSpecialText _) (lawful.loadText name selector)

end Consults

/-! ### Operands -/

section Accesses

variable [lawful : conduct.Accesses]

theorem moves_operands (machine : Machine) {operands : BoundedStack Single}
    (same : operands.overflowDetail = machine.operands.overflowDetail) :
    conduct.moves machine { machine with operands } :=
  lawful.moves_registers machine operands machine.depth machine.host machine.deviceFailed
    machine.input machine.output machine.random machine.seed (.refl _) same

theorem moves_depth (machine : Machine) (depth : Nat) :
    conduct.moves machine { machine with depth } :=
  lawful.moves_registers machine machine.operands depth machine.host machine.deviceFailed
    machine.input machine.output machine.random machine.seed (.refl _) rfl

omit lawful in
/-- A step on the operands leaves the rest of the machine as it was. -/
theorem runOn_onOperands {step : Attempt (BoundedStack Single) α} {machine : Machine}
    {result : Except Failure α} {operands : BoundedStack Single}
    (ran : step.runOn machine.operands = (result, operands)) :
    (onOperands step).runOn machine = (result, { machine with operands }) := by
  rw [onOperands, Attempt.within, Attempt.runOn_ofRun]
  simp only [ran]

/-- A step that takes operands off. -/
theorem obeys_onOperands {step : Attempt (BoundedStack Single) α} (takes : step.Obeys .takesOff) :
    (onOperands step).Obeys conduct := by
  intro machine
  have taken := takes machine.operands
  rcases ran : step.runOn machine.operands with ⟨failure | value, operands⟩
  · obtain ⟨⟨same, underflow⟩, rfl⟩ := taken.fails ran
    rw [← underflow] at ran
    exact Attempt.obeysFrom_of_error (runOn_onOperands ran)
      (conduct.fails_of_moves (moves_operands machine same) (lawful.fails_empty _))
  · exact Attempt.obeysFrom_of_ok (runOn_onOperands ran)
      (moves_operands machine (taken.moves ran).1)

theorem obeys_push (value : Single) : (push value).Obeys conduct := by
  intro machine
  cases room : machine.operands.isFull with
  | true =>
    exact Attempt.obeysFrom_of_error (runOn_onOperands (BoundedStack.runOn_push_of_full room))
      (lawful.fails_full machine)
  | false =>
    exact Attempt.obeysFrom_of_ok (runOn_onOperands (BoundedStack.runOn_push_of_room room))
      (moves_operands machine rfl)

theorem obeys_pop : pop.Obeys conduct := obeys_onOperands BoundedStack.takesOff_pop

theorem obeys_popPair : (onOperands BoundedStack.popPair).Obeys conduct :=
  obeys_onOperands BoundedStack.takesOff_popPair

theorem obeys_popMany (count : Nat) : (onOperands (BoundedStack.popMany count)).Obeys conduct :=
  obeys_onOperands (BoundedStack.takesOff_popMany count)

omit lawful in
theorem obeys_checkDepth [conduct.Consults] {detail : String}
    (other : detail ∉ Error.blamingDetails) : (checkDepth detail).Obeys conduct :=
  Attempt.Obeys.get.bind fun _ => .ite (obeys_failWith other) (.pure _)

theorem obeys_nested {evaluation : Action α} (obeys : evaluation.Obeys conduct) :
    (nested evaluation).Obeys conduct := by
  refine (obeys_checkDepth (by decide)).bind fun _ => ?_
  refine .bind (.modify fun machine => moves_depth machine _) fun _ => ?_
  exact obeys.ensuring fun machine => moves_depth machine _

end Accesses

/-! ### Reading -/

section Follows

variable [lawful : conduct.Follows]

theorem moves_skipWithin (stops : Token → Bool) (fuel : Nat) (machine : Machine) :
    conduct.moves machine (skipWithin stops fuel machine) := by
  induction fuel generalizing machine with
  | zero => exact conduct.refl machine
  | succ fuel ih =>
    rw [skipWithin]
    split
    · exact conduct.refl machine
    · exact conduct.trans (lawful.moves_next machine) (ih _)

theorem obeys_skipTo (stops : Token → Bool) : (modify (skipTo stops) : Action Unit).Obeys conduct :=
  .modify fun machine => moves_skipWithin stops _ machine

theorem obeys_advance : advance.Obeys conduct := .modify lawful.moves_next

omit lawful in
theorem obeys_token : token.Obeys conduct := Attempt.Obeys.get.bind fun _ => .pure _

omit lawful in
/-- What follows a look at the token obeys a conduct if it does so for the tokens that the conduct
does not ignore. -/
theorem obeys_token_bind {next : Token → Action β}
    (goesOn : ∀ token, ¬ conduct.Ignores token → (next token).Obeys conduct) :
    (token >>= next).Obeys conduct := by
  intro machine
  by_cases ignored : conduct.Ignores machine.cursor.token
  · rcases ran : (token >>= next).runOn machine with ⟨failure | value, after⟩
    · exact Attempt.obeysFrom_of_error ran ((ignored machine rfl after).2 failure)
    · exact Attempt.obeysFrom_of_ok ran (ignored machine rfl after).1
  · exact goesOn _ ignored machine

omit lawful in
theorem obeys_location : location.Obeys conduct := Attempt.Obeys.get.bind fun _ => .pure _

omit lawful in
theorem obeys_atEnd : atEnd.Obeys conduct := obeys_token.bind fun _ => .pure _

theorem obeys_expect (symbol : Char) : (expect symbol).Obeys conduct :=
  obeys_token.bind fun _ => .ite obeys_advance (obeys_fail (by decide))

theorem obeys_accept (symbol : Char) : (accept symbol).Obeys conduct :=
  obeys_token.bind fun _ => .ite (obeys_advance.bind fun _ => .pure _) (.pure _)

end Follows

/-! ### Operators -/

section Reads

variable [lawful : conduct.Reads]

theorem obeys_operatorsWithin (operator? : Token → Option Operator) {operand : Action Unit}
    (obeys : operand.Obeys conduct) (fuel : Nat) :
    (operatorsWithin operator? operand fuel).Obeys conduct := by
  induction fuel with
  | zero => exact obeys_stalled
  | succ fuel ih =>
    refine obeys_token.bind fun token => ?_
    cases operator? token with
    | none => exact .pure _
    | some operator =>
      refine obeys_advance.bind fun _ => obeys.bind fun _ => obeys_popPair.bind fun operands => ?_
      refine Attempt.Obeys.get.bind fun machine => ?_
      refine (obeys_lift (Arithmetic.isPlain_apply operator _ _ _)).bind fun value => ?_
      exact (obeys_push value).bind fun _ => ih

theorem obeys_operators (operator? : Token → Option Operator) {operand : Action Unit}
    (obeys : operand.Obeys conduct) : (operators operator? operand).Obeys conduct :=
  Attempt.Obeys.get.bind fun _ => obeys_operatorsWithin operator? obeys _

end Reads

end Machine

/-! ### Expressions and what contains them -/

namespace Evaluator.Obeys

open Machine

section Reads

variable {conduct : Conduct Machine} [lawful : conduct.Reads] {deeper : Evaluator}

theorem expression (obeys : deeper.Obeys conduct) : deeper.expression.Obeys conduct :=
  obeys_nested (obeys.numeric _)

theorem value (obeys : deeper.Obeys conduct) : deeper.value.Obeys conduct :=
  obeys.expression.bind fun _ => obeys_pop

theorem valueAfterComma (obeys : deeper.Obeys conduct) : deeper.valueAfterComma.Obeys conduct :=
  (obeys_accept _).bind fun _ => .ite (obeys.value.bind fun _ => .pure _) (.pure _)

theorem subscripts (obeys : deeper.Obeys conduct) : deeper.subscripts.Obeys conduct := by
  refine (obeys_expect _).bind fun _ => obeys.value.bind fun row => ?_
  refine obeys.valueAfterComma.bind fun column => ?_
  exact (obeys_expect _).bind fun _ => .pure _

theorem selector (obeys : deeper.Obeys conduct) : deeper.selector.Obeys conduct := by
  refine (obeys_accept _).bind fun opened => .ite (.pure _) ?_
  have rest (bounds : Selector) : (do
      expect ')'
      if !(← accept '(') then return bounds
      let index ← deeper.value
      expect ')'
      return { bounds with index := some index } : Action Selector).Obeys conduct := by
    refine (obeys_expect _).bind fun _ => (obeys_accept _).bind fun again => .ite (.pure _) ?_
    exact obeys.value.bind fun _ => (obeys_expect _).bind fun _ => .pure _
  refine obeys_token.bind fun token => .ite ?_ (rest _)
  exact obeys.value.bind fun lower => obeys.valueAfterComma.bind fun upper => rest _

theorem target (obeys : deeper.Obeys conduct) : deeper.target.Obeys conduct := by
  refine obeys_token.bind fun token => ?_
  split
  · exact obeys_advance.bind fun _ => .pure _
  · exact obeys_advance.bind fun _ => obeys.subscripts.bind fun _ => .pure _
  · exact obeys_advance.bind fun _ => obeys.selector.bind fun _ => .pure _
  · exact obeys_fail (by decide)

theorem string? (obeys : deeper.Obeys conduct) : deeper.string?.Obeys conduct := by
  refine obeys_token.bind fun token => ?_
  split
  · exact obeys_advance.bind fun _ => .pure _
  · exact obeys_advance.bind fun _ => obeys.selector.bind fun _ =>
      (obeys_readString _ _).bind fun _ => .pure _
  · refine .ite (obeys_advance.bind fun _ => (obeys_accept _).bind fun _ => ?_) (.pure _)
    exact (obeys_nested (obeys.string _)).bind fun _ => .pure _
  · exact .pure _

theorem text (obeys : deeper.Obeys conduct) : deeper.text.Obeys conduct :=
  obeys.string?.bind fun _ => obeys_orFail (by decide) _

theorem stringFunction (obeys : deeper.Obeys conduct) (word : Keyword) :
    (deeper.stringFunction word).Obeys conduct := by
  have close (text : Bytes) : (do
      expect ')'
      return text : Action Bytes).Obeys conduct := (obeys_expect _).bind fun _ => .pure _
  refine (obeys_expect _).bind fun _ => ?_
  dsimp only
  split
  · exact obeys.value.bind fun _ => close _
  · exact obeys.value.bind fun _ => (obeys_byte _).bind fun _ => close _
  · refine obeys.text.bind fun _ => (obeys_expect _).bind fun _ => obeys.value.bind fun _ => ?_
    exact (obeys_count _).bind fun _ => close _
  · refine obeys.text.bind fun _ => (obeys_expect _).bind fun _ => obeys.value.bind fun _ => ?_
    exact (obeys_count _).bind fun _ => close _
  · refine obeys.text.bind fun _ => (obeys_expect _).bind fun _ => obeys.value.bind fun _ => ?_
    refine .ite ((obeys_fail (by decide)).bind fun _ => close _) ?_
    refine obeys.valueAfterComma.bind fun count => ?_
    cases count with
    | none => exact close _
    | some count => exact (obeys_count _).bind fun _ => close _
  · exact (obeys_failWith (by decide)).bind fun _ => close _

/-! ### Functions -/

theorem argumentsWithin (obeys : deeper.Obeys conduct) (fuel count : Nat) :
    (deeper.argumentsWithin fuel count).Obeys conduct := by
  induction fuel generalizing count with
  | zero => exact obeys_stalled
  | succ fuel ih =>
    exact obeys.expression.bind fun _ => (obeys_accept _).bind fun _ => .ite (ih _) (.pure _)

theorem arguments (obeys : deeper.Obeys conduct) : deeper.arguments.Obeys conduct := by
  have close (count : Nat) : (do
      expect ')'
      return count : Action Nat).Obeys conduct := (obeys_expect _).bind fun _ => .pure _
  refine (obeys_expect _).bind fun _ => obeys_token.bind fun _ => .ite (close 0) ?_
  exact Attempt.Obeys.get.bind fun _ => (obeys.argumentsWithin _ _).bind fun _ => close _

omit lawful in
theorem functionValue [lawful : conduct.Consults] {word : Keyword} (arguments : List Single)
    (allocates : word = .malloc → ∀ name size,
      (onMemory (Memory.allocate .buffer name size)).Obeys conduct) :
    (Evaluator.functionValue word arguments).Obeys conduct := by
  refine .get_bind fun machine => ?_
  dsimp only
  split
  · exact .bind (moves_random machine _ machine.seed) fun _ => .pure _
  · exact (obeys_count _).bind (fun _ => (obeys_orFail (by decide) _).bind fun _ => .pure _) machine
  · exact .ite (fun _ => obeysFrom_throw trivial) fun _ => .pure _
  · exact (obeys_channel _).bind (fun _ => .pure _) machine
  · refine (obeys_bufferName _).bind (fun name => (obeys_count _).bind fun size => ?_) machine
    exact (allocates rfl name size).bind fun _ => .pure _
  · exact .pure _
  · exact .pure _
  · exact obeys_lift (Builtin.isPlain_evaluate word arguments _) machine

theorem numericFunction (obeys : deeper.Obeys conduct) {word : Keyword}
    (allocates : word = .malloc → ∀ name size,
      (onMemory (Memory.allocate .buffer name size)).Obeys conduct) :
    (deeper.numericFunction word).Obeys conduct := by
  refine (obeys_orFail (by decide) _).bind fun arity => obeys_advance.bind fun _ => ?_
  have rest (count : Nat) : (do
      if count ≠ arity then Attempt.fail .illegalFunctionCall
      else
        let arguments ← onOperands (BoundedStack.popMany count)
        push (← Evaluator.functionValue word arguments) : Action Unit).Obeys conduct := by
    refine .ite (obeys_fail (by decide)) ((obeys_popMany count).bind fun arguments => ?_)
    exact (functionValue arguments allocates).bind fun _ => obeys_push _
  refine obeys_token.bind fun _ => .ite (obeys.arguments.bind rest) (rest 0)

theorem textFunction (obeys : deeper.Obeys conduct) (word : Keyword) :
    (deeper.textFunction word).Obeys conduct := by
  have close (result : Single) : (do
      expect ')'
      push result : Action Unit).Obeys conduct := (obeys_expect _).bind fun _ => obeys_push _
  refine obeys_advance.bind fun _ => (obeys_expect _).bind fun _ => ?_
  split
  · refine obeys.string?.bind fun text => ?_
    cases text with
    | some text => exact close _
    | none =>
      refine obeys.value.bind fun _ => (obeys_bufferName _).bind fun name => ?_
      exact (lawful.lookup .buffer name).bind fun payload => close _
  · exact obeys.text.bind fun _ => Attempt.Obeys.get.bind fun _ => close _
  · exact obeys.text.bind fun _ => close _
  · refine obeys.text.bind fun _ => (obeys_expect _).bind fun _ => ?_
    exact obeys.text.bind fun _ => close _

theorem objectName (obeys : deeper.Obeys conduct) : deeper.objectName.Obeys conduct := by
  refine obeys_token.bind fun token => ?_
  split
  · exact obeys_advance.bind fun _ => .pure _
  · exact obeys_advance.bind fun _ => .pure _
  · refine obeys_advance.bind fun _ => (obeys_expect _).bind fun _ => ?_
    exact (obeys_expect _).bind fun _ => .pure _
  · refine obeys_advance.bind fun _ => obeys_token.bind fun token => ?_
    split
    · exact obeys_advance.bind fun _ => .pure _
    · exact obeys_advance.bind fun _ => .pure _
    · exact obeys_fail (by decide)
  · exact obeys.value.bind fun _ => (obeys_bufferName _).bind fun _ => .pure _

theorem find (obeys : deeper.Obeys conduct) : deeper.find.Obeys conduct := by
  refine obeys_advance.bind fun _ => (obeys_expect _).bind fun _ => ?_
  refine obeys.objectName.bind fun object => (obeys_expect _).bind fun _ => ?_
  exact (lawful.lookup object.1 object.2).bind fun _ => obeys_push _

/-! ### User functions -/

theorem argument (obeys : deeper.Obeys conduct) : deeper.argument.Obeys conduct := by
  have close (value : Option Single) : (do
      expect ')'
      return value : Action (Option Single)).Obeys conduct :=
    (obeys_expect _).bind fun _ => .pure _
  refine (obeys_accept _).bind fun _ => .ite (.pure _) (obeys_token.bind fun _ => ?_)
  exact .ite (close none) ((obeys.value.map _).bind fun _ => close _)

theorem functionBody (obeys : deeper.Obeys conduct) : deeper.functionBody.Obeys conduct :=
  obeys_token.bind fun _ => .ite (obeys_advance.bind fun _ => obeys.expression)
    (obeys_fail (by decide))

/-- A step that is followed by another one whether it fails or not; what failed is told then. -/
def recover (first last : Action Unit) : Action Unit := do
  let result ← Attempt.caught first
  let restored ← Attempt.caught last
  Attempt.lift result
  Attempt.lift restored

/-- What is left of a user function once its argument and its definition are known: its expression
is evaluated at its own place of the text, while its parameter has the value of the argument. -/
def call (deeper : Evaluator) (entry : Nat) (parameter : Name) (argument : Option Single) :
    Action Unit := do
  let back ← location
  let bound ← Evaluator.bindParameter parameter argument
  moveTo { mode := if back.mode = .runStore then Mode.runStore else .run, offset := entry }
  recover deeper.functionBody (Evaluator.unbindParameter bound)
  moveTo back

/-- What follows the argument of a user function: its definition, and its call. -/
def callDefined (deeper : Evaluator) (name : Name) (argument : Option Single) : Action Unit := do
  let (entry, parameter) ← Evaluator.definition name
  checkDepth "FN"
  call deeper entry parameter argument

/-- What follows the name of a user function: its argument, and its call. -/
def named (deeper : Evaluator) (name : Name) : Action Unit := do
  advance
  let argument ← deeper.argument
  callDefined deeper name argument

/-- A user function obeys what the call of its definition obeys. -/
theorem userFunction_of_defined (obeys : deeper.Obeys conduct)
    (calls : ∀ name argument, (callDefined deeper name argument).Obeys conduct) :
    deeper.userFunction.Obeys conduct := by
  refine obeys_advance.bind fun _ => obeys_token.bind fun token => ?_
  have rest (name : Name) : (named deeper name).Obeys conduct :=
    obeys_advance.bind fun _ => obeys.argument.bind fun argument => calls name argument
  simp only [named, callDefined, call, recover, bind_assoc] at rest
  split
  · exact rest _
  · exact rest _
  · exact (obeys_fail (by decide)).bind rest

/-- A user function obeys what its call obeys, whatever the definition. -/
theorem userFunction_of_call (obeys : deeper.Obeys conduct)
    (calls : ∀ entry parameter argument, (call deeper entry parameter argument).Obeys conduct) :
    deeper.userFunction.Obeys conduct :=
  obeys.userFunction_of_defined fun name _ => (lawful.definition name).bind fun _ =>
    (obeys_checkDepth (by decide)).bind fun _ => calls _ _ _

end Reads

/-! ### Parameters -/

section Assigns

variable {conduct : Conduct Machine} [lawful : conduct.Assigns]

theorem bindParameter (parameter : Name) (argument : Option Single) :
    (Evaluator.bindParameter parameter argument).Obeys conduct := by
  cases argument with
  | none => exact .ite (.pure _) (obeys_fail (by decide))
  | some value =>
    refine .ite (obeys_fail (by decide)) ((lawful.storedScalar? parameter).bind fun old => ?_)
    exact (obeys_setScalar parameter value).bind fun _ => .pure _

theorem unbindParameter (bound : Option (Name × Option Single)) :
    (Evaluator.unbindParameter bound).Obeys conduct := by
  rcases bound with _ | ⟨parameter, _ | old⟩
  · exact .pure _
  · exact (lawful.deleteScalar parameter).bind fun _ => .pure _
  · exact obeys_setScalar parameter old

end Assigns

section Evaluates

variable {conduct : Conduct Machine} [lawful : conduct.Evaluates] {deeper : Evaluator}

theorem recovering {first last : Action Unit} (obeys : first.Obeys conduct)
    (after : last.Obeys conduct) : (recover first last).Obeys conduct := by
  intro machine
  have begun := (obeys machine).caught
  rcases ran : (Attempt.caught first).runOn machine with ⟨failure | result, middle⟩
  all_goals rw [ran] at begun
  · exact Attempt.obeysFrom_of_error (Attempt.runOn_bind_error ran _) begun
  have ended := (after middle).caught
  rw [recover, Attempt.ObeysFrom, Attempt.runOn_bind_ok ran]
  rcases again : (Attempt.caught last).runOn middle with ⟨failure | restored, final⟩
  all_goals rw [again] at ended
  · rw [Attempt.runOn_bind_error again]
    rcases result with error | ⟨⟩
    · exact lawful.fails_second begun ended
    · exact conduct.fails_of_moves begun ended
  rw [Attempt.runOn_bind_ok again]
  rcases result with error | ⟨⟩ <;> rcases restored with other | ⟨⟩
  · exact lawful.fails_first begun ended
  · exact conduct.fails_moves begun ended
  · exact conduct.fails_of_moves begun ended
  · exact conduct.trans begun ended

/-- A step at the expression of a function, behind one that may change the machine, and back. -/
theorem excursion {α : Type} {first : Action α} {step : α → Action Unit}
    (obeys : first.Obeys conduct) (entry : Nat) (away : ∀ value, (step value).Obeys conduct) : (do
      let back ← location
      let value ← first
      moveTo { mode := if back.mode = .runStore then Mode.runStore else .run, offset := entry }
      step value
      moveTo back : Action Unit).Obeys conduct := by
  refine .get_bind fun before => ?_
  rw [Attempt.ObeysFrom]
  rcases ran : first.runOn before with ⟨failure | value, middle⟩
  · rw [Attempt.runOn_bind_error ran]
    exact (obeys before).fails ran
  rw [Attempt.runOn_bind_ok ran]
  have moved := (obeys before).moves ran
  let mode := if before.cursor.location.mode = .runStore then Mode.runStore else .run
  have there : jump { mode, offset := entry } middle = jump (before.bodyPlace entry) middle := rfl
  rw [moveTo, Attempt.runOn_modify_bind, there]
  rcases went : (step value).runOn (jump (before.bodyPlace entry) middle) with
    ⟨failure | ⟨⟩, after⟩
  · rw [Attempt.runOn_bind_error went]
    exact lawful.fails_excursion entry moved ((away value _).fails went)
  · rw [Attempt.runOn_bind_ok went]
    exact lawful.moves_excursion entry moved ((away value _).moves went)

/-- **A conduct that allows what user functions are made of is obeyed by them.** -/
instance calls_of_evaluates : conduct.Calls where
  reads := lawful.toReads
  allocateBuffer _ := lawful.allocateBuffer
  loadElement name row column _ _ := lawful.loadElement name row column
  userFunction _ _ obeys := obeys.userFunction_of_call fun _ _ _ =>
    excursion (bindParameter _ _) _ fun bound =>
      recovering obeys.functionBody (unbindParameter bound)

end Evaluates

section Calls

variable {conduct : Conduct Machine} [lawful : conduct.Calls] {deeper : Evaluator}

/-! ### Levels -/

theorem function (obeys : deeper.Obeys conduct) {word : Keyword}
    (heeded : ¬ conduct.Ignores (.word word)) : (deeper.function word).Obeys conduct := by
  unfold Evaluator.function
  split
  · exact lawful.userFunction heeded obeys
  · exact obeys.textFunction _
  · exact obeys.textFunction _
  · exact obeys.textFunction _
  · exact obeys.textFunction _
  · exact obeys.find
  · exact obeys_advance.bind fun _ => Attempt.Obeys.get.bind fun _ => obeys_push _
  · exact obeys.numericFunction fun same => lawful.allocateBuffer (same ▸ heeded)

theorem stringFactor (obeys : deeper.Obeys conduct) : deeper.stringFactor.Obeys conduct := by
  refine obeys.text.bind fun left => obeys_token.bind fun token => ?_
  cases token.relation? with
  | none => exact obeys_push _
  | some operator =>
    exact obeys_advance.bind fun _ => obeys.text.bind fun right => obeys_push _

theorem factor (obeys : deeper.Obeys conduct) : deeper.factor.Obeys conduct := by
  refine obeys_token_bind fun token heeded => ?_
  split
  · refine obeys_advance.bind fun _ => (obeys_nested (obeys.numeric _)).bind fun _ => ?_
    exact obeys_pop.bind fun _ => obeys_push _
  · exact obeys_advance.bind fun _ => obeys_nested (obeys.numeric _)
  · exact obeys_advance.bind fun _ => obeys_push _
  · exact obeys_advance.bind fun _ => (obeys_getScalar _).bind fun _ => obeys_push _
  · refine obeys_advance.bind fun _ => obeys.subscripts.bind fun place => ?_
    exact (obeys_getElement fun ordinary =>
      lawful.loadElement _ _ _ ordinary heeded).bind fun _ => obeys_push _
  · exact obeys.stringFactor
  · exact obeys.stringFactor
  · exact .ite obeys.stringFactor (obeys.function heeded)
  · exact obeys_advance.bind fun _ => obeys.expression.bind fun _ => obeys_expect _
  · exact obeys_fail (by decide)

theorem power (obeys : deeper.Obeys conduct) : deeper.power.Obeys conduct :=
  obeys.factor.bind fun _ => obeys_operators _ obeys.factor

theorem product (obeys : deeper.Obeys conduct) : deeper.product.Obeys conduct :=
  obeys.power.bind fun _ => obeys_operators _ obeys.power

theorem sum (obeys : deeper.Obeys conduct) : deeper.sum.Obeys conduct := by
  refine obeys_token.bind fun _ => .ite ?_ ?_
  · exact (obeys_push _).bind fun _ => obeys_operators _ obeys.product
  · exact obeys.product.bind fun _ => obeys_operators _ obeys.product

theorem comparison (obeys : deeper.Obeys conduct) : deeper.comparison.Obeys conduct :=
  obeys.sum.bind fun _ => obeys_operators _ obeys.sum

theorem negation (obeys : deeper.Obeys conduct) : deeper.negation.Obeys conduct := by
  refine obeys_token.bind fun _ => .ite (obeys_advance.bind fun _ => ?_) obeys.comparison
  refine (obeys_nested (obeys.numeric _)).bind fun _ => obeys_pop.bind fun operand => ?_
  exact (obeys_lift (Arithmetic.isPlain_not operand)).bind fun _ => obeys_push _

theorem conjunction (obeys : deeper.Obeys conduct) : deeper.conjunction.Obeys conduct :=
  obeys.negation.bind fun _ => obeys_operators _ obeys.negation

theorem disjunction (obeys : deeper.Obeys conduct) : deeper.disjunction.Obeys conduct :=
  obeys.conjunction.bind fun _ => obeys_operators _ obeys.conjunction

theorem level (obeys : deeper.Obeys conduct) (level : Level) :
    (deeper.level level).Obeys conduct := by
  cases level with
  | disjunction => exact obeys.disjunction
  | negation => exact obeys.negation
  | power => exact obeys.power

theorem concatenationWithin (obeys : deeper.Obeys conduct) (fuel : Nat) (before : Bytes) :
    (deeper.concatenationWithin fuel before).Obeys conduct := by
  induction fuel generalizing before with
  | zero => exact obeys_stalled
  | succ fuel ih =>
    have rest (piece : Bytes) : (do
        if (← token).isOperator .plus then
          advance
          deeper.concatenationWithin fuel (before ++ piece)
        else return before ++ piece : Action Bytes).Obeys conduct :=
      obeys_token.bind fun _ => .ite (obeys_advance.bind fun _ => ih _) (.pure _)
    refine obeys.string?.bind fun text => ?_
    cases text with
    | some text => exact rest text
    | none =>
      refine obeys.product.bind fun _ => obeys_pop.bind fun _ => (obeys_byte _).bind fun _ => ?_
      exact rest _

theorem concatenation (obeys : deeper.Obeys conduct) : deeper.concatenation.Obeys conduct := by
  refine Attempt.Obeys.get.bind fun _ => (obeys.concatenationWithin _ _).bind fun _ => ?_
  exact .ite (obeys_fail (by decide)) (.pure _)

end Calls

end Evaluator.Obeys

/-! ### Evaluators -/

theorem obeys_evaluator {conduct : Conduct Machine} [conduct.Calls] (budget : Nat) :
    (evaluator budget).Obeys conduct := by
  induction budget with
  | zero => exact ⟨fun _ => Machine.obeys_stalled, fun _ => Machine.obeys_stalled⟩
  | succ budget ih => exact ⟨ih.level, ih.stringFunction⟩

/-- **What evaluators do, statements do when they evaluate.** -/
theorem Machine.obeys_evaluate {conduct : Conduct Machine} [conduct.Calls] {α : Type}
    {evaluation : Evaluator → Action α}
    (obeys : ∀ deeper, deeper.Obeys conduct → (evaluation deeper).Obeys conduct) :
    (evaluate evaluation).Obeys conduct :=
  Attempt.Obeys.get.bind fun _ => obeys _ (obeys_evaluator _)

/-! ### Whole evaluations -/

namespace Machine

/-- The ways to evaluate an expression: for its number, for its text if it is one, and for the text
of several joined ones. -/
inductive ReadsExpression : {α : Type} → Action α → Prop
  | value : ReadsExpression value
  | text : ReadsExpression text
  | string? : ReadsExpression string?
  | concatenation : ReadsExpression (evaluate Evaluator.concatenation)

/-- What statements evaluate: expressions, places to assign to, subscripts, what may follow a comma,
and names of objects. -/
inductive IsEvaluation : {α : Type} → Action α → Prop
  | expression {α : Type} {step : Action α} (reads : ReadsExpression step) : IsEvaluation step
  | target : IsEvaluation target
  | subscripts : IsEvaluation (evaluate Evaluator.subscripts)
  | valueAfterComma : IsEvaluation (evaluate Evaluator.valueAfterComma)
  | objectName : IsEvaluation (evaluate Evaluator.objectName)

end Machine

/-- A conduct that allows whole evaluations. -/
class Conduct.Computes (conduct : Conduct Machine) : Prop where
  evaluation : ∀ {α : Type} {step : Action α}, Machine.IsEvaluation step → step.Obeys conduct

/-- A conduct that allows whole evaluations, and what statements do around them. -/
class Conduct.Operates (conduct : Conduct Machine) : Prop
    extends conduct.Follows, conduct.Assigns, conduct.Computes where
  /-- Operands are dropped, by themselves and when all evaluations end. -/
  moves_cleared : ∀ (machine : Machine) {depth : Nat}, depth = machine.depth ∨ depth = 0 →
    conduct.moves machine { machine with operands := machine.operands.clear, depth }
  /-- A text is evaluated for a name; whatever error it has, a syntax error is told instead. -/
  named : (Attempt.reportingAs .syntaxError Machine.text).Obeys conduct

/-- What a stricter conduct allows is allowed. -/
theorem Conduct.Refines.operates {stricter conduct : Conduct Machine}
    (refines : stricter.Refines conduct) [lawful : stricter.Operates] : conduct.Operates where
  moves_devices machine host deviceFailed input output random seed consulted := refines.moves
    (lawful.moves_devices machine host deviceFailed input output random seed consulted)
  fails_safe machine _ safe := refines.fails (lawful.fails_safe machine safe)
  lookup kind name := (lawful.lookup kind name).of_refines refines
  storedScalar? name := (lawful.storedScalar? name).of_refines refines
  loadFreeCell index := (lawful.loadFreeCell index).of_refines refines
  loadText name selector := (lawful.loadText name selector).of_refines refines
  definition name := (lawful.definition name).of_refines refines
  fails_stalled machine := refines.fails (lawful.fails_stalled machine)
  moves_next machine := refines.moves (lawful.moves_next machine)
  storeScalar name value := (lawful.storeScalar name value).of_refines refines
  deleteScalar name := (lawful.deleteScalar name).of_refines refines
  evaluation evaluates := (lawful.evaluation evaluates).of_refines refines
  moves_cleared machine _ same := refines.moves (lawful.moves_cleared machine same)
  named := lawful.named.of_refines refines

namespace Machine

variable {conduct : Conduct Machine}

section Computes

variable [lawful : conduct.Computes]

theorem ReadsExpression.obeys {α : Type} {step : Action α} (reads : ReadsExpression step) :
    step.Obeys conduct := lawful.evaluation (.expression reads)

theorem obeys_value : value.Obeys conduct := ReadsExpression.value.obeys

theorem obeys_text : text.Obeys conduct := ReadsExpression.text.obeys

theorem obeys_string? : string?.Obeys conduct := ReadsExpression.string?.obeys

theorem obeys_concatenation : (evaluate Evaluator.concatenation).Obeys conduct :=
  ReadsExpression.concatenation.obeys

theorem obeys_target : target.Obeys conduct := lawful.evaluation .target

theorem obeys_subscripts : (evaluate Evaluator.subscripts).Obeys conduct :=
  lawful.evaluation .subscripts

theorem obeys_valueAfterComma : (evaluate Evaluator.valueAfterComma).Obeys conduct :=
  lawful.evaluation .valueAfterComma

theorem obeys_objectName : (evaluate Evaluator.objectName).Obeys conduct :=
  lawful.evaluation .objectName

end Computes

/-- A text is evaluated for a name as it is for itself, if a syntax error may be told instead. -/
theorem obeys_named (evaluates : text.Obeys conduct)
    (otherwise : ∀ {before after : Machine} {failure : Failure},
      conduct.fails before failure after →
        conduct.fails before (.reported { kind := .syntaxError }) after) :
    (Attempt.reportingAs .syntaxError text).Obeys conduct := by
  intro machine
  have obeys : text.ObeysFrom conduct machine := evaluates machine
  rw [Attempt.ObeysFrom, Attempt.reportingAs, Attempt.runOn_ofRun]
  rcases ran : text.runOn machine with ⟨(error | - | - | -) | value, after⟩
  · exact otherwise (obeys.fails ran)
  · exact obeys.fails ran
  · exact obeys.fails ran
  · exact obeys.fails ran
  · exact obeys.moves ran

/-- **What user functions obey, whole evaluations obey.** -/
instance computes_of_calls [conduct.Calls] : conduct.Computes where
  evaluation evaluates := by
    cases evaluates with
    | expression reads =>
      cases reads with
      | value => exact obeys_evaluate fun _ => Evaluator.Obeys.value
      | text => exact obeys_evaluate fun _ => Evaluator.Obeys.text
      | string? => exact obeys_evaluate fun _ => Evaluator.Obeys.string?
      | concatenation => exact obeys_evaluate fun _ => Evaluator.Obeys.concatenation
    | target => exact obeys_evaluate fun _ => Evaluator.Obeys.target
    | subscripts => exact obeys_evaluate fun _ => Evaluator.Obeys.subscripts
    | valueAfterComma => exact obeys_evaluate fun _ => Evaluator.Obeys.valueAfterComma
    | objectName => exact obeys_evaluate fun _ => Evaluator.Obeys.objectName

instance operates_of_evaluates [lawful : conduct.Evaluates] : conduct.Operates where
  toFollows := inferInstance
  storeScalar := lawful.storeScalar
  deleteScalar := lawful.deleteScalar
  toComputes := inferInstance
  moves_cleared machine depth _ := lawful.moves_registers machine machine.operands.clear depth
    machine.host machine.deviceFailed machine.input machine.output machine.random machine.seed
    (.refl _) rfl
  named := obeys_named obeys_text lawful.fails_otherwise

end Machine

end PocketBasic
