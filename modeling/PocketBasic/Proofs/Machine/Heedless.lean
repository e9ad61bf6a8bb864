/-
**Evaluations are heedless of guises.** What an expression reads are tokens, variables and devices;
where it goes, to the body of a function, it comes back from. So it gives the same in any guise that
goes unnoticed.

* `Machine.heedless_registers`: changes of what is neither a place nor a text;
* `Machine.heedless_advance`, `Machine.heedless_moveTo`: reading on;
* `Disguise.Accesses`: disguises that steps on memory do not see through;
* `Evaluator.IsHeedless`: evaluators whose evaluations are heedless;
* **`Machine.heedless_evaluate`**: evaluations are heedless.
-/

import Mathlib.Tactic.Common
import PocketBasic.Proofs.Machine.Disguises
import PocketBasic.Proofs.Machine.Evaluating

namespace PocketBasic

namespace Machine

open Disguise

variable {α β : Type} {disguise : Disguise} {machine after : Machine} {guise : Guise}
  {good : α → Prop} {fine : β → Prop}

/-! ### Looking -/

/-- The token that a machine reads is seen in any guise. -/
theorem heedless_token : disguise.Heedless token :=
  .get_bind (fun _ _ _ => rfl) fun _ _ _ => .pure trivial

theorem heedless_atEnd : disguise.Heedless atEnd := heedless_token.bind fun _ => .pure trivial

theorem heedless_isInteractive : disguise.Heedless isInteractive :=
  .get_bind (fun _ _ _ => rfl) fun _ _ _ => .pure trivial

/-- A choice by what a machine shows that is looked at. -/
theorem heedless_get_ite {condition : Machine → Bool} {first second : Machine → Action α}
    (same : ∀ (machine : Machine) guise, condition (machine.wearing guise) = condition machine)
    (holds : disguise.Heedless (get >>= first)) (fails : disguise.Heedless (get >>= second)) :
    disguise.Heedless (get >>= fun machine =>
      if condition machine then first machine else second machine) := by
  intro machine guise hides
  rw [Attempt.runOn_get_bind, Attempt.runOn_get_bind, same]
  cases condition machine with
  | true => exact holds machine guise hides
  | false => exact fails machine guise hides

/-- A choice by what is read, of which the first part is only done in a typed line. -/
theorem heedless_ifTyped {first second : Action α}
    (holds : ∀ machine guise, disguise.hides machine guise → machine.cursor.mode = .interactive →
      disguise.EndsAlike (fun _ => True) (first.runOn machine)
        (first.runOn (machine.wearing guise)))
    (fails : disguise.Heedless second) :
    disguise.Heedless (do if ← isInteractive then first else second : Action α) := by
  intro machine guise hides
  rw [isInteractive, bind_assoc, Attempt.runOn_get_bind, Attempt.runOn_get_bind, pure_bind,
    pure_bind]
  show disguise.EndsAlike _ _ ((if decide (machine.cursor.mode = .interactive) = true then first
    else second).runOn (machine.wearing guise))
  by_cases typed : machine.cursor.mode = .interactive
  · rw [decide_eq_true typed]
    exact holds machine guise hides typed
  · rw [decide_eq_false typed]
    exact fails machine guise hides

/-! ### Cells -/

theorem heedless_place (subscript : Single) (count : Nat) :
    disguise.Heedless (place subscript count) :=
  .get_bind (fun _ _ _ => rfl) fun _ _ _ => .ite (gives_fail _) (.pure trivial)

theorem heedless_elementCount (bound : Single) : disguise.Heedless (elementCount bound) :=
  .get_bind (fun _ _ _ => rfl) fun _ _ _ => .ite (gives_fail _) (.pure trivial)

theorem heedless_numberAt (address : Nat) : disguise.Heedless (numberAt address) :=
  .get_bind (fun _ _ _ => rfl) fun _ _ _ => heedless_orFault _

theorem heedless_addressAt (address : Nat) : disguise.Heedless (addressAt address) :=
  .get_bind (fun _ _ _ => rfl) fun _ _ _ => heedless_orFault _

theorem heedless_byteAt (address : Nat) : disguise.Heedless (byteAt address) :=
  .get_bind (fun _ _ _ => rfl) fun _ _ _ => heedless_orFault _

theorem heedless_addressSize : disguise.Heedless addressSize :=
  .get_bind (fun _ _ _ => rfl) fun _ _ _ => .pure trivial

theorem heedless_slotOf (payload : Extent) (index : Option Single) :
    disguise.Heedless (slotOf payload index) := by
  refine heedless_addressSize.bind fun _ => (heedless_addressAt _).bind fun _ => ?_
  refine .ite (gives_failWith _ _) ?_
  cases index with
  | none => exact .pure trivial
  | some index => exact (heedless_place _ _).bind fun _ => .pure trivial

theorem heedless_slotLength (slot : StringSlot) : disguise.Heedless (slotLength slot) :=
  (heedless_byteAt _).bind fun _ => .pure trivial

theorem heedless_readSlot (slot : StringSlot) (selector : Selector) :
    disguise.Heedless (readSlot slot selector) := by
  refine (heedless_slotLength slot).bind fun length => ?_
  have read (lower : Nat) (upper : Nat) : disguise.Heedless (do
      Attempt.orFault ((← get).memory.read? (slot.address + 1 + lower) (upper - lower)) :
        Action Bytes) := .get_bind (fun _ _ _ => rfl) fun _ _ _ => heedless_orFault _
  cases selector.lower with
  | none => exact read _ _
  | some bound => exact .ite (read _ _) ((heedless_fail _).bind fun _ => read _ _)

theorem heedless_splice (selector : Selector) (length size : Nat) :
    disguise.Heedless (splice selector length size) := by
  unfold splice
  split
  · exact .pure trivial
  · refine .ite (gives_fail _) ?_
    dsimp only
    split
    · exact .pure trivial
    · exact .ite (gives_fail _) (.pure trivial)

/-! ### Numbers with a range -/

theorem heedless_channel (number : Single) : disguise.Heedless (Range.channel number) :=
  .ite (gives_fail _) (.pure trivial)

theorem heedless_byte (number : Single) : disguise.Heedless (Range.byte number) :=
  .ite (gives_fail _) (.pure trivial)

theorem heedless_count (number : Single) : disguise.Heedless (Range.count number) :=
  .ite (gives_fail _) (.pure trivial)

theorem heedless_bufferName (number : Single) : disguise.Heedless (Range.bufferName number) :=
  .ite (gives_fail _) (.pure trivial)

theorem heedless_line (number : Single) : disguise.Heedless (Range.line number) :=
  heedless_orFail _ _

theorem heedless_freeCell (index : Single) : disguise.Heedless (freeCell index) :=
  .get_bind (fun _ _ _ => rfl) fun _ _ _ => .ite (gives_fail _) (.pure trivial)

theorem heedless_storeCell (index : Single) : disguise.Heedless (storeCell index) := by
  refine .get_bind (fun _ _ _ => rfl) fun machine _ _ => ?_
  cases machine.host.store with
  | none => exact gives_failWith _ _
  | some store => exact .ite (gives_fail _) (.pure trivial)

theorem heedless_clockField (index : Single) : disguise.Heedless (clockField index) := by
  refine .ite (gives_fail _) ?_
  dsimp only
  split
  · exact .pure trivial
  · exact gives_fail _

theorem heedless_getSpecialElement (letter : UInt8) (index : Single) :
    disguise.Heedless (getSpecialElement letter index) := by
  refine .ite ?_ (.ite ?_ (.ite ?_ (gives_fail _)))
  · exact (heedless_freeCell index).bind fun _ => heedless_numberAt _
  · refine (heedless_storeCell index).bind fun _ => ?_
    refine .get_bind (fun _ _ _ => rfl) fun machine _ _ => ?_
    cases machine.host.store <;> exact .pure trivial
  · refine (heedless_clockField index).bind fun _ =>
      .get_bind (fun _ _ _ => rfl) fun machine _ _ => ?_
    cases machine.host.clock <;> exact .pure trivial

theorem heedless_getSpecialText (letter : UInt8) : disguise.Heedless (getSpecialText letter) :=
  .ite (.get_bind (fun _ _ _ => rfl) fun _ _ _ => .pure trivial) (gives_fail _)

theorem heedless_checkDepth (detail : String) : disguise.Heedless (checkDepth detail) :=
  .get_bind (fun _ _ _ => rfl) fun _ _ _ => .ite (gives_failWith _ _) (.pure trivial)

section Lawful

variable [lawful : disguise.Lawful]

/-! ### Parts of the machine -/

theorem hides_of_shares (hides : disguise.hides machine guise)
    (shares : machine.SharesReading after) : disguise.hides after guise := by
  have same := shares.same
  simp only [Prod.mk.injEq] at same
  obtain ⟨mode, loops, returns, bookmark, start, line, continuation, memory, config⟩ := same
  have places : machine.SharesPlaces after := ⟨by rw [mode, loops, returns, bookmark, start]⟩
  exact lawful.change hides ((lawful.goesOn hides).of_shares places) memory config
    (fun alike => alike.trans line.symm) (fun alike => alike.trans continuation.symm) rfl

theorem heedless_onOperands (step : Attempt (BoundedStack Single) α) :
    disguise.Heedless (onOperands step) :=
  fun _ guise hides => .hidden guise (hides_of_shares hides ⟨rfl⟩) fun _ _ => trivial

theorem heedless_onHost (step : Host → α × Host) : disguise.Heedless (onHost step) :=
  fun _ guise hides => .hidden guise (hides_of_shares hides ⟨rfl⟩) fun _ _ => trivial

/-- A change of the places that a machine has in mind. -/
theorem hides_anew (hides : disguise.hides machine guise)
    (same : (after.cursor.line, after.continuation, after.memory, after.config) =
      (machine.cursor.line, machine.continuation, machine.memory, machine.config))
    (goesOn : after.GoesOnIn disguise.admits) : disguise.hides after guise := by
  simp only [Prod.mk.injEq] at same
  obtain ⟨line, continuation, memory, config⟩ := same
  exact lawful.change hides goesOn memory config (fun alike => alike.trans line.symm)
    (fun alike => alike.trans continuation.symm) rfl

/-- A change of the place where a stopped program goes on. -/
theorem hides_continuing (hides : disguise.hides machine guise) (continuation : Option Location) :
    disguise.hides { machine with continuation } { guise with continuation } :=
  lawful.change hides ((lawful.goesOn hides).of_shares ⟨rfl⟩) rfl rfl id (fun _ => rfl) rfl

/-- A change of what is neither a place nor a text. -/
theorem heedless_registers {change : Machine → Machine}
    (same : ∀ (machine : Machine) guise,
      change (machine.wearing guise) = (change machine).wearing guise)
    (shares : ∀ machine : Machine, machine.SharesReading (change machine)) :
    disguise.Heedless (modify change : Action Unit) :=
  heedless_modify fun machine guise hides =>
    ⟨guise, same machine guise, hides_of_shares hides (shares machine)⟩

/-! ### Devices -/

theorem heedless_yield : disguise.Heedless yield := heedless_onHost _

theorem heedless_setFailed (failed : Bool) :
    disguise.Heedless
      (modify fun machine => { machine with deviceFailed := failed } : Action Unit) :=
  heedless_registers (fun _ _ => rfl) fun _ => ⟨rfl⟩

theorem heedless_writeByte (byte : UInt8) : disguise.Heedless (writeByte byte) := by
  refine .get_bind (fun _ _ _ => rfl) fun _ _ _ => (heedless_onHost _).bind fun written => ?_
  exact .ite ((heedless_setFailed true).bind fun _ => heedless_yield) heedless_yield

theorem heedless_write (bytes : Bytes) : disguise.Heedless (write bytes) := by
  induction bytes with
  | nil => exact .pure trivial
  | cons byte rest ih => exact (heedless_writeByte byte).bind fun _ => ih

theorem heedless_writeTimes (byte : UInt8) (count : Nat) :
    disguise.Heedless (writeTimes byte count) := by
  induction count with
  | zero => exact .pure trivial
  | succ count ih => exact (heedless_writeByte byte).bind fun _ => ih

theorem heedless_takeInterrupt : disguise.Heedless takeInterrupt := heedless_onHost _

theorem heedless_breakRequested : disguise.Heedless breakRequested := by
  refine heedless_takeInterrupt.bind fun _ => .ite (.pure trivial) ?_
  refine .get_bind (fun _ _ _ => rfl) fun _ _ _ => .ite ?_ (.pure trivial)
  exact (heedless_onHost _).bind fun _ => .pure trivial

theorem heedless_readByteWithin (channel : UInt8) (fuel : Nat) :
    disguise.Heedless (readByteWithin channel fuel) := by
  induction fuel with
  | zero => exact gives_throw _
  | succ fuel ih =>
    refine (heedless_onHost _).bind fun byte => ?_
    cases byte with
    | some byte => exact .pure trivial
    | none =>
      refine .get_bind (fun _ _ _ => rfl) fun _ _ _ => .ite (heedless_yield.bind fun _ => ?_)
        (.pure trivial)
      exact heedless_takeInterrupt.bind fun _ => .ite (gives_fail _) ih

theorem heedless_readLineWithin (channel : UInt8) (fuel : Nat) (read : Bytes) :
    disguise.Heedless (readLineWithin channel fuel read) := by
  induction fuel generalizing read with
  | zero => exact gives_throw _
  | succ fuel ih =>
    have byte : disguise.Heedless (readByte channel) :=
      .get_bind (fun _ _ _ => rfl) fun _ _ _ => heedless_readByteWithin _ _
    refine byte.bind fun byte => ?_
    split
    · exact .pure trivial
    · exact ih _
    · exact ih _
    · exact .ite ((heedless_setFailed true).bind fun _ => .pure trivial) (.pure trivial)

theorem heedless_readLine : disguise.Heedless readLine :=
  .get_bind (fun _ _ _ => rfl) fun _ _ _ => heedless_readLineWithin _ _ _

/-! ### Reading -/

/-- A typed line that is read is no part of a guise. -/
theorem typed_of_interactive (hides : disguise.hides machine guise)
    (typed : machine.cursor.mode = .interactive) :
    guise.line = machine.cursor.line ∧ guise.continuation = machine.continuation :=
  lawful.typed hides (typed ▸ (lawful.goesOn hides).mode)

theorem textLength_wearing (hides : disguise.hides machine guise) :
    (machine.wearing guise).textLength = machine.textLength := by
  have typed := typed_of_interactive hides
  rcases machine with ⟨_, _, _, ⟨⟨⟩, _, _, _, _⟩⟩
  · exact congrArg (fun line => line.text.length) (typed rfl).1
  · rfl
  · rfl

/-- Where a cursor is moved in the text that it reads, nothing is noticed. -/
theorem hides_moved {cursor : Cursor} {next : Guise} (hides : disguise.hides machine guise)
    (admitted : disguise.admits cursor.mode)
    (line : guise.line = machine.cursor.line → next.line = cursor.line)
    (continuation : next.continuation = guise.continuation) (slots : next.slots = guise.slots) :
    disguise.hides { machine with cursor } next := by
  have goesOn := lawful.goesOn hides
  exact lawful.change hides
    ⟨admitted, goesOn.loops, goesOn.returns, goesOn.bookmark, goesOn.start⟩ rfl rfl line
    (fun alike => continuation.trans alike) slots

theorem nextToken_wearing (hides : disguise.hides machine guise) :
    ∃ next, (machine.wearing guise).nextToken = machine.nextToken.wearing next ∧
      disguise.hides machine.nextToken next := by
  have mode : disguise.admits machine.nextToken.cursor.mode := by
    rw [nextToken_eq, Cursor.mode_next]
    exact (lawful.goesOn hides).mode
  rcases guise with ⟨line, continuation, slots⟩
  cases reads : machine.cursor.mode with
  | interactive =>
    obtain ⟨rfl, -⟩ := typed_of_interactive hides reads
    refine ⟨{ line := machine.nextToken.cursor.line, continuation, slots }, ?_, ?_⟩
    · rcases machine with ⟨_, _, _, ⟨_, _, _, _, _⟩⟩
      cases reads
      rfl
    · rw [nextToken_eq] at mode ⊢
      exact hides_moved hides mode (fun _ => rfl) rfl rfl
  | run | runStore =>
    refine ⟨{ line, continuation, slots }, ?_, ?_⟩
    · rcases machine with ⟨_, _, _, ⟨_, _, _, _, _⟩⟩
      cases reads
      rfl
    · have same : machine.nextToken.cursor.line = machine.cursor.line := by
        rcases machine with ⟨_, _, _, ⟨_, _, _, _, _⟩⟩
        cases reads
        rfl
      rw [nextToken_eq] at mode same ⊢
      exact hides_moved hides mode (fun alike => alike.trans same.symm) rfl rfl

theorem heedless_advance : disguise.Heedless advance :=
  heedless_modify fun _ _ hides => nextToken_wearing hides

theorem skipWithin_wearing (stops : Token → Bool) (fuel : Nat)
    (hides : disguise.hides machine guise) :
    ∃ next, skipWithin stops fuel (machine.wearing guise) =
        (skipWithin stops fuel machine).wearing next ∧
      disguise.hides (skipWithin stops fuel machine) next := by
  induction fuel generalizing machine guise with
  | zero => exact ⟨guise, rfl, hides⟩
  | succ fuel ih =>
    obtain ⟨next, moved, hidden⟩ := nextToken_wearing hides
    obtain ⟨last, skipped, still⟩ := ih hidden
    rw [skipWithin, skipWithin, moved, skipped]
    show ∃ next, (if stops machine.cursor.token then _ else _) = _ ∧ _
    split
    · exact ⟨guise, rfl, hides⟩
    · exact ⟨last, rfl, still⟩

theorem heedless_skipTo (stops : Token → Bool) :
    disguise.Heedless (modify (skipTo stops) : Action Unit) := by
  refine heedless_modify fun machine guise hides => ?_
  rw [skipTo, skipTo, textLength_wearing hides]
  exact skipWithin_wearing stops _ hides

/-- The places where a machine is are such as it may go to. -/
theorem gives_location : disguise.Gives (disguise.admits ·.mode) location :=
  .get_bind (fun _ _ _ => rfl) fun _ _ hides => .pure (lawful.goesOn hides).mode

theorem heedless_expect (symbol : Char) : disguise.Heedless (expect symbol) :=
  heedless_token.bind fun _ => .ite heedless_advance (gives_fail _)

theorem heedless_accept (symbol : Char) : disguise.Heedless (accept symbol) :=
  heedless_token.bind fun _ => .ite (heedless_advance.bind fun _ => .pure trivial) (.pure trivial)

/-- Going to a place that is admitted. -/
theorem heedless_moveTo {place : Location} (admitted : disguise.admits place.mode) :
    disguise.Heedless (moveTo place) := by
  refine heedless_modify fun machine guise hides => ?_
  rcases place with ⟨_ | _ | _, offset⟩
  · let cursor : Cursor :=
      { machine.cursor with mode := .interactive, line := machine.cursor.line.seek offset }
    exact @nextToken_wearing _ { machine with cursor }
      { guise with line := guise.line.seek offset } _
      (hides_moved hides admitted (congrArg fun line : TypedLine => line.seek offset) rfl rfl)
  · let cursor : Cursor := { machine.cursor with mode := .run, offset }
    exact @nextToken_wearing _ { machine with cursor } guise _
      (hides_moved hides admitted id rfl rfl)
  · let cursor : Cursor := { machine.cursor with mode := .runStore, offset }
    exact @nextToken_wearing _ { machine with cursor } guise _
      (hides_moved hides admitted id rfl rfl)

/-! ### Operands -/

theorem heedless_push (value : Single) : disguise.Heedless (push value) := heedless_onOperands _

theorem heedless_pop : disguise.Heedless pop := heedless_onOperands _

theorem heedless_nested {evaluation : Action α} (heedless : disguise.Heedless evaluation) :
    disguise.Heedless (nested evaluation) := by
  refine (heedless_checkDepth _).bind fun _ => ?_
  refine Heedless.bind (heedless_registers (fun _ _ => rfl) fun _ => ⟨rfl⟩) fun _ => ?_
  exact heedless.ensuring fun _ _ hides => ⟨rfl, hides_of_shares hides ⟨rfl⟩⟩

theorem heedless_operatorsWithin (operator? : Token → Option Operator) {operand : Action Unit}
    (heedless : disguise.Heedless operand) (fuel : Nat) :
    disguise.Heedless (operatorsWithin operator? operand fuel) := by
  induction fuel with
  | zero => exact gives_throw _
  | succ fuel ih =>
    refine heedless_token.bind fun token => ?_
    cases operator? token with
    | none => exact .pure trivial
    | some operator =>
      refine heedless_advance.bind fun _ => heedless.bind fun _ => ?_
      refine (heedless_onOperands _).bind fun operands => ?_
      refine .get_bind (fun _ _ _ => rfl) fun _ _ _ => ?_
      exact (heedless_lift _).bind fun value => (heedless_push value).bind fun _ => ih

/-- A scan that takes no more steps than the text has bytes. -/
theorem heedless_scan {next : Nat → Action α}
    (heedless : ∀ length, disguise.Heedless (next length)) :
    disguise.Heedless (get >>= fun machine => next machine.textLength) :=
  .get_bind (fun _ _ hides => congrArg next (textLength_wearing hides)) fun _ _ _ => heedless _

theorem heedless_operators (operator? : Token → Option Operator) {operand : Action Unit}
    (heedless : disguise.Heedless operand) : disguise.Heedless (operators operator? operand) :=
  heedless_scan fun length => heedless_operatorsWithin operator? heedless (length + 1)

/-! ### Views of the machine -/

theorem heedless_getSpecial (letter : UInt8) : disguise.Heedless (getSpecial letter) := by
  refine .get_bind (fun _ _ _ => rfl) fun machine _ _ => ?_
  repeat' apply Gives.ite
  all_goals try exact .pure trivial
  · refine (heedless_onHost _).bind fun byte => ?_
    cases byte <;> exact .pure trivial
  · exact gives_fail _

theorem heedless_setSpecial (letter : UInt8) (value : Single) :
    disguise.Heedless (setSpecial letter value) := by
  refine .ite ?_ (.ite ?_ (.ite ?_ (.ite (heedless_writeByte _) (.ite ?_ (gives_fail _)))))
  · exact heedless_setFailed _
  · exact (heedless_channel value).bind fun _ =>
      heedless_registers (fun _ _ => rfl) fun _ => ⟨rfl⟩
  · exact (heedless_channel value).bind fun _ =>
      heedless_registers (fun _ _ => rfl) fun _ => ⟨rfl⟩
  · exact heedless_registers (fun _ _ => rfl) fun _ => ⟨rfl⟩

end Lawful

section Accesses

variable [accesses : disguise.Accesses]

/-! ### Memory -/

theorem heedless_allocate (kind : ObjectKind) (name : Name) (size : Nat) :
    disguise.Heedless (onMemory (Memory.allocate kind name size)) :=
  accesses.memory (Memory.ignores_allocate kind name size)

theorem heedless_delete (kind : ObjectKind) (name : Name) :
    disguise.Heedless (onMemory (Memory.delete kind name)) :=
  accesses.memory (Memory.ignores_delete kind name)

theorem heedless_writeAddress (start address : Nat) :
    disguise.Heedless (onMemory (Memory.writeAddress start address)) :=
  accesses.memory (Memory.ignores_writeAddress start address)

theorem heedless_writeMemory (start : Nat) (data : Bytes) :
    disguise.Heedless (onMemory (Memory.write start data)) :=
  accesses.memory (Memory.ignores_write start data)

theorem heedless_setNumberAt (address : Nat) (value : Single) :
    disguise.Heedless (setNumberAt address value) := heedless_writeMemory _ _

/-! ### Variables -/

theorem heedless_lookup (kind : ObjectKind) (name : Name) :
    disguise.Heedless (lookup kind name) := accesses.memory (Memory.ignores_lookup kind name)

theorem heedless_storedScalar? (name : Name) : disguise.Heedless (storedScalar? name) := by
  refine (heedless_lookup _ _).bind fun payload => ?_
  cases payload with
  | none => exact .pure trivial
  | some payload => exact (heedless_numberAt _).map some

theorem heedless_storeScalar (name : Name) (value : Single) :
    disguise.Heedless (storeScalar name value) := by
  refine (heedless_lookup _ _).bind fun payload => ?_
  cases payload with
  | none => exact (heedless_allocate _ _ _).bind fun _ => heedless_setNumberAt _ _
  | some payload => exact heedless_setNumberAt _ _

theorem heedless_createArray (name : Name) (rows columns : Nat) :
    disguise.Heedless (createArray name rows columns) :=
  (heedless_allocate _ _ _).bind fun _ => heedless_writeAddress _ _

theorem heedless_arrayPayload (name : Name) : disguise.Heedless (arrayPayload name) := by
  refine (heedless_lookup _ _).bind fun payload => ?_
  cases payload with
  | none =>
    refine .get_bind (fun _ _ _ => rfl) fun _ _ _ => (heedless_createArray _ _ _).bind fun _ => ?_
    exact (heedless_lookup _ _).bind fun _ => heedless_orFail _ _
  | some payload => exact .pure trivial

theorem heedless_elementAddress (name : Name) (row : Single) (column : Option Single) :
    disguise.Heedless (elementAddress name row column) := by
  refine (heedless_arrayPayload name).bind fun payload => heedless_addressSize.bind fun _ => ?_
  refine (heedless_addressAt _).bind fun columns => .ite (gives_failWith _ _) ?_
  refine (heedless_place _ _).bind fun row => ?_
  cases column with
  | none => exact .pure trivial
  | some column => exact (heedless_place _ _).bind fun _ => .pure trivial

theorem heedless_createString (name : Name) (capacity count : Nat) :
    disguise.Heedless (createString name capacity count) :=
  .ite (gives_fail _) ((heedless_allocate _ _ _).bind fun _ => heedless_writeAddress _ _)

theorem heedless_existingSlot (name : Name) (index : Option Single) :
    disguise.Heedless (existingSlot name index) := by
  refine (heedless_lookup _ _).bind fun payload => ?_
  cases payload with
  | none => exact .pure trivial
  | some payload => exact (heedless_slotOf _ _).map some

theorem heedless_assignableSlot (name : Name) (index : Option Single) :
    disguise.Heedless (assignableSlot name index) := by
  refine (heedless_lookup _ _).bind fun payload => ?_
  cases payload with
  | some payload => exact heedless_slotOf _ _
  | none =>
    refine .get_bind (fun _ _ _ => rfl) fun _ _ _ => (heedless_createString _ _ _).bind fun _ => ?_
    refine (heedless_lookup _ _).bind fun _ => (heedless_orFail _ _).bind fun _ => ?_
    exact heedless_slotOf _ _

theorem heedless_writeSlot (slot : StringSlot) (selector : Selector) (source : Bytes) :
    disguise.Heedless (writeSlot slot selector source) := by
  refine (heedless_slotLength slot).bind fun _ => (heedless_splice _ _ _).bind fun _ => ?_
  exact .ite (gives_fail _)
    ((heedless_writeMemory _ _).bind fun _ => heedless_writeMemory _ _)

theorem heedless_setSpecialElement (letter : UInt8) (index value : Single) :
    disguise.Heedless (setSpecialElement letter index value) := by
  refine .ite ?_ (.ite ?_ (.ite ?_ (gives_fail _)))
  · exact (heedless_freeCell index).bind fun _ => heedless_setNumberAt _ _
  · exact (heedless_storeCell index).bind fun _ => heedless_onHost _
  · exact (heedless_clockField index).bind fun _ => heedless_onHost _

/-! ### Variables by name -/

theorem heedless_getScalar (name : Name) : disguise.Heedless (getScalar name) :=
  .ite (heedless_getSpecial _) ((heedless_storedScalar? name).bind fun _ => .pure trivial)

theorem heedless_setScalar (name : Name) (value : Single) :
    disguise.Heedless (setScalar name value) :=
  .ite (heedless_setSpecial _ value) (heedless_storeScalar name value)

theorem heedless_getElement (name : Name) (row : Single) (column : Option Single) :
    disguise.Heedless (getElement name row column) :=
  .ite (heedless_getSpecialElement _ row)
    ((heedless_elementAddress name row column).bind fun _ => heedless_numberAt _)

theorem heedless_setElement (name : Name) (row : Single) (column : Option Single) (value : Single) :
    disguise.Heedless (setElement name row column value) :=
  .ite (heedless_setSpecialElement _ row value)
    ((heedless_elementAddress name row column).bind fun _ => heedless_setNumberAt _ _)

theorem heedless_readString (name : Name) (selector : Selector) :
    disguise.Heedless (readString name selector) := by
  refine .ite (heedless_getSpecialText _) ((heedless_existingSlot _ _).bind fun slot => ?_)
  cases slot with
  | none => exact .pure trivial
  | some slot => exact heedless_readSlot slot selector

theorem heedless_writeString (name : Name) (selector : Selector) (source : Bytes) :
    disguise.Heedless (writeString name selector source) :=
  .ite (gives_fail _)
    ((heedless_assignableSlot _ _).bind fun slot => heedless_writeSlot slot selector source)

theorem heedless_assignNumber (target : Target) (value : Single) :
    disguise.Heedless (assignNumber target value) := by
  cases target with
  | scalar name => exact heedless_setScalar name value
  | element name row column => exact heedless_setElement name row column value
  | text name selector => exact gives_fail _

theorem heedless_assignText (target : Target) (text : Bytes) :
    disguise.Heedless (assignText target text) := by
  cases target with
  | scalar name => exact gives_fail _
  | element name row column => exact gives_fail _
  | text name selector => exact heedless_writeString name selector text

end Accesses

end Machine

/-! ### Expressions and what contains them -/

/-- An evaluator whose evaluations are heedless. -/
structure Evaluator.IsHeedless (disguise : Disguise) (deeper : Evaluator) : Prop where
  numeric : ∀ level, disguise.Heedless (deeper.numeric level)
  string : ∀ word, disguise.Heedless (deeper.string word)

namespace Evaluator.IsHeedless

open Disguise Machine

variable {disguise : Disguise} [accesses : disguise.Accesses] {deeper : Evaluator}
  (heedless : deeper.IsHeedless disguise)

include heedless

theorem expression : disguise.Heedless deeper.expression := heedless_nested (heedless.numeric _)

theorem value : disguise.Heedless deeper.value := heedless.expression.bind fun _ => heedless_pop

theorem valueAfterComma : disguise.Heedless deeper.valueAfterComma :=
  (heedless_accept _).bind fun _ => .ite (heedless.value.map some) (.pure trivial)

theorem subscripts : disguise.Heedless deeper.subscripts := by
  refine (heedless_expect _).bind fun _ => heedless.value.bind fun row => ?_
  refine heedless.valueAfterComma.bind fun column => ?_
  exact (heedless_expect _).bind fun _ => .pure trivial

theorem selector : disguise.Heedless deeper.selector := by
  refine (heedless_accept _).bind fun opened => .ite (.pure trivial) ?_
  have rest (bounds : Selector) : disguise.Heedless (do
      expect ')'
      if !(← accept '(') then return bounds
      let index ← deeper.value
      expect ')'
      return { bounds with index := some index } : Action Selector) := by
    refine (heedless_expect _).bind fun _ => (heedless_accept _).bind fun _ => ?_
    refine .ite (.pure trivial) (heedless.value.bind fun _ => ?_)
    exact (heedless_expect _).bind fun _ => .pure trivial
  refine heedless_token.bind fun token => .ite ?_ (rest _)
  exact heedless.value.bind fun lower => heedless.valueAfterComma.bind fun upper => rest _

theorem target : disguise.Heedless deeper.target := by
  refine heedless_token.bind fun token => ?_
  split
  · exact heedless_advance.bind fun _ => .pure trivial
  · exact heedless_advance.bind fun _ => heedless.subscripts.bind fun _ => .pure trivial
  · exact heedless_advance.bind fun _ => heedless.selector.bind fun _ => .pure trivial
  · exact gives_fail _

theorem string? : disguise.Heedless deeper.string? := by
  refine heedless_token.bind fun token => ?_
  split
  · exact heedless_advance.bind fun _ => .pure trivial
  · refine heedless_advance.bind fun _ => heedless.selector.bind fun _ => ?_
    exact (heedless_readString _ _).map some
  · refine .ite ?_ (.pure trivial)
    refine heedless_advance.bind fun _ => (heedless_accept _).bind fun _ => ?_
    exact (heedless_nested (heedless.string _)).map some
  · exact .pure trivial

theorem text : disguise.Heedless deeper.text := heedless.string?.bind fun _ => heedless_orFail _ _

theorem stringFunction (word : Keyword) : disguise.Heedless (deeper.stringFunction word) := by
  have close (text : Bytes) : disguise.Heedless (do
      expect ')'
      return text : Action Bytes) := (heedless_expect _).bind fun _ => .pure trivial
  refine (heedless_expect _).bind fun _ => ?_
  dsimp only
  split
  · exact heedless.value.bind fun _ => close _
  · exact heedless.value.bind fun _ => (heedless_byte _).bind fun _ => close _
  · refine heedless.text.bind fun _ => (heedless_expect _).bind fun _ => ?_
    exact heedless.value.bind fun _ => (heedless_count _).bind fun _ => close _
  · refine heedless.text.bind fun _ => (heedless_expect _).bind fun _ => ?_
    exact heedless.value.bind fun _ => (heedless_count _).bind fun _ => close _
  · refine heedless.text.bind fun _ => (heedless_expect _).bind fun _ => ?_
    refine heedless.value.bind fun _ => .ite ((heedless_fail _).bind fun _ => close _) ?_
    refine heedless.valueAfterComma.bind fun count => ?_
    cases count with
    | none => exact close _
    | some count => exact (heedless_count _).bind fun _ => close _
  · exact Heedless.bind (gives_failWith _ _) fun _ => close _

/-! ### Functions -/

theorem argumentsWithin (fuel count : Nat) :
    disguise.Heedless (deeper.argumentsWithin fuel count) := by
  induction fuel generalizing count with
  | zero => exact gives_throw _
  | succ fuel ih =>
    refine heedless.expression.bind fun _ => (heedless_accept _).bind fun _ => ?_
    exact .ite (ih _) (.pure trivial)

theorem arguments : disguise.Heedless deeper.arguments := by
  have close (count : Nat) : disguise.Heedless (do
      expect ')'
      return count : Action Nat) := (heedless_expect _).bind fun _ => .pure trivial
  refine (heedless_expect _).bind fun _ => heedless_token.bind fun _ => .ite (close 0) ?_
  exact heedless_scan fun length => (heedless.argumentsWithin (length + 1) 0).bind close

omit heedless in
theorem functionValue (word : Keyword) (arguments : List Single) :
    disguise.Heedless (Evaluator.functionValue word arguments) := by
  have random : disguise.Heedless (Evaluator.functionValue .rnd arguments) :=
    fun _ guise hides => .hidden guise (hides_of_shares hides ⟨rfl⟩) fun _ _ => trivial
  by_cases draws : word = .rnd
  · rw [draws]
    exact random
  refine .get_bind (fun machine guise _ => ?_) fun machine _ _ => ?_
  · cases word
    case rnd => exact absurd rfl draws
    all_goals rfl
  dsimp only
  split
  · exact absurd rfl draws
  · refine (heedless_count _).bind fun _ => ?_
    exact (heedless_orFail _ _).bind fun _ => .pure trivial
  · exact .ite (gives_throw _) (.pure trivial)
  · exact (heedless_channel _).bind fun _ => .pure trivial
  · refine (heedless_bufferName _).bind fun name => (heedless_count _).bind fun size => ?_
    exact (heedless_allocate _ _ _).bind fun _ => .pure trivial
  · exact .pure trivial
  · exact .pure trivial
  · exact heedless_lift _

theorem numericFunction (word : Keyword) : disguise.Heedless (deeper.numericFunction word) := by
  refine (heedless_orFail _ _).bind fun arity => heedless_advance.bind fun _ => ?_
  have rest (count : Nat) : disguise.Heedless (do
      if count ≠ arity then Attempt.fail .illegalFunctionCall
      else
        let arguments ← onOperands (BoundedStack.popMany count)
        push (← Evaluator.functionValue word arguments) : Action Unit) := by
    refine .ite (gives_fail _) ((heedless_onOperands _).bind fun arguments => ?_)
    exact (functionValue word arguments).bind fun _ => heedless_push _
  exact heedless_token.bind fun _ => .ite (heedless.arguments.bind rest) (rest 0)

theorem textFunction (word : Keyword) : disguise.Heedless (deeper.textFunction word) := by
  have close (result : Single) : disguise.Heedless (do
      expect ')'
      push result : Action Unit) := (heedless_expect _).bind fun _ => heedless_push _
  refine heedless_advance.bind fun _ => (heedless_expect _).bind fun _ => ?_
  split
  · refine heedless.string?.bind fun text => ?_
    cases text with
    | some text => exact close _
    | none =>
      refine heedless.value.bind fun _ => (heedless_bufferName _).bind fun name => ?_
      exact (heedless_lookup .buffer name).bind fun payload => close _
  · exact heedless.text.bind fun _ => .get_bind (fun _ _ _ => rfl) fun _ _ _ => close _
  · exact heedless.text.bind fun _ => close _
  · refine heedless.text.bind fun _ => (heedless_expect _).bind fun _ => ?_
    exact heedless.text.bind fun _ => close _

theorem objectName : disguise.Heedless deeper.objectName := by
  refine heedless_token.bind fun token => ?_
  split
  · exact heedless_advance.bind fun _ => .pure trivial
  · exact heedless_advance.bind fun _ => .pure trivial
  · refine heedless_advance.bind fun _ => (heedless_expect _).bind fun _ => ?_
    exact (heedless_expect _).bind fun _ => .pure trivial
  · refine heedless_advance.bind fun _ => heedless_token.bind fun token => ?_
    split
    · exact heedless_advance.bind fun _ => .pure trivial
    · exact heedless_advance.bind fun _ => .pure trivial
    · exact gives_fail _
  · exact heedless.value.bind fun _ => (heedless_bufferName _).bind fun _ => .pure trivial

theorem find : disguise.Heedless deeper.find := by
  refine heedless_advance.bind fun _ => (heedless_expect _).bind fun _ => ?_
  refine heedless.objectName.bind fun object => (heedless_expect _).bind fun _ => ?_
  exact (heedless_lookup object.1 object.2).bind fun _ => heedless_push _

/-! ### User functions -/

theorem argument : disguise.Heedless deeper.argument := by
  have close (value : Option Single) : disguise.Heedless (do
      expect ')'
      return value : Action (Option Single)) := (heedless_expect _).bind fun _ => .pure trivial
  refine (heedless_accept _).bind fun _ => .ite (.pure trivial) (heedless_token.bind fun _ => ?_)
  exact .ite (close none) ((heedless.value.map _).bind fun _ => close _)

omit heedless in
theorem definition (name : Name) : disguise.Heedless (Evaluator.definition name) := by
  refine (heedless_lookup _ _).bind fun _ => (heedless_orFail _ _).bind fun _ => ?_
  refine (heedless_addressAt _).bind fun _ => heedless_addressSize.bind fun _ => ?_
  exact (heedless_byteAt _).bind fun _ => (heedless_byteAt _).bind fun _ => .pure trivial

omit heedless in
theorem bindParameter (parameter : Name) (argument : Option Single) :
    disguise.Heedless (Evaluator.bindParameter parameter argument) := by
  cases argument with
  | none => exact .ite (.pure trivial) (gives_fail _)
  | some value =>
    refine .ite (gives_fail _) ((heedless_storedScalar? parameter).bind fun old => ?_)
    exact (heedless_setScalar parameter value).bind fun _ => .pure trivial

omit heedless in
theorem unbindParameter (bound : Option (Name × Option Single)) :
    disguise.Heedless (Evaluator.unbindParameter bound) := by
  rcases bound with _ | ⟨parameter, _ | old⟩
  · exact .pure trivial
  · exact (heedless_delete _ _).bind fun _ => .pure trivial
  · exact heedless_setScalar parameter old

theorem functionBody : disguise.Heedless deeper.functionBody :=
  heedless_token.bind fun _ => .ite (heedless_advance.bind fun _ => heedless.expression)
    (gives_fail _)

/-- The call of a user function goes to a place of a program, and comes back to one. -/
theorem call (entry : Nat) (parameter : Name) (argument : Option Single) :
    disguise.Heedless (Obeys.call deeper entry parameter argument) := by
  refine gives_location.bind fun back stored => (bindParameter _ _).bind fun bound => ?_
  refine Heedless.bind (heedless_moveTo (accesses.stored ?_)) fun _ => ?_
  · dsimp only
    split
    · decide
    · decide
  have recovers : disguise.Heedless
      (Obeys.recover deeper.functionBody (Evaluator.unbindParameter bound)) :=
    heedless.functionBody.caught.bind fun _ => (unbindParameter bound).caught.bind fun _ =>
      (heedless_lift _).bind fun _ => heedless_lift _
  exact recovers.bind fun _ => heedless_moveTo stored

theorem userFunction : disguise.Heedless deeper.userFunction := by
  have rest (name : Name) : disguise.Heedless (Obeys.named deeper name) := by
    refine heedless_advance.bind fun _ => heedless.argument.bind fun argument => ?_
    refine (definition name).bind fun defined => (heedless_checkDepth _).bind fun _ => ?_
    exact heedless.call _ _ _
  simp only [Obeys.named, Obeys.callDefined, Obeys.call, Obeys.recover, bind_assoc] at rest
  refine heedless_advance.bind fun _ => heedless_token.bind fun token => ?_
  dsimp only
  split
  · exact rest _
  · exact rest _
  · exact (heedless_fail _).bind rest

/-! ### Levels -/

theorem function (word : Keyword) : disguise.Heedless (deeper.function word) := by
  unfold Evaluator.function
  split
  · exact heedless.userFunction
  · exact heedless.textFunction _
  · exact heedless.textFunction _
  · exact heedless.textFunction _
  · exact heedless.textFunction _
  · exact heedless.find
  · exact heedless_advance.bind fun _ => .get_bind (fun _ _ _ => rfl) fun _ _ _ => heedless_push _
  · exact heedless.numericFunction _

theorem stringFactor : disguise.Heedless deeper.stringFactor := by
  refine heedless.text.bind fun left => heedless_token.bind fun token => ?_
  cases token.relation? with
  | none => exact heedless_push _
  | some operator =>
    exact heedless_advance.bind fun _ => heedless.text.bind fun right => heedless_push _

theorem factor : disguise.Heedless deeper.factor := by
  refine heedless_token.bind fun token => ?_
  split
  · refine heedless_advance.bind fun _ => (heedless_nested (heedless.numeric _)).bind fun _ => ?_
    exact heedless_pop.bind fun _ => heedless_push _
  · exact heedless_advance.bind fun _ => heedless_nested (heedless.numeric _)
  · exact heedless_advance.bind fun _ => heedless_push _
  · exact heedless_advance.bind fun _ => (heedless_getScalar _).bind fun _ => heedless_push _
  · refine heedless_advance.bind fun _ => heedless.subscripts.bind fun place => ?_
    exact (heedless_getElement _ _ _).bind fun _ => heedless_push _
  · exact heedless.stringFactor
  · exact heedless.stringFactor
  · exact .ite heedless.stringFactor (heedless.function _)
  · exact heedless_advance.bind fun _ => heedless.expression.bind fun _ => heedless_expect _
  · exact gives_fail _

theorem power : disguise.Heedless deeper.power :=
  heedless.factor.bind fun _ => heedless_operators _ heedless.factor

theorem product : disguise.Heedless deeper.product :=
  heedless.power.bind fun _ => heedless_operators _ heedless.power

theorem sum : disguise.Heedless deeper.sum := by
  refine heedless_token.bind fun _ => .ite ?_ ?_
  · exact (heedless_push _).bind fun _ => heedless_operators _ heedless.product
  · exact heedless.product.bind fun _ => heedless_operators _ heedless.product

theorem comparison : disguise.Heedless deeper.comparison :=
  heedless.sum.bind fun _ => heedless_operators _ heedless.sum

theorem negation : disguise.Heedless deeper.negation := by
  refine heedless_token.bind fun _ => .ite (heedless_advance.bind fun _ => ?_) heedless.comparison
  refine (heedless_nested (heedless.numeric _)).bind fun _ => heedless_pop.bind fun operand => ?_
  exact (heedless_lift _).bind fun _ => heedless_push _

theorem conjunction : disguise.Heedless deeper.conjunction :=
  heedless.negation.bind fun _ => heedless_operators _ heedless.negation

theorem disjunction : disguise.Heedless deeper.disjunction :=
  heedless.conjunction.bind fun _ => heedless_operators _ heedless.conjunction

theorem level (level : Level) : disguise.Heedless (deeper.level level) := by
  cases level with
  | disjunction => exact heedless.disjunction
  | negation => exact heedless.negation
  | power => exact heedless.power

theorem concatenationWithin (fuel : Nat) (before : Bytes) :
    disguise.Heedless (deeper.concatenationWithin fuel before) := by
  induction fuel generalizing before with
  | zero => exact gives_throw _
  | succ fuel ih =>
    have rest (piece : Bytes) : disguise.Heedless (do
        if (← token).isOperator .plus then
          advance
          deeper.concatenationWithin fuel (before ++ piece)
        else return before ++ piece : Action Bytes) :=
      heedless_token.bind fun _ => .ite (heedless_advance.bind fun _ => ih _) (.pure trivial)
    refine heedless.string?.bind fun text => ?_
    cases text with
    | some text => exact rest text
    | none =>
      refine heedless.product.bind fun _ => heedless_pop.bind fun _ => ?_
      exact (heedless_byte _).bind fun _ => rest _

theorem concatenation : disguise.Heedless deeper.concatenation := by
  refine heedless_scan fun length => (heedless.concatenationWithin (length + 1) []).bind fun _ => ?_
  exact .ite (gives_fail _) (.pure trivial)

end Evaluator.IsHeedless

/-! ### Evaluators -/

theorem isHeedless_evaluator {disguise : Disguise} [disguise.Accesses] (budget : Nat) :
    (evaluator budget).IsHeedless disguise := by
  induction budget with
  | zero => exact ⟨fun _ => Disguise.gives_throw _, fun _ => Disguise.gives_throw _⟩
  | succ budget ih => exact ⟨ih.level, ih.stringFunction⟩

namespace Machine

/-- **What heedless evaluators do is heedless in statements.** -/
theorem heedless_evaluate {α : Type} {disguise : Disguise} [disguise.Accesses]
    {evaluation : Evaluator → Action α} (heedless : ∀ {deeper : Evaluator},
      deeper.IsHeedless disguise → disguise.Heedless (evaluation deeper)) :
    disguise.Heedless (evaluate evaluation) :=
  .get_bind (fun _ _ _ => rfl) fun _ _ _ => heedless (isHeedless_evaluator _)

end Machine

end PocketBasic
