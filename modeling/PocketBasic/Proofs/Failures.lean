/-
**Which failures blame the heap, the loops or the operands.** Two errors of the machine say that the
header of an array or of a string is broken, one that there are too many loops, and one that an
operand is missing. No computation on numbers, no encoding and no step on the memory reports them:
they come only from the access to elements, from loops that begin, and from operands that are taken.

* `Error.BlamesHeader`, `Error.BlamesLoops`, `Error.BlamesOperands`: errors that do;
* `Error.IsOrdinary`, `Failure.IsOrdinary`: errors and failures that do not;
* `Failure.IsSafe`: of these the ones that are no access outside memory;
* `IsPlain`: results of computations without state that do not;
* `Conduct.Stores`, `Conduct.MovesLines`, `Conduct.ForgetsLines`: conducts of steps on memory;
* **`Memory.obeys_storeLine`**, **`Memory.obeys_allocate`** and the others: the steps on memory.
-/

import Mathlib.Tactic.Common
import PocketBasic.Builtin
import PocketBasic.Memory.Editor
import PocketBasic.Memory.Heap
import PocketBasic.Proofs.Conduct

namespace PocketBasic

/-! ### Ordinary failures -/

/-- Whether an error blames the header of an array or of a string. -/
def Error.BlamesHeader (error : Error) : Prop :=
  error.kind = .internalError ∧ (error.detail = "ARRAY HEADER" ∨ error.detail = "STRING HEADER")

/-- Whether an error says that there are too many loops. -/
def Error.BlamesLoops (error : Error) : Prop := error.kind = .stackOverflow ∧ error.detail = "LOOP"

instance : DecidablePred Error.BlamesLoops := fun _ => inferInstanceAs (Decidable (_ ∧ _))

/-- Whether a failure is an error that says so. -/
def Failure.BlamesLoops : Failure → Prop
  | .reported error => error.BlamesLoops
  | .fault | .zeroDivisor | .stalled => False

/-- Whether an error says that an operand is missing: an internal error without any detail. -/
def Error.BlamesOperands (error : Error) : Prop := error.kind = .internalError ∧ error.detail = ""

instance : DecidablePred Error.BlamesOperands := fun _ => inferInstanceAs (Decidable (_ ∧ _))

/-- Whether a failure is an error that says so. -/
def Failure.BlamesOperands : Failure → Prop
  | .reported error => error.BlamesOperands
  | .fault | .zeroDivisor | .stalled => False

/-- Whether an error blames neither a header nor the loops nor the operands. -/
structure Error.IsOrdinary (error : Error) : Prop where
  not_blamesHeader : ¬ error.BlamesHeader
  not_blamesLoops : ¬ error.BlamesLoops
  not_blamesOperands : ¬ error.BlamesOperands

/-- What the errors say that blame a header, the loops or the operands. -/
def Error.blamingDetails : List String := ["ARRAY HEADER", "STRING HEADER", "LOOP", ""]

/-- Whether a failure blames neither a header nor the loops nor the operands, and is no wait that
cannot end. -/
def Failure.IsOrdinary : Failure → Prop
  | .reported error => error.IsOrdinary
  | .fault | .zeroDivisor => True
  | .stalled => False

/-- Whether a failure is ordinary, and no access outside memory. -/
def Failure.IsSafe : Failure → Prop
  | .reported error => error.IsOrdinary
  | .zeroDivisor => True
  | .fault | .stalled => False

theorem Error.not_blamesHeader_of_kind {error : Error} (other : error.kind ≠ .internalError) :
    ¬ error.BlamesHeader := fun blames => other blames.1

theorem Error.not_blamesHeader_of_detail {error : Error} (plain : error.detail = "") :
    ¬ error.BlamesHeader := by
  rintro ⟨-, blames | blames⟩ <;> exact absurd (plain.symm.trans blames) (by decide)

theorem Error.isOrdinary_of_detail {error : Error} (other : error.detail ∉ blamingDetails) :
    error.IsOrdinary := by
  simp only [blamingDetails, List.mem_cons, List.not_mem_nil, or_false, not_or] at other
  obtain ⟨noArray, noString, noLoop, noOperand⟩ := other
  exact ⟨fun blames => blames.2.elim noArray noString, fun blames => noLoop blames.2,
    fun blames => noOperand blames.2⟩

theorem Error.isOrdinary_of_kind {kind : ErrorKind} (other : kind ≠ .internalError) :
    ({ kind } : Error).IsOrdinary :=
  ⟨not_blamesHeader_of_kind other, fun blames => absurd blames.2 (by decide : "" ≠ "LOOP"),
    fun blames => other blames.1⟩

theorem Failure.not_blamesLoops_of_kind (kind : ErrorKind) :
    ¬ (Failure.reported { kind }).BlamesLoops :=
  fun blames => absurd blames.2 (by decide : "" ≠ "LOOP")

/-- Whether a failure blames neither the loops nor the operands, and is no wait that cannot end. -/
structure Failure.SparesStacks (failure : Failure) : Prop where
  not_blamesLoops : ¬ failure.BlamesLoops
  not_blamesOperands : ¬ failure.BlamesOperands
  not_stalled : failure ≠ .stalled

theorem Failure.IsOrdinary.sparesStacks {failure : Failure} (ordinary : failure.IsOrdinary) :
    failure.SparesStacks := by
  cases failure with
  | reported error => exact ⟨ordinary.not_blamesLoops, ordinary.not_blamesOperands, nofun⟩
  | fault | zeroDivisor => exact ⟨not_false, not_false, nofun⟩
  | stalled => exact ordinary.elim

theorem Failure.sparesStacks_of_kind {kind : ErrorKind} (other : kind ≠ .internalError) :
    (Failure.reported { kind }).SparesStacks :=
  IsOrdinary.sparesStacks (Error.isOrdinary_of_kind other)

theorem Failure.IsSafe.isOrdinary {failure : Failure} (safe : failure.IsSafe) :
    failure.IsOrdinary := by
  cases failure with
  | reported error => exact safe
  | fault | stalled => exact safe.elim
  | zeroDivisor => exact trivial

/-- Whether the error of a computation without state, if it has one, is ordinary. -/
def IsPlain {α : Type} (result : Except Error α) : Prop :=
  ∀ error, result = .error error → error.IsOrdinary

namespace IsPlain

variable {α β : Type}

theorem ok (value : α) : IsPlain (Except.ok value : Except Error α) := nofun

theorem kind {kind : ErrorKind} (other : kind ≠ .internalError) :
    IsPlain (Except.error { kind } : Except Error α) := by
  rintro _ ⟨⟩
  exact Error.isOrdinary_of_kind other

theorem bind {result : Except Error α} {next : α → Except Error β}
    (first : IsPlain result) (second : ∀ value, IsPlain (next value)) :
    IsPlain (result >>= next) := by
  cases result with
  | ok value => exact second value
  | error error =>
    rintro _ ⟨⟩
    exact first error rfl

end IsPlain

/-! ### Operators and functions -/

namespace Arithmetic

theorem isPlain_checked (result : Single) : IsPlain (checked result) := by
  rw [checked]
  split
  · exact IsPlain.ok _
  · exact IsPlain.kind (by decide)

theorem isPlain_rounded (whole : Bool) (result : Single) : IsPlain (rounded whole result) :=
  isPlain_checked _

theorem isPlain_bits (number : Single) : IsPlain (bits number) := by
  rw [bits]
  split
  · exact IsPlain.ok _
  · exact IsPlain.kind (by decide)

/-- A result that is refused outside of where it has a value. -/
theorem isPlain_unless {kind : ErrorKind} (other : kind ≠ .internalError) (refused whole : Bool)
    (result : Single) :
    IsPlain (if refused then failure kind else rounded whole result) := by
  split
  · exact IsPlain.kind other
  · exact isPlain_rounded _ _

theorem isPlain_divide (whole : Bool) (left right : Single) :
    IsPlain (divide whole left right) := isPlain_unless (by decide) _ whole _

theorem isPlain_modulus (left right : Single) : IsPlain (modulus left right) := by
  refine IsPlain.bind (isPlain_bits _) fun divisor => ?_
  split
  · exact IsPlain.kind (by decide)
  · refine IsPlain.bind (isPlain_bits _) fun dividend => ?_
    split
    · exact IsPlain.kind (by decide)
    · exact IsPlain.ok _

theorem isPlain_power (whole : Bool) (left right : Single) : IsPlain (power whole left right) :=
  isPlain_unless (by decide) _ whole _

theorem isPlain_not (number : Single) : IsPlain (not number) :=
  IsPlain.bind (isPlain_bits _) fun _ => IsPlain.ok _

theorem isPlain_apply (operator : Operator) (whole : Bool) (left right : Single) :
    IsPlain (apply operator whole left right) := by
  cases operator with
  | plus | minus | times => exact isPlain_checked _
  | «over» => exact isPlain_divide _ _ _
  | modulo => exact isPlain_modulus _ _
  | caret => exact isPlain_power _ _ _
  | not => exact isPlain_not _
  | and | or =>
    exact IsPlain.bind (isPlain_bits _) fun _ => IsPlain.bind (isPlain_bits _) fun _ => IsPlain.ok _
  | equal | notEqual | less | lessEqual | greater | greaterEqual => exact IsPlain.ok _

end Arithmetic

theorem Builtin.isPlain_evaluate (word : Keyword) (arguments : List Single) (whole : Bool) :
    IsPlain (evaluate word arguments whole) := by
  unfold evaluate
  split
  all_goals try exact Arithmetic.isPlain_rounded _ _
  · exact Arithmetic.isPlain_unless (by decide) _ whole _
  · exact Arithmetic.isPlain_unless (by decide) _ whole _
  · exact Arithmetic.isPlain_power _ _ _
  · rintro _ ⟨⟩
    exact Error.isOrdinary_of_detail (by decide)

/-! ### Encoding -/

theorem Token.isPlain_encodeWord (token : Token) : IsPlain token.encodeWord := by
  rw [encodeWord]
  split
  · split <;> exact .ok _
  · split
    · exact .ok _
    · rintro _ ⟨⟩
      exact Error.isOrdinary_of_detail (by decide)

theorem Token.isPlain_encode (width : AddressWidth) (token : Token) :
    IsPlain (token.encode width) := by
  unfold encode
  split
  case h_4 =>
    split
    · exact .kind (by decide)
    · exact .ok _
  all_goals first | exact .ok _ | exact isPlain_encodeWord _

theorem isPlain_encodeAll (width : AddressWidth) (tokens : List Token) :
    IsPlain (encodeAll width tokens) := by
  induction tokens with
  | nil => exact .ok _
  | cons token rest ih =>
    exact (token.isPlain_encode width).bind fun _ => ih.bind fun _ => .ok _

/-! ### Memory -/

/-- The conduct of steps whose failures are ordinary. -/
def Conduct.isOrdinary : Conduct Memory where
  moves _ _ := True
  fails _ failure _ := failure.IsOrdinary
  refl _ := trivial
  trans _ _ := trivial
  fails_of_moves _ fails := fails
  fails_moves fails _ := fails

/-- A conduct that allows ordinary failures, other bytes, and what is written down of the heap to
change. -/
class Conduct.Stores (conduct : Conduct Memory) : Prop where
  fails_ordinary : ∀ (memory : Memory) {failure : Failure}, failure.IsOrdinary →
    conduct.fails memory failure memory
  moves_bytes : ∀ (memory : Memory) {bytes : Array UInt8}, bytes.size = memory.bytes.size →
    conduct.moves memory { memory with bytes }
  moves_heap : ∀ (memory : Memory) himem objects recent,
    conduct.moves memory { memory with himem, objects, recent }

/-- A conduct that also allows the end of the program to move. -/
class Conduct.MovesLines (conduct : Conduct Memory) : Prop extends conduct.Stores where
  moves_top : ∀ (memory : Memory) top, conduct.moves memory { memory with top }

/-- A conduct that also allows to forget where lines were. -/
class Conduct.ForgetsLines (conduct : Conduct Memory) : Prop extends conduct.MovesLines where
  moves_slots : ∀ memory : Memory,
    conduct.moves memory { memory with lineCache := memory.lineCache.clear }

instance : Conduct.isOrdinary.ForgetsLines where
  fails_ordinary _ _ ordinary := ordinary
  moves_bytes _ _ _ := trivial
  moves_heap _ _ _ _ := trivial
  moves_top _ _ := trivial
  moves_slots _ := trivial

namespace Memory

variable {α : Type} {conduct : Conduct Memory}

theorem ordinary_always (step : Memory → α × Memory) :
    (Attempt.always step).Obeys Conduct.isOrdinary :=
  fun _ => trivial

/-- Writing leaves as many bytes. -/
theorem size_overwrite (data : Bytes) (bytes : Array UInt8) (start : Nat) :
    (overwrite bytes start data).size = bytes.size := by
  induction data generalizing bytes start with
  | nil => rfl
  | cons byte rest ih => rw [overwrite, ih, Array.size_setIfInBounds]

section Stores

variable [lawful : conduct.Stores]

theorem obeys_throw {failure : Failure} (ordinary : failure.IsOrdinary) :
    (throw failure : Attempt Memory α).Obeys conduct :=
  fun memory => lawful.fails_ordinary memory ordinary

theorem obeys_fail {kind : ErrorKind} (other : kind ≠ .internalError) :
    (Attempt.fail kind : Attempt Memory α).Obeys conduct :=
  obeys_throw (Error.isOrdinary_of_kind other)

theorem obeys_orFail {kind : ErrorKind} (other : kind ≠ .internalError) (value : Option α) :
    (Attempt.orFail kind value : Attempt Memory α).Obeys conduct := by
  cases value with
  | none => exact obeys_fail other
  | some value => exact .pure value

theorem obeys_orFault (value : Option α) :
    (Attempt.orFault value : Attempt Memory α).Obeys conduct := by
  cases value with
  | none => exact obeys_throw trivial
  | some value => exact .pure value

theorem obeys_lift {result : Except Error α} (plain : IsPlain result) :
    (Attempt.lift result : Attempt Memory α).Obeys conduct := by
  cases result with
  | ok value => exact .pure value
  | error error => exact obeys_throw (plain error rfl)

theorem obeys_write (start : Nat) (data : Bytes) : (write start data).Obeys conduct :=
  Attempt.Obeys.get.bind fun _ =>
    .ite (.modify fun memory => lawful.moves_bytes memory (size_overwrite data _ start))
      (obeys_throw trivial)

theorem obeys_poke (address : Nat) (value : UInt8) :
    (Attempt.always fun memory => memory.poke address value).Obeys conduct :=
  fun memory => lawful.moves_bytes memory Array.size_setIfInBounds

theorem obeys_zero (start stop : Nat) : (zero start stop).Obeys conduct :=
  Attempt.Obeys.get.bind fun _ => .ite (obeys_write _ _) (obeys_throw trivial)

theorem obeys_moveBlock (source length destination : Nat) :
    (moveBlock source length destination).Obeys conduct := by
  refine Attempt.Obeys.get.bind fun memory => .ite (obeys_fail (by decide)) (.ite ?_ (.pure _))
  exact (obeys_orFault _).bind fun data => obeys_write _ _

theorem obeys_clearHeap : clearHeap.Obeys conduct :=
  Attempt.Obeys.get.bind fun _ => (obeys_zero _ _).bind fun _ =>
    .modify fun memory => lawful.moves_heap memory _ _ _

theorem obeys_lookup (kind : ObjectKind) (name : Name) : (lookup kind name).Obeys conduct := by
  refine fun memory => Attempt.obeysFrom_of_ok rfl ?_
  dsimp only [find]
  split
  · exact conduct.refl memory
  · split
    · exact lawful.moves_heap memory _ _ _
    · exact conduct.refl memory

/-- **Making an object fails in ordinary ways**, and writes down its place. -/
theorem obeys_allocate (kind : ObjectKind) (name : Name) (size : Nat) :
    (allocate kind name size).Obeys conduct := by
  refine (obeys_lookup kind name).bind fun found => .ite (obeys_fail (by decide)) ?_
  refine Attempt.Obeys.get.bind fun memory => (obeys_orFail (by decide) _).bind fun length => ?_
  have fill (start stop himem address : Nat) (recent : Option (ObjectKind × Name × Extent)) : (do
      zero start stop
      modify fun memory => { memory with himem, objects := memory.objects + 1, recent }
      return address : Attempt Memory Nat).Obeys conduct :=
    (obeys_zero _ _).bind fun _ =>
      (Attempt.Obeys.modify fun memory => lawful.moves_heap memory _ _ _).bind fun _ => .pure _
  refine .ite (obeys_fail (by decide)) ((obeys_write _ _).bind fun _ => .ite ?_ (fill _ _ _ _ _))
  exact Attempt.Obeys.bind (Attempt.Obeys.get.bind fun _ => obeys_write _ _)
    fun _ => fill _ _ _ _ _

theorem obeys_delete (kind : ObjectKind) (name : Name) : (delete kind name).Obeys conduct := by
  refine Attempt.Obeys.get.bind fun memory => ?_
  split
  · exact .pure _
  · refine (obeys_zero _ _).bind fun _ =>
      (Attempt.Obeys.modify fun memory => lawful.moves_heap memory _ _ _).bind fun _ => ?_
    exact (Attempt.Obeys.modify fun memory => lawful.moves_heap memory _ _ _).bind fun _ => .pure _

end Stores

section MovesLines

variable [lawful : conduct.MovesLines]

theorem obeys_endAt (top : Memory → Nat) :
    (modify fun memory => { memory with top := top memory } : Attempt Memory Unit).Obeys conduct :=
  .modify fun memory => lawful.moves_top memory _

theorem obeys_deleteLine (line : LineNumber) : (deleteLine line).Obeys conduct := by
  refine Attempt.Obeys.get.bind fun memory => ?_
  split
  · exact obeys_fail (by decide)
  · refine (obeys_moveBlock _ _ _).bind fun _ => (obeys_endAt fun _ => _).bind fun _ => ?_
    exact obeys_zero _ _

theorem obeys_replaceRecord (oldTop length start stop : Nat) :
    (replaceRecord oldTop length start stop).Obeys conduct := by
  refine .ite ?_ ((obeys_moveBlock _ _ _).bind fun _ => .ite ?_ (obeys_endAt fun _ => _))
  · refine (obeys_moveBlock _ _ _).bind fun _ => (obeys_moveBlock _ _ _).bind fun _ => ?_
    exact obeys_endAt fun _ => _
  · exact (obeys_moveBlock _ _ _).bind fun _ => obeys_endAt fun _ => _

theorem obeys_insertRecord (oldTop length start : Nat) :
    (insertRecord oldTop length start).Obeys conduct := by
  refine (obeys_moveBlock _ _ _).bind fun _ => (obeys_moveBlock _ _ _).bind fun _ => ?_
  exact obeys_endAt fun _ => _

/-- Storing a line, once the slots are empty. -/
theorem obeys_storeRecord (line : LineNumber) (body : List Token) :
    (do
      let memory ← get
      let record ← Attempt.lift (encodeAll memory.width (.lineNumber line :: body))
      let length := record.length
      let oldTop := memory.top
      let (start, existing) := memory.insertionPoint line
      let scratch := scratchFor length oldTop start existing
      if memory.himem < oldTop + scratch then Attempt.fail .outOfMemory
      else
        write oldTop record
        modify fun memory => { memory with top := oldTop + length }
        match existing with
        | some stop => replaceRecord oldTop length start stop
        | none => if start ≠ oldTop then insertRecord oldTop length start
        zero (← get).top (oldTop + scratch) : Attempt Memory Unit).Obeys conduct := by
  refine Attempt.Obeys.get.bind fun memory => ?_
  refine (obeys_lift (isPlain_encodeAll _ _)).bind fun record => ?_
  have clear (stop : Nat) : (do zero (← get).top stop : Attempt Memory Unit).Obeys conduct :=
    Attempt.Obeys.get.bind fun _ => obeys_zero _ _
  dsimp only
  refine .ite (obeys_fail (by decide)) ((obeys_write _ _).bind fun _ => ?_)
  refine (obeys_endAt fun _ => _).bind fun _ => ?_
  split
  · exact (obeys_replaceRecord _ _ _ _).bind fun _ => clear _
  · exact .ite ((obeys_insertRecord _ _ _).bind fun _ => clear _) (clear _)

end MovesLines

section ForgetsLines

variable [lawful : conduct.ForgetsLines]

theorem obeys_clearProgram : clearProgram.Obeys conduct := by
  refine Attempt.Obeys.get.bind fun _ => (obeys_zero _ _).bind fun _ => .modify fun memory => ?_
  exact conduct.trans (lawful.moves_slots memory) (lawful.moves_top _ 0)

theorem obeys_loadProgram (image : Bytes) : (loadProgram image).Obeys conduct := by
  refine Attempt.Obeys.get.bind fun memory => .ite (obeys_fail (by decide)) ?_
  exact obeys_clearProgram.bind fun _ => (obeys_write _ _).bind fun _ => obeys_endAt fun _ => _

/-- **Storing a line fails in ordinary ways**, and forgets where lines were before it moves them. -/
theorem obeys_storeLine (line : LineNumber) (body : List Token) :
    (storeLine line body).Obeys conduct := by
  refine .ite (obeys_fail (by decide)) ((Attempt.Obeys.modify lawful.moves_slots).bind fun _ => ?_)
  exact .ite (obeys_deleteLine _) (obeys_storeRecord line body)

end ForgetsLines

end Memory

end PocketBasic
