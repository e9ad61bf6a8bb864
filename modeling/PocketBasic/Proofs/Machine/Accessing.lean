/-
**Steps that only look.** Where something is in memory is worked out from numbers of the program and
from bytes that are read; such a step leaves the machine alone, whether it finds a place or refuses.
What it takes is that the bytes which it reads are inside memory, not that they mean anything.

* `Machine.Looks`: a step that looks, with what is promised of its value;
* `Machine.looks_place`: a subscript;
* `Machine.looks_slotLength`, `Machine.looks_readSlot`, `Machine.looks_splice`: parts of strings.
-/

import Mathlib.Tactic.Common
import PocketBasic.Machine.Variables
import PocketBasic.Proofs.Memory.Bytes
import PocketBasic.Proofs.Number.Order

namespace PocketBasic.Machine

variable {α β : Type} {machine : Machine}

/-! ### Looking -/

/-- Whether a step leaves the machine alone, and gives a value of which something is promised or
refuses with an error of the language. -/
def Looks (step : Action α) (machine : Machine) (promised : α → Prop) : Prop :=
  step.Ends machine (fun value after => promised value ∧ after = machine)
    fun failure after => (∃ kind, failure = .reported { kind }) ∧ after = machine

section Looks

variable {step : Action α} {promised : α → Prop}

theorem Looks.pure {value : α} (kept : promised value) :
    Looks (Pure.pure value) machine promised := ⟨kept, rfl⟩

theorem Looks.fail (kind : ErrorKind) : Looks (Attempt.fail kind) machine promised :=
  ⟨⟨kind, rfl⟩, rfl⟩

/-- What follows a look at the machine knows the machine. -/
theorem Looks.get_bind {next : Machine → Action α}
    (second : Looks (next machine) machine promised) :
    Looks (MonadState.get >>= next) machine promised := second

/-- What follows a step that looks starts from the same machine. -/
theorem Looks.ends_bind {next : α → Action β} {last : β → Machine → Prop}
    {allowed : Failure → Machine → Prop} (looks : Looks step machine promised)
    (refused : ∀ kind, allowed (.reported { kind }) machine)
    (second : ∀ value, promised value → (next value).Ends machine last allowed) :
    (step >>= next).Ends machine last allowed := by
  have ends : step.Ends machine (fun value after => promised value ∧ after = machine) allowed := by
    refine looks.mono (fun _ _ => id) fun failure after told => ?_
    obtain ⟨⟨kind, rfl⟩, rfl⟩ := told
    exact refused kind
  refine ends.bind fun value after found => ?_
  obtain ⟨kept, rfl⟩ := found
  exact second value kept

theorem Looks.bind {next : α → Action β} {last : β → Prop} (looks : Looks step machine promised)
    (second : ∀ value, promised value → Looks (next value) machine last) :
    Looks (step >>= next) machine last :=
  looks.ends_bind (fun kind => ⟨⟨kind, rfl⟩, rfl⟩) second

end Looks

/-! ### Single reads -/

theorem looks_numberAt {address : Nat} (inside : address + numberSize ≤ machine.memory.size) :
    Looks (numberAt address) machine fun _ => True := by
  obtain ⟨value, there⟩ := Memory.exists_numberAt? inside
  refine .get_bind ?_
  rw [there]
  exact .pure trivial

theorem looks_addressAt {address : Nat}
    (inside : address + machine.memory.width.byteCount ≤ machine.memory.size) :
    Looks (addressAt address) machine fun value =>
      machine.memory.addressAt? address = some value := by
  obtain ⟨value, there⟩ := Memory.exists_addressAt? inside
  refine .get_bind ?_
  rw [there]
  exact .pure rfl

theorem looks_byteAt {address : Nat} (inside : address < machine.memory.size) :
    Looks (byteAt address) machine fun _ => True := by
  obtain ⟨byte, there⟩ := Memory.exists_peek? inside
  refine .get_bind ?_
  rw [there]
  exact .pure trivial

/-! ### Subscripts -/

/-- Whether a subscript, counted from the lowest one, is a number. -/
def Counts (machine : Machine) (subscript : Single) : Prop :=
  (subscript.truncate.subtract machine.base).isNaN = false

/-- **A subscript that is not refused is the place of an element**, if there are elements or it is a
number. -/
theorem looks_place {subscript : Single} {count : Nat}
    (some : 0 < count ∨ machine.Counts subscript) :
    Looks (place subscript count) machine (· < count) := by
  refine .get_bind ?_
  dsimp only
  split
  · exact .fail _
  · rename_i inside
    rw [Bool.or_eq_true, not_or, Bool.not_eq_true, Bool.not_eq_true] at inside
    have positive : 0 < count := by
      rcases some with positive | number
      · exact positive
      · -- Every number is below zero or at least zero, so with no elements all of them are refused.
        by_contra none
        obtain rfl : count = 0 := by omega
        have atLeast := Single.atMost_of_not_less ⟨number, Single.isNaN_ofNat 0⟩ inside.1
        exact Bool.false_ne_true (inside.2.symm.trans atLeast)
    exact .pure (Single.toSize_lt positive inside.2)

/-- The place of an element in a row and a column. -/
theorem element_bounds {rows columns row column : Nat} (rowInside : row < rows)
    (columnInside : column < columns) :
    (row * columns + column) * numberSize + numberSize ≤ rows * columns * numberSize := by
  have among : row * columns + column < rows * columns := by
    calc row * columns + column < (row + 1) * columns := by
          rw [Nat.succ_mul]
          exact Nat.add_lt_add_left columnInside _
      _ ≤ rows * columns := Nat.mul_le_mul_right _ rowInside
  rw [← Nat.succ_mul]
  exact Nat.mul_le_mul_right _ among

/-! ### Parts of strings -/

variable {slot : StringSlot}

theorem looks_slotLength (inside : slot.address < machine.memory.size) :
    Looks (slotLength slot) machine (· ≤ slot.capacity) :=
  (looks_byteAt inside).bind fun _ _ => .pure (Nat.min_le_right _ _)

/-- **The part of a string that is read lies in its slot.** -/
theorem looks_readSlot (inside : slot.address + 1 + slot.capacity ≤ machine.memory.size)
    (selector : Selector) : Looks (readSlot slot selector) machine fun _ => True := by
  refine (looks_slotLength (by omega)).bind fun length fits => ?_
  have rest {lower : Nat} (before : lower ≤ length) (upper : Nat)
      (ends : upper ≤ max length lower) :
      Looks (do Attempt.orFault ((← get).memory.read? (slot.address + 1 + lower) (upper - lower)))
        machine fun _ => True := by
    obtain ⟨data, -, read⟩ := @Memory.exists_read? machine.memory (slot.address + 1 + lower)
      (upper - lower) (by omega)
    refine .get_bind ?_
    rw [read]
    exact .pure trivial
  have part {lower : Nat} (before : lower ≤ length) := rest before length (by omega)
  have cut {lower : Nat} (before : lower ≤ length) (bound : Single) :=
    rest before (max (min bound.toSize length) lower) (by omega)
  cases selector.lower with
  | none =>
    cases selector.upper with
    | none => exact part (Nat.zero_le _)
    | some upper => exact cut (Nat.zero_le _) upper
  | some bound =>
    dsimp only
    split
    · cases selector.upper with
      | none => exact part (Nat.min_le_right _ _)
      | some upper => exact cut (Nat.min_le_right _ _) upper
    · exact .fail _

/-- A splice that fits leaves a string that fits. -/
theorem looks_splice (selector : Selector) {length capacity : Nat} (fits : length ≤ capacity)
    (size : Nat) :
    Looks (splice selector length size) machine fun part =>
      part.start + part.count ≤ capacity → part.length ≤ capacity := by
  rw [splice]
  split
  · exact .pure fun inside => (Nat.zero_add size).symm.trans_le inside
  · split
    · exact .fail _
    · dsimp only
      split
      · exact .pure id
      · split
        · exact .fail _
        · exact .pure fun inside => Nat.max_le.mpr ⟨fits, inside⟩

end PocketBasic.Machine
