/-
**What steps on a bounded stack do**, as equations of their runs.

* `runOn_push_of_room`, `runOn_push_of_full`: a push, with room and without;
* `runOn_pop_of_cons`, `runOn_pop_of_nil`: a pop;
* `runOn_popPair_of_cons`, `runOn_popPair_of_singleton`: a pair, also where there is half of it;
* `runOn_popMany_of_le`, `runOn_popMany_of_lt`: many entries, or too many;
* `Conduct.takesOff`: what every step does that takes entries off;
* `unwindTo_cases`, `unwindTo_eq`: what is left of a stack that is unwound;
* **`unwindTo_found`**: unwinding tells whether there was an entry to unwind to;
* **`not_of_mem_unwindTo`**: of a property that at most one entry has, unwinding leaves none.
-/

import Mathlib.Data.List.TakeWhile
import Mathlib.Tactic.Common
import PocketBasic.BoundedStack
import PocketBasic.Proofs.Failures

namespace PocketBasic

/-- The conduct of steps that take entries off a stack: it says the same after it where it is full
or empty, and they fail for want of entries. -/
def Conduct.takesOff {α : Type} : Conduct (BoundedStack α) where
  moves before after :=
    after.overflowDetail = before.overflowDetail ∧ after.underflow = before.underflow
  fails before failure after := (after.overflowDetail = before.overflowDetail ∧
    after.underflow = before.underflow) ∧ failure = .reported { kind := before.underflow }
  refl _ := ⟨rfl, rfl⟩
  trans first second := ⟨second.1.trans first.1, second.2.trans first.2⟩
  fails_of_moves first second :=
    ⟨⟨second.1.1.trans first.1, second.1.2.trans first.2⟩, by rw [second.2, first.2]⟩
  fails_moves first second := ⟨⟨second.1.trans first.1.1, second.2.trans first.1.2⟩, first.2⟩

namespace BoundedStack

variable {α : Type} {stack : BoundedStack α} {entry newest next : α} {older : List α}
  {count : Nat}

/-! ### Pushes and pops -/

theorem runOn_push_of_room (room : stack.isFull = false) :
    (push entry).runOn stack = (.ok (), { stack with entries := entry :: stack.entries }) := by
  have free : ¬ stack.isFull = true := by simp [room]
  rw [push, Attempt.runOn_get_bind, if_neg free, Attempt.runOn_set]

theorem runOn_push_of_full (full : stack.isFull = true) :
    (push entry).runOn stack =
      (.error (.reported { kind := .stackOverflow, detail := stack.overflowDetail }), stack) := by
  rw [push, Attempt.runOn_get_bind, if_pos full, Attempt.runOn_failWith]

theorem runOn_pop_of_cons (entries : stack.entries = newest :: older) :
    pop.runOn stack = (.ok newest, { stack with entries := older }) := by
  rw [pop, Attempt.runOn_get_bind, entries]
  rfl

theorem runOn_pop_of_nil (empty : stack.entries = []) :
    pop.runOn stack = (.error (.reported { kind := stack.underflow }), stack) := by
  rw [pop, Attempt.runOn_get_bind, empty]
  rfl

theorem runOn_popPair_of_cons (entries : stack.entries = newest :: next :: older) :
    popPair.runOn stack = (.ok (next, newest), { stack with entries := older }) := by
  rw [popPair, Attempt.runOn_bind_ok (runOn_pop_of_cons entries),
    Attempt.runOn_bind_ok (runOn_pop_of_cons rfl), Attempt.runOn_pure]

/-- Half of a pair is taken off before the other half is missed. -/
theorem runOn_popPair_of_singleton (entries : stack.entries = [newest]) :
    popPair.runOn stack = (.error (.reported { kind := stack.underflow }), stack.clear) := by
  rw [popPair, Attempt.runOn_bind_ok (runOn_pop_of_cons entries),
    Attempt.runOn_bind_error (runOn_pop_of_nil rfl), clear]

theorem runOn_popPair_of_nil (empty : stack.entries = []) :
    popPair.runOn stack = (.error (.reported { kind := stack.underflow }), stack) := by
  rw [popPair, Attempt.runOn_bind_error (runOn_pop_of_nil empty)]

theorem runOn_popMany_of_le (enough : count ≤ stack.size) :
    (popMany count).runOn stack =
      (.ok (stack.entries.take count).reverse,
        { stack with entries := stack.entries.drop count }) := by
  rw [popMany, Attempt.runOn_get_bind, if_neg (Nat.not_lt.mpr enough)]
  rfl

theorem runOn_popMany_of_lt (few : stack.size < count) :
    (popMany count).runOn stack = (.error (.reported { kind := stack.underflow }), stack) := by
  rw [popMany, Attempt.runOn_get_bind, if_pos few, Attempt.runOn_fail]

/-! ### What takes entries off -/

theorem takesOff_pop : (pop : Attempt (BoundedStack α) α).Obeys .takesOff := by
  intro stack
  cases entries : stack.entries with
  | nil =>
    exact Attempt.obeysFrom_of_error (runOn_pop_of_nil entries) ⟨⟨rfl, rfl⟩, rfl⟩
  | cons newest older => exact Attempt.obeysFrom_of_ok (runOn_pop_of_cons entries) ⟨rfl, rfl⟩

theorem takesOff_popPair : (popPair : Attempt (BoundedStack α) (α × α)).Obeys .takesOff :=
  takesOff_pop.bind fun _ => takesOff_pop.bind fun _ => .pure _

theorem takesOff_popMany (count : Nat) :
    (popMany count : Attempt (BoundedStack α) (List α)).Obeys .takesOff := by
  refine .get_bind fun stack => .ite (fun _ => ?_) fun _ => .bind ⟨rfl, rfl⟩ fun _ => .pure _
  exact ⟨⟨rfl, rfl⟩, rfl⟩

/-! ### Unwinding -/

/-- **Unwinding drops the newest entry with a property and all that is newer**, or nothing if none
has it. -/
theorem unwindTo_cases (stack : BoundedStack α) (property : α → Bool) :
    ((∀ other ∈ stack.entries, property other = false) ∧
      stack.unwindTo property = (false, stack)) ∨
    ∃ newer entry older, stack.entries = newer ++ entry :: older ∧ property entry = true ∧
      (∀ other ∈ newer, property other = false) ∧
      stack.unwindTo property = (true, { stack with entries := older }) := by
  cases found : stack.entries.find? property with
  | none =>
    have lack := List.find?_eq_none.mp found
    have left : stack.entries.dropWhile (fun entry => !property entry) = [] :=
      List.dropWhile_eq_nil_iff.mpr fun other among => by simpa using lack other among
    refine .inl ⟨by simpa using lack, ?_⟩
    rw [unwindTo, left]
  | some entry =>
    obtain ⟨has, newer, older, entries, lack⟩ := List.find?_eq_some_iff_append.mp found
    have left : stack.entries.dropWhile (fun entry => !property entry) = entry :: older := by
      rw [entries, List.dropWhile_append_of_pos lack, List.dropWhile_cons_of_neg (by simp [has])]
    refine .inr ⟨newer, entry, older, entries, has, by simpa using lack, ?_⟩
    rw [unwindTo, left]

/-- What is left of a stack that is unwound are its oldest entries. -/
theorem unwindTo_eq (stack : BoundedStack α) (property : α → Bool) :
    ∃ entries, entries <:+ stack.entries ∧
      (stack.unwindTo property).2 = { stack with entries } := by
  rcases stack.unwindTo_cases property with
    ⟨-, same⟩ | ⟨newer, entry, older, entries, -, -, left⟩
  · exact ⟨_, List.suffix_rfl, congrArg Prod.snd same⟩
  · refine ⟨older, ?_, congrArg Prod.snd left⟩
    rw [entries]
    exact (List.suffix_cons entry older).trans (List.suffix_append newer _)

/-- Unwinding tells whether there was an entry with the property. -/
theorem unwindTo_found (stack : BoundedStack α) (property : α → Bool) :
    (stack.unwindTo property).1 = stack.entries.any property := by
  rcases stack.unwindTo_cases property with
    ⟨lack, same⟩ | ⟨newer, entry, older, entries, has, -, left⟩
  · rw [same]
    exact (List.any_eq_false.mpr fun other among => by simp [lack other among]).symm
  · rw [left]
    exact (List.any_eq_true.mpr ⟨entry, by simp [entries], has⟩).symm

/-- **What at most one entry has, none has after unwinding to it.** -/
theorem not_of_mem_unwindTo {property : α → Bool}
    (unique : stack.entries.Pairwise fun first second =>
      ¬ (property first = true ∧ property second = true))
    (among : entry ∈ (stack.unwindTo property).2.entries) : property entry = false := by
  rcases stack.unwindTo_cases property with
    ⟨lack, same⟩ | ⟨newer, newest, older, entries, has, -, left⟩
  · rw [same] at among
    exact lack entry among
  · rw [left] at among
    rw [entries] at unique
    have apart := (List.pairwise_cons.mp (List.pairwise_append.mp unique).2.1).1 entry among
    simpa [has] using apart

end BoundedStack

end PocketBasic
