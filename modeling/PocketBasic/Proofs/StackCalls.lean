/-
**A bounded stack is a list** that calls change at its end. What a call hands over and leaves is
told from the list alone, the oldest entry first. A call that the list refuses changes nothing, with
one exception: where a pair is asked for, its entries are taken off one after the other, so half of
a pair is lost.

* `StackCall`: the calls on a stack; `StackAnswer`: what they answer; `StackCall.run`: what they do
  to a stack;
* `StackCall.outcome?`: what they do to a list, unless it refuses them;
* `StackCall.splitsPair`: the exception; `StackCall.leaves`: the list after a call;
* `StackCall.follows`: every call does to the stack what it does to the list;
* **`BoundedStack.calls_follow_list`**: after any calls an empty stack holds the entries of the
  list, never more than its capacity, and a failure leaves it as it was if no pair is split.
-/

import Mathlib.Data.List.DropRight
import Mathlib.Data.List.ModifyLast
import PocketBasic.Proofs.BoundedStack

namespace PocketBasic

/-- The calls on a stack. -/
inductive StackCall (α : Type) where
  | push (entry : α)
  | pop
  | popPair
  | popMany (count : Nat)
  | unwindTo (property : α → Bool)
  /-- Writing to the newest entry, which is seen before. -/
  | replaceTop (entry : α)
  | clear

/-- What a call on a stack answers. -/
inductive StackAnswer (α : Type) where
  /-- The entries that are handed over, the oldest first. -/
  | handed (entries : List α)
  /-- Whether there was an entry to unwind to. -/
  | found (whether : Bool)

variable {α : Type}

namespace BoundedStack

/-- The entries, oldest first. -/
def contents (stack : BoundedStack α) : List α := stack.entries.reverse

/-- The same stack with other contents. -/
def holding (stack : BoundedStack α) (contents : List α) : BoundedStack α :=
  { stack with entries := contents.reverse }

@[simp]
theorem contents_holding (stack : BoundedStack α) (contents : List α) :
    (stack.holding contents).contents = contents := List.reverse_reverse contents

@[simp]
theorem holding_contents (stack : BoundedStack α) : stack.holding stack.contents = stack := by
  rw [holding, contents, List.reverse_reverse]

@[simp]
theorem length_contents (stack : BoundedStack α) : stack.contents.length = stack.size :=
  List.length_reverse

end BoundedStack

namespace StackCall

/-! ### Calls on a list -/

/-- The newest entries of a list and the others, if there are as many. -/
def takeOff? (count : Nat) (entries : List α) : Option (StackAnswer α × List α) :=
  if count ≤ entries.length then some (.handed (entries.rtake count), entries.rdrop count)
  else none

/-- What is older than the newest entry with a property, or everything if none has it. -/
def unwound (property : α → Bool) : List α → List α
  | [] => []
  | entry :: newer =>
    if newer.any property then entry :: unwound property newer
    else if property entry then []
    else entry :: newer

/-- What a call answers and what it leaves of a list, the oldest entry first, in a stack with room
for so many. There is nothing where it is refused. -/
def outcome? (capacity : Nat) (entries : List α) : StackCall α → Option (StackAnswer α × List α)
  | push entry => if entries.length < capacity then some (.handed [], entries ++ [entry]) else none
  | pop => takeOff? 1 entries
  | popPair => takeOff? 2 entries
  | popMany count => takeOff? count entries
  | unwindTo property => some (.found (entries.any property), unwound property entries)
  | replaceTop entry => some (.handed entries.getLast?.toList, entries.modifyLast fun _ => entry)
  | clear => some (.handed [], [])

/-- Whether a call asks for a pair where there is half of one. -/
def splitsPair : StackCall α → List α → Bool
  | popPair, [_] => true
  | _, _ => false

/-- The list after a call: as it was if the call is refused, but half of a pair is lost. -/
def leaves (capacity : Nat) (entries : List α) (call : StackCall α) : List α :=
  match call.outcome? capacity entries with
  | some (_, left) => left
  | none => if call.splitsPair entries then [] else entries

/-! ### Calls on a stack -/

/-- What a call does to a stack, and what it answers. -/
def run : StackCall α → Attempt (BoundedStack α) (StackAnswer α)
  | push entry => do
    BoundedStack.push entry
    return .handed []
  | pop => do return .handed [← BoundedStack.pop]
  | popPair => do
    let (older, newer) ← BoundedStack.popPair
    return .handed [older, newer]
  | popMany count => do return .handed (← BoundedStack.popMany count)
  | unwindTo property => do
    let stack ← get
    set (stack.unwindTo property).2
    return .found (stack.unwindTo property).1
  | replaceTop entry => do
    let stack ← get
    set (stack.replaceTop entry)
    return .handed stack.top?.toList
  | clear => do
    modify BoundedStack.clear
    return .handed []

/-- What a stack says to a call that it refuses. -/
def refusal (stack : BoundedStack α) : StackCall α → Error
  | push _ => { kind := .stackOverflow, detail := stack.overflowDetail }
  | _ => { kind := stack.underflow }

/-- What a call answers. -/
def answer (stack : BoundedStack α) (call : StackCall α) : Except Failure (StackAnswer α) :=
  match call.outcome? stack.capacity stack.contents with
  | some (answer, _) => .ok answer
  | none => .error (.reported (call.refusal stack))

variable {stack : BoundedStack α} {call : StackCall α} {property : α → Bool} {entry : α}
  {older newer left : List α} {answer : StackAnswer α} {capacity count : Nat}

/-! ### The list and the stack -/

theorem takeOff?_contents (count : Nat) (stack : BoundedStack α) :
    takeOff? count stack.contents =
      if count ≤ stack.size then
        some (.handed (stack.entries.take count).reverse, (stack.entries.drop count).reverse)
      else none := by
  rw [takeOff?, BoundedStack.length_contents, List.rtake_eq_reverse_take_reverse,
    List.rdrop_eq_reverse_drop_reverse, BoundedStack.contents, List.reverse_reverse]

theorem unwound_of_none (lack : ∀ other ∈ older, property other = false) :
    unwound property older = older := by
  cases older with
  | nil => rfl
  | cons oldest newer =>
    obtain ⟨first, rest⟩ := List.forall_mem_cons.mp lack
    have others : newer.any property = false := List.any_eq_false.mpr fun other among => by
      simp [rest other among]
    rw [unwound, others, first]
    rfl

/-- The newest entry with a property goes, and with it all that is newer. -/
theorem unwound_append (has : property entry = true)
    (lack : ∀ other ∈ newer, property other = false) :
    unwound property (older ++ entry :: newer) = older := by
  induction older with
  | nil =>
    have others : newer.any property = false := List.any_eq_false.mpr fun other among => by
      simp [lack other among]
    rw [List.nil_append, unwound, others, has]
    rfl
  | cons oldest older ih =>
    have behind : (older ++ entry :: newer).any property = true :=
      List.any_eq_true.mpr ⟨entry, by simp, has⟩
    rw [List.cons_append, unwound, if_pos behind, ih]

/-- Unwinding a stack unwinds the list of its entries. -/
theorem unwindTo_eq_holding (stack : BoundedStack α) (property : α → Bool) :
    (stack.unwindTo property).2 = stack.holding (unwound property stack.contents) := by
  rcases stack.unwindTo_cases property with
    ⟨lack, same⟩ | ⟨newer, entry, older, entries, has, lack, left⟩
  · have whole : unwound property stack.contents = stack.contents :=
      unwound_of_none fun other among => lack other (List.mem_reverse.mp among)
    rw [same, whole, BoundedStack.holding_contents]
  · have contents : stack.contents = older.reverse ++ entry :: newer.reverse := by
      simp [BoundedStack.contents, entries]
    have front : unwound property stack.contents = older.reverse := by
      rw [contents]
      exact unwound_append has fun other among => lack other (List.mem_reverse.mp among)
    rw [left, front, BoundedStack.holding, List.reverse_reverse]

theorem replaceTop_eq_holding (stack : BoundedStack α) (entry : α) :
    stack.replaceTop entry = stack.holding (stack.contents.modifyLast fun _ => entry) := by
  rcases stack with ⟨capacity, overflowDetail, underflow, _ | ⟨newest, older⟩⟩
  · rfl
  · simp [BoundedStack.replaceTop, BoundedStack.holding, BoundedStack.contents,
      List.modifyLast_concat]

theorem toList_top? (stack : BoundedStack α) :
    stack.top?.toList = stack.contents.getLast?.toList := by
  rw [BoundedStack.top?, BoundedStack.contents, List.getLast?_reverse]

/-! ### One call -/

/-- Whether a call does to a stack what it does to the list of its entries. -/
def Follows (call : StackCall α) (stack : BoundedStack α) : Prop :=
  call.run.runOn stack =
    (call.answer stack, stack.holding (call.leaves stack.capacity stack.contents))

theorem Follows.of_allowed
    (allowed : call.outcome? stack.capacity stack.contents = some (answer, left))
    (ran : call.run.runOn stack = (.ok answer, stack.holding left)) : call.Follows stack := by
  rw [Follows, ran, StackCall.answer, leaves, allowed]

theorem Follows.of_refused (refused : call.outcome? stack.capacity stack.contents = none)
    (whole : call.splitsPair stack.contents = false)
    (ran : call.run.runOn stack = (.error (.reported (call.refusal stack)), stack)) :
    call.Follows stack := by
  rw [Follows, ran, answer, leaves, refused, whole]
  simp

theorem follows_push (entry : α) (stack : BoundedStack α) : (push entry).Follows stack := by
  by_cases room : stack.contents.length < stack.capacity
  · have free : stack.isFull = false := by simpa [BoundedStack.isFull] using room
    refine .of_allowed (if_pos room) ?_
    rw [run, Attempt.runOn_bind_ok (BoundedStack.runOn_push_of_room free), Attempt.runOn_pure]
    simp [BoundedStack.holding, BoundedStack.contents]
  · have full : stack.isFull = true := by simpa [BoundedStack.isFull] using room
    exact .of_refused (if_neg room) rfl
      (Attempt.runOn_bind_error (BoundedStack.runOn_push_of_full full) _)

theorem follows_pop (stack : BoundedStack α) : pop.Follows stack := by
  have outcome := takeOff?_contents 1 stack
  rcases entries : stack.entries with _ | ⟨newest, older⟩
  all_goals rw [BoundedStack.size, entries] at outcome
  · exact .of_refused outcome rfl
      (Attempt.runOn_bind_error (BoundedStack.runOn_pop_of_nil entries) _)
  · have allowed : pop.outcome? stack.capacity stack.contents =
        some (.handed [newest], older.reverse) :=
      outcome
    refine .of_allowed allowed ?_
    rw [run, Attempt.runOn_bind_ok (BoundedStack.runOn_pop_of_cons entries), Attempt.runOn_pure,
      BoundedStack.holding, List.reverse_reverse]

/-- Where there is half of a pair, it is taken off before the call fails. -/
theorem follows_popPair (stack : BoundedStack α) : popPair.Follows stack := by
  have outcome := takeOff?_contents 2 stack
  rcases entries : stack.entries with _ | ⟨newest, _ | ⟨next, older⟩⟩
  all_goals rw [BoundedStack.size, entries] at outcome
  · have contents : stack.contents = [] := by rw [BoundedStack.contents, entries, List.reverse_nil]
    exact .of_refused outcome (by rw [contents]; rfl)
      (Attempt.runOn_bind_error (BoundedStack.runOn_popPair_of_nil entries) _)
  · have contents : stack.contents = [newest] := by
      rw [BoundedStack.contents, entries, List.reverse_singleton]
    -- The list refuses the pair as a whole, but the stack has already given its only entry away.
    have refused : popPair.outcome? stack.capacity [newest] = none := contents ▸ outcome
    rw [Follows, run, Attempt.runOn_bind_error (BoundedStack.runOn_popPair_of_singleton entries),
      answer, leaves, contents, refused]
    rfl
  · have allowed : popPair.outcome? stack.capacity stack.contents =
        some (.handed [next, newest], older.reverse) := outcome
    refine .of_allowed allowed ?_
    rw [run, Attempt.runOn_bind_ok (BoundedStack.runOn_popPair_of_cons entries),
      Attempt.runOn_pure, BoundedStack.holding, List.reverse_reverse]

theorem follows_popMany (count : Nat) (stack : BoundedStack α) :
    (popMany count).Follows stack := by
  by_cases enough : count ≤ stack.size
  · refine .of_allowed ((takeOff?_contents count stack).trans (if_pos enough)) ?_
    rw [run, Attempt.runOn_bind_ok (BoundedStack.runOn_popMany_of_le enough), Attempt.runOn_pure,
      BoundedStack.holding, List.reverse_reverse]
  · exact .of_refused ((takeOff?_contents count stack).trans (if_neg enough)) rfl
      (Attempt.runOn_bind_error (BoundedStack.runOn_popMany_of_lt (Nat.lt_of_not_le enough)) _)

/-- **The stack and the list stay together in every call.** -/
theorem follows (call : StackCall α) (stack : BoundedStack α) : call.Follows stack := by
  cases call with
  | push entry => exact follows_push entry stack
  | pop => exact follows_pop stack
  | popPair => exact follows_popPair stack
  | popMany count => exact follows_popMany count stack
  | unwindTo property =>
    refine .of_allowed rfl ?_
    have told : stack.contents.any property = (stack.unwindTo property).1 := by
      rw [stack.unwindTo_found, BoundedStack.contents, List.any_reverse]
    rw [run, Attempt.runOn_get_bind, unwindTo_eq_holding, told]
    rfl
  | replaceTop entry =>
    refine .of_allowed rfl ?_
    rw [run, Attempt.runOn_get_bind, replaceTop_eq_holding, toList_top?]
    rfl
  | clear => exact .of_allowed rfl rfl

/-! ### What the list says of all calls -/

theorem splitsPair_iff {entries : List α} :
    call.splitsPair entries = true ↔ call = popPair ∧ entries.length = 1 := by
  unfold splitsPair
  split
  · simp
  · rename_i other
    simp only [Bool.false_eq_true, false_iff, not_and]
    intro pair single
    obtain ⟨entry, rfl⟩ := List.length_eq_one_iff.mp single
    exact other entry pair rfl

theorem length_unwound_le (property : α → Bool) (entries : List α) :
    (unwound property entries).length ≤ entries.length := by
  fun_induction unwound property entries with
  | case1 => exact Nat.le_refl _
  | case2 entry newer behind ih => exact Nat.succ_le_succ ih
  | case3 => exact Nat.zero_le _
  | case4 => exact Nat.le_refl _

theorem length_modifyLast (change : α → α) (entries : List α) :
    (entries.modifyLast change).length = entries.length := by
  rcases List.eq_nil_or_concat entries with rfl | ⟨older, newest, rfl⟩
  · rfl
  · rw [List.concat_eq_append, List.modifyLast_concat, List.length_append, List.length_append]
    rfl

theorem length_of_takeOff? {entries : List α}
    (taken : takeOff? count entries = some (answer, left)) : left.length ≤ entries.length := by
  rw [takeOff?] at taken
  split at taken
  · cases taken
    exact (List.take_sublist _ _).length_le
  · cases taken

/-- A call that is allowed leaves no more than there is room for. -/
theorem length_of_outcome? {entries : List α} (bound : entries.length ≤ capacity)
    (outcome : call.outcome? capacity entries = some (answer, left)) : left.length ≤ capacity := by
  cases call with
  | push entry =>
    rw [outcome?] at outcome
    split at outcome
    · rename_i room
      cases outcome
      rw [List.length_append]
      exact room
    · cases outcome
  | pop => exact (length_of_takeOff? outcome).trans bound
  | popPair => exact (length_of_takeOff? outcome).trans bound
  | popMany count => exact (length_of_takeOff? outcome).trans bound
  | unwindTo property =>
    cases outcome
    exact (length_unwound_le property entries).trans bound
  | replaceTop entry =>
    cases outcome
    exact (length_modifyLast _ entries).trans_le bound
  | clear =>
    cases outcome
    exact Nat.zero_le _

theorem length_leaves {entries : List α} (call : StackCall α) (bound : entries.length ≤ capacity) :
    (call.leaves capacity entries).length ≤ capacity := by
  rw [leaves]
  split
  · exact length_of_outcome? bound ‹_›
  · split
    · exact Nat.zero_le _
    · exact bound

/-- **A call that fails leaves the stack as it was, unless it splits a pair.** -/
theorem unchanged_iff_of_error {failure : Failure} {later : BoundedStack α}
    (failed : call.run.runOn stack = (.error failure, later)) :
    later = stack ↔ ¬ (call = popPair ∧ stack.size = 1) := by
  obtain ⟨answered, rfl⟩ := Prod.ext_iff.mp (failed.symm.trans (follows call stack))
  have refused : call.outcome? stack.capacity stack.contents = none := by
    rw [answer] at answered
    split at answered
    · cases answered
    · assumption
  rw [← BoundedStack.length_contents, ← splitsPair_iff, leaves, refused]
  cases split : call.splitsPair stack.contents with
  | false => simp
  | true =>
    have single := (splitsPair_iff.mp split).2
    have lost : stack.holding [] ≠ stack := fun same => by
      rw [← same, BoundedStack.contents_holding] at single
      cases single
    simpa using lost

end StackCall

namespace BoundedStack

/-- An empty stack. -/
def empty (capacity : Nat) (overflowDetail : String) (underflow : ErrorKind) : BoundedStack α :=
  { capacity, overflowDetail, underflow }

/-- A stack after calls, whether they fail or not. -/
def after (stack : BoundedStack α) (calls : List (StackCall α)) : BoundedStack α :=
  calls.foldl (fun stack call => (call.run.runOn stack).2) stack

/-- The list stays beside the stack in any calls. -/
theorem after_eq_holding (stack : BoundedStack α) (calls : List (StackCall α)) :
    stack.after calls =
      stack.holding (calls.foldl (StackCall.leaves stack.capacity) stack.contents) := by
  induction calls generalizing stack with
  | nil => exact stack.holding_contents.symm
  | cons call calls ih =>
    have step : stack.after (call :: calls) =
        (stack.holding (call.leaves stack.capacity stack.contents)).after calls := by
      rw [after, List.foldl_cons, StackCall.follows call stack, after]
    rw [step, ih, contents_holding]
    rfl

theorem length_foldl_leaves {capacity : Nat} {entries : List α} (calls : List (StackCall α))
    (bound : entries.length ≤ capacity) :
    (calls.foldl (StackCall.leaves capacity) entries).length ≤ capacity := by
  induction calls generalizing entries with
  | nil => exact bound
  | cons call calls ih => exact ih (call.length_leaves bound)

/-- **A bounded stack is a list that is changed at one end.** After any calls an empty stack holds
the entries of the list, never more than its capacity, and says the same where it is full or empty.
The next call, whatever it is, answers what the list says, and a failure leaves the stack as it was,
but for one: where a pair is asked for and there is a single entry, this entry is lost. -/
theorem calls_follow_list (capacity : Nat) (overflowDetail : String) (underflow : ErrorKind)
    (calls : List (StackCall α)) :
    let stack := (empty capacity overflowDetail underflow).after calls
    stack = (empty capacity overflowDetail underflow).holding
        (calls.foldl (StackCall.leaves capacity) []) ∧
      stack.contents.length ≤ capacity ∧
      (∀ call : StackCall α, (call.run.runOn stack).1 = call.answer stack) ∧
      ∀ (call : StackCall α) failure later, call.run.runOn stack = (.error failure, later) →
        (later = stack ↔ ¬ (call = .popPair ∧ stack.contents.length = 1)) := by
  intro stack
  have held : stack = (empty capacity overflowDetail underflow).holding
      (calls.foldl (StackCall.leaves capacity) []) := after_eq_holding _ calls
  refine ⟨held, ?_, fun call => ?_, fun call failure later failed => ?_⟩
  · rw [held, contents_holding]
    exact length_foldl_leaves calls (Nat.zero_le _)
  · rw [StackCall.follows call stack]
  · rw [length_contents]
    exact StackCall.unchanged_iff_of_error failed

/-- Three entries are asked for where there are two: a failure that changes nothing. -/
theorem calls_follow_list_refused :
    let stack := (empty 3 "" .internalError : BoundedStack Nat).after [.push 1, .push 2]
    stack.contents = [1, 2] ∧ ∃ later,
      (StackCall.popMany 3).run.runOn stack =
          (.error (.reported { kind := .internalError }), later) ∧
        later = stack := by
  obtain ⟨-, -, -, fails⟩ := calls_follow_list 3 "" .internalError [.push 1, .push 2]
  have unchanged := fails (StackCall.popMany 3) (.reported { kind := .internalError }) _ rfl
  exact ⟨rfl, _, rfl, unchanged.mpr fun ⟨pair, _⟩ => nomatch pair⟩

/-- A pair is asked for where there is one entry: a failure that loses it. -/
theorem half_pair_is_lost :
    let stack := (empty 2 "" .internalError : BoundedStack Nat).after [.push 1]
    ∃ later, StackCall.popPair.run.runOn stack =
        (.error (.reported { kind := .internalError }), later) ∧
      stack.contents = [1] ∧ later.contents = [] :=
  ⟨_, rfl, rfl, rfl⟩

end BoundedStack

end PocketBasic
