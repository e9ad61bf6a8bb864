/-
**Operands on top of each other.** An evaluation begins above operands that belong to the
expressions around it. It puts operands of its own on them and takes these off again, never the ones
below: where it ends it has left exactly its value, where it fails the ones below are still there,
and either way evaluations are open as deep as before. So no evaluation ever misses an operand.

* `Conduct.sparesOperands`: what leaves the operands alone, and the depth;
* `Machine.IsAbove`: a machine with operands on top of the ones of another machine;
* `Machine.Trades`: a step that trades so many own operands for as many others; `Machine.Leaves`:
  one that begins without any;
* `Machine.Trades.bind` and the others: one law for each way of building a step;
* `Evaluator.IsBalanced`: an evaluator that leaves its numbers and nothing else;
* **`isBalanced_evaluator`**: every evaluator is balanced, by induction on its budget;
* `Evaluator.LeavesNumber`, `Evaluator.LeavesNothing`: the routines of an evaluator.
-/

import Mathlib.Tactic.Common
import PocketBasic.Proofs.Machine.Lenient

namespace PocketBasic

/-! ### Leaving operands alone -/

/-- The conduct of steps that leave the operands and the depth alone, and do not blame them. -/
def Conduct.sparesOperands : Conduct Machine where
  moves before after := (after.operands, after.depth) = (before.operands, before.depth)
  fails before failure after :=
    (after.operands, after.depth) = (before.operands, before.depth) ∧ ¬ failure.BlamesOperands
  refl _ := rfl
  trans first second := second.trans first
  fails_of_moves first second := ⟨second.1.trans first, second.2⟩
  fails_moves first second := ⟨second.trans first.1, first.2⟩

namespace Machine

open Conduct (sparesOperands)

theorem ignoresMemory_sparesOperands : sparesOperands.IgnoresMemory :=
  ⟨fun _ _ => rfl, fun _ _ _ spares => ⟨rfl, spares.not_blamesOperands⟩⟩

instance follows_sparesOperands : sparesOperands.Follows where
  toConsults := ignoresMemory_sparesOperands.usesMemory.consults fun _ _ _ _ _ _ _ _ => rfl
  fails_stalled _ := ⟨rfl, not_false⟩
  moves_next machine := by
    rw [nextToken_eq]
    exact rfl

instance makes_sparesOperands : sparesOperands.Makes :=
  ignoresMemory_sparesOperands.usesMemory.makes

instance assigns_sparesOperands : sparesOperands.Assigns where
  toConsults := inferInstance
  storeScalar := ignoresMemory_sparesOperands.usesMemory.storeScalar
  deleteScalar := ignoresMemory_sparesOperands.usesMemory.delete .scalar

/-- Going elsewhere in the text leaves the operands alone. -/
theorem sparesOperands_moveTo (place : Location) : (moveTo place).Obeys sparesOperands := by
  refine .modify fun machine => ?_
  rw [jump, nextToken_eq]
  exact rfl

/-! ### Operands above others -/

variable {α β : Type} {base machine after : Machine} {count more : Nat}

/-- Whether a machine has some operands on top of the ones of another machine, while evaluations are
open as deep. -/
structure IsAbove (base : Machine) (count : Nat) (machine : Machine) : Prop where
  depth : machine.depth = base.depth
  operands : ∃ values : List Single, values.length = count ∧
    machine.operands = { base.operands with entries := values ++ base.operands.entries }

theorem IsAbove.refl (machine : Machine) : IsAbove machine 0 machine := ⟨rfl, [], rfl, rfl⟩

theorem IsAbove.trans (first : IsAbove base count machine) (second : IsAbove machine more after) :
    IsAbove base (more + count) after := by
  obtain ⟨lower, length, operands⟩ := first.operands
  obtain ⟨upper, length', operands'⟩ := second.operands
  refine ⟨second.depth.trans first.depth, upper ++ lower, ?_, ?_⟩
  · rw [List.length_append, length, length']
  · rw [operands', operands, List.append_assoc]

/-- Without operands of its own a machine has the ones of the other. -/
theorem IsAbove.same (above : IsAbove base 0 machine) :
    (machine.operands, machine.depth) = (base.operands, base.depth) := by
  obtain ⟨depth, values, length, operands⟩ := above
  rw [List.length_eq_zero_iff.mp length, List.nil_append] at operands
  rw [operands, depth]

/-- What leaves operands and depth alone leaves a machine where it is above others. -/
theorem IsAbove.of_same (above : IsAbove base count machine)
    (same : (after.operands, after.depth) = (machine.operands, machine.depth)) :
    IsAbove base count after := by
  rw [Prod.mk.injEq] at same
  exact ⟨same.2.trans above.depth, same.1 ▸ above.operands⟩

/-- One operand of its own is the newest one. -/
theorem IsAbove.exists_value (above : IsAbove base 1 machine) :
    ∃ value, machine.operands =
      { base.operands with entries := value :: base.operands.entries } := by
  obtain ⟨values, length, operands⟩ := above.operands
  obtain ⟨value, rfl⟩ := List.length_eq_one_iff.mp length
  exact ⟨value, operands⟩

/-- The operands below are the oldest ones. -/
theorem IsAbove.suffix (above : IsAbove base count machine) :
    base.operands.entries <:+ machine.operands.entries := by
  obtain ⟨values, -, operands⟩ := above.operands
  exact ⟨values, by rw [operands]⟩

/-- The lower ones of the own operands can be counted among the ones below. -/
theorem IsAbove.exists_between (above : IsAbove base (more + count) machine) :
    ∃ middle, IsAbove base count middle ∧ IsAbove middle more machine := by
  obtain ⟨values, length, operands⟩ := above.operands
  refine ⟨{ base with operands :=
    { base.operands with entries := values.drop more ++ base.operands.entries } },
    ⟨rfl, values.drop more, ?_, rfl⟩, above.depth, values.take more, ?_, ?_⟩
  · rw [List.length_drop, length]
    omega
  · rw [List.length_take, length]
    omega
  · rw [operands, ← List.append_assoc, List.take_append_drop]

/-! ### Steps that turn operands into others -/

/-- Whether a step that begins with some operands of its own ends with others. Where it fails, the
operands below are still there, and it blames none of them. -/
def Trades (before : Nat) (after : α → Nat) (step : Action α) : Prop :=
  ∀ base machine, IsAbove base before machine →
    step.Ends machine (fun value reached => IsAbove base (after value) reached)
      fun failure reached => (∃ count, IsAbove base count reached) ∧ ¬ failure.BlamesOperands

/-- Whether a step leaves some operands on top of the others. -/
abbrev Leaves (count : Nat) (step : Action α) : Prop := Trades 0 (fun _ => count) step

namespace Trades

variable {before : Nat} {result : α → Nat} {last : β → Nat} {step : Action α}
  {next : α → Action β}

theorem pure (value : α) : Trades (result value) result (Pure.pure value) := fun _ _ above => above

theorem throw {failure : Failure} (spares : ¬ failure.BlamesOperands) :
    Trades before result (MonadExcept.throw failure) := fun _ _ above => ⟨⟨before, above⟩, spares⟩

theorem stalled : Trades before result (MonadExcept.throw .stalled) := throw not_false

theorem fail {kind : ErrorKind} (other : kind ≠ .internalError) :
    Trades before result (Attempt.fail kind) := throw fun blames => other blames.1

/-- A step that leaves the operands alone trades none. -/
theorem of_spares (obeys : step.Obeys sparesOperands) : Trades before (fun _ => before) step := by
  intro base machine above
  rcases ran : step.runOn machine with ⟨failure | value, reached⟩
  · have spared := (obeys machine).fails ran
    exact .of_error ran ⟨⟨before, above.of_same spared.1⟩, spared.2⟩
  · exact .of_ok ran (above.of_same ((obeys machine).moves ran))

theorem bind (first : Trades before result step)
    (second : ∀ value, Trades (result value) last (next value)) :
    Trades before last (step >>= next) :=
  fun base machine above => (first base machine above).bind fun value reached middle =>
    second value base reached middle

/-- A step behind one that leaves the operands alone. -/
theorem behind (first : step.Obeys sparesOperands)
    (second : ∀ value, Trades before last (next value)) : Trades before last (step >>= next) :=
  (of_spares first).bind second

theorem get_bind {next : Machine → Action β}
    (second : ∀ machine, Trades before last (next machine)) :
    Trades before last (MonadState.get >>= next) :=
  fun base machine above => second machine base machine above

theorem ite {condition : Prop} [Decidable condition] {first second : Action α}
    (holds : Trades before result first) (fails : Trades before result second) :
    Trades before result (if condition then first else second) := by
  split
  · exact holds
  · exact fails

/-- A step trades its own operands as well when there are more of them below. -/
theorem deepen (trades : Trades before result step) (more : Nat) :
    Trades (before + more) (fun value => result value + more) step := by
  intro base machine above
  obtain ⟨middle, lower, upper⟩ := above.exists_between
  refine (trades middle machine upper).mono (fun value reached => lower.trans) ?_
  rintro failure reached ⟨⟨count, left⟩, spares⟩
  exact ⟨⟨count + more, lower.trans left⟩, spares⟩

/-! ### Steps on the operands -/

theorem push (value : Single) : Trades before (fun _ => before + 1) (Machine.push value) := by
  intro base machine above
  cases room : machine.operands.isFull with
  | true =>
    refine .of_error (runOn_onOperands (BoundedStack.runOn_push_of_full room)) ⟨⟨before, above⟩, ?_⟩
    rintro ⟨⟨⟩, -⟩
  | false =>
    refine .of_ok (runOn_onOperands (BoundedStack.runOn_push_of_room room)) ⟨above.depth, ?_⟩
    obtain ⟨values, length, operands⟩ := above.operands
    exact ⟨value :: values, congrArg (· + 1) length, by rw [operands, List.cons_append]⟩

theorem pop : Trades (count + 1) (fun _ => count) Machine.pop := by
  intro base machine above
  obtain ⟨values, length, operands⟩ := above.operands
  obtain ⟨newest, older, rfl⟩ := List.exists_cons_of_length_eq_add_one length
  have entries : machine.operands.entries = newest :: (older ++ base.operands.entries) := by
    rw [operands, List.cons_append]
  refine .of_ok (runOn_onOperands (BoundedStack.runOn_pop_of_cons entries))
    ⟨above.depth, older, ?_, ?_⟩
  · exact Nat.succ.inj length
  · rw [operands]

theorem popPair : Trades (count + 2) (fun _ => count) (onOperands BoundedStack.popPair) := by
  intro base machine above
  obtain ⟨values, length, operands⟩ := above.operands
  obtain ⟨newer, rest, rfl⟩ := List.exists_cons_of_length_eq_add_one length
  obtain ⟨older, rest, rfl⟩ := List.exists_cons_of_length_eq_add_one (Nat.succ.inj length)
  have entries : machine.operands.entries =
      newer :: older :: (rest ++ base.operands.entries) := by
    rw [operands, List.cons_append, List.cons_append]
  refine .of_ok (runOn_onOperands (BoundedStack.runOn_popPair_of_cons entries))
    ⟨above.depth, rest, Nat.succ.inj (Nat.succ.inj length), ?_⟩
  rw [operands]

theorem popMany (count : Nat) :
    Trades count (fun _ => 0) (onOperands (BoundedStack.popMany count)) := by
  intro base machine above
  obtain ⟨values, length, operands⟩ := above.operands
  have enough : count ≤ machine.operands.size := by
    rw [operands, BoundedStack.size, List.length_append, length]
    exact Nat.le_add_right _ _
  refine .of_ok (runOn_onOperands (BoundedStack.runOn_popMany_of_le enough))
    ⟨above.depth, [], rfl, ?_⟩
  rw [operands, ← length, List.drop_left, List.nil_append]

/-- An evaluation that is opened is closed again, whether it fails or not. -/
theorem nested {evaluation : Action α} (trades : Trades before result evaluation) :
    Trades before result (Machine.nested evaluation) := by
  refine .behind (obeys_checkDepth (by decide)) fun _ base machine above => ?_
  have deeper : IsAbove { base with depth := base.depth + 1 } before
      { machine with depth := machine.depth + 1 } :=
    ⟨congrArg (· + 1) above.depth, above.operands⟩
  have closes {count : Nat} {reached : Machine}
      (left : IsAbove { base with depth := base.depth + 1 } count reached) :
      IsAbove base count { reached with depth := reached.depth - 1 } :=
    ⟨congrArg (· - 1) left.depth, left.operands⟩
  have ends := trades _ _ deeper
  rw [Attempt.Ends] at ends ⊢
  rw [Attempt.runOn_modify_bind, Attempt.ensuring, Attempt.runOn_ofRun]
  rcases ran : evaluation.runOn { machine with depth := machine.depth + 1 } with
    ⟨failure | value, reached⟩
  all_goals rw [ran] at ends
  · obtain ⟨⟨count, left⟩, spares⟩ := ends
    exact ⟨⟨count, closes left⟩, spares⟩
  · exact closes ends

/-! ### Operators -/

theorem operatorsWithin (operator? : Token → Option Operator) {operand : Action Unit}
    (leaves : Leaves 1 operand) (fuel : Nat) :
    Trades 1 (fun _ => 1) (Machine.operatorsWithin operator? operand fuel) := by
  induction fuel with
  | zero => exact .stalled
  | succ fuel ih =>
    refine .behind obeys_token fun token => ?_
    cases operator? token with
    | none => exact .pure _
    | some operator =>
      refine .behind obeys_advance fun _ => (leaves.deepen 1).bind fun _ => ?_
      refine popPair.bind fun operands => .get_bind fun _ => ?_
      refine .behind (obeys_lift (Arithmetic.isPlain_apply operator _ _ _)) fun _ => ?_
      exact (push _).bind fun _ => ih

theorem operators (operator? : Token → Option Operator) {operand : Action Unit}
    (leaves : Leaves 1 operand) :
    Trades 1 (fun _ => 1) (Machine.operators operator? operand) :=
  .get_bind fun _ => operatorsWithin operator? leaves _

end Trades

end Machine

/-! ### Expressions and what contains them -/

/-- An evaluator that leaves numbers on the operands where it evaluates them, and nothing else. -/
structure Evaluator.IsBalanced (deeper : Evaluator) : Prop where
  numeric : ∀ level, Machine.Leaves 1 (deeper.numeric level)
  string : ∀ word, Machine.Leaves 0 (deeper.string word)

namespace Evaluator.IsBalanced

open Machine

variable {deeper : Evaluator} (balanced : deeper.IsBalanced)

include balanced

theorem expression : Leaves 1 deeper.expression := .nested (balanced.numeric _)

theorem value : Leaves 0 deeper.value := balanced.expression.bind fun _ => .pop

theorem valueAfterComma : Leaves 0 deeper.valueAfterComma :=
  .behind (obeys_accept _) fun _ => .ite (balanced.value.bind fun _ => .pure _) (.pure _)

theorem subscripts : Leaves 0 deeper.subscripts := by
  refine .behind (obeys_expect _) fun _ => balanced.value.bind fun row => ?_
  refine balanced.valueAfterComma.bind fun column => ?_
  exact .behind (obeys_expect _) fun _ => .pure _

theorem selector : Leaves 0 deeper.selector := by
  refine .behind (obeys_accept _) fun opened => .ite (.pure _) ?_
  have rest (bounds : Selector) : Leaves 0 (do
      expect ')'
      if !(← accept '(') then return bounds
      let index ← deeper.value
      expect ')'
      return { bounds with index := some index } : Action Selector) := by
    refine .behind (obeys_expect _) fun _ => .behind (obeys_accept _) fun again => .ite (.pure _) ?_
    exact balanced.value.bind fun _ => .behind (obeys_expect _) fun _ => .pure _
  refine .behind obeys_token fun token => .ite ?_ (rest _)
  exact balanced.value.bind fun lower => balanced.valueAfterComma.bind fun upper => rest _

theorem target : Leaves 0 deeper.target := by
  refine .behind obeys_token fun token => ?_
  split
  · exact .behind obeys_advance fun _ => .pure _
  · exact .behind obeys_advance fun _ => balanced.subscripts.bind fun _ => .pure _
  · exact .behind obeys_advance fun _ => balanced.selector.bind fun _ => .pure _
  · exact .fail (by decide)

theorem string? : Leaves 0 deeper.string? := by
  refine .behind obeys_token fun token => ?_
  split
  · exact .behind obeys_advance fun _ => .pure _
  · refine .behind obeys_advance fun _ => balanced.selector.bind fun _ => ?_
    exact .behind (obeys_readString _ _) fun _ => .pure _
  · refine .ite (.behind obeys_advance fun _ => .behind (obeys_accept _) fun _ => ?_) (.pure _)
    exact (Trades.nested (balanced.string _)).bind fun _ => .pure _
  · exact .pure _

theorem text : Leaves 0 deeper.text :=
  balanced.string?.bind fun _ => .of_spares (obeys_orFail (by decide) _)

theorem stringFunction (word : Keyword) : Leaves 0 (deeper.stringFunction word) := by
  have close (text : Bytes) : Leaves 0 (do
      expect ')'
      return text : Action Bytes) := .behind (obeys_expect _) fun _ => .pure _
  refine .behind (obeys_expect _) fun _ => ?_
  dsimp only
  split
  · exact balanced.value.bind fun _ => close _
  · exact balanced.value.bind fun _ => .behind (obeys_byte _) fun _ => close _
  · refine balanced.text.bind fun _ => .behind (obeys_expect _) fun _ => ?_
    exact balanced.value.bind fun _ => .behind (obeys_count _) fun _ => close _
  · refine balanced.text.bind fun _ => .behind (obeys_expect _) fun _ => ?_
    exact balanced.value.bind fun _ => .behind (obeys_count _) fun _ => close _
  · refine balanced.text.bind fun _ => .behind (obeys_expect _) fun _ => ?_
    refine balanced.value.bind fun _ => ?_
    refine .ite (.behind (obeys_fail (by decide)) fun _ => close _) ?_
    refine balanced.valueAfterComma.bind fun count => ?_
    cases count with
    | none => exact close _
    | some count => exact .behind (obeys_count _) fun _ => close _
  · exact .behind (obeys_failWith (by decide)) fun _ => close _

/-! ### Functions -/

/-- Every argument is put on the ones in front of it, so there are as many as were counted. -/
theorem argumentsWithin (fuel count : Nat) :
    Trades count (fun total => total) (deeper.argumentsWithin fuel count) := by
  induction fuel generalizing count with
  | zero => exact .stalled
  | succ fuel ih =>
    have first : Trades count (fun _ => count + 1) deeper.expression := by
      have leaves := balanced.expression.deepen count
      rwa [Nat.zero_add, Nat.add_comm 1] at leaves
    refine first.bind fun _ => .behind (obeys_accept _) fun _ => .ite (ih _) ?_
    exact fun _ _ above => above

theorem arguments : Trades 0 (fun count => count) deeper.arguments := by
  have close (count : Nat) : Trades count (fun count => count) (do
      expect ')'
      return count : Action Nat) :=
    .behind (obeys_expect _) fun _ _ _ above => above
  refine .behind (obeys_expect _) fun _ => .behind obeys_token fun _ => .ite (close 0) ?_
  exact .get_bind fun _ => (balanced.argumentsWithin _ _).bind fun count => close count

theorem numericFunction (word : Keyword) : Leaves 1 (deeper.numericFunction word) := by
  refine .behind (obeys_orFail (by decide) _) fun arity => .behind obeys_advance fun _ => ?_
  have rest (count : Nat) : Trades count (fun _ => 1) (do
      if count ≠ arity then Attempt.fail .illegalFunctionCall
      else
        let arguments ← onOperands (BoundedStack.popMany count)
        push (← Evaluator.functionValue word arguments) : Action Unit) := by
    refine .ite (.fail (by decide)) ((Trades.popMany count).bind fun arguments => ?_)
    have values := Obeys.functionValue arguments fun (_ : word = .malloc) =>
      makes_sparesOperands.allocateBuffer
    exact .behind values fun _ => .push _
  refine .behind obeys_token fun _ => .ite (balanced.arguments.bind rest) (rest 0)

theorem textFunction (word : Keyword) : Leaves 1 (deeper.textFunction word) := by
  have close (result : Single) : Leaves 1 (do
      expect ')'
      push result : Action Unit) := .behind (obeys_expect _) fun _ => .push _
  refine .behind obeys_advance fun _ => .behind (obeys_expect _) fun _ => ?_
  split
  · refine balanced.string?.bind fun text => ?_
    cases text with
    | some text => exact close _
    | none =>
      refine balanced.value.bind fun _ => .behind (obeys_bufferName _) fun name => ?_
      exact .behind (follows_sparesOperands.lookup .buffer name) fun payload => close _
  · exact balanced.text.bind fun _ => .get_bind fun _ => close _
  · exact balanced.text.bind fun _ => close _
  · refine balanced.text.bind fun _ => .behind (obeys_expect _) fun _ => ?_
    exact balanced.text.bind fun _ => close _

theorem objectName : Leaves 0 deeper.objectName := by
  refine .behind obeys_token fun token => ?_
  split
  · exact .behind obeys_advance fun _ => .pure _
  · exact .behind obeys_advance fun _ => .pure _
  · refine .behind obeys_advance fun _ => .behind (obeys_expect _) fun _ => ?_
    exact .behind (obeys_expect _) fun _ => .pure _
  · refine .behind obeys_advance fun _ => .behind obeys_token fun token => ?_
    split
    · exact .behind obeys_advance fun _ => .pure _
    · exact .behind obeys_advance fun _ => .pure _
    · exact .fail (by decide)
  · exact balanced.value.bind fun _ => .behind (obeys_bufferName _) fun _ => .pure _

theorem find : Leaves 1 deeper.find := by
  refine .behind obeys_advance fun _ => .behind (obeys_expect _) fun _ => ?_
  refine balanced.objectName.bind fun object => .behind (obeys_expect _) fun _ => ?_
  exact .behind (follows_sparesOperands.lookup object.1 object.2) fun _ => .push _

/-! ### User functions -/

theorem argument : Leaves 0 deeper.argument := by
  have close (value : Option Single) : Leaves 0 (do
      expect ')'
      return value : Action (Option Single)) := .behind (obeys_expect _) fun _ => .pure _
  refine .behind (obeys_accept _) fun _ => .ite (.pure _) (.behind obeys_token fun _ => ?_)
  refine .ite (close none) ?_
  rw [← bind_pure_comp, bind_assoc]
  exact balanced.value.bind fun _ => close _

theorem functionBody : Leaves 1 deeper.functionBody :=
  .behind obeys_token fun _ => .ite (.behind obeys_advance fun _ => balanced.expression)
    (.fail (by decide))

omit balanced in
/-- What a step leaves stays while another one follows it whether it fails or not. -/
theorem recover {first last : Action Unit} (leaves : Leaves 1 first)
    (spares : last.Obeys Conduct.sparesOperands) : Leaves 1 (Obeys.recover first last) := by
  intro base machine above
  refine (leaves base machine above).caught.bind fun result middle reached => ?_
  have restores {count : Nat} (left : IsAbove base count middle) :=
    (Trades.of_spares spares base middle left).caught
  rcases result with error | ⟨⟩
  · -- The first error is told, whether the second step fails or not.
    obtain ⟨⟨count, left⟩, tells⟩ := reached
    refine (restores left).bind fun restored final there => ?_
    rcases restored with other | ⟨⟩
    · exact ⟨there.1, tells⟩
    · exact ⟨⟨count, there⟩, tells⟩
  · refine (restores reached).bind fun restored final there => ?_
    rcases restored with other | ⟨⟩
    · exact there
    · exact there

theorem call (entry : Nat) (parameter : Name) (argument : Option Single) :
    Leaves 1 (Obeys.call deeper entry parameter argument) := by
  refine .behind obeys_location fun back => .behind (Obeys.bindParameter _ _) fun bound => ?_
  refine .behind (sparesOperands_moveTo _) fun _ => ?_
  refine (recover balanced.functionBody (Obeys.unbindParameter bound)).bind fun _ => ?_
  exact .of_spares (sparesOperands_moveTo back)

theorem userFunction : Leaves 1 deeper.userFunction := by
  have rest (name : Name) : Leaves 1 (Obeys.named deeper name) := by
    refine .behind obeys_advance fun _ => balanced.argument.bind fun argument => ?_
    refine .behind (follows_sparesOperands.definition name) fun defined => ?_
    exact .behind (obeys_checkDepth (by decide)) fun _ => balanced.call _ _ _
  simp only [Obeys.named, Obeys.callDefined, Obeys.call, Obeys.recover, bind_assoc] at rest
  refine .behind obeys_advance fun _ => .behind obeys_token fun token => ?_
  split
  · exact rest _
  · exact rest _
  · exact .behind (obeys_fail (by decide)) rest

/-! ### Levels -/

theorem function (word : Keyword) : Leaves 1 (deeper.function word) := by
  unfold Evaluator.function
  split
  · exact balanced.userFunction
  · exact balanced.textFunction _
  · exact balanced.textFunction _
  · exact balanced.textFunction _
  · exact balanced.textFunction _
  · exact balanced.find
  · exact .behind obeys_advance fun _ => .get_bind fun _ => .push _
  · exact balanced.numericFunction _

theorem stringFactor : Leaves 1 deeper.stringFactor := by
  refine balanced.text.bind fun left => .behind obeys_token fun token => ?_
  cases token.relation? with
  | none => exact .push _
  | some operator => exact .behind obeys_advance fun _ => balanced.text.bind fun right => .push _

theorem factor : Leaves 1 deeper.factor := by
  refine .behind obeys_token fun token => ?_
  split
  · refine .behind obeys_advance fun _ => (Trades.nested (balanced.numeric _)).bind fun _ => ?_
    exact Trades.pop.bind fun _ => .push _
  · exact .behind obeys_advance fun _ => .nested (balanced.numeric _)
  · exact .behind obeys_advance fun _ => .push _
  · exact .behind obeys_advance fun _ => .behind (obeys_getScalar _) fun _ => .push _
  · refine .behind obeys_advance fun _ => balanced.subscripts.bind fun place => ?_
    exact .behind (obeys_getElement fun _ => makes_sparesOperands.loadElement _ _ _)
      fun _ => .push _
  · exact balanced.stringFactor
  · exact balanced.stringFactor
  · exact .ite balanced.stringFactor (balanced.function _)
  · refine .behind obeys_advance fun _ => balanced.expression.bind fun _ => ?_
    exact .of_spares (obeys_expect _)
  · exact .fail (by decide)

theorem power : Leaves 1 deeper.power :=
  balanced.factor.bind fun _ => .operators _ balanced.factor

theorem product : Leaves 1 deeper.product :=
  balanced.power.bind fun _ => .operators _ balanced.power

/-- The zero in front of a sign is the first operand of the sum. -/
theorem sum : Leaves 1 deeper.sum := by
  refine .behind obeys_token fun _ => .ite ?_ ?_
  · exact (Trades.push _).bind fun _ => .operators _ balanced.product
  · exact balanced.product.bind fun _ => .operators _ balanced.product

theorem comparison : Leaves 1 deeper.comparison :=
  balanced.sum.bind fun _ => .operators _ balanced.sum

theorem negation : Leaves 1 deeper.negation := by
  refine .behind obeys_token fun _ => .ite (.behind obeys_advance fun _ => ?_) balanced.comparison
  refine (Trades.nested (balanced.numeric _)).bind fun _ => Trades.pop.bind fun operand => ?_
  exact .behind (obeys_lift (Arithmetic.isPlain_not operand)) fun _ => .push _

theorem conjunction : Leaves 1 deeper.conjunction :=
  balanced.negation.bind fun _ => .operators _ balanced.negation

theorem disjunction : Leaves 1 deeper.disjunction :=
  balanced.conjunction.bind fun _ => .operators _ balanced.conjunction

theorem level (level : Level) : Leaves 1 (deeper.level level) := by
  cases level with
  | disjunction => exact balanced.disjunction
  | negation => exact balanced.negation
  | power => exact balanced.power

theorem concatenationWithin (fuel : Nat) (before : Bytes) :
    Leaves 0 (deeper.concatenationWithin fuel before) := by
  induction fuel generalizing before with
  | zero => exact .stalled
  | succ fuel ih =>
    have rest (piece : Bytes) : Leaves 0 (do
        if (← token).isOperator .plus then
          advance
          deeper.concatenationWithin fuel (before ++ piece)
        else return before ++ piece : Action Bytes) :=
      .behind obeys_token fun _ => .ite (.behind obeys_advance fun _ => ih _) (.pure _)
    refine balanced.string?.bind fun text => ?_
    cases text with
    | some text => exact rest text
    | none =>
      refine balanced.product.bind fun _ => Trades.pop.bind fun _ => ?_
      exact .behind (obeys_byte _) fun _ => rest _

theorem concatenation : Leaves 0 deeper.concatenation := by
  refine .get_bind fun _ => (balanced.concatenationWithin _ _).bind fun _ => ?_
  exact .ite (.fail (by decide)) (.pure _)

end Evaluator.IsBalanced

/-- **Every evaluator is balanced.** -/
theorem isBalanced_evaluator (budget : Nat) : (evaluator budget).IsBalanced := by
  induction budget with
  | zero => exact ⟨fun _ => .stalled, fun _ => .stalled⟩
  | succ budget ih => exact ⟨ih.level, ih.stringFunction⟩

/-- The routines of an evaluator that leave a number on the operands: expressions, each level of
precedence, factors, comparisons of strings, and functions. -/
inductive Evaluator.LeavesNumber (deeper : Evaluator) : Action Unit → Prop
  | expression : LeavesNumber deeper deeper.expression
  | disjunction : LeavesNumber deeper deeper.disjunction
  | conjunction : LeavesNumber deeper deeper.conjunction
  | negation : LeavesNumber deeper deeper.negation
  | comparison : LeavesNumber deeper deeper.comparison
  | sum : LeavesNumber deeper deeper.sum
  | product : LeavesNumber deeper deeper.product
  | power : LeavesNumber deeper deeper.power
  | factor : LeavesNumber deeper deeper.factor
  | stringFactor : LeavesNumber deeper deeper.stringFactor
  | function (word : Keyword) : LeavesNumber deeper (deeper.function word)
  | numericFunction (word : Keyword) : LeavesNumber deeper (deeper.numericFunction word)
  | textFunction (word : Keyword) : LeavesNumber deeper (deeper.textFunction word)
  | find : LeavesNumber deeper deeper.find
  | userFunction : LeavesNumber deeper deeper.userFunction

/-- The routines of an evaluator that give their value themselves and leave nothing. -/
inductive Evaluator.LeavesNothing (deeper : Evaluator) : {α : Type} → Action α → Prop
  | value : LeavesNothing deeper deeper.value
  | text : LeavesNothing deeper deeper.text
  | string? : LeavesNothing deeper deeper.string?
  | stringFunction (word : Keyword) : LeavesNothing deeper (deeper.stringFunction word)
  | concatenation : LeavesNothing deeper deeper.concatenation
  | subscripts : LeavesNothing deeper deeper.subscripts
  | valueAfterComma : LeavesNothing deeper deeper.valueAfterComma
  | selector : LeavesNothing deeper deeper.selector
  | target : LeavesNothing deeper deeper.target
  | argument : LeavesNothing deeper deeper.argument
  | objectName : LeavesNothing deeper deeper.objectName

theorem Evaluator.LeavesNumber.leaves {deeper : Evaluator} {step : Action Unit}
    (number : deeper.LeavesNumber step) (balanced : deeper.IsBalanced) : Machine.Leaves 1 step := by
  cases number with
  | expression => exact balanced.expression
  | disjunction => exact balanced.disjunction
  | conjunction => exact balanced.conjunction
  | negation => exact balanced.negation
  | comparison => exact balanced.comparison
  | sum => exact balanced.sum
  | product => exact balanced.product
  | power => exact balanced.power
  | factor => exact balanced.factor
  | stringFactor => exact balanced.stringFactor
  | function word => exact balanced.function word
  | numericFunction word => exact balanced.numericFunction word
  | textFunction word => exact balanced.textFunction word
  | find => exact balanced.find
  | userFunction => exact balanced.userFunction

theorem Evaluator.LeavesNothing.leaves {α : Type} {deeper : Evaluator} {step : Action α}
    (nothing : deeper.LeavesNothing step) (balanced : deeper.IsBalanced) :
    Machine.Leaves 0 step := by
  cases nothing with
  | value => exact balanced.value
  | text => exact balanced.text
  | string? => exact balanced.string?
  | stringFunction word => exact balanced.stringFunction word
  | concatenation => exact balanced.concatenation
  | subscripts => exact balanced.subscripts
  | valueAfterComma => exact balanced.valueAfterComma
  | selector => exact balanced.selector
  | target => exact balanced.target
  | argument => exact balanced.argument
  | objectName => exact balanced.objectName

/-- **What statements evaluate leaves nothing on the operands.** -/
theorem Machine.IsEvaluation.leaves {α : Type} {step : Action α} (evaluates : IsEvaluation step) :
    Leaves 0 step := by
  have evaluate {α : Type} {evaluation : Evaluator → Action α}
      (nothing : ∀ deeper : Evaluator, deeper.LeavesNothing (evaluation deeper)) :
      Leaves 0 (Machine.evaluate evaluation) :=
    .get_bind fun _ => (nothing _).leaves (isBalanced_evaluator _)
  cases evaluates with
  | expression reads =>
    cases reads with
    | value => exact evaluate fun _ => .value
    | text => exact evaluate fun _ => .text
    | string? => exact evaluate fun _ => .string?
    | concatenation => exact evaluate fun _ => .concatenation
  | target => exact evaluate fun _ => .target
  | subscripts => exact evaluate fun _ => .subscripts
  | valueAfterComma => exact evaluate fun _ => .valueAfterComma
  | objectName => exact evaluate fun _ => .objectName

end PocketBasic
