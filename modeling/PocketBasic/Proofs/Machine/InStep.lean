/-
**Evaluations read the same tokens whatever the variables are.** How far an expression goes is
settled by its text: two machines at the same place that both evaluate it end at the same place, and
what they have read over are tokens of expressions. A loop that evaluates its condition many times
always ends behind it at one place.

* `Machine.InStep`: two steps that read on equally far when both succeed;
* `Machine.InStep.bind` and the others: one law for each way of building a step;
* `Machine.isAhead_call`: the call of a user function comes back to where it was called;
* `Evaluator.KeepsStep`: an evaluator whose evaluations do so, and its levels one by one;
* **`Machine.inStep_value`**, **`Machine.exists_isAhead_value`**: the values of expressions.
-/

import PocketBasic.Proofs.Machine.Places

namespace PocketBasic

namespace Machine

variable {α β γ δ : Type} {here : Token → Prop} {agree : α → β → Prop} {agrees : γ → δ → Prop}
  {first : Action α} {second : Action β}

/-- Whether two steps read on equally far from a place with a certain token, when both succeed, and
give values that agree. -/
def InStep (here : Token → Prop) (agree : α → β → Prop) (first : Action α) (second : Action β) :
    Prop :=
  ∀ one other : Machine, one.IsAbreast other → here one.cursor.token →
    ∀ a oneAfter b otherAfter, first.runOn one = (.ok a, oneAfter) →
      second.runOn other = (.ok b, otherAfter) →
        agree a b ∧ ∃ count, one.IsAhead oneAfter count ∧ other.IsAhead otherAfter count

/-- Any token, and any two values. -/
abbrev anywhere : Token → Prop := fun _ => True

abbrev anyhow {α β : Type} : α → β → Prop := fun _ _ => True

/-- Two steps that read on equally far from everywhere. -/
abbrev Together (first : Action α) (second : Action β) : Prop := InStep anywhere anyhow first second

namespace InStep

/-! ### Laws -/

theorem mono {place : Token → Prop} {weaker : α → β → Prop}
    (inStep : InStep place agree first second)
    (fewer : ∀ token, here token → place token) (weakens : ∀ a b, agree a b → weaker a b) :
    InStep here weaker first second := by
  intro one other abreast at_ a _ b _ ran again
  obtain ⟨agreed, ahead⟩ := inStep _ _ abreast (fewer _ at_) _ _ _ _ ran again
  exact ⟨weakens _ _ agreed, ahead⟩

/-- What is in step everywhere is in step at a token. -/
theorem at_token (inStep : InStep anywhere agree first second) : InStep here agree first second :=
  inStep.mono (fun _ _ => trivial) fun _ _ => id

theorem pure {a : α} {b : β} (agreed : agree a b) :
    InStep here agree (pure a : Action α) (pure b : Action β) := by
  intro one other abreast _ _ _ _ _ ran again
  cases ran
  cases again
  exact ⟨agreed, 0, .of_place (.refl _) abreast.guarded (.refl _),
    .of_place (.refl _) abreast.others (.refl _)⟩

theorem bind {next : α → Action γ} {follow : β → Action δ} (begins : InStep here agree first second)
    (goesOn : ∀ a b, agree a b → InStep anywhere agrees (next a) (follow b)) :
    InStep here agrees (first >>= next) (second >>= follow) := by
  intro one other abreast at_ c oneAfter d otherAfter ran again
  obtain ⟨a, oneMiddle, ran, oneRan⟩ := Attempt.exists_of_runOn_bind ran
  obtain ⟨b, otherMiddle, again, otherRan⟩ := Attempt.exists_of_runOn_bind again
  obtain ⟨agreed, count, oneAhead, otherAhead⟩ := begins _ _ abreast at_ _ _ _ _ ran again
  obtain ⟨last, more, oneLast, otherLast⟩ :=
    goesOn a b agreed _ _ (abreast.ahead oneAhead otherAhead) trivial _ _ _ _ oneRan otherRan
  exact ⟨last, count + more, oneAhead.trans oneLast, otherAhead.trans otherLast⟩

/-- A step that stays in step, followed by steps for the same value. -/
theorem bind_eq {first second : Action α} {next : α → Action γ} {follow : α → Action δ}
    (begins : InStep here Eq first second)
    (goesOn : ∀ a, InStep anywhere agrees (next a) (follow a)) :
    InStep here agrees (first >>= next) (second >>= follow) :=
  begins.bind fun a _ same => same ▸ goesOn a

/-- What follows a look at the token begins at that token. -/
theorem token_bind {next : Token → Action γ} {follow : Token → Action δ}
    (goesOn : ∀ token, here token → InStep (· = token) agrees (next token) (follow token)) :
    InStep here agrees (token >>= next) (token >>= follow) := by
  intro one other abreast at_ c _ d otherAfter ran again
  have looked : (follow other.cursor.token).runOn other = (.ok d, otherAfter) := again
  rw [abreast.place.token] at looked
  exact goesOn _ at_ _ _ abreast rfl _ _ _ _ ran looked

/-- The text that both machines look at has the same length. -/
theorem get_bind {next : Machine → Action γ} {follow : Machine → Action δ}
    (goesOn : ∀ one other : Machine, other.textLength = one.textLength →
      InStep here agrees (next one) (follow other)) :
    InStep here agrees (get >>= next) (get >>= follow) :=
  fun one other abreast at_ _ _ _ _ ran again =>
    goesOn one other abreast.textLength _ _ abreast at_ _ _ _ _ ran again

/-- Nothing is said of what does not succeed. -/
theorem of_fails (fails : ∀ machine value after, first.runOn machine ≠ (.ok value, after)) :
    InStep here agree first second :=
  fun _ _ _ _ _ _ _ _ ran _ => absurd ran (fails _ _ _)

theorem throw (failure : Failure) : InStep here agree (MonadExcept.throw failure) second :=
  of_fails fun _ _ _ ran => by cases ran

theorem throw_bind {next : α → Action γ} {other : Action δ} (failure : Failure) :
    InStep here agrees ((MonadExcept.throw failure : Action α) >>= next) other :=
  of_fails fun _ _ _ ran => by cases ran

/-- What is not refused in either machine. -/
theorem ite_fail {refuses refusing : Prop} [Decidable refuses] [Decidable refusing]
    (kind : ErrorKind) {next follow : γ → Action α} {goesOn going : Action α}
    (inStep : InStep here anyhow goesOn going) : InStep here anyhow
      (if refuses then Attempt.fail kind >>= next else goesOn)
      (if refusing then Attempt.fail kind >>= follow else going) := by
  split
  · exact throw_bind _
  split
  · exact fun _ _ _ _ _ _ _ _ _ again => by cases again
  · exact inStep

theorem fail (kind : ErrorKind) : InStep here agree (Attempt.fail kind) second := throw _

/-- Steps that stay where they are in the text. -/
theorem of_place (one : ∀ {machine after : Machine} {a : α}, machine.memory.IsGuarded →
      machine.IsSettled → first.runOn machine = (.ok a, after) → machine.IsAhead after 0)
    (other : ∀ {machine after : Machine} {b : β}, machine.memory.IsGuarded →
      machine.IsSettled → second.runOn machine = (.ok b, after) → machine.IsAhead after 0) :
    InStep here anyhow first second :=
  fun _ _ abreast _ _ _ _ _ ran again => ⟨trivial, 0, one abreast.guarded abreast.settled ran,
    other abreast.others abreast.symm.settled again⟩

theorem of_stays (one : first.Obeys Conduct.stays) (other : second.Obeys Conduct.stays) :
    InStep here anyhow first second := by
  have stays {ε : Type} {step : Action ε} (obeys : step.Obeys Conduct.stays)
      {machine after : Machine}
      {value : ε} (guarded : machine.memory.IsGuarded)
      (ran : step.runOn machine = (.ok value, after)) : machine.IsAhead after 0 := by
    obtain ⟨kept, keeps, place⟩ := (obeys machine).moves ran guarded
    exact .of_place keeps kept (place ▸ .refl _)
  exact of_place (fun guarded _ ran => stays one guarded ran)
    fun guarded _ ran => stays other guarded ran

/-- A last change that stays where it is. -/
theorem ensuring (begins : InStep here agree first second) {change : Machine → Machine}
    (stays : ∀ machine, Conduct.stays.moves machine (change machine)) :
    InStep here agree (first.ensuring change) (second.ensuring change) := by
  intro one other abreast at_ a oneAfter b otherAfter ran again
  rw [Attempt.ensuring, Attempt.runOn_ofRun, Prod.mk.injEq] at ran again
  obtain ⟨ran, rfl⟩ := ran
  obtain ⟨again, rfl⟩ := again
  obtain ⟨agreed, count, oneAhead, otherAhead⟩ := begins _ _ abreast at_ _ _ _ _
    (Prod.ext ran rfl) (Prod.ext again rfl)
  have changed {machine after : Machine} (ahead : machine.IsAhead after count) :
      machine.IsAhead (change after) count := by
    obtain ⟨kept, keeps, place⟩ := stays after ahead.guarded
    exact ahead.trans (.of_place keeps kept (place ▸ .refl _))
  exact ⟨agreed, count, changed oneAhead, changed otherAhead⟩

end InStep

/-! ### Reading -/

theorem inStep_advance {read : Token} (inside : read.isOfExpression = true) :
    InStep (· = read) anyhow advance advance := by
  intro one other abreast at_ _ _ _ _ ran again
  cases ran
  cases again
  refine ⟨trivial, 1, .nextToken abreast.guarded ?_, .nextToken abreast.others ?_⟩
  · rw [at_]
    exact inside
  · rw [abreast.place.token, at_]
    exact inside

theorem inStep_function {word : Keyword} (named : word.isFunction = true) :
    InStep (· = .word word) anyhow advance advance := inStep_advance named

theorem inStep_expect {symbol : Char} (other : symbol.toUInt8 ≠ 58) :
    InStep here anyhow (expect symbol) (expect symbol) := by
  refine .token_bind fun token _ => ?_
  split
  · rename_i found
    exact inStep_advance (Token.isOfExpression_symbol found other)
  · exact .fail _

theorem inStep_accept {symbol : Char} (other : symbol.toUInt8 ≠ 58) :
    InStep here Eq (accept symbol) (accept symbol) := by
  refine .token_bind fun token _ => ?_
  split
  · rename_i found
    exact (inStep_advance (Token.isOfExpression_symbol found other)).bind fun _ _ _ => .pure rfl
  · exact .pure rfl

theorem inStep_nested (begins : InStep anywhere agree first second) :
    InStep here agree (nested first) (nested second) := by
  refine (InStep.of_stays (obeys_checkDepth (by decide)) (obeys_checkDepth (by decide))).bind
    fun _ _ _ => ?_
  have deeper : (modify fun machine => { machine with depth := machine.depth + 1 } :
      Action Unit).Obeys Conduct.stays := .modify fun machine => moves_depth machine _
  refine (InStep.of_stays deeper deeper).bind fun _ _ _ => ?_
  exact begins.ensuring fun machine => moves_depth machine _

/-! ### Operators -/

theorem inStep_operatorsWithin {operator? : Token → Option Operator} {operand : Action Unit}
    (among : ∀ token, (operator? token).isSome = true → token.isOfExpression = true)
    (begins : Together operand operand) (fuel : Nat) :
    Together (operatorsWithin operator? operand fuel) (operatorsWithin operator? operand fuel) := by
  induction fuel with
  | zero => exact .throw _
  | succ fuel ih =>
    refine .token_bind fun token _ => ?_
    cases found : operator? token with
    | none => exact .pure trivial
    | some operator =>
      refine (inStep_advance (among token (by rw [found]; rfl))).bind fun _ _ _ => ?_
      refine begins.bind fun _ _ _ => ?_
      refine (InStep.of_stays obeys_popPair obeys_popPair).bind fun _ _ _ => ?_
      refine (InStep.of_stays .get .get).bind fun _ _ _ => ?_
      have applied {whole : Bool} {left right : Single} :
          (Attempt.lift (Arithmetic.apply operator whole left right) : Action Single).Obeys
            Conduct.stays := obeys_lift (Arithmetic.isPlain_apply operator whole left right)
      refine (InStep.of_stays applied applied).bind fun _ _ _ => ?_
      exact (InStep.of_stays (obeys_push _) (obeys_push _)).bind fun _ _ _ => ih

theorem inStep_operators {operator? : Token → Option Operator} {operand : Action Unit}
    (among : ∀ token, (operator? token).isSome = true → token.isOfExpression = true)
    (begins : Together operand operand) :
    Together (operators operator? operand) (operators operator? operand) :=
  .get_bind fun _ _ same => same ▸ inStep_operatorsWithin among begins _

/-! ### User functions -/

/-- **The call of a user function comes back to where it was called.** -/
theorem isAhead_call {deeper : Evaluator} (obeys : deeper.Obeys Conduct.keepsTexts) {entry : Nat}
    {parameter : Name} {argument : Option Single} {machine after : Machine} {value : Unit}
    (guarded : machine.memory.IsGuarded) (settled : machine.IsSettled)
    (ran : (Evaluator.Obeys.call deeper entry parameter argument).runOn machine =
      (.ok value, after)) : machine.IsAhead after 0 := by
  have calls : (Evaluator.Obeys.call deeper entry parameter argument).Obeys Conduct.keepsTexts :=
    Evaluator.Obeys.excursion (Evaluator.Obeys.bindParameter _ _) _ fun _ =>
      Evaluator.Obeys.recovering obeys.functionBody (Evaluator.Obeys.unbindParameter _)
  obtain ⟨kept, keeps⟩ := (calls machine).moves ran guarded
  refine .of_place keeps kept ?_
  -- The last step goes to the place where the machine was before the first one.
  obtain ⟨back, _, looked, ran⟩ := Attempt.exists_of_runOn_bind ran
  cases looked
  obtain ⟨_, _, -, ran⟩ := Attempt.exists_of_runOn_bind ran
  obtain ⟨_, _, -, ran⟩ := Attempt.exists_of_runOn_bind ran
  obtain ⟨_, away, -, ran⟩ := Attempt.exists_of_runOn_bind ran
  cases ran
  exact settled.trans keeps.readsAlike_jump.place

end Machine

/-! ### Evaluations -/

/-- An evaluator whose evaluations read on equally far. -/
structure Evaluator.KeepsStep (deeper : Evaluator) : Prop where
  texts : deeper.Obeys Conduct.keepsTexts
  numeric : ∀ level, Machine.Together (deeper.numeric level) (deeper.numeric level)
  string : ∀ word, Machine.Together (deeper.string word) (deeper.string word)

namespace Evaluator.KeepsStep

open Machine

variable {deeper : Evaluator} {here : Token → Prop}

theorem expression (keeps : deeper.KeepsStep) : Together deeper.expression deeper.expression :=
  inStep_nested (keeps.numeric _)

theorem value (keeps : deeper.KeepsStep) : InStep here anyhow deeper.value deeper.value :=
  keeps.expression.at_token.bind fun _ _ _ => .of_stays obeys_pop obeys_pop

theorem valueAfterComma (keeps : deeper.KeepsStep) :
    Together deeper.valueAfterComma deeper.valueAfterComma := by
  refine (inStep_accept (by decide)).bind_eq fun found => ?_
  split
  · exact keeps.value.bind fun _ _ _ => .pure trivial
  · exact .pure trivial

theorem subscripts (keeps : deeper.KeepsStep) : Together deeper.subscripts deeper.subscripts := by
  refine (inStep_expect (by decide)).bind fun _ _ _ => keeps.value.bind fun _ _ _ => ?_
  refine keeps.valueAfterComma.bind fun _ _ _ => ?_
  exact (inStep_expect (by decide)).bind fun _ _ _ => .pure trivial

theorem selector (keeps : deeper.KeepsStep) : Together deeper.selector deeper.selector := by
  have rest {here : Token → Prop} (bounds others : Selector) : InStep here anyhow (do
      expect ')'
      if !(← accept '(') then return bounds
      let index ← deeper.value
      expect ')'
      return { bounds with index := some index } : Action Selector) (do
      expect ')'
      if !(← accept '(') then return others
      let index ← deeper.value
      expect ')'
      return { others with index := some index } : Action Selector) := by
    refine (inStep_expect (by decide)).bind fun _ _ _ => ?_
    refine (inStep_accept (by decide)).bind_eq fun found => ?_
    split
    · exact .pure trivial
    · refine keeps.value.bind fun _ _ _ => (inStep_expect (by decide)).bind fun _ _ _ => ?_
      exact .pure trivial
  refine (inStep_accept (by decide)).bind_eq fun found => ?_
  split
  · exact .pure trivial
  refine .token_bind fun token _ => ?_
  split
  · refine keeps.value.bind fun _ _ _ => keeps.valueAfterComma.bind fun _ _ _ => ?_
    exact rest _ _
  · exact rest _ _

theorem string? (keeps : deeper.KeepsStep) :
    InStep here (fun one other => one.isSome = other.isSome) deeper.string? deeper.string? := by
  refine .token_bind fun token _ => ?_
  split
  · exact (inStep_advance rfl).bind fun _ _ _ => .pure rfl
  · refine (inStep_advance rfl).bind fun _ _ _ => ?_
    refine keeps.selector.bind fun _ _ _ => ?_
    exact .bind (.of_stays (obeys_readString _ _) (obeys_readString _ _)) fun _ _ _ => .pure rfl
  · rename_i word
    split
    · rename_i begins
      refine (inStep_function (Keyword.isFunction_of_string begins)).bind fun _ _ _ => ?_
      refine (inStep_accept (by decide)).bind_eq fun _ => ?_
      exact (inStep_nested (keeps.string _)).bind fun _ _ _ => .pure rfl
    · exact .pure rfl
  · exact .pure rfl

theorem text (keeps : deeper.KeepsStep) : InStep here anyhow deeper.text deeper.text :=
  keeps.string?.bind fun _ _ _ =>
    .of_stays (obeys_orFail (by decide) _) (obeys_orFail (by decide) _)

theorem stringFunction (keeps : deeper.KeepsStep) (word : Keyword) :
    Together (deeper.stringFunction word) (deeper.stringFunction word) := by
  have close (text other : Bytes) : Together (do
      expect ')'
      return text : Action Bytes) (do
      expect ')'
      return other : Action Bytes) := (inStep_expect (by decide)).bind fun _ _ _ => .pure trivial
  have counted {next follow : Nat → Action Bytes} (count other : Single)
      (goesOn : ∀ count other, Together (next count) (follow other)) :
      Together (Range.count count >>= next) (Range.count other >>= follow) :=
    .bind (.of_stays (obeys_count _) (obeys_count _)) fun _ _ _ => goesOn _ _
  refine (inStep_expect (by decide)).bind fun _ _ _ => ?_
  dsimp only
  split
  · exact keeps.value.bind fun _ _ _ => close _ _
  · refine keeps.value.bind fun _ _ _ => ?_
    exact .bind (.of_stays (obeys_byte _) (obeys_byte _)) fun _ _ _ => close _ _
  · refine keeps.text.bind fun _ _ _ => (inStep_expect (by decide)).bind fun _ _ _ => ?_
    exact keeps.value.bind fun _ _ _ => counted _ _ fun _ _ => close _ _
  · refine keeps.text.bind fun _ _ _ => (inStep_expect (by decide)).bind fun _ _ _ => ?_
    exact keeps.value.bind fun _ _ _ => counted _ _ fun _ _ => close _ _
  · refine keeps.text.bind fun _ _ _ => (inStep_expect (by decide)).bind fun _ _ _ => ?_
    refine keeps.value.bind fun _ _ _ => .ite_fail _ ?_
    refine keeps.valueAfterComma.bind fun count other _ => ?_
    rcases count with _ | count <;> rcases other with _ | other
    · exact close _ _
    · exact .bind (.of_stays (.pure _) (obeys_count _)) fun _ _ _ => close _ _
    · exact .bind (.of_stays (obeys_count _) (.pure _)) fun _ _ _ => close _ _
    · exact counted _ _ fun _ _ => close _ _
  · exact .throw_bind _

/-! ### Functions -/

theorem argumentsWithin (keeps : deeper.KeepsStep) (fuel count : Nat) :
    InStep anywhere Eq (deeper.argumentsWithin fuel count) (deeper.argumentsWithin fuel count) := by
  induction fuel generalizing count with
  | zero => exact .throw _
  | succ fuel ih =>
    refine keeps.expression.bind fun _ _ _ => (inStep_accept (by decide)).bind_eq fun found => ?_
    split
    · exact ih _
    · exact .pure rfl

theorem arguments (keeps : deeper.KeepsStep) :
    InStep here Eq deeper.arguments deeper.arguments := by
  have close {here : Token → Prop} (count : Nat) : InStep here Eq (do
      expect ')'
      return count : Action Nat) (do
      expect ')'
      return count : Action Nat) := (inStep_expect (by decide)).bind fun _ _ _ => .pure rfl
  refine (inStep_expect (by decide)).bind fun _ _ _ => .token_bind fun token _ => ?_
  split
  · exact close 0
  · dsimp only
    refine .get_bind fun _ _ same => ?_
    rw [same]
    exact (keeps.argumentsWithin _ _).at_token.bind_eq fun count => close count

theorem numericFunction (keeps : deeper.KeepsStep) (word : Keyword) :
    InStep (· = .word word) anyhow (deeper.numericFunction word)
      (deeper.numericFunction word) := by
  unfold Evaluator.numericFunction
  cases takes : Builtin.arity? word with
  | none => exact .throw_bind _
  | some arity =>
    have applies (count : Nat) : (do
        if count ≠ arity then Attempt.fail .illegalFunctionCall
        else
          let arguments ← onOperands (BoundedStack.popMany count)
          push (← Evaluator.functionValue word arguments) : Action Unit).Obeys Conduct.stays := by
      refine .ite (obeys_fail (by decide)) ((obeys_popMany count).bind fun arguments => ?_)
      have values := Evaluator.Obeys.functionValue arguments fun (_ : word = .malloc) =>
        makes_stays.allocateBuffer
      exact values.bind fun _ => obeys_push _
    simp only [Attempt.orFail, pure_bind]
    refine (inStep_function (Keyword.isFunction_of_arity takes)).bind fun _ _ _ => ?_
    refine .token_bind fun token _ => ?_
    split
    · exact keeps.arguments.bind_eq fun count => .of_stays (applies _) (applies _)
    · exact .of_stays (applies 0) (applies 0)

theorem textFunction (keeps : deeper.KeepsStep) {word : Keyword} (named : word.isFunction = true) :
    InStep (· = .word word) anyhow (deeper.textFunction word) (deeper.textFunction word) := by
  have close (result other : Single) : Together (do
      expect ')'
      push result : Action Unit) (do
      expect ')'
      push other : Action Unit) :=
    (inStep_expect (by decide)).bind fun _ _ _ => .of_stays (obeys_push _) (obeys_push _)
  refine (inStep_function named).bind fun _ _ _ => ?_
  refine (inStep_expect (by decide)).bind fun _ _ _ => ?_
  split
  · refine keeps.string?.bind fun text other same => ?_
    rcases text with _ | text <;> rcases other with _ | other
    · refine keeps.value.bind fun _ _ _ => ?_
      refine .bind (.of_stays (obeys_bufferName _) (obeys_bufferName _)) fun _ _ _ => ?_
      refine .bind (.of_stays (accesses_stays.lookup _ _) (accesses_stays.lookup _ _)) fun _ _ _ =>
        close _ _
    · cases same
    · cases same
    · exact close _ _
  · refine keeps.text.bind fun _ _ _ => ?_
    exact .bind (.of_stays .get .get) fun _ _ _ => close _ _
  · exact keeps.text.bind fun _ _ _ => close _ _
  · refine keeps.text.bind fun _ _ _ => (inStep_expect (by decide)).bind fun _ _ _ => ?_
    exact keeps.text.bind fun _ _ _ => close _ _

theorem objectName (keeps : deeper.KeepsStep) : Together deeper.objectName deeper.objectName := by
  refine .token_bind fun token _ => ?_
  split
  · exact (inStep_advance rfl).bind fun _ _ _ => .pure trivial
  · exact (inStep_advance rfl).bind fun _ _ _ => .pure trivial
  · refine (inStep_advance rfl).bind fun _ _ _ => ?_
    refine (inStep_expect (by decide)).bind fun _ _ _ => ?_
    exact (inStep_expect (by decide)).bind fun _ _ _ => .pure trivial
  · refine (inStep_advance rfl).bind fun _ _ _ => ?_
    refine .token_bind fun token _ => ?_
    split
    · exact (inStep_advance rfl).bind fun _ _ _ => .pure trivial
    · exact (inStep_advance rfl).bind fun _ _ _ => .pure trivial
    · exact .fail _
  · refine keeps.value.bind fun _ _ _ => ?_
    refine .bind (.of_stays (obeys_bufferName _) (obeys_bufferName _)) fun _ _ _ => ?_
    exact .pure trivial

theorem find (keeps : deeper.KeepsStep) :
    InStep (· = .word .find) anyhow deeper.find deeper.find := by
  refine (inStep_advance rfl).bind fun _ _ _ => ?_
  refine (inStep_expect (by decide)).bind fun _ _ _ => keeps.objectName.bind fun _ _ _ => ?_
  refine (inStep_expect (by decide)).bind fun _ _ _ => ?_
  refine .bind (.of_stays (accesses_stays.lookup _ _) (accesses_stays.lookup _ _)) fun _ _ _ => ?_
  exact .of_stays (obeys_push _) (obeys_push _)

theorem argument (keeps : deeper.KeepsStep) : Together deeper.argument deeper.argument := by
  have close {here : Token → Prop} (value other : Option Single) : InStep here anyhow (do
      expect ')'
      return value : Action (Option Single)) (do
      expect ')'
      return other : Action (Option Single)) :=
    (inStep_expect (by decide)).bind fun _ _ _ => .pure trivial
  refine (inStep_accept (by decide)).bind_eq fun found => ?_
  split
  · exact .pure trivial
  refine .token_bind fun token _ => ?_
  split
  · exact close _ _
  · rw [map_eq_pure_bind, bind_assoc]
    exact keeps.value.bind fun _ _ _ => close _ _

/-- What follows the name of a user function. -/
theorem callNamed (keeps : deeper.KeepsStep) (name : Name) {read : Token}
    (inside : read.isOfExpression = true) : InStep (· = read) anyhow
      (Evaluator.Obeys.named deeper name) (Evaluator.Obeys.named deeper name) := by
  refine (inStep_advance inside).bind fun _ _ _ => keeps.argument.bind fun _ _ _ => ?_
  refine .bind (.of_stays (accesses_stays.definition name) (accesses_stays.definition name))
    fun _ _ _ => ?_
  refine .bind (.of_stays (obeys_checkDepth (by decide)) (obeys_checkDepth (by decide)))
    fun _ _ _ => ?_
  exact .of_place (fun guarded settled => isAhead_call keeps.texts guarded settled)
    fun guarded settled => isAhead_call keeps.texts guarded settled

theorem userFunction (keeps : deeper.KeepsStep) :
    InStep (· = .word .fn) anyhow deeper.userFunction deeper.userFunction := by
  refine (inStep_advance rfl).bind fun _ _ _ => ?_
  refine .token_bind fun token _ => ?_
  have rest (name : Name) (inside : token.isOfExpression = true) := keeps.callNamed name inside
  simp only [Evaluator.Obeys.named, Evaluator.Obeys.callDefined, Evaluator.Obeys.call,
    Evaluator.Obeys.recover, bind_assoc] at rest
  split
  · exact rest _ rfl
  · exact rest _ rfl
  · exact .throw_bind _

/-! ### Levels -/

theorem function (keeps : deeper.KeepsStep) (word : Keyword) :
    InStep (· = .word word) anyhow (deeper.function word) (deeper.function word) := by
  unfold Evaluator.function
  split
  · exact keeps.userFunction
  · exact keeps.textFunction rfl
  · exact keeps.textFunction rfl
  · exact keeps.textFunction rfl
  · exact keeps.textFunction rfl
  · exact keeps.find
  · refine (inStep_advance rfl).bind fun _ _ _ => ?_
    exact .get_bind fun _ _ _ => .of_stays (obeys_push _) (obeys_push _)
  · exact keeps.numericFunction _

theorem stringFactor (keeps : deeper.KeepsStep) :
    InStep here anyhow deeper.stringFactor deeper.stringFactor := by
  refine keeps.text.bind fun left other _ => .token_bind fun token _ => ?_
  cases compares : token.relation? with
  | none => exact .of_stays (obeys_push _) (obeys_push _)
  | some operator =>
    refine (inStep_advance (Token.isOfExpression_relation compares)).bind fun _ _ _ => ?_
    exact keeps.text.bind fun _ _ _ => .of_stays (obeys_push _) (obeys_push _)

theorem factor (keeps : deeper.KeepsStep) : Together deeper.factor deeper.factor := by
  refine .token_bind fun token _ => ?_
  split
  · refine (inStep_advance rfl).bind fun _ _ _ => ?_
    refine (inStep_nested (keeps.numeric _)).bind fun _ _ _ => ?_
    exact .bind (.of_stays obeys_pop obeys_pop) fun _ _ _ =>
      .of_stays (obeys_push _) (obeys_push _)
  · refine (inStep_advance rfl).bind fun _ _ _ => ?_
    exact inStep_nested (keeps.numeric _)
  · refine (inStep_advance rfl).bind fun _ _ _ => ?_
    exact .of_stays (obeys_push _) (obeys_push _)
  · refine (inStep_advance rfl).bind fun _ _ _ => ?_
    exact .bind (.of_stays (obeys_getScalar _) (obeys_getScalar _)) fun _ _ _ =>
      .of_stays (obeys_push _) (obeys_push _)
  · refine (inStep_advance rfl).bind fun _ _ _ => ?_
    refine keeps.subscripts.bind fun _ _ _ => ?_
    have loads {name : Name} {row : Single} {column : Option Single} :
        (getElement name row column).Obeys Conduct.stays :=
      obeys_getElement fun _ => makes_stays.loadElement _ _ _
    exact .bind (.of_stays loads loads) fun _ _ _ => .of_stays (obeys_push _) (obeys_push _)
  · exact keeps.stringFactor
  · exact keeps.stringFactor
  · split
    · exact keeps.stringFactor
    · exact keeps.function _
  · refine (inStep_advance rfl).bind fun _ _ _ => ?_
    exact keeps.expression.bind fun _ _ _ => inStep_expect (by decide)
  · exact .fail _

theorem power (keeps : deeper.KeepsStep) : Together deeper.power deeper.power :=
  keeps.factor.bind fun _ _ _ =>
    inStep_operators (fun _ => Token.isOfExpression_oneOf) keeps.factor

theorem product (keeps : deeper.KeepsStep) : Together deeper.product deeper.product :=
  keeps.power.bind fun _ _ _ => inStep_operators (fun _ => Token.isOfExpression_oneOf) keeps.power

theorem sum (keeps : deeper.KeepsStep) : Together deeper.sum deeper.sum := by
  have rest : Together (operators sign? deeper.product) (operators sign? deeper.product) :=
    inStep_operators (fun _ => Token.isOfExpression_oneOf) keeps.product
  refine .token_bind fun token _ => ?_
  split
  · exact .bind (.of_stays (obeys_push _) (obeys_push _)) fun _ _ _ => rest
  · exact keeps.product.at_token.bind fun _ _ _ => rest

theorem comparison (keeps : deeper.KeepsStep) : Together deeper.comparison deeper.comparison :=
  keeps.sum.bind fun _ _ _ => inStep_operators (fun token compares => by
    obtain ⟨operator, compares⟩ := Option.isSome_iff_exists.mp compares
    exact Token.isOfExpression_relation compares) keeps.sum

theorem negation (keeps : deeper.KeepsStep) : Together deeper.negation deeper.negation := by
  have negates : (do
      push (← Attempt.lift (Arithmetic.not (← pop))) : Action Unit).Obeys Conduct.stays :=
    obeys_pop.bind fun operand =>
      (obeys_lift (Arithmetic.isPlain_not operand)).bind fun _ => obeys_push _
  refine .token_bind fun token _ => ?_
  split
  · rename_i negated
    refine (inStep_advance (Token.isOfExpression_operator negated)).bind fun _ _ _ => ?_
    exact (inStep_nested (keeps.numeric _)).bind fun _ _ _ => .of_stays negates negates
  · exact keeps.comparison.at_token

theorem conjunction (keeps : deeper.KeepsStep) : Together deeper.conjunction deeper.conjunction :=
  keeps.negation.bind fun _ _ _ =>
    inStep_operators (fun _ => Token.isOfExpression_oneOf) keeps.negation

theorem disjunction (keeps : deeper.KeepsStep) : Together deeper.disjunction deeper.disjunction :=
  keeps.conjunction.bind fun _ _ _ =>
    inStep_operators (fun _ => Token.isOfExpression_oneOf) keeps.conjunction

theorem level (keeps : deeper.KeepsStep) (level : Level) :
    Together (deeper.level level) (deeper.level level) := by
  cases level with
  | disjunction => exact keeps.disjunction
  | negation => exact keeps.negation
  | power => exact keeps.power

end Evaluator.KeepsStep

theorem keepsStep_evaluator (budget : Nat) : (evaluator budget).KeepsStep := by
  induction budget with
  | zero => exact ⟨obeys_evaluator 0, fun _ => .throw _, fun _ => .throw _⟩
  | succ budget ih => exact ⟨obeys_evaluator _, ih.level, ih.stringFunction⟩

namespace Machine

/-! ### Values -/

/-- **An expression is read equally far, whatever the variables are.** -/
theorem inStep_value : Together value value := by
  intro one other abreast at_ a _ b otherAfter ran again
  have looked : (evaluator other.config.stackSize).value.runOn other = (.ok b, otherAfter) := again
  rw [abreast.config] at looked
  exact (keepsStep_evaluator _).value one other abreast at_ _ _ _ _ ran looked

variable {machine after : Machine} {result : Single}

/-- **An expression that is evaluated is read over**, and nothing that ends a statement is. -/
theorem exists_isAhead_value (settled : machine.IsSettled) (guarded : machine.memory.IsGuarded)
    (ran : value.runOn machine = (.ok result, after)) : ∃ count, machine.IsAhead after count := by
  obtain ⟨-, count, ahead, -⟩ := inStep_value machine machine
    (.refl settled guarded) trivial _ _ _ _ ran ran
  exact ⟨count, ahead⟩

end Machine

end PocketBasic
