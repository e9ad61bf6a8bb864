/-
**Evaluation ends.** Functions of a program may call themselves and each other, and a call goes to
any place of the program, so nothing that an expression says bounds its evaluation. Two things do:
every evaluation that is opened takes one of as many as the stack is large, and what goes on at one
depth leaves less of the text to read at every round.

* `Evaluator.EndsWithin`: an evaluator whose evaluations end where so many of them still fit in;
* `Evaluator.EndsWithin.value` and the others: one lemma a routine, most of them saying that it
  takes a token;
* `Evaluator.EndsWithin.call`: a user function comes back behind the token of its name;
* **`endsWithin_evaluator`**: every evaluator ends, by induction on its budget;
* `watchingEvaluator`: evaluators that do a step each time an evaluation was opened;
  `Evaluator.Alike`: evaluators that do the same where they are opened;
* **`Machine.evaluation_ends`**: evaluations end, with at most as many open as the stack is large.
-/

import PocketBasic.Proofs.Machine.Progress
import PocketBasic.Proofs.Machine.Robustness

namespace PocketBasic

open Conduct (stands)

/-- An evaluator whose evaluations end, each behind a token, where they are opened with so many of
them still to fit in. -/
structure Evaluator.EndsWithin (budget : Nat) (deeper : Evaluator) : Prop where
  numeric : ∀ (level : Level) (machine : Machine), machine.depth ≤ machine.config.stackSize →
    machine.config.stackSize < machine.depth + budget →
      Machine.ProceedsFrom (fun _ => True) machine (deeper.numeric level)
  string : ∀ (word : Keyword) (machine : Machine), machine.depth ≤ machine.config.stackSize →
    machine.config.stackSize < machine.depth + budget →
      Machine.ProceedsFrom (fun _ => True) machine (deeper.string word)

namespace Evaluator.EndsWithin

open Machine

variable {budget : Nat} {deeper : Evaluator} (ends : deeper.EndsWithin budget)

include ends

/-! ### Expressions and what contains them -/

theorem level (level : Level) : Consumes budget (nested (deeper.numeric level)) :=
  .nested (ends.numeric level)

theorem expression : Consumes budget deeper.expression := ends.level _

theorem value : Consumes budget deeper.value := ends.expression.bind fun _ => .of_stands stands_pop

theorem valueAfterComma : Finishes budget deeper.valueAfterComma :=
  .behind (proceeds_accept _) fun _ => .ite (ends.value.bind fun _ => .pure id) (.pure id)

theorem subscripts : Consumes budget deeper.subscripts := by
  refine (consumes_expect _).bind fun _ => ends.value.bind fun row => ?_
  exact ends.valueAfterComma.behind fun column => (consumes_expect _).bind fun _ => .pure id

theorem selector : Finishes budget deeper.selector := by
  refine .behind (proceeds_accept _) fun opened => .ite (.pure id) ?_
  have rest (bounds : Selector) : Finishes budget (do
      expect ')'
      if !(← accept '(') then return bounds
      let index ← deeper.value
      expect ')'
      return { bounds with index := some index } : Action Selector) := by
    refine (consumes_expect _).bind fun _ => .behind (proceeds_accept _) fun again =>
      .ite (.pure id) ?_
    exact ends.value.bind fun _ => (consumes_expect _).bind fun _ => .pure id
  refine .token_bind fun token => Proceeds.at_token (.ite ?_ (rest _)) token
  exact ends.value.bind fun lower => ends.valueAfterComma.behind fun upper => rest _

theorem target : Consumes budget deeper.target := by
  refine .token_bind fun token => ?_
  split
  · exact .advance_bind nofun (.pure id)
  · exact .advance_bind nofun (ends.subscripts.bind fun _ => .pure id)
  · exact .advance_bind nofun (ends.selector.behind fun _ => .pure id)
  · exact (Proceeds.fail _).at_token _

/-! ### Strings -/

/-- Where no string begins, nothing is read. -/
theorem string? : Proceeds budget (·.isSome = true) deeper.string? := by
  refine .token_bind fun token => ?_
  split
  · exact .advance_bind nofun (.pure id)
  · refine .advance_bind nofun (ends.selector.behind fun _ => ?_)
    exact .behind (.of_stands (obeys_readString _ _)) fun _ => .pure id
  · split
    · refine .advance_bind nofun (.behind (proceeds_accept _) fun _ => ?_)
      exact (Proceeds.nested (ends.string _)).bind fun _ => .pure id
    · exact (Proceeds.pure nofun).at_token _
  · exact (Proceeds.pure nofun).at_token _

theorem text : Consumes budget deeper.text := by
  intro machine fits
  refine Attempt.Ends.bind (ends.string? machine fits) fun text after kept => ?_
  cases text with
  | none => exact .of_error rfl nofun
  | some text => exact .pure ⟨kept.1, fun _ => kept.2 rfl⟩

theorem stringFunction (word : Keyword) : Consumes budget (deeper.stringFunction word) := by
  have close (text : Bytes) : Finishes budget (do
      expect ')'
      return text : Action Bytes) := (consumes_expect _).bind fun _ => .pure id
  refine (consumes_expect _).bind fun _ => ?_
  dsimp only
  split
  · exact ends.value.bind fun _ => close _
  · exact ends.value.bind fun _ => .behind (.of_stands (obeys_byte _)) fun _ => close _
  · refine ends.text.bind fun _ => (consumes_expect _).bind fun _ => ends.value.bind fun _ => ?_
    exact .behind (.of_stands (obeys_count _)) fun _ => close _
  · refine ends.text.bind fun _ => (consumes_expect _).bind fun _ => ends.value.bind fun _ => ?_
    exact .behind (.of_stands (obeys_count _)) fun _ => close _
  · refine ends.text.bind fun _ => (consumes_expect _).bind fun _ => ends.value.bind fun _ => ?_
    refine .ite (.behind (.fail _ : Finishes _ _) fun _ => close _) ?_
    refine ends.valueAfterComma.behind fun count => ?_
    cases count with
    | none => exact close _
    | some count => exact .behind (.of_stands (obeys_count _)) fun _ => close _
  · exact .behind (.failWith _ _ : Finishes _ _) fun _ => close _

/-! ### Functions -/

/-- Each argument takes a token, and so does the comma behind it. -/
theorem argumentsWithin (fuel count : Nat) :
    ProceedsWithin (2 * fuel) budget (fun _ => False) (deeper.argumentsWithin fuel count) := by
  induction fuel generalizing count with
  | zero => exact fun _ _ few => absurd few (Nat.not_lt_zero _)
  | succ fuel ih =>
    refine .bind ends.expression fun _ machine fits few => ?_
    refine (proceeds_accept _ machine fits).bind fun another after onward read => ?_
    split
    · exact ih _ after (onward.fits fits) ((read ‹_›).trans_le (Nat.le_of_lt_succ few))
    · exact Proceeds.pure id after (onward.fits fits)

theorem arguments : Consumes budget deeper.arguments := by
  have close (count : Nat) : Finishes budget (do
      expect ')'
      return count : Action Nat) :=
    (consumes_expect _).bind fun _ => .pure id
  refine (consumes_expect _).bind fun _ => .token_bind fun token => Proceeds.at_token ?_ token
  refine .ite (close 0) fun machine fits => .get_bind ?_
  refine (ends.argumentsWithin _ 0 machine fits machine.left_lt).bind fun count after onward _ => ?_
  exact close count after (onward.fits fits)

variable {token : Token} (some : token ≠ .endOfText)

include some

theorem numericFunction (word : Keyword) :
    ConsumesAt token budget (deeper.numericFunction word) := by
  refine .behind_stands (obeys_orFail (by decide) _) fun arity => .advance_bind some ?_
  have rest (count : Nat) : Finishes budget (do
      if count ≠ arity then Attempt.fail .illegalFunctionCall
      else
        let arguments ← onOperands (BoundedStack.popMany count)
        push (← Evaluator.functionValue word arguments) : Action Unit) := by
    refine .ite (.fail _) ?_
    refine .behind (.of_stands (stands_takesOff (BoundedStack.takesOff_popMany count)))
      fun arguments => ?_
    have values := Obeys.functionValue arguments fun (_ : word = .malloc) =>
      makes_stands.allocateBuffer
    exact .behind (.of_stands values) fun _ => .of_stands (stands_push _)
  refine .token_bind fun token => Proceeds.at_token (.ite (ends.arguments.bind rest) (rest 0)) token

theorem textFunction (word : Keyword) : ConsumesAt token budget (deeper.textFunction word) := by
  have close (result : Single) : Finishes budget (do
      expect ')'
      push result : Action Unit) := (consumes_expect _).bind fun _ => .of_stands (stands_push _)
  refine .advance_bind some ((consumes_expect _).bind fun _ => ?_)
  split
  · refine ends.string?.behind fun text => ?_
    cases text with
    | some text => exact close _
    | none =>
      refine ends.value.bind fun _ => .behind (.of_stands (obeys_bufferName _)) fun name => ?_
      exact .behind (.of_stands (usesMemory_stands.lookup .buffer name)) fun payload => close _
  · exact ends.text.bind fun _ => .get_bind fun _ => close _
  · exact ends.text.bind fun _ => close _
  · refine ends.text.bind fun _ => (consumes_expect _).bind fun _ => ?_
    exact ends.text.bind fun _ => close _

omit some in
theorem objectName : Consumes budget deeper.objectName := by
  refine .token_bind fun token => ?_
  split
  · exact .advance_bind nofun (.pure id)
  · exact .advance_bind nofun (.pure id)
  · refine .advance_bind nofun ((consumes_expect _).bind fun _ => ?_)
    exact (consumes_expect _).bind fun _ => .pure id
  · refine .advance_bind nofun (.token_bind fun token => Proceeds.at_token ?_ token)
    split
    · exact .behind .advance fun _ => .pure id
    · exact .behind .advance fun _ => .pure id
    · exact .fail _
  · refine Proceeds.at_token (ends.value.bind fun _ => ?_) _
    exact .behind (.of_stands (obeys_bufferName _)) fun _ => .pure id

theorem find : ConsumesAt token budget deeper.find := by
  refine .advance_bind some ((consumes_expect _).bind fun _ =>
    ends.objectName.bind fun object => ?_)
  refine (consumes_expect _).bind fun _ => ?_
  exact .behind (.of_stands (usesMemory_stands.lookup object.1 object.2)) fun _ =>
    .of_stands (stands_push _)

/-! ### User functions -/

omit some

theorem argument : Finishes budget deeper.argument := by
  have close (value : Option Single) : Finishes budget (do
      expect ')'
      return value : Action (Option Single)) := (consumes_expect _).bind fun _ => .pure id
  refine .behind (proceeds_accept _) fun _ => .ite (.pure id) ?_
  refine .token_bind fun token => Proceeds.at_token (.ite (close none) ?_) token
  rw [← bind_pure_comp, bind_assoc]
  exact ends.value.bind fun _ => close _

theorem functionBody : Finishes budget deeper.functionBody := by
  refine .token_bind fun token => Proceeds.at_token (.ite ?_ (.fail _)) token
  exact .behind .advance fun _ => ends.expression.finishes

omit ends in
/-- A step that is followed by another one goes on where that one stands still. -/
theorem recover {first last : Action Unit} (finishes : Finishes budget first)
    (obeys : last.Obeys stands) : Finishes budget (Obeys.recover first last) := by
  refine fun machine fits => (finishes machine fits).caught.bind fun result middle reached => ?_
  refine (obeys middle).ends.caught.bind fun restored after there => ?_
  rcases result with error | ⟨⟩
  · exact .of_error rfl reached
  · rcases restored with error | ⟨⟩
    · exact .of_error rfl there
    · exact .pure ⟨reached.1.trans (onward_of_stands there), False.elim⟩

/-- **A call comes back behind the token that its caller was behind.** -/
theorem call {before machine : Machine} (fits : machine.Fits budget)
    (onward : before.Onward machine) (behind : before.IsBehind machine) (entry : Nat)
    (parameter : Name) (argument : Option Single) :
    (Obeys.call deeper entry parameter argument).Ends machine
      (fun _ after => before.Onward after ∧ before.IsBehind after)
      fun failure _ => failure ≠ .stalled := by
  have binds : (bindParameter parameter argument).Obeys stands := Obeys.bindParameter _ _
  refine .get_bind ((binds machine).ends.bind fun bound middle same => .modify_bind ?_)
  have stayed := onward_of_stands same
  have cursor : middle.cursor = machine.cursor := congrArg Prod.fst same
  have room (place : Location) : (jump place middle).Fits budget := by
    rw [Fits, config_jump, depth_jump]
    exact stayed.fits fits
  have recovers := recover ends.functionBody (Obeys.unbindParameter bound)
  refine Attempt.Ends.bind (recovers _ (room _)) fun _ after kept => .of_ok rfl ?_
  exact cursor ▸ (onward.trans stayed).back (stayed.isBehind behind) kept.1

theorem userFunction {token : Token} (some : token ≠ .endOfText) :
    ConsumesAt token budget deeper.userFunction := by
  intro machine fits here
  have rest (name : Name) (first : Machine) (fits : first.Fits budget)
      (onward : machine.Onward first) (behind : machine.IsBehind first) :
      (Obeys.named deeper name).Ends first
        (fun _ after => machine.Onward after ∧ machine.IsBehind after)
        fun failure _ => failure ≠ .stalled := by
    refine Proceeds.advance.ends_behind fits onward behind fun _ second fits onward behind => ?_
    refine ends.argument.ends_behind fits onward behind fun argument third fits onward behind => ?_
    have defined : Finishes budget (definition name) :=
      .of_stands (usesMemory_stands.definition usesMemory_stands.lookup name)
    refine defined.ends_behind fits onward behind fun defined fourth fits onward behind => ?_
    have checked : Finishes budget (checkDepth "FN") := .of_stands (obeys_checkDepth (by decide))
    refine checked.ends_behind fits onward behind fun _ fifth fits onward behind => ?_
    exact ends.call fits onward behind _ _ _
  have onward := onward_nextToken machine
  have arrives : deeper.userFunction.Ends machine
      (fun _ after => machine.Onward after ∧ machine.IsBehind after)
      fun failure _ => failure ≠ .stalled := by
    replace rest name := rest name _ (onward.fits fits) onward machine.isBehind_nextToken
    simp only [Obeys.named, Obeys.callDefined, Obeys.call, Obeys.recover, bind_assoc] at rest
    refine .modify_bind (.get_bind ?_)
    dsimp only
    split
    · exact rest _
    · exact rest _
    · exact .of_error rfl (by decide)
  exact arrives.mono (fun _ _ kept => ⟨kept.1, fun _ => kept.2.left_lt (here ▸ some)⟩) fun _ _ => id

/-! ### Levels -/

theorem function {token : Token} (some : token ≠ .endOfText) (word : Keyword) :
    ConsumesAt token budget (deeper.function word) := by
  unfold Evaluator.function
  split
  · exact ends.userFunction some
  · exact ends.textFunction some _
  · exact ends.textFunction some _
  · exact ends.textFunction some _
  · exact ends.textFunction some _
  · exact ends.find some
  · exact .advance_bind some (.get_bind fun _ => .of_stands (stands_push _))
  · exact ends.numericFunction some _

theorem stringFactor : Consumes budget deeper.stringFactor := by
  refine ends.text.bind fun left => .token_bind fun token => Proceeds.at_token ?_ token
  cases token.relation? with
  | none => exact .of_stands (stands_push _)
  | some operator =>
    exact .behind .advance fun _ => ends.text.bind fun right => .of_stands (stands_push _)

theorem factor : Consumes budget deeper.factor := by
  refine .token_bind fun token => ?_
  split
  · refine .advance_bind nofun ((ends.level _).bind fun _ => ?_)
    exact .behind (.of_stands stands_pop) fun _ => .of_stands (stands_push _)
  · exact .advance_bind nofun (ends.level _).finishes
  · exact .advance_bind nofun (.of_stands (stands_push _))
  · refine .advance_bind nofun (.behind (.of_stands (obeys_getScalar _)) fun _ => ?_)
    exact .of_stands (stands_push _)
  · refine .advance_bind nofun (ends.subscripts.bind fun place => ?_)
    exact .behind (.of_stands (obeys_getElement fun _ => makes_stands.loadElement _ _ _))
      fun _ => .of_stands (stands_push _)
  · exact ends.stringFactor.at_token _
  · exact ends.stringFactor.at_token _
  · split
    · exact ends.stringFactor.at_token _
    · exact ends.function (fun ends => by cases ends) _
  · exact .advance_bind nofun (ends.expression.bind fun _ => (consumes_expect _).finishes)
  · exact (Proceeds.fail _).at_token _

theorem power : Consumes budget deeper.power :=
  ends.factor.bind fun _ => proceeds_operators rfl ends.factor

theorem product : Consumes budget deeper.product :=
  ends.power.bind fun _ => proceeds_operators rfl ends.power

/-- The zero in front of a sign takes no token, but the sign is an operator behind it. -/
theorem sum : Consumes budget deeper.sum := by
  refine .token_bind fun token => ?_
  split
  · exact .behind_stands (stands_push _) fun _ => consumes_operators rfl ends.product ‹_›
  · exact Proceeds.at_token (ends.product.bind fun _ => proceeds_operators rfl ends.product) _

theorem comparison : Consumes budget deeper.comparison :=
  ends.sum.bind fun _ => proceeds_operators rfl ends.sum

theorem negation : Consumes budget deeper.negation := by
  refine .token_bind fun token => ?_
  split
  · refine .advance_bind ?_ ((ends.level _).bind fun _ => ?_)
    · rintro rfl
      cases ‹Token.endOfText.isOperator .not = true›
    refine .behind (.of_stands stands_pop) fun operand => ?_
    refine .behind (.of_stands (obeys_lift (Arithmetic.isPlain_not operand))) fun _ => ?_
    exact .of_stands (stands_push _)
  · exact ends.comparison.at_token _

theorem conjunction : Consumes budget deeper.conjunction :=
  ends.negation.bind fun _ => proceeds_operators rfl ends.negation

theorem disjunction : Consumes budget deeper.disjunction :=
  ends.conjunction.bind fun _ => proceeds_operators rfl ends.conjunction

theorem atLevel (level : Level) : Consumes budget (deeper.level level) := by
  cases level with
  | disjunction => exact ends.disjunction
  | negation => exact ends.negation
  | power => exact ends.power

/-- Each piece takes a token, and so does the sign behind it. -/
theorem concatenationWithin (fuel : Nat) (before : Bytes) :
    ProceedsWithin (2 * fuel) budget (fun _ => False) (deeper.concatenationWithin fuel before) := by
  induction fuel generalizing before with
  | zero => exact fun _ _ few => absurd few (Nat.not_lt_zero _)
  | succ fuel ih =>
    have rest (piece : Bytes) : ProceedsWithin (2 * fuel + 1) budget (fun _ => False) (do
        if (← token).isOperator .plus then
          advance
          deeper.concatenationWithin fuel (before ++ piece)
        else return before ++ piece : Action Bytes) := by
      refine fun machine fits few => .token_bind ?_
      split
      · rename_i joins
        have some : machine.cursor.token ≠ .endOfText := by
          intro ends
          rw [ends] at joins
          cases joins
        exact .advance_bind some fun after onward read => ih _ after (onward.fits fits) (by omega)
      · exact Proceeds.pure id machine fits
    refine fun machine fits few => (ends.string? machine fits).bind fun text after onward read => ?_
    cases text with
    | some text =>
      have fewer := read rfl
      exact rest text after (onward.fits fits) (by omega)
    | none =>
      have fewer := onward.left_le
      refine (.bind ends.product fun _ => ?_ : ProceedsWithin (2 * fuel + 1 + 1) budget _ _) after
        (onward.fits fits) (by omega)
      refine .behind (.of_stands stands_pop) fun _ => ?_
      exact .behind (.of_stands (obeys_byte _)) fun _ => rest _

theorem concatenation : Finishes budget deeper.concatenation := by
  refine fun machine fits => .get_bind ?_
  refine (ends.concatenationWithin _ [] machine fits machine.left_lt).bind
    fun text after onward _ => ?_
  exact Proceeds.ite (.fail _) (.pure id) after (onward.fits fits)

end Evaluator.EndsWithin

/-- **Every evaluator ends** where it is opened with its budget to go. -/
theorem endsWithin_evaluator (budget : Nat) : (evaluator budget).EndsWithin budget := by
  induction budget with
  | zero =>
    exact ⟨fun _ _ open_ room => absurd room (Nat.not_lt.mpr open_),
      fun _ _ open_ room => absurd room (Nat.not_lt.mpr open_)⟩
  | succ budget ih =>
    exact ⟨fun level machine _ room => ih.atLevel level machine (Nat.le_of_lt_succ room),
      fun word machine _ room => ih.stringFunction word machine (Nat.le_of_lt_succ room)⟩

/-! ### Watching evaluations open -/

/-- The evaluator for `budget` more nestings that does a step each time an evaluation was opened. -/
def watchingEvaluator (opened : Action Unit) : Nat → Evaluator
  | 0 => evaluator 0
  | budget + 1 =>
    { numeric := fun level => do
        opened
        (watchingEvaluator opened budget).level level
      string := fun word => do
        opened
        (watchingEvaluator opened budget).stringFunction word }

/-- The evaluation of a statement that does a step each time an evaluation was opened. -/
def Machine.evaluateWatching {α : Type} (opened : Action Unit) (evaluation : Evaluator → Action α) :
    Action α := do
  evaluation (watchingEvaluator opened (← get).config.stackSize)

/-- Whether two evaluators do the same where they are opened. -/
structure Evaluator.Alike (deeper other : Evaluator) : Prop where
  numeric : ∀ level, Machine.nested (deeper.numeric level) = Machine.nested (other.numeric level)
  string : ∀ word, Machine.nested (deeper.string word) = Machine.nested (other.string word)

namespace Evaluator.Alike

variable {deeper other : Evaluator} (alike : deeper.Alike other)

include alike

theorem expression : deeper.expression = other.expression := alike.numeric _

theorem value : deeper.value = other.value := by
  simp only [Evaluator.value, alike.expression]

theorem valueAfterComma : deeper.valueAfterComma = other.valueAfterComma := by
  simp only [Evaluator.valueAfterComma, alike.value]

theorem subscripts : deeper.subscripts = other.subscripts := by
  simp only [Evaluator.subscripts, alike.value, alike.valueAfterComma]

theorem selector : deeper.selector = other.selector := by
  simp only [Evaluator.selector, alike.value, alike.valueAfterComma]

theorem target : deeper.target = other.target := by
  simp only [Evaluator.target, alike.subscripts, alike.selector]

theorem string? : deeper.string? = other.string? := by
  simp only [Evaluator.string?, alike.selector, alike.string]

theorem text : deeper.text = other.text := by
  simp only [Evaluator.text, alike.string?]

theorem stringFunction (word : Keyword) :
    deeper.stringFunction word = other.stringFunction word := by
  simp only [Evaluator.stringFunction, alike.value, alike.valueAfterComma, alike.text]

theorem argumentsWithin (fuel count : Nat) :
    deeper.argumentsWithin fuel count = other.argumentsWithin fuel count := by
  induction fuel generalizing count with
  | zero => rfl
  | succ fuel ih => simp only [Evaluator.argumentsWithin, alike.expression, ih]

theorem arguments : deeper.arguments = other.arguments := by
  simp only [Evaluator.arguments, alike.argumentsWithin]

theorem numericFunction (word : Keyword) :
    deeper.numericFunction word = other.numericFunction word := by
  simp only [Evaluator.numericFunction, alike.arguments]

theorem textFunction (word : Keyword) : deeper.textFunction word = other.textFunction word := by
  simp only [Evaluator.textFunction, alike.value, alike.string?, alike.text]

theorem objectName : deeper.objectName = other.objectName := by
  simp only [Evaluator.objectName, alike.value]

theorem find : deeper.find = other.find := by
  simp only [Evaluator.find, alike.objectName]

theorem argument : deeper.argument = other.argument := by
  simp only [Evaluator.argument, alike.value]

theorem functionBody : deeper.functionBody = other.functionBody := by
  simp only [Evaluator.functionBody, alike.expression]

theorem userFunction : deeper.userFunction = other.userFunction := by
  simp only [Evaluator.userFunction, alike.argument, alike.functionBody]

theorem function (word : Keyword) : deeper.function word = other.function word := by
  simp only [Evaluator.function, alike.userFunction, alike.textFunction, alike.find,
    alike.numericFunction]

theorem stringFactor : deeper.stringFactor = other.stringFactor := by
  simp only [Evaluator.stringFactor, alike.text]

theorem factor : deeper.factor = other.factor := by
  simp only [Evaluator.factor, alike.numeric, alike.subscripts, alike.stringFactor, alike.function,
    alike.expression]

theorem power : deeper.power = other.power := by simp only [Evaluator.power, alike.factor]

theorem product : deeper.product = other.product := by simp only [Evaluator.product, alike.power]

theorem sum : deeper.sum = other.sum := by simp only [Evaluator.sum, alike.product]

theorem comparison : deeper.comparison = other.comparison := by
  simp only [Evaluator.comparison, alike.sum]

theorem negation : deeper.negation = other.negation := by
  simp only [Evaluator.negation, alike.numeric, alike.comparison]

theorem conjunction : deeper.conjunction = other.conjunction := by
  simp only [Evaluator.conjunction, alike.negation]

theorem disjunction : deeper.disjunction = other.disjunction := by
  simp only [Evaluator.disjunction, alike.conjunction]

theorem level (level : Level) : deeper.level level = other.level level := by
  cases level with
  | disjunction => exact alike.disjunction
  | negation => exact alike.negation
  | power => exact alike.power

theorem concatenationWithin (fuel : Nat) (before : Bytes) :
    deeper.concatenationWithin fuel before = other.concatenationWithin fuel before := by
  induction fuel generalizing before with
  | zero => rfl
  | succ fuel ih => simp only [Evaluator.concatenationWithin, alike.string?, alike.product, ih]

theorem concatenation : deeper.concatenation = other.concatenation := by
  simp only [Evaluator.concatenation, alike.concatenationWithin]

end Evaluator.Alike

namespace Machine

variable {α : Type} {opened : Action Unit}

/-- An evaluation that is opened begins at most as deep as the stack is large, so what would be done
deeper is not seen. -/
theorem nested_watching (quiet : ∀ machine : Machine, machine.depth ≤ machine.config.stackSize →
      opened.runOn machine = (.ok (), machine)) (evaluation : Action α) :
    nested (do opened; evaluation) = nested evaluation := by
  funext machine
  show (nested (do opened; evaluation)).runOn machine = (nested evaluation).runOn machine
  rw [nested, nested, Attempt.runOn_bind_eq_goOn, Attempt.runOn_bind_eq_goOn, checkDepth,
    Attempt.runOn_get_bind, Attempt.runOn_ite]
  split
  · rfl
  · rename_i shallow
    have passed := quiet { machine with depth := machine.depth + 1 } (Nat.not_le.mp shallow)
    rw [Attempt.runOn_pure, Attempt.goOn_ok, Attempt.goOn_ok, Attempt.runOn_modify_bind,
      Attempt.runOn_modify_bind, Attempt.ensuring, Attempt.ensuring, Attempt.runOn_ofRun,
      Attempt.runOn_ofRun, Attempt.runOn_bind_ok passed]

theorem alike_watchingEvaluator (quiet : ∀ machine : Machine,
      machine.depth ≤ machine.config.stackSize → opened.runOn machine = (.ok (), machine))
    (budget : Nat) : (watchingEvaluator opened budget).Alike (evaluator budget) := by
  induction budget with
  | zero => exact ⟨fun _ => rfl, fun _ => rfl⟩
  | succ budget ih =>
    refine ⟨fun level => ?_, fun word => ?_⟩
    · exact (nested_watching quiet _).trans (congrArg nested (ih.level level))
    · exact (nested_watching quiet _).trans (congrArg nested (ih.stringFunction word))

end Machine

/-! ### Whole evaluations -/

/-- The routines with which statements evaluate. -/
inductive Evaluator.IsRoutine : {α : Type} → (Evaluator → Action α) → Prop
  | value : IsRoutine Evaluator.value
  | text : IsRoutine Evaluator.text
  | string? : IsRoutine Evaluator.string?
  | concatenation : IsRoutine Evaluator.concatenation
  | target : IsRoutine Evaluator.target
  | subscripts : IsRoutine Evaluator.subscripts
  | valueAfterComma : IsRoutine Evaluator.valueAfterComma
  | objectName : IsRoutine Evaluator.objectName

namespace Evaluator.IsRoutine

open Machine

variable {α : Type} {routine : Evaluator → Action α} (is : IsRoutine routine)

include is

theorem isEvaluation : IsEvaluation (evaluate routine) := by
  cases is with
  | value => exact .expression .value
  | text => exact .expression .text
  | string? => exact .expression .string?
  | concatenation => exact .expression .concatenation
  | target => exact .target
  | subscripts => exact .subscripts
  | valueAfterComma => exact .valueAfterComma
  | objectName => exact .objectName

theorem finishes {budget : Nat} {deeper : Evaluator} (ends : deeper.EndsWithin budget) :
    Finishes budget (routine deeper) := by
  cases is with
  | value => exact ends.value.finishes
  | text => exact ends.text.finishes
  | string? => exact ends.string?.finishes
  | concatenation => exact ends.concatenation
  | target => exact ends.target.finishes
  | subscripts => exact ends.subscripts.finishes
  | valueAfterComma => exact ends.valueAfterComma
  | objectName => exact ends.objectName.finishes

theorem alike {deeper other : Evaluator} (alike : deeper.Alike other) :
    routine deeper = routine other := by
  cases is with
  | value => exact alike.value
  | text => exact alike.text
  | string? => exact alike.string?
  | concatenation => exact alike.concatenation
  | target => exact alike.target
  | subscripts => exact alike.subscripts
  | valueAfterComma => exact alike.valueAfterComma
  | objectName => exact alike.objectName

/-- **An evaluation never waits.** -/
theorem ne_stalled (machine : Machine) :
    ((evaluate routine).runOn machine).1 ≠ .error .stalled := by
  intro stalls
  have fits : machine.Fits machine.config.stackSize := Nat.le_add_left _ _
  have ends : ProceedsFrom _ machine (evaluate routine) :=
    .get_bind (is.finishes (endsWithin_evaluator _) machine fits)
  exact Attempt.Ends.excused ends (Prod.ext stalls rfl) rfl

theorem evaluateWatching_eq {opened : Action Unit} (quiet : ∀ machine : Machine,
      machine.depth ≤ machine.config.stackSize → opened.runOn machine = (.ok (), machine)) :
    evaluateWatching opened routine = evaluate routine :=
  bind_congr fun _ => is.alike (alike_watchingEvaluator quiet _)

end Evaluator.IsRoutine

namespace Machine

/-- **Evaluation ends**, in every machine whatever: with any bytes for a program, any typed line,
any user functions, and any size of the stack. It never waits, and a step that is done each time an
evaluation was opened, but does nothing while at most as many are open as the stack is large, is
never noticed. Wherever a host brings a machine without `POKE`, also in the middle of a statement,
the evaluation ends in a value or in an error of the language, unless it divides by zero, as
`MILLIS` of NaN does. Arrays that are made by themselves have elements there, and the free cells of
memory are no more than the whole numbers that are exact. -/
theorem evaluation_ends {α : Type} {routine : Evaluator → Action α}
    (is : Evaluator.IsRoutine routine) (machine : Machine) :
    ((evaluate routine).runOn machine).1 ≠ .error .stalled ∧
    (∀ opened : Action Unit, (∀ shallow : Machine, shallow.depth ≤ shallow.config.stackSize →
        opened.runOn shallow = (.ok (), shallow)) →
      (evaluateWatching opened routine).runOn machine = (evaluate routine).runOn machine) ∧
    ∀ (config : Config) [config.IsSound] (host : Host), Underway config host machine →
      config.memorySize ≤ numberSize * Single.exactLimit →
      Told ((evaluate routine).runOn machine).1 ∨
        ((evaluate routine).runOn machine).1 = .error .zeroDivisor := by
  have ends := is.ne_stalled machine
  refine ⟨ends, fun opened quiet => ?_, fun config _ host underway small => ?_⟩
  · rw [is.evaluateWatching_eq quiet]
  · have obeys : (evaluate routine).Obeys (.keepsHeap config) :=
      Conduct.Computes.evaluation is.isEvaluation
    have inside := ne_fault_of_obeys underway.isIntact small obeys
    rcases ran : ((evaluate routine).runOn machine).1 with (error | - | - | -) | value
    · exact .inl (told_error.mpr trivial)
    · exact absurd ran inside
    · exact .inr rfl
    · exact absurd ran ends
    · exact .inl (told_ok value)

/-- A user function that calls itself, on a stack for two evaluations: the third one is refused, and
an alarm that would fail there is not heard. -/
theorem evaluation_ends_recursive :
    let config : Config := { memorySize := 80, stackSize := 2 }
    let typed := ((enter (ascii "10 DEF FNA(X)=FNA(X)")).runOn (start config {})).2
    let machine := ((execute 4).runOn ((enter (ascii "RUN")).runOn typed).2).2
    let called := { machine with cursor := ((enter (ascii "FNA(1)")).runOn machine).2.cursor }
    let alarm : Action Unit := do
      let machine ← get
      if machine.config.stackSize < machine.depth then throw .fault
    Underway config {} called ∧
      (value.runOn called).1 =
        .error (.reported { kind := .stackOverflow, detail := "EXPRESSION" }) ∧
      Told (value.runOn called).1 ∧
      (evaluateWatching alarm Evaluator.value).runOn called = value.runOn called := by
  intro config typed machine called alarm
  have sound : config.IsSound := ⟨by decide, by decide⟩
  have seen : ((executeWithout [.poke] 4).runOn
        ((enter (ascii "RUN")).runOn typed).2).1.toOption.isSome = true ∧
      (value.runOn called).1 =
        .error (.reported { kind := .stackOverflow, detail := "EXPRESSION" }) := by
    decide +kernel
  obtain ⟨goesOn, refused⟩ := seen
  have underway : Underway config {} called :=
    .moved _ (.reached (.execute_of_isSome (.enter _ (.enter _ .refl)) goesOn))
  have quiet (shallow : Machine) (fits : shallow.depth ≤ shallow.config.stackSize) :
      alarm.runOn shallow = (.ok (), shallow) := by
    rw [Attempt.runOn_get_bind, if_neg (Nat.not_lt.mpr fits), Attempt.runOn_pure]
  obtain ⟨-, silent, told⟩ := evaluation_ends .value called
  refine ⟨underway, refused, ?_, silent alarm quiet⟩
  refine (told config {} underway (by decide)).resolve_right fun divides => ?_
  cases refused.symm.trans divides

/-- The value of `MILLIS` for NaN: its evaluation ends in no value, nor in an error of the
language. -/
theorem evaluation_divides_by_zero :
    let config : Config := { memorySize := 80 }
    let typed := ((enter (ascii "MILLIS(VAL(\"NAN\"))")).runOn (start config {})).2
    Underway config {} typed ∧ (value.runOn typed).1 = .error .zeroDivisor ∧
      ¬ Told (value.runOn typed).1 := by
  intro config typed
  have divides : (value.runOn typed).1 = .error .zeroDivisor := by decide +kernel
  refine ⟨.reached (.enter _ .refl), divides, ?_⟩
  rw [divides, told_error]
  exact not_false

end Machine

end PocketBasic
