/-
**Every phrase is evaluated.** Where the machine reads the tokens of a settled phrase and then one
that cannot go on with it, the evaluator reads just these tokens and comes to the value of the
phrase.

* `Evaluator.tier`: the evaluator of a tier; `Machine.link`: an operator and its right operand;
* `Phrase.EndsBefore`: a token that cannot go on with a phrase;
* `Phrase.IsEvaluated`, `Phrase.IsChained`: what is proved of a phrase, by itself and as the front
  of a longer one on its tier;
* **`Phrase.isEvaluated`**: every phrase is evaluated, by induction on the derivation.
-/

import Mathlib.Tactic.Common
import PocketBasic.Proofs.Expression.Stages

namespace PocketBasic

/-! ### Tiers of the evaluator -/

/-- The tier at which a level begins. -/
def Level.tier : Level → Tier
  | .disjunction => .disjunction
  | .negation => .negation
  | .power => .power

namespace Evaluator

/-- Leaves the value of a tier on the operands. -/
def tier (deeper : Evaluator) : Tier → Action Unit
  | .disjunction => deeper.disjunction
  | .conjunction => deeper.conjunction
  | .negation => deeper.negation
  | .comparison => deeper.comparison
  | .sum => deeper.sum
  | .product => deeper.product
  | .power => deeper.power
  | .factor => deeper.factor

theorem numeric_evaluator_succ (budget : Nat) (level : Level) :
    (evaluator (budget + 1)).numeric level = (evaluator budget).tier level.tier := by
  cases level <;> rfl

end Evaluator

namespace Machine

variable {machine : Machine} {stage : Stage}

/-- An operator, its right operand, and the value of the two. -/
def link (operator : Operator) (operand : Action Unit) : Action Unit := do
  advance
  operand
  let (left, right) ← onOperands BoundedStack.popPair
  let whole := (← get).config.wholeNumbers
  push (← Attempt.lift (Arithmetic.apply operator whole left right))

theorem operatorsWithin_succ (operator? : Token → Option Operator) (operand : Action Unit)
    (fuel : Nat) :
    operatorsWithin operator? operand (fuel + 1) = (do
      match operator? (← token) with
      | none => return ()
      | some operator =>
        link operator operand
        operatorsWithin operator? operand fuel) := by
  rw [operatorsWithin]
  congr 1
  funext found
  cases operator? found with
  | none => rfl
  | some operator => simp [link]

/-- The comparisons are the operators of their tier. -/
theorem relation?_eq_oneOf : Token.relation? = oneOf Tier.comparison.operators := by
  funext found
  cases found with
  | operator operator => cases operator <;> rfl
  | _ => rfl

/-- Behind an operator of the tier comes a link, and whatever else ends the tier. -/
theorem runOn_operatorsWithin_link {operator? : Token → Option Operator} {operator : Operator}
    (operand : Action Unit) (fuel : Nat)
    (found : operator? (machine.cursorAt stage.count).token = some operator) :
    (operatorsWithin operator? operand (fuel + 1)).runOn (machine.during stage) =
      Attempt.goOn ((link operator operand).runOn (machine.during stage))
        fun _ => operatorsWithin operator? operand fuel := by
  rw [operatorsWithin_succ, Attempt.runOn_bind_ok (runOn_token stage), found,
    ← Attempt.runOn_bind_eq_goOn]

theorem runOn_operatorsWithin_end {operator? : Token → Option Operator} (operand : Action Unit)
    (fuel : Nat) (found : operator? (machine.cursorAt stage.count).token = none) :
    (operatorsWithin operator? operand (fuel + 1)).runOn (machine.during stage) =
      (.ok (), machine.during stage) := by
  rw [operatorsWithin_succ, Attempt.runOn_bind_ok (runOn_token stage), found]
  rfl

theorem runOn_operators (operator? : Token → Option Operator) (operand : Action Unit) :
    (operators operator? operand).runOn (machine.during stage) =
      (operatorsWithin operator? operand (machine.textLength + 1)).runOn
        (machine.during stage) := by
  rw [operators, Attempt.runOn_get_bind, textLength_during]

theorem oneOf_eq_some {choices : List Operator} {operator : Operator}
    (among : operator ∈ choices) : oneOf choices (.operator operator) = some operator :=
  if_pos among

theorem oneOf_eq_none {choices : List Operator} {found : Token}
    (other : ∀ operator, found = .operator operator → operator ∉ choices) :
    oneOf choices found = none := by
  cases found with
  | operator operator => exact if_neg (other operator rfl)
  | _ => rfl

end Machine

/-! ### Chains of operators -/

namespace Evaluator

open Machine

/-- What comes before the operators of a tier: a sign in front of a sum stands behind a zero. -/
def opening (deeper : Evaluator) (tier below : Tier) : Action Unit := do
  if tier = .sum ∧ (sign? (← token)).isSome then push Single.zero else deeper.tier below

theorem tier_eq_opening (deeper : Evaluator) {tier below : Tier}
    (tighter : tier.below? = some below) (chain : tier ≠ .negation) :
    deeper.tier tier = (do
      deeper.opening tier below
      operators (oneOf tier.operators) (deeper.tier below)) := by
  cases tier <;> cases tighter
  · rfl
  · rfl
  · exact absurd rfl chain
  · rw [← relation?_eq_oneOf]
    rfl
  · simp only [opening, Evaluator.tier, sum, bind_assoc, true_and]
    congr 1
    funext found
    split <;> rfl
  · rfl
  · rfl

end Evaluator

/-! ### What is proved of a phrase -/

namespace Phrase

open Machine

variable {tier below : Tier}

/-- Whether a token ends a phrase that is an operand of operators looser than `limit`: it is no
operator that binds as tightly, nor a power behind a signed factor. -/
def EndsBefore (limit : Tier) (phrase : Phrase tier) (next : Token) : Prop :=
  ∀ operator, next = .operator operator →
    operator.rank < limit.rank ∧ (phrase.endsSigned = true → operator ≠ .caret)

/-- What an evaluation of the phrase may come to at a stage. -/
def Yields (machine : Machine) (stage : Stage) (phrase : Phrase tier) :
    Except Failure Unit × Machine → Prop :=
  Stage.Outcome machine stage phrase.tokens.length (phrase.value machine.config.wholeNumbers)
    phrase.nesting phrase.pending

/-- Whether a machine at a stage reads the tokens of a phrase and then one that ends it, with an
evaluator for all nestings that are left. -/
structure Stands (machine : Machine) (stage : Stage) (budget : Nat) (limit : Tier)
    (phrase : Phrase tier) (next : Token) : Prop where
  settled : phrase.IsSettled
  enough : machine.config.stackSize ≤ stage.depth + budget
  reads : machine.ReadsAt stage.count (phrase.tokens ++ [next])
  ends : phrase.EndsBefore limit next

/-- Whether the evaluator of its tier does a phrase justice wherever it stands. -/
def IsEvaluated (phrase : Phrase tier) : Prop :=
  ∀ ⦃machine : Machine⦄ ⦃stage : Stage⦄ ⦃budget : Nat⦄ ⦃next : Token⦄,
    phrase.Stands machine stage budget tier next →
    phrase.Yields machine stage (((evaluator budget).tier tier).runOn (machine.during stage))

/-- The same as the front of a longer phrase: behind the phrase, its tier goes on with operators. -/
def IsChained (phrase : Phrase tier) : Prop :=
  ∀ ⦃below : Tier⦄, tier.below? = some below → tier ≠ .negation →
    ∀ ⦃machine : Machine⦄ ⦃stage : Stage⦄ ⦃budget fuel : Nat⦄ ⦃next : Token⦄,
      phrase.Stands machine stage budget below next →
      fuel + phrase.links = machine.textLength + 1 →
      ∃ reached, phrase.Yields machine stage reached ∧
        ((evaluator budget).tier tier).runOn (machine.during stage) =
          Attempt.goOn reached fun _ =>
            operatorsWithin (oneOf tier.operators) ((evaluator budget).tier below) fuel

/-- A text has room for the operators of a phrase that it holds. -/
theorem Stands.links_le {machine : Machine} {stage : Stage} {budget : Nat} {limit : Tier}
    {phrase : Phrase tier} {next : Token}
    (stands : phrase.Stands machine stage budget limit next) :
    phrase.links ≤ machine.textLength := by
  obtain ⟨rest, starts⟩ := phrase.tokens_eq_first_cons
  have fewer := phrase.links_lt
  have reads := (readsAt_append.mp stands.reads).1
  have ends := phrase.endOfText_not_mem_tokens
  rw [starts] at fewer reads ends
  have bounded := reads.length_le fun ending => ends (List.mem_cons_of_mem _ ending)
  rw [List.length_cons] at fewer
  omega

/-- **A chain that ends is evaluated.** -/
theorem IsChained.isEvaluated {phrase : Phrase tier} (chained : phrase.IsChained)
    (tighter : tier.below? = some below) (chain : tier ≠ .negation) : phrase.IsEvaluated := by
  intro machine stage budget next stands
  have links := stands.links_le
  obtain ⟨fuel, enough⟩ : ∃ fuel, fuel + 1 + phrase.links = machine.textLength + 1 :=
    ⟨machine.textLength - phrase.links, by omega⟩
  have looser : phrase.EndsBefore below next := fun operator same =>
    have ⟨loose, unsigned⟩ := stands.ends operator same
    ⟨by rw [Tier.rank_below tighter]; omega, unsigned⟩
  obtain ⟨reached, yields, ran⟩ := chained tighter chain { stands with ends := looser } enough
  rw [ran]
  cases yields with
  | valued valued room =>
    rw [Attempt.goOn_ok]
    have here := (readsAt_append.mp stands.reads).2
    rw [readsAt_cons] at here
    rw [runOn_operatorsWithin_end]
    · exact .valued valued room
    · rw [Stage.behind, here.1]
      refine oneOf_eq_none fun operator same among => ?_
      have loose := (stands.ends operator same).1
      rw [Tier.mem_operators] at among
      omega
  | failed failed level => exact .failed failed level
  | overflowed tight level => exact .overflowed tight level

/-! ### Phrases in a chain -/

section Chains

variable {machine : Machine} {stage : Stage} {budget fuel : Nat} {next : Token}

/-- A tier that begins with an operand. -/
theorem runOn_tier_operand {operand : Phrase below} (tighter : tier.below? = some below)
    (chain : tier ≠ .negation)
    (unsigned : tier = .sum → sign? (machine.cursorAt stage.count).token = none)
    (yields : operand.Yields machine stage
      (((evaluator budget).tier below).runOn (machine.during stage))) :
    ((evaluator budget).tier tier).runOn (machine.during stage) =
      Attempt.goOn (((evaluator budget).tier below).runOn (machine.during stage)) fun _ =>
        operatorsWithin (oneOf tier.operators) ((evaluator budget).tier below)
          (machine.textLength + 1) := by
  rw [Evaluator.tier_eq_opening _ tighter chain, Attempt.runOn_bind_eq_goOn, Evaluator.opening,
    Attempt.runOn_bind_ok (runOn_token stage), if_neg (by
      rintro ⟨same, signed⟩
      simp [unsigned same] at signed)]
  generalize ((evaluator budget).tier below).runOn (machine.during stage) = reached at yields ⊢
  cases yields with
  | valued => rw [Attempt.goOn_ok, runOn_operators, Attempt.goOn_ok]
  | failed | overflowed => rw [Attempt.goOn_error, Attempt.goOn_error]

/-- **An operator and its right operand**, behind a left operand that was evaluated. -/
theorem outcome_link {operator : Operator} {right : Phrase below} {count : Nat}
    {recent : Option (ObjectKind × Name × Extent)} {left : Single}
    {value : Attempt Memory Single} {nesting pending : Nat} (evaluated : right.IsEvaluated)
    (stands : right.Stands machine (stage.behind count recent left).next budget below next)
    (values : value.runOn (machine.memory.recalling stage.recent) =
      (right.value machine.config.wholeNumbers >>= fun right =>
        Attempt.lift (Arithmetic.apply operator machine.config.wholeNumbers left right)).runOn
          (machine.memory.recalling recent))
    (room : stage.values.length < machine.operands.capacity)
    (nestingLe : right.nesting ≤ nesting) (pendingLe : right.pending + 1 ≤ pending) :
    Stage.Outcome machine stage (count + (right.tokens.length + 1)) value nesting pending
      ((link operator ((evaluator budget).tier below)).runOn
        (machine.during (stage.behind count recent left))) := by
  rw [link, Attempt.runOn_bind_ok (runOn_advance _)]
  refine outcome_bind (evaluated stands) rfl ?_ nestingLe ?_ ?_
  · intro failure after failed
    exact values.trans (Attempt.runOn_bind_error failed _)
  · simp only [Stage.behind, Stage.next, List.length_cons]
    omega
  · intro result after valued _
    let base : Stage :=
      { stage with count := stage.count + (count + (right.tokens.length + 1)), recent := after }
    have operands : (stage.behind count recent left).next.behind right.tokens.length after result =
        (base.push left).push result := by
      simp only [Stage.behind, Stage.next, Stage.push, base, Stage.mk.injEq, and_true]
      omega
    have both := values.trans (Attempt.runOn_bind_ok valued _)
    rw [operands, Attempt.runOn_bind_ok (runOn_popPair base left result), Attempt.runOn_get_bind]
    show Stage.Outcome _ _ _ _ _ _ ((Attempt.lift
      (Arithmetic.apply operator machine.config.wholeNumbers left result) >>= push).runOn _)
    cases applied : Arithmetic.apply operator machine.config.wholeNumbers left result with
    | ok joined =>
      rw [applied] at both
      rw [Attempt.runOn_bind_ok (Attempt.runOn_lift_ok _ _), runOn_push base room]
      exact .valued both room
    | error error =>
      rw [applied] at both
      rw [Attempt.runOn_bind_error (Attempt.runOn_lift_error _ _)]
      exact @Stage.Outcome.failed _ _ _ _ _ _ _ base both rfl

theorem isChained_only (tighter : tier.below? = some below) {operand : Phrase below}
    (evaluated : operand.IsEvaluated) : (only tighter operand : Phrase tier).IsChained := by
  intro below' tighter' chain machine stage budget fuel next stands enough
  obtain rfl := Option.some.inj (tighter.symm.trans tighter')
  have yields := @evaluated machine stage budget next
    { stands with settled := stands.settled.1 }
  refine ⟨_, yields, ?_⟩
  rw [runOn_tier_operand tighter chain _ yields]
  · rw [← enough]
    rfl
  · intro same
    obtain ⟨rest, starts⟩ := operand.tokens_eq_first_cons
    have reads := stands.reads
    rw [tokens, starts, List.cons_append, readsAt_cons] at reads
    rw [reads.1]
    refine oneOf_eq_none fun operator found among => ?_
    have unsigned := stands.settled.2 same
    simp only [List.mem_cons, List.not_mem_nil, or_false] at among
    rcases among with rfl | rfl
    · exact unsigned .plus found
    · exact unsigned .minus found

/-- A longer chain from a shorter one: the operator and the operand behind it. -/
theorem isChained_joined (tighter : tier.below? = some below) {left : Phrase tier}
    {operator : Operator} (joins : operator ∈ tier.operators) {right : Phrase below}
    (chained : left.IsChained) (evaluated : right.IsEvaluated) :
    (joined tighter left operator joins right).IsChained := by
  intro below' tighter' chain machine stage budget fuel next stands enough
  obtain rfl := Option.some.inj (tighter.symm.trans tighter')
  obtain ⟨settled, rightSettled, unsigned⟩ := stands.settled
  have reads := stands.reads
  rw [tokens, List.append_assoc, List.cons_append, readsAt_append, readsAt_cons] at reads
  obtain ⟨reads, here, rightReads⟩ := reads
  have leftStands : left.Stands machine stage budget below (.operator operator) := by
    refine ⟨settled, stands.enough,
      readsAt_append.mpr ⟨reads, readsAt_cons.mpr ⟨here, trivial⟩⟩, ?_⟩
    rintro _ ⟨⟩
    have same := Tier.mem_operators.mp joins
    refine ⟨by rw [Tier.rank_below tighter]; omega, fun signed caret => ?_⟩
    have power : tier = .power := by
      subst caret
      cases tier <;> first | rfl | cases same
    rw [unsigned power] at signed
    cases signed
  obtain ⟨reached, yields, ran⟩ := chained tighter chain leftStands
    (show fuel + 1 + left.links = _ by rw [← enough, links]; omega)
  rw [ran]
  cases yields with
  | @valued result recent valued room =>
    have rightStands : right.Stands machine (stage.behind left.tokens.length recent result).next
        budget below next := ⟨rightSettled, stands.enough, rightReads, stands.ends⟩
    have found : oneOf tier.operators
        (machine.cursorAt (stage.behind left.tokens.length recent result).count).token =
          some operator := by
      rw [Stage.behind, here]
      exact oneOf_eq_some joins
    refine ⟨_, ?_, runOn_operatorsWithin_link _ _ found⟩
    rw [Yields, tokens, List.length_append, List.length_cons]
    exact outcome_link evaluated rightStands (Attempt.runOn_bind_ok valued _) room
      (Nat.le_max_right _ _) (Nat.le_max_right _ _)
  | failed failed level => exact ⟨_, .failed (Attempt.runOn_bind_error failed _) level, rfl⟩
  | overflowed tight level =>
    refine ⟨_, .overflowed ?_ level, rfl⟩
    simp only [nesting, pending]
    omega

/-- A sign in front of a sum is an operator behind a zero. -/
theorem isChained_leading {sign : Sign} {operand : Phrase .product}
    (evaluated : operand.IsEvaluated) : (leading sign operand).IsChained := by
  intro below' tighter chain machine stage budget fuel next stands enough
  obtain rfl : .product = below' := Option.some.inj tighter
  have reads := stands.reads
  rw [tokens, List.cons_append, readsAt_cons] at reads
  obtain ⟨here, reads⟩ := reads
  have signs : sign? (machine.cursorAt stage.count).token = some sign.operator := by
    rw [here]
    cases sign <;> rfl
  have opens : ((evaluator budget).opening .sum .product).runOn (machine.during stage) =
      (push Single.zero).runOn (machine.during stage) := by
    rw [Evaluator.opening, Attempt.runOn_bind_ok (runOn_token stage), signs]
    rfl
  rw [Evaluator.tier_eq_opening _ rfl chain, Attempt.runOn_bind_eq_goOn, opens]
  by_cases room : stage.values.length < machine.operands.capacity
  · have zero : stage.push Single.zero = stage.behind 0 stage.recent Single.zero := rfl
    have operandStands : operand.Stands machine
        (stage.behind 0 stage.recent Single.zero).next budget .product next :=
      ⟨stands.settled, stands.enough, reads, stands.ends⟩
    refine ⟨(link sign.operator ((evaluator budget).tier .product)).runOn
      (machine.during (stage.behind 0 stage.recent Single.zero)), ?_, ?_⟩
    · rw [Phrase.Yields, tokens, List.length_cons, ← Nat.zero_add (_ + 1)]
      exact outcome_link evaluated operandStands rfl room (Nat.le_refl _) (Nat.le_refl _)
    · rw [runOn_push _ room, zero, Attempt.goOn_ok, runOn_operators, ← enough]
      exact runOn_operatorsWithin_link _ _ signs
  · have full := Nat.not_lt.mp room
    refine ⟨_, .overflowed (.inr ?_) rfl, by rw [runOn_push_full _ full]; rfl⟩
    simp only [pending]
    omega

end Chains

/-! ### Factors and negations -/

section Factors

variable {machine : Machine} {stage : Stage} {budget : Nat} {next : Token}

/-- **A phrase one nesting deeper.** -/
theorem outcome_numeric {level : Level} {phrase : Phrase level.tier}
    (evaluated : phrase.IsEvaluated)
    (stands : phrase.Stands machine stage budget level.tier next) :
    Stage.Outcome machine stage phrase.tokens.length (phrase.value machine.config.wholeNumbers)
      (phrase.nesting + 1) phrase.pending
      ((nested ((evaluator budget).numeric level)).runOn (machine.during stage)) := by
  refine nested_outcome fun room => ?_
  obtain ⟨settled, enough, reads, ends⟩ := stands
  obtain ⟨less, rfl⟩ : ∃ less, budget = less + 1 := ⟨budget - 1, by omega⟩
  rw [Evaluator.numeric_evaluator_succ]
  exact evaluated ⟨settled, by simp only [Stage.deeper]; omega, reads, ends⟩

theorem isEvaluated_number (value : Single) : (number value).IsEvaluated := by
  intro machine stage budget next stands
  have here := (readsAt_cons.mp stands.reads).1
  rw [Evaluator.tier, Evaluator.factor, Attempt.runOn_bind_ok (runOn_token stage), here]
  show Stage.Outcome _ _ _ _ _ _ ((advance >>= fun _ => push value).runOn _)
  rw [Attempt.runOn_bind_ok (runOn_advance stage)]
  exact outcome_push rfl Nat.one_pos

theorem isEvaluated_scalar {name : Name} (ordinary : name.isSpecial = false) :
    (scalar name ordinary).IsEvaluated := by
  intro machine stage budget next stands
  have here := (readsAt_cons.mp stands.reads).1
  obtain ⟨result, recent, valued, ran⟩ := @runOn_getScalar machine stage.next name ordinary
  rw [Evaluator.tier, Evaluator.factor, Attempt.runOn_bind_ok (runOn_token stage), here]
  show Stage.Outcome _ _ _ _ _ _ ((advance >>= fun _ => getScalar name >>= push).runOn _)
  rw [Attempt.runOn_bind_ok (runOn_advance stage)]
  cases result with
  | error failure =>
    rw [Attempt.runOn_bind_error ran]
    exact .failed valued rfl
  | ok value =>
    rw [Attempt.runOn_bind_ok ran]
    exact outcome_push valued Nat.one_pos

theorem isEvaluated_bracketed {content : Phrase .disjunction} (evaluated : content.IsEvaluated) :
    (bracketed content).IsEvaluated := by
  intro machine stage budget next stands
  have reads := stands.reads
  rw [tokens, List.cons_append, List.cons_append, List.append_assoc, readsAt_cons,
    readsAt_append] at reads
  obtain ⟨here, contentReads, closes⟩ := reads
  have closing := (readsAt_cons.mp closes).1
  have contentStands : content.Stands machine stage.next budget .disjunction (.symbol 41) :=
    ⟨stands.settled, stands.enough,
      readsAt_append.mpr ⟨contentReads, readsAt_cons.mpr ⟨closing, trivial⟩⟩, by rintro _ ⟨⟩⟩
  rw [Evaluator.tier, Evaluator.factor, Attempt.runOn_bind_ok (runOn_token stage), here]
  show Stage.Outcome _ _ _ _ _ _
    ((advance >>= fun _ => (evaluator budget).expression >>= fun _ => expect ')').runOn _)
  rw [Attempt.runOn_bind_ok (runOn_advance stage)]
  refine outcome_bind (@outcome_numeric _ _ _ _ .disjunction _ evaluated contentStands) rfl
    (fun _ _ failed => failed) (Nat.le_refl _) (Nat.le_refl _) fun result recent valued room => ?_
  let base := stage.next.behind content.tokens.length recent result
  have ended : stage.behind (bracketed content).tokens.length recent result = base.next := by
    simp only [Stage.behind, Stage.next, base, tokens, List.length_append, List.length_cons,
      List.length_nil, Stage.mk.injEq, and_true]
    omega
  have closed : (expect ')').runOn (machine.during base) = (.ok (), machine.during base.next) := by
    rw [expect, Attempt.runOn_bind_ok (runOn_token base),
      show (machine.cursorAt base.count).token = .symbol 41 from closing]
    exact runOn_advance base
  show Stage.Outcome _ _ _ _ _ _ ((expect ')').runOn (machine.during base))
  rw [closed, ← ended]
  exact .valued valued room

/-- The value of an operand behind a sign or `NOT`, turned into another one. -/
theorem outcome_numeric_bind {level : Level} {operand : Phrase level.tier}
    (evaluated : operand.IsEvaluated)
    (stands : operand.Stands machine stage.next budget level.tier next)
    (change : Single → Except Error Single) :
    Stage.Outcome machine stage (operand.tokens.length + 1)
      (operand.value machine.config.wholeNumbers >>= fun value => Attempt.lift (change value))
      (operand.nesting + 1) operand.pending
      ((nested ((evaluator budget).numeric level) >>= fun _ => pop >>= fun value =>
        Attempt.lift (change value) >>= push).runOn (machine.during stage.next)) := by
  refine outcome_bind (outcome_numeric evaluated stands) rfl
    (fun _ _ failed => Attempt.runOn_bind_error failed _) (Nat.le_refl _) (Nat.le_refl _)
    fun result recent valued room => ?_
  let base : Stage :=
    { stage with count := stage.count + (operand.tokens.length + 1), recent }
  have operand : stage.next.behind operand.tokens.length recent result = base.push result := by
    simp only [Stage.behind, Stage.next, Stage.push, base, Stage.mk.injEq, and_true]
    omega
  have both := Attempt.runOn_bind_ok valued fun value => Attempt.lift (change value)
  rw [operand, Attempt.runOn_bind_ok (runOn_pop base result)]
  cases changed : change result with
  | ok value =>
    rw [changed] at both
    rw [Attempt.runOn_bind_ok (Attempt.runOn_lift_ok _ _), runOn_push base room]
    exact .valued both room
  | error error =>
    rw [changed] at both
    rw [Attempt.runOn_bind_error (Attempt.runOn_lift_error _ _)]
    exact @Stage.Outcome.failed _ _ _ _ _ _ _ base both rfl

theorem isEvaluated_signed {sign : Sign} {operand : Phrase .power}
    (evaluated : operand.IsEvaluated) : (signed sign operand).IsEvaluated := by
  intro machine stage budget next stands
  have reads := stands.reads
  rw [tokens, List.cons_append, readsAt_cons] at reads
  obtain ⟨here, reads⟩ := reads
  have operandStands : operand.Stands machine stage.next budget .power next := by
    refine ⟨stands.settled, stands.enough, reads, fun operator same => ?_⟩
    have noPower := (stands.ends operator same).2 rfl
    have tight := operator.rank_le
    refine ⟨?_, fun _ => noPower⟩
    have : operator.rank ≠ 7 := fun same => noPower (Operator.rank_eq_seven.mp same)
    simp only [Tier.rank]
    omega
  rw [Evaluator.tier, Evaluator.factor, Attempt.runOn_bind_ok (runOn_token stage), here]
  cases sign with
  | plus =>
    show Stage.Outcome _ _ _ _ _ _
      ((advance >>= fun _ => nested ((evaluator budget).numeric .power)).runOn _)
    rw [Attempt.runOn_bind_ok (runOn_advance stage)]
    exact outcome_next (@outcome_numeric _ _ _ _ .power _ evaluated operandStands)
  | minus =>
    show Stage.Outcome _ _ _ _ _ _ ((advance >>= fun _ =>
      nested ((evaluator budget).numeric .power) >>= fun _ => pop >>= fun value =>
        push value.negate).runOn _)
    rw [Attempt.runOn_bind_ok (runOn_advance stage)]
    exact @outcome_numeric_bind _ _ _ _ .power _ evaluated operandStands
      fun value => .ok value.negate

theorem isEvaluated_negated {operand : Phrase .negation} (evaluated : operand.IsEvaluated) :
    (negated operand).IsEvaluated := by
  intro machine stage budget next stands
  have reads := stands.reads
  rw [tokens, List.cons_append, readsAt_cons] at reads
  obtain ⟨here, reads⟩ := reads
  have operandStands : operand.Stands machine stage.next budget .negation next :=
    ⟨stands.settled, stands.enough, reads, stands.ends⟩
  rw [Evaluator.tier, Evaluator.negation, Attempt.runOn_bind_ok (runOn_token stage), here]
  show Stage.Outcome _ _ _ _ _ _ ((advance >>= fun _ =>
    nested ((evaluator budget).numeric .negation) >>= fun _ => pop >>= fun value =>
      Attempt.lift (Arithmetic.not value) >>= push).runOn _)
  rw [Attempt.runOn_bind_ok (runOn_advance stage)]
  exact @outcome_numeric_bind _ _ _ _ .negation _ evaluated operandStands Arithmetic.not

/-- A negation without `NOT` is a comparison. -/
theorem isEvaluated_comparison {operand : Phrase .comparison} (evaluated : operand.IsEvaluated) :
    (only rfl operand : Phrase .negation).IsEvaluated := by
  intro machine stage budget next stands
  obtain ⟨rest, starts⟩ := operand.tokens_eq_first_cons
  have reads : machine.ReadsAt stage.count (operand.tokens ++ [next]) := stands.reads
  rw [starts, List.cons_append, readsAt_cons] at reads
  have other : operand.first.isOperator .not = false := by
    have differs := operand.first_ne_not (by decide)
    cases first : operand.first with
    | operator found => simpa [Token.isOperator, first] using differs
    | _ => rfl
  have operandStands : operand.Stands machine stage budget .comparison next :=
    ⟨stands.settled.1, stands.enough, stands.reads, fun operator same =>
      ⟨Nat.lt_succ_of_lt (stands.ends operator same).1, (stands.ends operator same).2⟩⟩
  rw [Evaluator.tier, Evaluator.negation, Attempt.runOn_bind_ok (runOn_token stage), reads.1,
    other]
  exact evaluated operandStands

end Factors

/-- **Every phrase is evaluated**, and in front of an operator of its tier the tier goes on. -/
theorem isEvaluated_and_isChained (phrase : Phrase tier) :
    phrase.IsEvaluated ∧ (tier.below? ≠ none → tier ≠ .negation → phrase.IsChained) := by
  induction phrase with
  | number value => exact ⟨isEvaluated_number value, fun some => absurd rfl some⟩
  | scalar name ordinary => exact ⟨isEvaluated_scalar ordinary, fun some => absurd rfl some⟩
  | bracketed content ih => exact ⟨isEvaluated_bracketed ih.1, fun some => absurd rfl some⟩
  | signed sign operand ih => exact ⟨isEvaluated_signed ih.1, fun some => absurd rfl some⟩
  | negated operand ih => exact ⟨isEvaluated_negated ih.1, fun _ chain => absurd rfl chain⟩
  | leading sign operand ih =>
    have chained := @isChained_leading sign operand ih.1
    exact ⟨chained.isEvaluated rfl (by decide), fun _ _ => chained⟩
  | @only tier below tighter operand ih =>
    have chained := isChained_only tighter ih.1
    refine ⟨?_, fun _ _ => chained⟩
    by_cases chain : tier = .negation
    · subst chain
      cases tighter
      exact isEvaluated_comparison ih.1
    · exact chained.isEvaluated tighter chain
  | @joined tier below tighter left operator joins right leftIh rightIh =>
    have chain : tier ≠ .negation := fun same => by subst same; cases joins
    have chained := isChained_joined tighter joins
      (leftIh.2 (by rw [tighter]; exact Option.some_ne_none _) chain) rightIh.1
    exact ⟨chained.isEvaluated tighter chain, fun _ _ => chained⟩

theorem isEvaluated (phrase : Phrase tier) : phrase.IsEvaluated :=
  phrase.isEvaluated_and_isChained.1

end Phrase

end PocketBasic
