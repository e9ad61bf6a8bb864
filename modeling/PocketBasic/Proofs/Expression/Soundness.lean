/-
**Only phrases are evaluated.** Where the machine reads tokens of the grammar and the evaluator
succeeds, what it used is a settled phrase, and the token behind it cannot go on with it.

* `Token.isGrammatical`, `Token.beginsOther`: the tokens of the grammar, and the tokens that begin
  an operand of another kind;
* `Tier.Wants`, `Tier.Finds`: an operand may come next, and a phrase comes first;
* `Evaluator.IsSound`: what is proved of the evaluator of a tier;
* **`Machine.expression_implements_grammar`**: the evaluator against the grammar, in both
  directions.
-/

import Mathlib.Data.List.Infix
import Mathlib.Tactic.Common
import PocketBasic.Proofs.Expression.Completeness

namespace PocketBasic

/-! ### Tokens of the grammar -/

/-- The words that begin a function. -/
def Keyword.isFunction : Keyword → Bool
  | .fn | .len | .val | .asc | .instr | .find | .error => true
  | word => word.isStringFunction || (Builtin.arity? word).isSome

namespace Token

/-- Whether phrases are made of such tokens. -/
def isGrammatical : Token → Bool
  | number _ | operator _ => true
  | scalar name => !name.isSpecial
  | symbol byte => byte = 40 || byte = 41
  | _ => false

/-- Whether the token begins an operand that is no phrase: a function, a string, an element of an
array, or a view of the machine. -/
def beginsOther : Token → Bool
  | array _ | literal _ | string _ => true
  | scalar name => name.isSpecial
  | word keyword => keyword.isFunction
  | _ => false

end Token

/-! ### Operands that may come next -/

namespace Tier

/-- Whether some phrase begins with these tokens and an operand behind them. -/
def Wants (tier : Tier) (tokens : List Token) : Prop :=
  ∃ phrase : Phrase tier, tokens ++ [.number Single.zero] <+: phrase.tokens

/-- Whether a settled phrase comes first, in front of a token that ends it. -/
def Finds (tier : Tier) (tokens : List Token) (next : Token) : Prop :=
  ∃ (phrase : Phrase tier) (rest : List Token), phrase.IsSettled ∧
    tokens = phrase.tokens ++ rest ∧ phrase.EndsBefore tier (rest.headD next)

variable {tier below : Tier} {tokens : List Token}

theorem wants_factor : factor.Wants [] := ⟨.number Single.zero, List.prefix_refl _⟩

theorem Wants.bracketed (wants : disjunction.Wants tokens) :
    factor.Wants (.symbol 40 :: tokens) := by
  obtain ⟨phrase, starts⟩ := wants
  exact ⟨.bracketed phrase,
    List.cons_prefix_cons.mpr ⟨rfl, starts.trans (List.prefix_append _ _)⟩⟩

theorem Wants.signed (wants : power.Wants tokens) (sign : Sign) :
    factor.Wants (.operator sign.operator :: tokens) := by
  obtain ⟨phrase, starts⟩ := wants
  exact ⟨.signed sign phrase, List.cons_prefix_cons.mpr ⟨rfl, starts⟩⟩

theorem Wants.negated (wants : negation.Wants tokens) :
    negation.Wants (.operator .not :: tokens) := by
  obtain ⟨phrase, starts⟩ := wants
  exact ⟨.negated phrase, List.cons_prefix_cons.mpr ⟨rfl, starts⟩⟩

theorem Wants.leading (wants : product.Wants tokens) (sign : Sign) :
    sum.Wants (.operator sign.operator :: tokens) := by
  obtain ⟨phrase, starts⟩ := wants
  exact ⟨.leading sign phrase, List.cons_prefix_cons.mpr ⟨rfl, starts⟩⟩

theorem Wants.only (tighter : tier.below? = some below) (wants : below.Wants tokens) :
    tier.Wants tokens := by
  obtain ⟨phrase, starts⟩ := wants
  exact ⟨.only tighter phrase, starts⟩

theorem Wants.joined (tighter : tier.below? = some below) (left : Phrase tier)
    {operator : Operator} (joins : operator ∈ tier.operators) (wants : below.Wants tokens) :
    tier.Wants (left.tokens ++ .operator operator :: tokens) := by
  obtain ⟨phrase, starts⟩ := wants
  refine ⟨.joined tighter left operator joins phrase, ?_⟩
  rw [Phrase.tokens, List.append_assoc, List.cons_append, List.prefix_append_right_inj]
  exact List.cons_prefix_cons.mpr ⟨rfl, starts⟩

end Tier

/-! ### What the machine reads -/

namespace Machine

/-- Whether the machine reads tokens of the grammar and then one that is none of them, nor the
operand that a phrase of the tier still wants. -/
structure ReadsGrammar (machine : Machine) (count : Nat) (tier : Tier) (tokens : List Token)
    (next : Token) : Prop where
  reads : machine.ReadsAt count (tokens ++ [next])
  inside : ∀ token ∈ tokens, token.isGrammatical = true
  outside : next.isGrammatical = false
  unused : next.beginsOther = true → ¬ tier.Wants tokens

variable {machine : Machine} {count : Nat} {tier other : Tier} {front tokens : List Token}
  {next : Token}

namespace ReadsGrammar

/-- What is read behind some of the tokens, where another tier begins. -/
theorem drop (ahead : machine.ReadsGrammar count tier (front ++ tokens) next)
    (wants : other.Wants tokens → tier.Wants (front ++ tokens)) :
    machine.ReadsGrammar (count + front.length) other tokens next where
  reads := by
    have reads := ahead.reads
    rw [List.append_assoc, readsAt_append] at reads
    exact reads.2
  inside := fun token member => ahead.inside token (List.mem_append_right _ member)
  outside := ahead.outside
  unused := fun begins wanted => ahead.unused begins (wants wanted)

/-- The token behind some of the tokens. -/
theorem token_eq (ahead : machine.ReadsGrammar count tier (front ++ tokens) next) :
    (machine.cursorAt (count + front.length)).token = tokens.headD next := by
  have reads := ahead.reads
  rw [List.append_assoc, readsAt_append] at reads
  cases tokens with
  | nil => exact (readsAt_cons.mp reads.2).1
  | cons token tokens => exact (readsAt_cons.mp reads.2).1

theorem readsAt_front (ahead : machine.ReadsGrammar count tier (front ++ tokens) next) :
    machine.ReadsAt count (front ++ [tokens.headD next]) := by
  have reads := ahead.reads
  rw [List.append_assoc, readsAt_append] at reads
  exact readsAt_append.mpr ⟨reads.1, readsAt_cons.mpr ⟨ahead.token_eq, trivial⟩⟩

/-- A token of the grammar is one of the tokens and not the one behind them. -/
theorem eq_cons (ahead : machine.ReadsGrammar count tier (front ++ tokens) next) {token : Token}
    (here : tokens.headD next = token) (inside : token.isGrammatical = true) :
    ∃ rest, tokens = token :: rest := by
  cases tokens with
  | nil =>
    rw [List.headD_nil] at here
    have outside := ahead.outside
    rw [here, inside] at outside
    cases outside
  | cons first rest => exact ⟨rest, by rw [← here]; rfl⟩

end ReadsGrammar

end Machine

/-! ### What is proved of the evaluator -/

namespace Evaluator

open Machine

/-- Whether the evaluator of a tier succeeds on phrases only. -/
def IsSound (budget : Nat) (tier : Tier) : Prop :=
  ∀ ⦃machine : Machine⦄ ⦃stage : Stage⦄ ⦃tokens : List Token⦄ ⦃next : Token⦄,
    machine.config.stackSize ≤ stage.depth + budget →
    machine.ReadsGrammar stage.count tier tokens next →
    (((evaluator budget).tier tier).runOn (machine.during stage)).1 = .ok () →
    tier.Finds tokens next

/-- The same one nesting deeper. -/
def IsSoundDeeper (budget : Nat) (level : Level) : Prop :=
  ∀ ⦃machine : Machine⦄ ⦃stage : Stage⦄ ⦃tokens : List Token⦄ ⦃next : Token⦄,
    machine.config.stackSize ≤ stage.depth + budget →
    machine.ReadsGrammar stage.count level.tier tokens next →
    ((nested ((evaluator budget).numeric level)).runOn (machine.during stage)).1 = .ok () →
    level.tier.Finds tokens next

variable {budget : Nat} {machine : Machine} {stage : Stage} {tokens : List Token} {next : Token}

theorem isSoundDeeper (smaller : ∀ less, budget = less + 1 → ∀ tier, IsSound less tier)
    (level : Level) : IsSoundDeeper budget level := by
  intro machine stage tokens next enough ahead succeeds
  by_cases room : stage.depth < machine.config.stackSize
  · obtain ⟨less, rfl⟩ : ∃ less, budget = less + 1 := ⟨budget - 1, by omega⟩
    rw [runOn_nested stage room, numeric_evaluator_succ] at succeeds
    exact @smaller less rfl level.tier machine stage.deeper tokens next
      (by simp only [Stage.deeper]; omega) ahead succeeds
  · rw [runOn_nested_full stage (Nat.not_lt.mp room)] at succeeds
    cases succeeds

/-! ### Factors -/

/-- A word that begins no function is no factor. -/
theorem function_fails (deeper : Evaluator) {word : Keyword} (other : word.isFunction = false)
    (machine : Machine) : ((deeper.function word).runOn machine).1 ≠ .ok () := by
  have numeric : deeper.function word = deeper.numericFunction word := by
    cases word <;> first | rfl | cases other
  have none : Builtin.arity? word = none := by
    cases word <;> first | rfl | cases other
  rw [numeric, numericFunction, none, Attempt.runOn_bind_error (Attempt.runOn_orFail_none _ _)]
  exact nofun

/-- A token that begins no operand is no factor. -/
theorem factor_fails (deeper : Evaluator)
    (outside : (machine.cursorAt stage.count).token.isGrammatical = false)
    (other : (machine.cursorAt stage.count).token.beginsOther = false) :
    (deeper.factor.runOn (machine.during stage)).1 ≠ .ok () := by
  rw [factor, Attempt.runOn_bind_ok (runOn_token stage)]
  generalize (machine.cursorAt stage.count).token = token at outside other ⊢
  cases token with
  | number | operator => cases outside
  | literal | string | array => cases other
  | scalar name =>
    rw [Token.isGrammatical, show name.isSpecial = false from other] at outside
    cases outside
  | word word =>
    have text : word.isStringFunction = false := by cases word <;> first | rfl | cases other
    simp only [text]
    exact deeper.function_fails other _
  | symbol byte =>
    split
    case h_9 same =>
      rw [same] at outside
      cases outside
    case h_10 => rintro ⟨⟩
    all_goals exact absurd ‹_› Token.noConfusion
  | endOfText | lineNumber => rintro ⟨⟩

/-- Any token ends a factor without sign. -/
theorem endsBefore_factor {phrase : Phrase .factor} (unsigned : phrase.endsSigned = false)
    (next : Token) : phrase.EndsBefore .factor next := fun operator _ =>
  ⟨Nat.lt_succ_of_le operator.rank_le, fun signed => by rw [unsigned] at signed; cases signed⟩

/-- A sign in a product, from the power behind it. -/
theorem finds_signed (deeper : IsSoundDeeper budget .power) (sign : Sign)
    (enough : machine.config.stackSize ≤ stage.depth + budget)
    (ahead : machine.ReadsGrammar stage.count .factor (.operator sign.operator :: tokens) next)
    (succeeds : ((nested ((evaluator budget).numeric .power)).runOn
      (machine.during stage.next)).1 = .ok ()) :
    Tier.factor.Finds (.operator sign.operator :: tokens) next := by
  have behind := @ReadsGrammar.drop machine stage.count .factor .power [_] tokens next ahead
    fun wants => wants.signed sign
  obtain ⟨operand, rest, settled, same, ends⟩ :=
    @deeper machine stage.next tokens next enough behind succeeds
  refine ⟨.signed sign operand, rest, settled, by rw [same]; rfl, fun operator found => ?_⟩
  have loose := (ends operator found).1
  refine ⟨Nat.lt_succ_of_le operator.rank_le, fun _ caret => ?_⟩
  rw [caret] at loose
  exact absurd loose (by decide)

theorem token_eq_of_expect {symbol : Char}
    (succeeds : ((expect symbol).runOn (machine.during stage)).1 = .ok ()) :
    (machine.cursorAt stage.count).token = .symbol symbol.toUInt8 := by
  rw [expect, Attempt.runOn_bind_ok (runOn_token stage)] at succeeds
  generalize (machine.cursorAt stage.count).token = token at succeeds ⊢
  by_cases same : token.isSymbol symbol = true
  · cases token with
    | symbol byte => rw [of_decide_eq_true same]
    | _ => cases same
  · rw [if_neg same] at succeeds
    cases succeeds

/-- An expression in brackets, from the phrase inside. -/
theorem finds_bracketed (deeper : IsSoundDeeper budget .disjunction)
    (enough : machine.config.stackSize ≤ stage.depth + budget)
    (ahead : machine.ReadsGrammar stage.count .factor (.symbol 40 :: tokens) next)
    (succeeds : (((evaluator budget).expression >>= fun _ => expect ')').runOn
      (machine.during stage.next)).1 = .ok ()) :
    Tier.factor.Finds (.symbol 40 :: tokens) next := by
  have behind := @ReadsGrammar.drop machine stage.count .factor .disjunction [_] tokens next ahead
    Tier.Wants.bracketed
  obtain ⟨_, after, opened, closes⟩ := Attempt.runOn_bind_succeeds succeeds
  obtain ⟨content, rest, settled, rfl, ends⟩ :=
    @deeper machine stage.next tokens next enough behind (by
      rw [expression] at opened
      exact congrArg Prod.fst opened)
  have outcome := @Phrase.outcome_numeric _ stage.next _ _ .disjunction _ content.isEvaluated
    ⟨settled, enough, behind.readsAt_front, ends⟩
  rw [expression] at opened
  rw [opened] at outcome
  cases outcome with
  | valued valued room =>
    have closing := behind.token_eq.symm.trans (token_eq_of_expect closes)
    obtain ⟨rest, rfl⟩ := behind.eq_cons closing rfl
    refine ⟨.bracketed content, rest, settled, ?_, endsBefore_factor rfl _⟩
    show _ = .symbol 40 :: content.tokens ++ [.symbol 41] ++ rest
    rw [List.cons_append, List.cons_append, List.append_assoc]
    rfl

/-- The soundness of factors, from the phrases inside them. -/
theorem isSound_factor (deeper : ∀ level, IsSoundDeeper budget level) :
    IsSound budget .factor := by
  intro machine stage tokens next enough ahead succeeds
  have here := (@ReadsGrammar.token_eq _ _ _ [] _ _ ahead)
  rw [List.length_nil, Nat.add_zero] at here
  cases tokens with
  | nil =>
    rw [List.headD_nil] at here
    refine absurd succeeds (factor_fails _ (here ▸ ahead.outside) ?_)
    rw [here]
    cases other : next.beginsOther with
    | false => rfl
    | true => exact absurd Tier.wants_factor (ahead.unused other)
  | cons token rest =>
    rw [List.headD_cons] at here
    have inside := ahead.inside token List.mem_cons_self
    rw [Evaluator.tier, factor, Attempt.runOn_bind_ok (runOn_token stage), here] at succeeds
    cases token with
    | endOfText | lineNumber | literal | string | array | word => cases inside
    | number value => exact ⟨.number value, rest, trivial, rfl, endsBefore_factor rfl _⟩
    | scalar name =>
      have ordinary : name.isSpecial = false := by simpa [Token.isGrammatical] using inside
      exact ⟨.scalar name ordinary, rest, trivial, rfl, endsBefore_factor rfl _⟩
    | operator operator =>
      cases operator with
      | plus =>
        exact finds_signed (deeper .power) .plus enough ahead
          ((congrArg Prod.fst (Attempt.runOn_bind_ok (runOn_advance stage) _)).symm.trans succeeds)
      | minus =>
        obtain ⟨_, _, ran, _⟩ := Attempt.runOn_bind_succeeds
          ((congrArg Prod.fst (Attempt.runOn_bind_ok (runOn_advance stage) _)).symm.trans succeeds)
        exact finds_signed (deeper .power) .minus enough ahead (congrArg Prod.fst ran)
      | _ => cases succeeds
    | symbol byte =>
      by_cases opens : byte = 40
      · subst opens
        exact finds_bracketed (deeper .disjunction) enough ahead
          ((congrArg Prod.fst (Attempt.runOn_bind_ok (runOn_advance stage) _)).symm.trans succeeds)
      · obtain rfl : byte = 41 := by simpa [Token.isGrammatical, opens] using inside
        cases succeeds

/-! ### Chains and negations -/

/-- The right operand of an operator that succeeds. -/
theorem operand_succeeds {operator : Operator} {operand : Action Unit}
    (succeeds : ((link operator operand).runOn (machine.during stage)).1 = .ok ()) :
    (operand.runOn (machine.during stage.next)).1 = .ok () := by
  rw [link, Attempt.runOn_bind_ok (runOn_advance stage)] at succeeds
  obtain ⟨_, _, ran, _⟩ := Attempt.runOn_bind_succeeds succeeds
  exact congrArg Prod.fst ran

variable {tier below : Tier}

/-- Behind a phrase at the front of a chain, the operators that follow succeed. -/
theorem operators_succeed (tighter : tier.below? = some below) (chain : tier ≠ .negation)
    {front : Phrase tier} (stands : front.Stands machine stage budget below next) {fuel : Nat}
    (left : fuel + front.links = machine.textLength + 1)
    (succeeds : (((evaluator budget).tier tier).runOn (machine.during stage)).1 = .ok ()) :
    ∃ recent result,
      ((operatorsWithin (oneOf tier.operators) ((evaluator budget).tier below) fuel).runOn
        (machine.during (stage.behind front.tokens.length recent result))).1 = .ok () := by
  obtain ⟨reached, yields, ran⟩ := front.isEvaluated_and_isChained.2
    (by rw [tighter]; exact Option.some_ne_none _) chain tighter chain stands left
  rw [ran] at succeeds
  cases yields with
  | valued => exact ⟨_, _, succeeds⟩
  | failed | overflowed => cases succeeds

/-- **The front of a chain grows** as long as operators of the tier follow, and there is fuel
enough for all that do. -/
theorem finds_of_front (tighter : tier.below? = some below) (chain : tier ≠ .negation)
    (operands : IsSound budget below)
    (enough : machine.config.stackSize ≤ stage.depth + budget)
    (ahead : machine.ReadsGrammar stage.count tier tokens next)
    (succeeds : (((evaluator budget).tier tier).runOn (machine.during stage)).1 = .ok ())
    {fuel : Nat} {front : Phrase tier} {rest : List Token} (settled : front.IsSettled)
    (same : tokens = front.tokens ++ rest) (ends : front.EndsBefore below (rest.headD next))
    (left : fuel + front.links = machine.textLength + 1) : tier.Finds tokens next := by
  induction fuel generalizing front rest with
  | zero =>
    subst same
    obtain ⟨_, _, stalls⟩ := operators_succeed tighter chain
      ⟨settled, enough, ahead.readsAt_front, ends⟩ left succeeds
    cases stalls
  | succ fuel ih =>
    subst same
    obtain ⟨recent, result, goesOn⟩ := operators_succeed tighter chain
      ⟨settled, enough, ahead.readsAt_front, ends⟩ left succeeds
    have here := ahead.token_eq
    by_cases more : ∃ operator ∈ tier.operators, rest.headD next = .operator operator
    · obtain ⟨operator, joins, found⟩ := more
      obtain ⟨rest, rfl⟩ := ahead.eq_cons found rfl
      rw [runOn_operatorsWithin_link _ _ (by
        rw [Stage.behind, here, found]
        exact oneOf_eq_some joins)] at goesOn
      obtain ⟨_, _, linked, _⟩ := Attempt.goOn_succeeds goesOn
      have behind := @ReadsGrammar.drop machine stage.count tier below
        (front.tokens ++ [.operator operator]) rest next (by simpa using ahead)
        fun wants => by simpa using wants.joined tighter front joins
      rw [List.length_append, ← Nat.add_assoc] at behind
      obtain ⟨right, after, rightSettled, rfl, rightEnds⟩ :=
        @operands machine (stage.behind front.tokens.length recent result).next rest next enough
          behind (operand_succeeds (congrArg Prod.fst linked))
      refine @ih (.joined tighter front operator joins right) after
        ⟨settled, rightSettled, fun power => ?_⟩ (by simp [Phrase.tokens])
        (fun operator found => ⟨(rightEnds operator found).1, (rightEnds operator found).2⟩)
        (by rw [Phrase.links]; omega)
      subst power
      have unsigned := (ends operator found).2
      obtain rfl := List.mem_singleton.mp joins
      cases signed : front.endsSigned with
      | false => rfl
      | true => exact absurd rfl (unsigned signed)
    · refine ⟨front, rest, settled, rfl, fun operator found => ?_⟩
      have loose := (ends operator found).1
      have other : operator.rank ≠ tier.rank := fun same =>
        more ⟨operator, Tier.mem_operators.mpr same, found⟩
      rw [Tier.rank_below tighter] at loose
      exact ⟨by omega, (ends operator found).2⟩

theorem exists_sign {token : Token} (signed : (sign? token).isSome = true) :
    ∃ sign : Sign, token = .operator sign.operator := by
  cases token with
  | operator operator =>
    cases operator with
    | plus => exact ⟨.plus, rfl⟩
    | minus => exact ⟨.minus, rfl⟩
    | _ => cases signed
  | _ => cases signed

theorem sign?_operator (sign : Sign) :
    sign? (.operator sign.operator) = some sign.operator := by cases sign <;> rfl

/-- A sum that begins with a sign, from the product behind it. -/
theorem finds_leading (operands : IsSound budget .product) {sign : Sign}
    (enough : machine.config.stackSize ≤ stage.depth + budget)
    (ahead : machine.ReadsGrammar stage.count .sum tokens next)
    (succeeds : (((evaluator budget).tier .sum).runOn (machine.during stage)).1 = .ok ())
    (here : tokens.headD next = .operator sign.operator) : Tier.sum.Finds tokens next := by
  obtain ⟨rest, rfl⟩ :=
    @ReadsGrammar.eq_cons machine stage.count .sum [] tokens next ahead _ here rfl
  have token := (@ReadsGrammar.token_eq machine stage.count .sum [] _ next ahead).trans here
  have signs : sign? (machine.cursorAt stage.count).token = some sign.operator := by
    rw [← sign?_operator, ← token]
    rfl
  have opens := succeeds
  rw [tier_eq_opening _ rfl (by decide)] at opens
  obtain ⟨_, after, opened, goesOn⟩ := Attempt.runOn_bind_succeeds opens
  rw [opening, Attempt.runOn_bind_ok (runOn_token stage), if_pos ⟨rfl, by rw [signs]; rfl⟩]
    at opened
  by_cases room : stage.values.length < machine.operands.capacity
  · rw [runOn_push stage room] at opened
    cases opened
    have behindZero : sign? (machine.cursorAt (stage.push Single.zero).count).token =
        some sign.operator := signs
    rw [runOn_operators, show oneOf Tier.sum.operators = sign? from rfl,
      runOn_operatorsWithin_link _ _ behindZero] at goesOn
    obtain ⟨_, _, linked, _⟩ := Attempt.goOn_succeeds goesOn
    have behind := @ReadsGrammar.drop machine stage.count .sum .product [_] rest next ahead
      fun wants => wants.leading sign
    obtain ⟨operand, after, settled, rfl, ends⟩ :=
      @operands machine (stage.push Single.zero).next rest next enough behind
        (operand_succeeds (congrArg Prod.fst linked))
    exact @finds_of_front _ _ _ _ _ _ _ rfl (by decide) operands enough ahead succeeds
      machine.textLength (.leading sign operand) after settled rfl ends rfl
  · rw [runOn_push_full stage (Nat.not_lt.mp room)] at opened
    cases opened

/-- The soundness of a tier of operators, from its operands. -/
theorem isSound_chain (tighter : tier.below? = some below) (chain : tier ≠ .negation)
    (operands : IsSound budget below) : IsSound budget tier := by
  intro machine stage tokens next enough ahead succeeds
  have opens := succeeds
  rw [tier_eq_opening _ tighter chain] at opens
  obtain ⟨_, after, opened, goesOn⟩ := Attempt.runOn_bind_succeeds opens
  rw [opening, Attempt.runOn_bind_ok (runOn_token stage)] at opened
  have here := (@ReadsGrammar.token_eq _ _ _ [] _ _ ahead)
  rw [List.length_nil, Nat.add_zero] at here
  by_cases signed : tier = .sum ∧ (sign? (machine.cursorAt stage.count).token).isSome
  · obtain ⟨rfl, signed⟩ := signed
    cases tighter
    obtain ⟨sign, found⟩ := exists_sign signed
    exact finds_leading operands enough ahead succeeds (here.symm.trans found)
  · rw [if_neg signed] at opened
    have behind := @ReadsGrammar.drop machine stage.count tier below [] tokens next ahead
      (Tier.Wants.only tighter)
    obtain ⟨operand, rest, settled, rfl, ends⟩ :=
      @operands machine stage tokens next enough behind (congrArg Prod.fst opened)
    refine @finds_of_front _ _ _ _ _ _ _ tighter chain operands enough ahead succeeds
      (machine.textLength + 1) (.only tighter operand) rest ⟨settled, ?_⟩ rfl ends rfl
    rintro rfl sign first
    obtain ⟨later, starts⟩ := operand.tokens_eq_first_cons
    rw [starts, first] at here
    rw [here] at signed
    exact signed ⟨rfl, by rw [List.cons_append, List.headD_cons, sign?_operator]; rfl⟩

/-- The soundness of negations, from comparisons and from negations one nesting deeper. -/
theorem isSound_negation (deeper : IsSoundDeeper budget .negation)
    (operands : IsSound budget .comparison) : IsSound budget .negation := by
  intro machine stage tokens next enough ahead succeeds
  have here := (@ReadsGrammar.token_eq _ _ _ [] _ _ ahead)
  rw [List.length_nil, Nat.add_zero] at here
  rw [Evaluator.tier, negation, Attempt.runOn_bind_ok (runOn_token stage), here] at succeeds
  by_cases negated : (tokens.headD next).isOperator .not = true
  · obtain found : tokens.headD next = .operator .not := by
      cases first : tokens.headD next with
      | operator operator => rw [first] at negated; rw [of_decide_eq_true negated]
      | _ => rw [first] at negated; cases negated
    obtain ⟨rest, rfl⟩ := @ReadsGrammar.eq_cons _ _ _ [] _ _ ahead _ found rfl
    rw [if_pos negated, Attempt.runOn_bind_ok (runOn_advance stage)] at succeeds
    obtain ⟨_, _, ran, _⟩ := Attempt.runOn_bind_succeeds succeeds
    have behind := @ReadsGrammar.drop machine stage.count .negation .negation [_] rest next ahead
      Tier.Wants.negated
    obtain ⟨operand, after, settled, rfl, ends⟩ :=
      @deeper machine stage.next rest next enough behind (congrArg Prod.fst ran)
    exact ⟨.negated operand, after, settled, rfl, ends⟩
  · rw [if_neg negated] at succeeds
    have behind := @ReadsGrammar.drop machine stage.count .negation .comparison [] tokens next
      ahead (Tier.Wants.only rfl)
    obtain ⟨operand, rest, settled, rfl, ends⟩ :=
      @operands machine stage tokens next enough behind succeeds
    refine ⟨.only rfl operand, rest, ⟨settled, by rintro ⟨⟩⟩, rfl, fun operator found => ?_⟩
    have loose := (ends operator found).1
    have other : operator.rank ≠ 3 := by cases operator <;> decide
    refine ⟨?_, (ends operator found).2⟩
    simp only [Tier.rank] at loose ⊢
    omega

/-! ### All tiers -/

/-- The soundness of every tier, from the one for a smaller budget. -/
theorem isSound_of_smaller (smaller : ∀ less, budget = less + 1 → ∀ tier, IsSound less tier)
    (tier : Tier) : IsSound budget tier := by
  have deeper := isSoundDeeper smaller
  have factor := isSound_factor deeper
  have power : IsSound budget .power := isSound_chain rfl (by decide) factor
  have product : IsSound budget .product := isSound_chain rfl (by decide) power
  have sum : IsSound budget .sum := isSound_chain rfl (by decide) product
  have comparison : IsSound budget .comparison := isSound_chain rfl (by decide) sum
  have negation : IsSound budget .negation := isSound_negation (deeper .negation) comparison
  have conjunction : IsSound budget .conjunction := isSound_chain rfl (by decide) negation
  have disjunction : IsSound budget .disjunction := isSound_chain rfl (by decide) conjunction
  cases tier <;> assumption

/-- **Every tier is sound.** -/
theorem isSound (budget : Nat) (tier : Tier) : IsSound budget tier := by
  induction budget generalizing tier with
  | zero => exact isSound_of_smaller (fun _ same => by cases same) tier
  | succ budget ih =>
    refine isSound_of_smaller (fun less same => ?_) tier
    cases same
    exact ih

end Evaluator

/-! ### The evaluator against the grammar -/

namespace Machine

variable (machine : Machine)

/-- The machine behind an expression: so many tokens further, with the value on top of the
operands. -/
def evaluated (count : Nat) (memory : Memory) (value : Single) : Machine :=
  { machine with
    cursor := (nextToken^[count] machine).cursor
    memory
    operands := { machine.operands with entries := value :: machine.operands.entries } }

theorem during_behind (count : Nat) (recent : Option (ObjectKind × Name × Extent))
    (value : Single) :
    machine.during (machine.firstStage.behind count recent value) =
      machine.evaluated count (machine.memory.recalling recent) value := by
  rw [evaluated, iterate_nextToken, during, Stage.behind, firstStage, Nat.zero_add]

/-- What an expression may come to where a phrase is read. -/
theorem outcome_expression {phrase : Phrase .disjunction} {next : Token}
    (settled : phrase.IsSettled) (reads : machine.Reads (phrase.tokens ++ [next]))
    (ends : ∀ operator, next = .operator operator → operator = .not) :
    Stage.Outcome machine machine.firstStage phrase.tokens.length
      (phrase.value machine.config.wholeNumbers) (phrase.nesting + 1) phrase.pending
      ((evaluate Evaluator.expression).runOn machine) := by
  refine @Phrase.outcome_numeric machine machine.firstStage _ next .disjunction phrase
    phrase.isEvaluated ⟨settled, Nat.le_add_left _ _, reads, fun operator found => ?_⟩
  rw [ends operator found]
  exact ⟨by decide, fun _ => by decide⟩

/-- **The evaluator implements the grammar.** Where the tokens of a settled phrase are followed by
one that is no operator between operands, an expression comes to the value of the phrase, or to the
first failure in it, or it overflows because evaluations nest too deeply or too many operands wait.
And where tokens of the grammar are read, up to one that is no operand either, an expression that
succeeds has used a settled phrase that nothing can go on with. -/
theorem expression_implements_grammar (tokens : List Token) (next : Token)
    (reads : machine.Reads (tokens ++ [next])) :
    let whole := machine.config.wholeNumbers
    let ran := (evaluate Evaluator.expression).runOn machine
    (∀ phrase : Phrase .disjunction, phrase.IsSettled → phrase.tokens = tokens →
      (∀ operator, next = .operator operator → operator = .not) →
      (∃ value memory, (phrase.value whole).runOn machine.memory = (.ok value, memory) ∧
        ran = (.ok (), machine.evaluated tokens.length memory value)) ∨
      (∃ failure stage, ((phrase.value whole).runOn machine.memory).1 = .error failure ∧
        stage.depth = machine.depth ∧ ran = (.error failure, machine.during stage)) ∨
      (∃ detail stage,
        (machine.config.stackSize < machine.depth + (phrase.nesting + 1) ∨
          machine.operands.capacity < machine.operands.size + phrase.pending) ∧
        stage.depth = machine.depth ∧
        ran = (.error (.reported { kind := .stackOverflow, detail }), machine.during stage))) ∧
    ((∀ token ∈ tokens, token.isGrammatical = true) → next.isGrammatical = false →
      (next.beginsOther = true → ¬ Tier.disjunction.Wants tokens) →
      ∀ after, ran = (.ok (), after) →
      ∃ (phrase : Phrase .disjunction) (rest : List Token) (value : Single) (memory : Memory),
        phrase.IsSettled ∧ tokens = phrase.tokens ++ rest ∧
        (∀ operator, rest.headD next = .operator operator → operator = .not) ∧
        (phrase.value whole).runOn machine.memory = (.ok value, memory) ∧
        after = machine.evaluated phrase.tokens.length memory value) := by
  intro whole ran
  constructor
  · rintro phrase settled rfl ends
    have outcome : Stage.Outcome _ _ _ _ _ _ ran := machine.outcome_expression settled reads ends
    generalize ran = reached at outcome ⊢
    cases outcome with
    | valued valued room => exact .inl ⟨_, _, valued, by rw [during_behind]⟩
    | failed failed level => exact .inr (.inl ⟨_, _, congrArg Prod.fst failed, level, rfl⟩)
    | overflowed tight level => exact .inr (.inr ⟨_, _, tight, level, rfl⟩)
  · intro inside outside unused after succeeds
    have enough : machine.config.stackSize ≤
        machine.firstStage.depth + machine.config.stackSize := Nat.le_add_left _ _
    have ahead : machine.ReadsGrammar machine.firstStage.count .disjunction tokens next :=
      ⟨reads, inside, outside, unused⟩
    obtain ⟨phrase, rest, settled, rfl, ends⟩ :=
      @Evaluator.isSoundDeeper machine.config.stackSize
        (fun less _ tier => Evaluator.isSound less tier) .disjunction machine machine.firstStage
        tokens next enough ahead (congrArg Prod.fst succeeds)
    have ends : ∀ operator, rest.headD next = .operator operator → operator = .not :=
      fun operator found => Operator.rank_eq_zero.mp (Nat.lt_one_iff.mp (ends operator found).1)
    have outcome := @outcome_expression machine phrase _ settled ahead.readsAt_front ends
    rw [show (evaluate Evaluator.expression).runOn machine = (.ok (), after) from succeeds]
      at outcome
    cases outcome with
    | valued valued room =>
      exact ⟨phrase, rest, _, _, settled, rfl, ends, valued, by rw [during_behind]⟩

/-- A machine without memory that has read the first token of a typed line. -/
def reading (text : Bytes) : Machine :=
  ({ start { memorySize := 0 } {} with cursor := { line := TypedLine.ofText text true } } :
    Machine).nextToken

/-- The phrase `-2*A<3`, whose sign is the sum's and not the factor's. -/
def negatedProduct : Phrase .disjunction :=
  let two : Phrase .power := .only rfl (.number (Single.ofNat 2))
  let a : Phrase .power := .only rfl (.scalar ⟨65, 0⟩ rfl)
  let three : Phrase .sum := .only rfl (.only rfl (.only rfl (.number (Single.ofNat 3))))
  let product : Phrase .product := .joined rfl (.only rfl two) .times (by decide) a
  let comparison : Phrase .comparison :=
    .joined rfl (.only rfl (.leading .minus product)) .less (by decide) three
  .only rfl (.only rfl (.only rfl comparison))

theorem expression_implements_grammar_negatedProduct :
    let machine := reading (ascii "-2*A<3")
    machine.Reads (negatedProduct.tokens ++ [.endOfText]) ∧
    (∃ value memory, (negatedProduct.value false).runOn machine.memory = (.ok value, memory) ∧
      (evaluate Evaluator.expression).runOn machine = (.ok (), machine.evaluated 6 memory value)) ∧
    ∃ (phrase : Phrase .disjunction) (rest : List Token),
      phrase.IsSettled ∧ negatedProduct.tokens = phrase.tokens ++ rest := by
  intro machine
  have reads : machine.Reads (negatedProduct.tokens ++ [.endOfText]) := by
    refine ⟨?_, ?_, ?_, ?_, ?_, ?_, ?_, trivial⟩ <;> decide +kernel
  have settled : negatedProduct.IsSettled := by
    simp [negatedProduct, Phrase.IsSettled, Phrase.first]
  have valued : ((negatedProduct.value false).runOn machine.memory).1 = .ok Single.minusOne := by
    decide +kernel
  have both := expression_implements_grammar machine _ _ reads
  have forward : ∃ value memory,
      (negatedProduct.value false).runOn machine.memory = (.ok value, memory) ∧
      (evaluate Evaluator.expression).runOn machine =
        (.ok (), machine.evaluated 6 memory value) := by
    rcases both.1 negatedProduct settled rfl (by rintro _ ⟨⟩) with
      done | ⟨failure, _, failed, _⟩ | ⟨_, _, tight, _⟩
    · exact done
    · rw [show machine.config.wholeNumbers = false from rfl, valued] at failed
      cases failed
    · exact absurd tight (by decide)
  refine ⟨reads, forward, ?_⟩
  obtain ⟨value, memory, _, ran⟩ := forward
  obtain ⟨phrase, rest, _, _, settled, same, _⟩ :=
    both.2 (by decide) rfl (by rintro ⟨⟩) _ ran
  exact ⟨phrase, rest, settled, same⟩

end Machine

end PocketBasic
