/-
**The grammar of numeric expressions**, apart from functions, arrays and strings. A phrase is a
derivation: it has tokens, and it has a value.

    disjunction  conjunction (OR conjunction)*
    conjunction  negation (AND negation)*
    negation     NOT negation, or a comparison
    comparison   sum (relation sum)*
    sum          [sign] product (sign product)*
    product      power ((* / %) power)*
    power        factor (^ factor)*
    factor       a number, a variable, a sign and a power, or a disjunction in brackets

* `Tier`, `Phrase`: the levels of the grammar, and the derivations of each;
* `Phrase.tokens`: what a phrase is read from;
* `Phrase.value`: what it comes to, from left to right, every level joined from the left;
* `Phrase.IsSettled`: a sign in front of a sum belongs to the sum, and the operand of a sign in a
  product reaches as far as it can;
* `Phrase.nesting`, `Phrase.pending`: the room that it takes.
-/

import Mathlib.Data.List.Basic
import Mathlib.Tactic.Common
import PocketBasic.Arithmetic
import PocketBasic.Memory.Heap

namespace PocketBasic

/-! ### Tiers -/

/-- The levels of the grammar, the loosest one first. -/
inductive Tier where
  | disjunction
  | conjunction
  | negation
  | comparison
  | sum
  | product
  | power
  | factor
  deriving DecidableEq, Inhabited

namespace Tier

/-- The tier of the operands that are joined. -/
def below? : Tier → Option Tier
  | disjunction => some conjunction
  | conjunction => some negation
  | negation => some comparison
  | comparison => some sum
  | sum => some product
  | product => some power
  | power => some factor
  | factor => none

/-- The operators that join the operands. -/
def operators : Tier → List Operator
  | disjunction => [.or]
  | conjunction => [.and]
  | comparison => [.equal, .notEqual, .less, .lessEqual, .greater, .greaterEqual]
  | sum => [.plus, .minus]
  | product => [.times, .over, .modulo]
  | power => [.caret]
  | negation | factor => []

/-- How tightly the operators of the tier bind. -/
def rank : Tier → Nat
  | disjunction => 1
  | conjunction => 2
  | negation => 3
  | comparison => 4
  | sum => 5
  | product => 6
  | power => 7
  | factor => 8

theorem rank_below {tier below : Tier} (tighter : tier.below? = some below) :
    below.rank = tier.rank + 1 := by
  cases tier <;> cases tighter <;> rfl

end Tier

/-- How tightly an operator binds its operands; `NOT` joins none. -/
def Operator.rank : Operator → Nat
  | .not => 0
  | .or => 1
  | .and => 2
  | .equal | .notEqual | .less | .lessEqual | .greater | .greaterEqual => 4
  | .plus | .minus => 5
  | .times | .over | .modulo => 6
  | .caret => 7

theorem Tier.mem_operators {tier : Tier} {operator : Operator} :
    operator ∈ tier.operators ↔ operator.rank = tier.rank := by
  cases tier <;> cases operator <;> decide

theorem Operator.rank_eq_zero {operator : Operator} : operator.rank = 0 ↔ operator = .not := by
  cases operator <;> decide

theorem Operator.rank_le (operator : Operator) : operator.rank ≤ 7 := by
  cases operator <;> decide

theorem Operator.rank_eq_seven {operator : Operator} :
    operator.rank = 7 ↔ operator = .caret := by
  cases operator <;> decide

/-! ### Phrases -/

inductive Sign where
  | plus
  | minus
  deriving DecidableEq, Inhabited

def Sign.operator : Sign → Operator
  | plus => .plus
  | minus => .minus

/-- The derivations of a tier. An operator joins a whole phrase of its tier with one operand. -/
inductive Phrase : Tier → Type where
  | number (value : Single) : Phrase .factor
  | scalar (name : Name) (ordinary : name.isSpecial = false) : Phrase .factor
  | bracketed (content : Phrase .disjunction) : Phrase .factor
  /-- A sign inside a product. -/
  | signed (sign : Sign) (operand : Phrase .power) : Phrase .factor
  | negated (operand : Phrase .negation) : Phrase .negation
  /-- A sign in front of a sum. -/
  | leading (sign : Sign) (operand : Phrase .product) : Phrase .sum
  | only {tier below : Tier} (tighter : tier.below? = some below) (operand : Phrase below) :
      Phrase tier
  | joined {tier below : Tier} (tighter : tier.below? = some below) (left : Phrase tier)
      (operator : Operator) (joins : operator ∈ tier.operators) (right : Phrase below) :
      Phrase tier

namespace Phrase

variable {tier : Tier}

/-- The tokens of a phrase in order. -/
def tokens : {tier : Tier} → Phrase tier → List Token
  | _, number value => [.number value]
  | _, scalar name _ => [.scalar name]
  | _, bracketed content => .symbol 40 :: content.tokens ++ [.symbol 41]
  | _, signed sign operand => .operator sign.operator :: operand.tokens
  | _, negated operand => .operator .not :: operand.tokens
  | _, leading sign operand => .operator sign.operator :: operand.tokens
  | _, only _ operand => operand.tokens
  | _, joined _ left operator _ right => left.tokens ++ .operator operator :: right.tokens

/-- The first token of a phrase. -/
def first : {tier : Tier} → Phrase tier → Token
  | _, number value => .number value
  | _, scalar name _ => .scalar name
  | _, bracketed _ => .symbol 40
  | _, signed sign _ => .operator sign.operator
  | _, negated _ => .operator .not
  | _, leading sign _ => .operator sign.operator
  | _, only _ operand => operand.first
  | _, joined _ left _ _ _ => left.first

/-- Whether the last factor of a phrase has a sign of its own. -/
def endsSigned : {tier : Tier} → Phrase tier → Bool
  | _, number _ | _, scalar _ _ | _, bracketed _ => false
  | _, signed _ _ => true
  | _, negated operand => operand.endsSigned
  | _, leading _ operand => operand.endsSigned
  | _, only _ operand => operand.endsSigned
  | _, joined _ _ _ _ right => right.endsSigned

/-- Whether every sign is read as the grammar settles it: one in front of a sum is the sum's own,
and one in front of a factor takes all powers that follow. -/
def IsSettled : {tier : Tier} → Phrase tier → Prop
  | _, number _ | _, scalar _ _ => True
  | _, bracketed content => content.IsSettled
  | _, signed _ operand => operand.IsSettled
  | _, negated operand => operand.IsSettled
  | _, leading _ operand => operand.IsSettled
  | tier, only _ operand =>
    operand.IsSettled ∧ (tier = .sum → ∀ sign : Sign, operand.first ≠ .operator sign.operator)
  | tier, joined _ left _ _ right =>
    left.IsSettled ∧ right.IsSettled ∧ (tier = .power → left.endsSigned = false)

/-- How many evaluations are open inside each other. -/
def nesting : {tier : Tier} → Phrase tier → Nat
  | _, number _ | _, scalar _ _ => 0
  | _, bracketed content => content.nesting + 1
  | _, signed _ operand => operand.nesting + 1
  | _, negated operand => operand.nesting + 1
  | _, leading _ operand => operand.nesting
  | _, only _ operand => operand.nesting
  | _, joined _ left _ _ right => max left.nesting right.nesting

/-- How many operands wait at once. -/
def pending : {tier : Tier} → Phrase tier → Nat
  | _, number _ | _, scalar _ _ => 1
  | _, bracketed content => content.pending
  | _, signed _ operand => operand.pending
  | _, negated operand => operand.pending
  | _, leading _ operand => operand.pending + 1
  | _, only _ operand => operand.pending
  | _, joined _ left _ _ right => max left.pending (right.pending + 1)

/-! ### Values -/

end Phrase

/-- The number that a variable holds, zero before it is assigned. -/
def Memory.scalar (name : Name) : Attempt Memory Single := do
  match ← lookup .scalar name with
  | some payload => Attempt.orFault ((← get).numberAt? payload.start)
  | none => return Single.zero

namespace Phrase

/-- The value of a phrase on a machine that may know whole numbers only. The first operation that
fails ends it. -/
def value (whole : Bool) : {tier : Tier} → Phrase tier → Attempt Memory Single
  | _, number value => return value
  | _, scalar name _ => Memory.scalar name
  | _, bracketed content => content.value whole
  | _, signed .plus operand => operand.value whole
  | _, signed .minus operand => do return (← operand.value whole).negate
  | _, negated operand => do Attempt.lift (Arithmetic.not (← operand.value whole))
  | _, leading sign operand => do
    let right ← operand.value whole
    Attempt.lift (Arithmetic.apply sign.operator whole Single.zero right)
  | _, only _ operand => operand.value whole
  | _, joined _ left operator _ right => do
    let left ← left.value whole
    let right ← right.value whole
    Attempt.lift (Arithmetic.apply operator whole left right)

/-! ### Tokens of phrases -/

theorem tokens_eq_first_cons (phrase : Phrase tier) :
    ∃ rest, phrase.tokens = phrase.first :: rest := by
  induction phrase with
  | number | scalar | bracketed | signed | negated | leading => exact ⟨_, rfl⟩
  | only _ _ ih => exact ih
  | joined _ left operator _ right ih =>
    obtain ⟨rest, starts⟩ := ih
    exact ⟨rest ++ .operator operator :: right.tokens, by rw [tokens, starts]; rfl⟩

theorem tokens_ne_nil (phrase : Phrase tier) : phrase.tokens ≠ [] := by
  obtain ⟨rest, starts⟩ := phrase.tokens_eq_first_cons
  simp [starts]

theorem endOfText_not_mem_tokens (phrase : Phrase tier) : .endOfText ∉ phrase.tokens := by
  induction phrase <;> simp_all [tokens]

/-- Only negations begin with `NOT`. -/
theorem first_ne_not (phrase : Phrase tier) (tight : Tier.negation.rank < tier.rank) :
    phrase.first ≠ .operator .not := by
  induction phrase with
  | number | scalar | bracketed => exact Token.noConfusion
  | signed sign | leading sign => cases sign <;> simp [first, Sign.operator]
  | negated => exact absurd tight (Nat.lt_irrefl _)
  | only tighter _ ih => exact ih (by rw [Tier.rank_below tighter]; omega)
  | joined _ _ _ _ _ ih => exact ih tight

/-- The operators of a phrase on its own tier. -/
def links : {tier : Tier} → Phrase tier → Nat
  | _, joined _ left _ _ _ => left.links + 1
  | _, leading _ _ => 1
  | _, _ => 0

/-- Every operator stands behind or before an operand. -/
theorem links_lt (phrase : Phrase tier) : phrase.links < phrase.tokens.length := by
  induction phrase with
  | number | scalar | bracketed | signed | negated | only =>
    exact List.length_pos_iff.mpr (tokens_ne_nil _)
  | leading _ operand =>
    have := List.length_pos_iff.mpr operand.tokens_ne_nil
    simp only [links, tokens, List.length_cons]
    omega
  | joined _ left _ _ right leftIh =>
    simp only [links, tokens, List.length_append, List.length_cons]
    omega

end Phrase

end PocketBasic
