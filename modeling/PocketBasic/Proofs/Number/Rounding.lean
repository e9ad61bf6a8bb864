/-
**What rounding does.** Every number that is computed or read is a quotient of units that is rounded
once.

* `unitsOf_parts`: the units of a magnitude put together from a significand and a shift;
* `nearestMagnitude_eq`: a quotient in the interval of a magnitude rounds to it;
* `nearestMagnitude_near`, `nearestMagnitude_quarter`: what rounds to a magnitude is near it.
-/

import Mathlib.Tactic.Common
import Mathlib.Tactic.Linarith
import Mathlib.Tactic.Ring
import PocketBasic.Number.Single

namespace PocketBasic.Single

/-! ### Parts of a magnitude -/

theorem shiftOf_significandOf (magnitude : Nat) :
    shiftOf magnitude * exponentUnit + significandOf magnitude = magnitude := by
  unfold significandOf shiftOf exponentUnit
  omega

theorem significandOf_lt (magnitude : Nat) : significandOf magnitude < 2 * exponentUnit := by
  unfold significandOf shiftOf exponentUnit
  omega

theorem le_significandOf {magnitude : Nat} (shifted : 0 < shiftOf magnitude) :
    exponentUnit ≤ significandOf magnitude := by
  unfold significandOf shiftOf exponentUnit at *
  omega

/-- The units of a magnitude that is put together from its parts; a significand that is one too
large carries. -/
theorem unitsOf_parts {shift significand : Nat} (atMost : significand ≤ 2 * exponentUnit)
    (full : shift = 0 ∨ exponentUnit ≤ significand) :
    unitsOf (shift * exponentUnit + significand) = significand * 2 ^ shift := by
  unfold unitsOf
  rw [Nat.pow_eq]
  by_cases carries : significand = 2 * exponentUnit
  · have moved : shiftOf (shift * exponentUnit + significand) = shift + 1 := by
      unfold shiftOf exponentUnit at *
      omega
    have half : significandOf (shift * exponentUnit + significand) = exponentUnit := by
      rw [significandOf, moved, carries]
      unfold exponentUnit
      omega
    rw [moved, half, carries, Nat.pow_succ]
    ring
  · have same : shiftOf (shift * exponentUnit + significand) = shift := by
      unfold shiftOf exponentUnit at *
      omega
    have kept : significandOf (shift * exponentUnit + significand) = significand := by
      rw [significandOf, same, Nat.add_sub_cancel_left]
    rw [same, kept]

/-! ### The nearest whole number -/

/-- A quotient within half of a whole number rounds to it, if it is even also at the very ends. -/
theorem nearestEven_eq {numerator denominator whole : Nat} (positive : 0 < denominator)
    (above : 2 * whole * denominator ≤ 2 * numerator + denominator)
    (below : 2 * numerator ≤ 2 * whole * denominator + denominator)
    (strict : whole % 2 = 1 → 2 * whole * denominator ≠ 2 * numerator + denominator ∧
      2 * numerator ≠ 2 * whole * denominator + denominator) :
    nearestEven numerator denominator = whole := by
  have split := Nat.div_add_mod numerator denominator
  have short := Nat.mod_lt numerator positive
  unfold nearestEven
  simp only
  generalize numerator / denominator = floor at *
  generalize numerator % denominator = rest at *
  have near : whole = floor ∨ whole = floor + 1 := by
    have low : whole < floor + 2 := by
      by_contra! far
      nlinarith
    have high : floor < whole + 1 := by
      by_contra! far
      nlinarith
    omega
  subst split
  rcases near with rfl | rfl
  · rw [if_neg]
    intro up
    simp only [Bool.or_eq_true, Bool.and_eq_true, decide_eq_true_eq] at up
    have middle : 2 * rest ≤ denominator := by nlinarith
    rcases up with up | ⟨tie, odd⟩
    · omega
    · exact (strict odd).2 (by nlinarith)
  · rw [if_pos]
    simp only [Bool.or_eq_true, Bool.and_eq_true, decide_eq_true_eq]
    have middle : denominator ≤ 2 * rest := by nlinarith
    rcases Nat.lt_or_eq_of_le middle with more | tie
    · exact .inl more
    · refine .inr ⟨tie, ?_⟩
      by_contra even
      exact (strict (by omega)).1 (by nlinarith)

/-- The nearest whole number is not further than half. -/
theorem nearestEven_near {numerator denominator : Nat} (positive : 0 < denominator) :
    2 * nearestEven numerator denominator * denominator ≤ 2 * numerator + denominator ∧
      2 * numerator ≤ 2 * nearestEven numerator denominator * denominator + denominator := by
  have split := Nat.div_add_mod numerator denominator
  have short := Nat.mod_lt numerator positive
  unfold nearestEven
  simp only
  generalize numerator / denominator = floor at *
  generalize numerator % denominator = rest at *
  subst split
  split
  · rename_i up
    simp only [Bool.or_eq_true, Bool.and_eq_true, decide_eq_true_eq] at up
    have middle : denominator ≤ 2 * rest := by omega
    constructor <;> nlinarith
  · rename_i down
    simp only [Bool.or_eq_true, Bool.and_eq_true, decide_eq_true_eq, not_or, not_and] at down
    constructor <;> nlinarith

/-! ### The nearest magnitude -/

/-- How many binary digits the whole part of a quotient has. -/
theorem le_log2_div {numerator denominator places : Nat} (positive : 0 < denominator)
    (some : 0 < places) :
    places ≤ (numerator / denominator).log2 ↔ 2 ^ places * denominator ≤ numerator := by
  rw [← Nat.le_div_iff_mul_le positive]
  by_cases none : numerator / denominator = 0
  · rw [none, Nat.log2_zero]
    have := Nat.two_pow_pos places
    omega
  · exact Nat.le_log2 none

/-- A quotient a little below a power of two rounds up to it. -/
theorem nearestMagnitude_eq_power {shift numerator denominator : Nat} (positive : 0 < denominator)
    (above : (4 * exponentUnit - 1) * (2 * (denominator * 2 ^ shift)) ≤ 4 * numerator)
    (below : numerator < 2 * exponentUnit * (denominator * 2 ^ shift)) :
    nearestMagnitude numerator denominator =
      min ((shift + 1) * exponentUnit + exponentUnit) infinityMagnitude := by
  have places (count : Nat) : 2 ^ (count + shift) * denominator =
      2 ^ count * (denominator * 2 ^ shift) := by ring
  have halfPositive : 0 < denominator * 2 ^ shift := by positivity
  have atLeast := (@le_log2_div numerator _ (23 + shift) positive (by omega)).mpr
    (by rw [places]; unfold exponentUnit at above; omega)
  have atMost := mt (@le_log2_div numerator _ (24 + shift) positive (by omega)).mp
    (by rw [places]; unfold exponentUnit at below; omega)
  have rounded : nearestEven numerator (denominator * 2 ^ shift) = 2 * exponentUnit := by
    apply nearestEven_eq halfPositive
    all_goals
      unfold exponentUnit at *
      omega
  unfold nearestMagnitude
  simp only [Nat.pow_eq]
  rw [show (numerator / denominator).log2 - 23 = shift by omega, rounded,
    show shift * exponentUnit + 2 * exponentUnit =
      (shift + 1) * exponentUnit + exponentUnit by ring]

/-- **A quotient in the interval of a magnitude rounds to it.** The interval ends at half the gap to
each neighbour, of which the lower gap is half as wide when the significand is the least one, and
it has its ends when the significand is even. -/
theorem nearestMagnitude_eq {magnitude numerator denominator : Nat} (positive : 0 < denominator)
    (finite : magnitude < infinityMagnitude)
    (above : 4 * significandOf magnitude * (denominator * 2 ^ shiftOf magnitude) ≤ 4 * numerator +
      (if significandOf magnitude = exponentUnit then 1 else 2) *
        (denominator * 2 ^ shiftOf magnitude))
    (below : 4 * numerator ≤ (4 * significandOf magnitude + 2) *
      (denominator * 2 ^ shiftOf magnitude))
    (strict : significandOf magnitude % 2 = 1 →
      4 * significandOf magnitude * (denominator * 2 ^ shiftOf magnitude) ≠
        4 * numerator + 2 * (denominator * 2 ^ shiftOf magnitude) ∧
      4 * numerator ≠ (4 * significandOf magnitude + 2) *
        (denominator * 2 ^ shiftOf magnitude)) :
    nearestMagnitude numerator denominator = magnitude := by
  have parts := shiftOf_significandOf magnitude
  have small := significandOf_lt magnitude
  have full := @le_significandOf magnitude
  generalize shiftOf magnitude = shift at *
  generalize significandOf magnitude = significand at *
  have unit : exponentUnit = 2 ^ 23 := rfl
  have widePositive : 0 < denominator * 2 ^ shift := by positivity
  have places (count : Nat) : 2 ^ (count + shift) * denominator =
      2 ^ count * (denominator * 2 ^ shift) := by ring
  -- the quotient has no more digits than the magnitude
  have atMost := mt (@le_log2_div numerator _ (24 + shift) positive (by omega)).mp
    (by rw [places]; nlinarith)
  by_cases less : (numerator / denominator).log2 - 23 < shift
  · -- it has fewer only if the magnitude is a power of two
    obtain ⟨previous, rfl⟩ := Nat.exists_eq_add_one_of_ne_zero (show shift ≠ 0 by omega)
    have fewer := mt (@le_log2_div numerator _ (23 + (previous + 1)) positive (by omega)).mpr
      (by omega)
    rw [places] at fewer
    have least : significand = exponentUnit := by
      refine Nat.le_antisymm ?_ (full (by omega))
      by_contra! larger
      rw [if_neg (Nat.ne_of_gt larger)] at above
      nlinarith
    subst least
    rw [if_pos rfl] at above
    have halved : denominator * 2 ^ (previous + 1) = 2 * (denominator * 2 ^ previous) := by ring
    rw [halved] at above fewer
    rw [@nearestMagnitude_eq_power previous _ _ positive, parts]
    · exact Nat.min_eq_left (Nat.le_of_lt finite)
    · unfold exponentUnit at *
      omega
    · unfold exponentUnit at *
      omega
  · have same : (numerator / denominator).log2 - 23 = shift := by omega
    unfold nearestMagnitude
    simp only [Nat.pow_eq]
    rw [same, @nearestEven_eq _ _ significand widePositive, parts]
    · exact Nat.min_eq_left (Nat.le_of_lt finite)
    · split at above <;> nlinarith
    · nlinarith
    · intro odd
      refine ⟨fun equal => (strict odd).1 (by nlinarith), fun equal =>
        (strict odd).2 (by nlinarith)⟩

/-- A number of units rounds to itself. -/
theorem nearestMagnitude_unitsOf {magnitude factor : Nat} (finite : magnitude < infinityMagnitude)
    (positive : 0 < factor) :
    nearestMagnitude (unitsOf magnitude * factor) factor = magnitude := by
  have widePositive : 0 < factor * 2 ^ shiftOf magnitude := by positivity
  have units : unitsOf magnitude * factor =
      significandOf magnitude * (factor * 2 ^ shiftOf magnitude) := by
    rw [unitsOf, Nat.pow_eq]
    ring
  apply nearestMagnitude_eq positive finite
  · rw [units]
    split <;> nlinarith
  · rw [units]
    nlinarith
  · rw [units]
    exact fun _ => ⟨by nlinarith, by nlinarith⟩

/-- **A quotient that rounds to a magnitude is near it**: no further than half of the last place of
the significand. -/
theorem nearestMagnitude_near {numerator denominator : Nat} (positive : 0 < denominator)
    (finite : nearestMagnitude numerator denominator < infinityMagnitude) :
    ∃ significand shift, (shift = 0 ∨ exponentUnit ≤ significand) ∧
      shift = (numerator / denominator).log2 - 23 ∧
      unitsOf (nearestMagnitude numerator denominator) = significand * 2 ^ shift ∧
      2 * significand * (denominator * 2 ^ shift) ≤ 2 * numerator + denominator * 2 ^ shift ∧
      2 * numerator ≤ 2 * significand * (denominator * 2 ^ shift) + denominator * 2 ^ shift := by
  unfold nearestMagnitude at *
  simp only [Nat.pow_eq] at *
  rw [min_lt_iff, or_iff_left (Nat.lt_irrefl _)] at finite
  rw [Nat.min_eq_left (Nat.le_of_lt finite)]
  generalize known : (numerator / denominator).log2 - 23 = shift at *
  have widePositive : 0 < denominator * 2 ^ shift := by positivity
  obtain ⟨low, high⟩ := @nearestEven_near numerator _ widePositive
  generalize nearestEven numerator (denominator * 2 ^ shift) = significand at *
  have places (count : Nat) : 2 ^ (count + shift) * denominator =
      2 ^ count * (denominator * 2 ^ shift) := by ring
  have full : shift = 0 ∨ exponentUnit ≤ significand := by
    by_contra! neither
    have reached := (@le_log2_div numerator _ (23 + shift) positive (by omega)).mp (by omega)
    rw [places] at reached
    unfold exponentUnit at neither
    nlinarith
  refine ⟨significand, shift, full, rfl, unitsOf_parts ?_ full, low, high⟩
  have atMost := mt (@le_log2_div numerator _ (24 + shift) positive (by omega)).mpr (by omega)
  rw [places] at atMost
  unfold exponentUnit
  nlinarith

/-- **What rounds to two units or more is within a quarter of it.** -/
theorem nearestMagnitude_quarter {numerator denominator : Nat} (positive : 0 < denominator)
    (finite : nearestMagnitude numerator denominator < infinityMagnitude)
    (two : 2 ≤ unitsOf (nearestMagnitude numerator denominator)) :
    3 * unitsOf (nearestMagnitude numerator denominator) * denominator ≤ 4 * numerator ∧
      4 * numerator ≤ 5 * unitsOf (nearestMagnitude numerator denominator) * denominator := by
  obtain ⟨significand, shift, full, -, units, low, high⟩ := nearestMagnitude_near positive finite
  rw [units] at two ⊢
  have atLeast : 2 ≤ significand := by
    rcases full with rfl | full
    · simpa using two
    · unfold exponentUnit at full
      omega
  have widePositive : 0 < denominator * 2 ^ shift := by positivity
  have regroup (factor : Nat) : factor * (significand * 2 ^ shift) * denominator =
      factor * significand * (denominator * 2 ^ shift) := by ring
  rw [regroup, regroup]
  constructor <;> nlinarith

end PocketBasic.Single
