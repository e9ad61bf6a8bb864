/-
**The order of numbers and their whole parts.** A larger magnitude has more units, and the whole
numbers up to `2 ^ 24` are numbers themselves, so a comparison with one of these bounds the whole
part. A NaN is neither below nor above anything, and its whole part counts as zero.

* `unitsOf_strictMono`: the order of magnitudes is the order of their units;
* `nearestMagnitude_mono`: rounding keeps the order;
* `ofNat_exact`: small whole numbers are exact;
* `one_le_toSize`, `toSize_lt`, `toSize_le_double`: what comparisons say of whole parts.
-/

import Mathlib.Order.Monotone.Basic
import PocketBasic.Proofs.Number.Decimal
import PocketBasic.Proofs.Number.Rounding

namespace PocketBasic.Single

/-! ### Units in order -/

theorem unitsOf_lt_succ (magnitude : Nat) : unitsOf magnitude < unitsOf (magnitude + 1) := by
  have parts := shiftOf_significandOf magnitude
  have below := significandOf_lt magnitude
  have next : unitsOf (magnitude + 1) =
      (significandOf magnitude + 1) * 2 ^ shiftOf magnitude := by
    rw [← parts, Nat.add_assoc, unitsOf_parts (by omega), parts]
    rcases Nat.eq_zero_or_pos (shiftOf magnitude) with none | shifted
    · exact .inl none
    · exact .inr (Nat.le_succ_of_le (le_significandOf shifted))
  rw [next, unitsOf, Nat.pow_eq]
  exact Nat.mul_lt_mul_of_pos_right (Nat.lt_succ_self _) (by positivity)

theorem unitsOf_strictMono : StrictMono unitsOf := strictMono_nat_of_lt_succ unitsOf_lt_succ

/-! ### Rounding in order -/

theorem nearestEven_mono {lower upper : Nat} (ordered : lower ≤ upper) (denominator : Nat) :
    nearestEven lower denominator ≤ nearestEven upper denominator := by
  have wholes : lower / denominator ≤ upper / denominator := Nat.div_le_div_right ordered
  have lowerSplit := Nat.div_add_mod lower denominator
  have upperSplit := Nat.div_add_mod upper denominator
  unfold nearestEven
  simp only [Bool.or_eq_true, Bool.and_eq_true, decide_eq_true_eq]
  rcases Nat.lt_or_eq_of_le wholes with less | same
  · split_ifs <;> omega
  · rw [same] at lowerSplit ⊢
    split_ifs <;> omega

/-- **Rounding keeps the order of quotients.** -/
theorem nearestMagnitude_mono {lower upper : Nat} (ordered : lower ≤ upper) (denominator : Nat) :
    nearestMagnitude lower denominator ≤ nearestMagnitude upper denominator := by
  have quotients : lower / denominator ≤ upper / denominator := Nat.div_le_div_right ordered
  unfold nearestMagnitude
  simp only [Nat.pow_eq]
  refine min_le_min_right _ ?_
  have shifts : (lower / denominator).log2 - 23 ≤ (upper / denominator).log2 - 23 := by
    by_cases none : lower / denominator = 0
    · simp [none]
    · have some : upper / denominator ≠ 0 := fun zero =>
        none (Nat.eq_zero_of_le_zero (zero ▸ quotients))
      have reached := Nat.le_trans (Nat.log2_self_le none) quotients
      exact Nat.sub_le_sub_right ((Nat.le_log2 some).mpr reached) 23
  rcases Nat.lt_or_eq_of_le shifts with less | same
  · -- The lower one has a full significand at most, and the upper one that of the next exponent.
    have lowerFull : nearestEven lower (denominator * 2 ^ ((lower / denominator).log2 - 23)) ≤
        2 * exponentUnit := by
      have below := @Nat.lt_log2_self (lower / denominator)
      have short : lower / (denominator * 2 ^ ((lower / denominator).log2 - 23)) <
          2 * exponentUnit := by
        rw [← Nat.div_div_eq_div_mul]
        refine Nat.div_lt_of_lt_mul (Nat.lt_of_lt_of_le below ?_)
        rw [show 2 * exponentUnit = 2 ^ 24 from rfl, ← Nat.pow_add]
        exact Nat.pow_le_pow_right (by decide) (by omega)
      unfold nearestEven
      dsimp only
      split <;> omega
    have upperFull : exponentUnit ≤
        nearestEven upper (denominator * 2 ^ ((upper / denominator).log2 - 23)) := by
      have some : upper / denominator ≠ 0 := by
        intro none
        simp [none] at less
      have reached := Nat.log2_self_le some
      have long : exponentUnit ≤
          upper / (denominator * 2 ^ ((upper / denominator).log2 - 23)) := by
        rw [← Nat.div_div_eq_div_mul, Nat.le_div_iff_mul_le (Nat.two_pow_pos _),
          show exponentUnit = 2 ^ 23 from rfl, ← Nat.pow_add]
        exact Nat.le_trans (Nat.pow_le_pow_right (by decide) (by omega)) reached
      unfold nearestEven
      dsimp only
      split <;> omega
    have steps := Nat.mul_le_mul_right exponentUnit (Nat.succ_le_of_lt less)
    rw [Nat.succ_mul] at steps
    omega
  · rw [same]
    exact Nat.add_le_add_left (nearestEven_mono ordered _) _

/-- What has at most the units of a magnitude rounds to it or to a smaller one. -/
theorem nearestMagnitude_le_of_units {numerator magnitude : Nat}
    (finite : magnitude < infinityMagnitude) (atMost : numerator ≤ unitsOf magnitude) :
    nearestMagnitude numerator 1 ≤ magnitude := by
  have nearest := nearestMagnitude_unitsOf finite Nat.one_pos
  rw [Nat.mul_one] at nearest
  exact Nat.le_trans (nearestMagnitude_mono atMost 1) (Nat.le_of_eq nearest)

/-! ### Small whole numbers -/

/-- **A significand of at most 24 places is exact, however it is shifted**: with few places it is
moved up until it is full or the shift is used up. -/
theorem exists_unitsOf_shift {shift significand : Nat} (small : significand ≤ 2 * exponentUnit)
    (finite : shift * exponentUnit + significand < infinityMagnitude) :
    ∃ magnitude < infinityMagnitude, unitsOf magnitude = significand * 2 ^ shift := by
  induction shift generalizing significand with
  | zero => exact ⟨_, finite, unitsOf_parts small (.inl rfl)⟩
  | succ shift ih =>
    rw [Nat.succ_mul] at finite
    rcases Nat.lt_or_ge significand exponentUnit with less | full
    · obtain ⟨magnitude, finite', units⟩ := @ih (2 * significand) (by omega) (by omega)
      exact ⟨magnitude, finite', by rw [units, Nat.pow_succ]; ring⟩
    · exact ⟨_, by rw [Nat.succ_mul]; exact finite, unitsOf_parts small (.inr full)⟩

/-- How far whole numbers are exact: `2 ^ 24`. -/
def exactLimit : Nat := 2 * exponentUnit

/-- A small whole number is the value of a magnitude. -/
theorem exists_unitsOf {value : Nat} (small : value ≤ exactLimit) :
    ∃ magnitude < infinityMagnitude, unitsOf magnitude = value * unitsPerOne := by
  have fits : 149 * exponentUnit + value < infinityMagnitude := by
    unfold exactLimit infinityMagnitude exponentUnit at *
    omega
  exact exists_unitsOf_shift small fits

/-- **A small whole number is exact.** -/
theorem ofNat_exact {value : Nat} (small : value ≤ exactLimit) :
    (ofNat value).magnitude < infinityMagnitude ∧
      (ofNat value).absoluteUnits = value * unitsPerOne := by
  obtain ⟨magnitude, finite, units⟩ := exists_unitsOf small
  have nearest := nearestMagnitude_unitsOf finite Nat.one_pos
  rw [Nat.mul_one, units] at nearest
  have same : (ofNat value).magnitude = magnitude := by
    rw [ofNat, magnitude_ofQuotient, nearest]
  rw [absoluteUnits, same]
  exact ⟨finite, units⟩

theorem isNegative_ofMagnitude (magnitude : Nat) :
    (ofMagnitude false magnitude).isNegative = false := by
  have below : magnitude % signUnit < signUnit := Nat.mod_lt _ (by decide)
  simp only [ofMagnitude, isNegative, Bool.false_eq_true, if_false, Nat.add_zero,
    decide_eq_false_iff_not, UInt32.toNat_ofNat']
  unfold signUnit at *
  omega

theorem isNegative_ofNat (value : Nat) : (ofNat value).isNegative = false :=
  isNegative_ofMagnitude _

theorem rank_ofNat (value : Nat) : (ofNat value).rank = (ofNat value).magnitude := by
  rw [rank, isNegative_ofNat, if_neg Bool.false_ne_true]

theorem isNaN_ofNat (value : Nat) : (ofNat value).isNaN = false := by
  have atMost := nearestMagnitude_le (value * unitsPerOne) 1
  rw [isNaN, ofNat, magnitude_ofQuotient]
  exact decide_eq_false (Nat.not_lt.mpr atMost)

/-! ### Whole parts -/

/-- What a whole number is not below has at most its magnitude, or counts as zero. -/
theorem toSize_eq_zero_or_magnitude_le {x : Single} {limit : Nat}
    (notAbove : (ofNat limit).less x = false) :
    x.toSize = 0 ∨ x.magnitude ≤ (ofNat limit).magnitude := by
  rw [less, isNaN_ofNat, rank_ofNat] at notAbove
  by_cases nan : x.isNaN = true
  · exact .inl (by simp [toSize, clampToNat, nan])
  by_cases negative : x.isNegative = true
  · exact .inl (by simp [toSize, clampToNat, negative])
  have ordered : ¬ ((ofNat limit).magnitude : Int) < x.rank := by
    simpa [nan] using notAbove
  rw [rank, if_neg negative] at ordered
  exact .inr (by omega)

theorem toSize_le_sizeLimit (x : Single) : x.toSize ≤ sizeLimit := by
  rw [toSize, clampToNat]
  split_ifs
  · exact Nat.zero_le _
  · exact Nat.le_refl _
  · exact Nat.min_le_left _ _

/-- A lower bound holds a whole part no higher. -/
theorem clampToNat_le_toSize (x : Single) {high : Nat} (low : high ≤ sizeLimit) :
    x.clampToNat high ≤ x.toSize := by
  rw [toSize, clampToNat, clampToNat]
  split_ifs
  · exact Nat.le_refl _
  · exact low
  · exact Nat.le_min.mpr ⟨Nat.le_trans (Nat.min_le_left _ _) low, Nat.min_le_right _ _⟩

/-- The whole part of a finite number is at most what its units give. -/
theorem toSize_le_units {x : Single} (finite : x.magnitude < infinityMagnitude) :
    x.toSize ≤ x.absoluteUnits / unitsPerOne := by
  have notInfinite : ¬ x.isInfinite = true := by simpa [isInfinite] using Nat.ne_of_lt finite
  rw [toSize, clampToNat, if_neg notInfinite]
  split
  · exact Nat.zero_le _
  · exact Nat.min_le_right _ _

/-- **What is not above a whole number has no more than twice its whole part**, though the number
may round up. -/
theorem toSize_le_double {x : Single} {limit : Nat} (notAbove : (ofNat limit).less x = false) :
    x.toSize ≤ 2 * limit := by
  rcases toSize_eq_zero_or_magnitude_le notAbove with none | atMost
  · omega
  rcases Nat.lt_or_ge sizeLimit limit with large | small
  · exact Nat.le_trans x.toSize_le_sizeLimit (by omega)
  have finite : (ofNat limit).magnitude < infinityMagnitude := by
    rw [ofNat, magnitude_ofQuotient]
    refine Nat.lt_of_le_of_lt (nearestMagnitude_mono (Nat.mul_le_mul_right _ small) 1) ?_
    decide +kernel
  have whole := toSize_le_units (Nat.lt_of_le_of_lt atMost finite)
  refine Nat.le_trans whole (Nat.div_le_of_le_mul ?_)
  have fewer : x.absoluteUnits ≤ (ofNat limit).absoluteUnits := unitsOf_strictMono.monotone atMost
  rw [absoluteUnits, absoluteUnits, ofNat, magnitude_ofQuotient] at fewer
  rw [ofNat, magnitude_ofQuotient] at finite
  rcases Nat.lt_or_ge (unitsOf (nearestMagnitude (limit * unitsPerOne) 1)) 2 with few | some
  · -- Less than two units are no whole number.
    rcases Nat.eq_zero_or_pos limit with rfl | positive
    · have exact : unitsOf (nearestMagnitude (0 * unitsPerOne) 1) = 0 := by decide
      rw [exact] at fewer
      rw [absoluteUnits]
      omega
    · have one : 2 ≤ unitsPerOne := by decide
      have := Nat.mul_le_mul_left unitsPerOne (show 1 ≤ 2 * limit by omega)
      rw [absoluteUnits]
      omega
  · have near := (nearestMagnitude_quarter Nat.one_pos finite some).1
    rw [absoluteUnits]
    nlinarith

/-- What a whole number that is exact is not below has no larger whole part. -/
theorem toSize_le_of_exact {x : Single} {limit : Nat} (small : limit ≤ exactLimit)
    (notAbove : (ofNat limit).less x = false) : x.toSize ≤ limit := by
  rcases toSize_eq_zero_or_magnitude_le notAbove with none | atMost
  · omega
  obtain ⟨finite, exact⟩ := ofNat_exact small
  have whole := toSize_le_units (Nat.lt_of_le_of_lt atMost finite)
  have fewer : x.absoluteUnits ≤ limit * unitsPerOne := exact ▸ unitsOf_strictMono.monotone atMost
  exact Nat.le_trans whole (Nat.div_le_of_le_mul (Nat.mul_comm _ _ ▸ fewer))

/-- **What a whole number is not below or equal to has a smaller whole part.** -/
theorem toSize_lt {x : Single} {limit : Nat} (some : 0 < limit)
    (notReached : (ofNat limit).atMost x = false) : x.toSize < limit := by
  rw [atMost, isNaN_ofNat, rank_ofNat] at notReached
  by_cases nan : x.isNaN = true
  · simpa [toSize, clampToNat, nan] using some
  by_cases negative : x.isNegative = true
  · simpa [toSize, clampToNat, negative] using some
  have below : x.magnitude < (ofNat limit).magnitude := by
    have ordered : ¬ ((ofNat limit).magnitude : Int) ≤ x.rank := by
      simpa [nan] using notReached
    rw [rank, if_neg negative] at ordered
    omega
  rw [ofNat, magnitude_ofQuotient] at below
  have finite := Nat.lt_of_lt_of_le below (nearestMagnitude_le _ _)
  refine Nat.lt_of_le_of_lt (toSize_le_units finite) ?_
  rw [Nat.div_lt_iff_lt_mul (by decide)]
  by_contra reached
  exact absurd (nearestMagnitude_le_of_units finite (Nat.not_lt.mp reached)) (Nat.not_le.mpr below)

/-- **What is one or more has a whole part.** -/
theorem one_le_toSize {x : Single} (large : one.atMost x = true) : 1 ≤ x.toSize := by
  have nan : x.isNaN = false := by
    by_contra nan
    simp [atMost, nan] at large
  have ordered : one.rank ≤ x.rank := by
    simp only [atMost, Bool.and_eq_true, decide_eq_true_eq] at large
    exact large.2
  rw [show one.rank = 0x3F800000 from by decide] at ordered
  have positive : x.isNegative = false := by
    by_contra negative
    rw [rank, if_pos (by simpa using negative)] at ordered
    omega
  rw [rank, positive] at ordered
  have reached : 0x3F800000 ≤ x.magnitude := by
    simpa using ordered
  rw [toSize, clampToNat, nan, positive]
  simp only [Bool.or_self, Bool.false_eq_true, if_false]
  split
  · decide
  · refine Nat.le_min.mpr ⟨by decide, (Nat.le_div_iff_mul_le (by decide)).mpr ?_⟩
    calc 1 * unitsPerOne = unitsOf 0x3F800000 := by decide
      _ ≤ x.absoluteUnits := unitsOf_strictMono.monotone reached

theorem less_asymm {x y : Single} (below : x.less y = true) : y.less x = false := by
  simp only [less, Bool.and_eq_true, decide_eq_true_eq] at below
  simp only [less, Bool.and_eq_false_iff, decide_eq_false_iff_not]
  exact .inr (by omega)

/-- Numbers other than NaN are ordered. -/
theorem atMost_of_not_less {x y : Single} (numbers : x.isNaN = false ∧ y.isNaN = false)
    (notLess : x.less y = false) : y.atMost x = true := by
  simp only [less, atMost, numbers.1, numbers.2, Bool.not_false, Bool.true_and,
    decide_eq_false_iff_not, decide_eq_true_eq] at notLess ⊢
  omega

/-- **A number has at least the whole part of those below it.** -/
theorem toSize_mono {x y : Single} (ordered : x.atMost y = true) : x.toSize ≤ y.toSize := by
  simp only [atMost, Bool.and_eq_true, Bool.not_eq_true', decide_eq_true_eq] at ordered
  obtain ⟨⟨xNumber, yNumber⟩, ranks⟩ := ordered
  cases xSign : x.isNegative with
  | true => simp [toSize, clampToNat, xSign]
  | false =>
    rw [rank, rank, if_neg (by simp [xSign])] at ranks
    cases ySign : y.isNegative with
    | true =>
      -- The numbers are the two zeros.
      have zero : x.magnitude = 0 := by
        rw [ySign, if_pos rfl] at ranks
        omega
      have nothing : unitsOf 0 = 0 := by decide
      have finite : x.magnitude < infinityMagnitude := by
        rw [zero]
        decide
      have whole := toSize_le_units finite
      rw [absoluteUnits, zero, nothing, Nat.zero_div] at whole
      exact Nat.le_trans whole (Nat.zero_le _)
    | false =>
      have magnitudes : x.magnitude ≤ y.magnitude := by
        rw [ySign, if_neg Bool.false_ne_true] at ranks
        omega
      by_cases yInfinite : y.isInfinite = true
      · have most : y.toSize = sizeLimit := by simp [toSize, clampToNat, yNumber, ySign, yInfinite]
        exact most ▸ x.toSize_le_sizeLimit
      have yMagnitude : y.magnitude < infinityMagnitude := by
        simp only [isNaN, isInfinite, decide_eq_false_iff_not, decide_eq_true_eq]
          at yNumber yInfinite
        omega
      have units : x.absoluteUnits ≤ y.absoluteUnits := unitsOf_strictMono.monotone magnitudes
      have xInfinite : x.isInfinite = false := by
        simp only [isInfinite, decide_eq_false_iff_not]
        omega
      simp only [toSize, clampToNat, xNumber, yNumber, xSign, ySign, xInfinite, yInfinite,
        Bool.or_self, Bool.false_eq_true, if_false]
      exact Nat.le_min.mpr ⟨Nat.min_le_left _ _,
        Nat.le_trans (Nat.min_le_right _ _) (Nat.div_le_div_right units)⟩

end PocketBasic.Single
