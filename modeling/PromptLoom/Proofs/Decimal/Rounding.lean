import PromptLoom.Proofs.Decimal.Shortest

/-!
# Rounding gives numbers of the format

The unit that a quotient is measured in leaves at most fifty-three binary digits before the point,
and exactly so many unless it is the least one. Rounding can add one to them, and a carry into one
more digit moves the exponent; so every decimal that is read gives a number as the format has it.
-/

namespace PromptLoom.Decimal.Binary64

set_option autoImplicit false

theorem in_units_den_pos {den : Nat} (positive : 0 < den) (num : Nat) (exponent : Int) :
    0 < (inUnits num den exponent).2 := by
  unfold inUnits
  split
  · exact Nat.mul_pos positive (Nat.pow_pos two_pos)
  · exact positive

theorem in_units_quotient (num den : Nat) (exponent : Int) :
    ((inUnits num den exponent).1 : ℚ) / (inUnits num den exponent).2 =
      num / den / 2 ^ exponent := by
  unfold inUnits
  split
  · next above =>
      obtain ⟨power, rfl⟩ := Int.eq_ofNat_of_zero_le above
      rw [zpow_natCast, div_div]
      simp
  · next below =>
      obtain ⟨power, opposite⟩ := Int.eq_ofNat_of_zero_le (Int.neg_nonneg_of_nonpos
        (not_le.mp below).le)
      obtain rfl : exponent = -(power : Int) := by omega
      rw [zpow_neg, zpow_natCast, div_inv_eq_mul, div_mul_eq_mul_div]
      simp

theorem log_quotient {num den : Nat} (positive : 0 < num) (below : 0 < den) :
    (2 : ℚ) ^ ((num.log2 : Int) - den.log2 - 1) ≤ num / den ∧
      (num / den : ℚ) < 2 ^ ((num.log2 : Int) - den.log2 + 1) := by
  have denominator : (0 : ℚ) < den := by exact_mod_cast below
  have numLow : (2 : ℚ) ^ num.log2 ≤ num := by exact_mod_cast Nat.log2_self_le positive.ne'
  have numHigh : (num : ℚ) < 2 ^ (num.log2 + 1) := by exact_mod_cast Nat.lt_log2_self
  have denLow : (2 : ℚ) ^ den.log2 ≤ den := by exact_mod_cast Nat.log2_self_le below.ne'
  have denHigh : (den : ℚ) < 2 ^ (den.log2 + 1) := by exact_mod_cast Nat.lt_log2_self
  constructor
  · have power : (2 : ℚ) ^ ((num.log2 : Int) - den.log2 - 1) =
        2 ^ num.log2 / 2 ^ (den.log2 + 1) := by
      rw [sub_sub, zpow_sub₀ two_ne_zero, zpow_natCast]
      exact_mod_cast rfl
    rw [power]
    exact div_le_div₀ (by positivity) numLow denominator denHigh.le
  · have power : (2 : ℚ) ^ ((num.log2 : Int) - den.log2 + 1) =
        2 ^ (num.log2 + 1) / 2 ^ den.log2 := by
      rw [sub_add_eq_add_sub, zpow_sub₀ two_ne_zero, zpow_natCast]
      exact_mod_cast rfl
    rw [power]
    exact div_lt_div₀ numHigh denLow (by positivity) (by positivity)

/-- A positive quotient is below 2^53 units, and no fewer than 2^52 unless the unit is the least. -/
theorem unit_exponent_fits {num den : Nat} (positive : 0 < num) (below : 0 < den) :
    leastExponent ≤ unitExponent num den ∧
      (num / den : ℚ) < 2 ^ (unitExponent num den + 53) ∧
      (unitExponent num den = leastExponent ∨
        (2 : ℚ) ^ (unitExponent num den + 52) ≤ num / den) := by
  obtain ⟨low, high⟩ := log_quotient positive below
  simp only [unitExponent]
  generalize (num.log2 : Int) - den.log2 = guess at low high
  -- the difference of the logarithms is the exponent of the first digit, or one more
  obtain ⟨top, chosen, reach, stop⟩ : ∃ top : Int,
      (if (inUnits num den guess).2 ≤ (inUnits num den guess).1 then guess else guess - 1) = top ∧
        (2 : ℚ) ^ top ≤ num / den ∧ (num / den : ℚ) < 2 ^ (top + 1) := by
    have units := in_units_quotient num den guess
    have denominator : (0 : ℚ) < (inUnits num den guess).2 := by
      exact_mod_cast in_units_den_pos below num guess
    have power : (0 : ℚ) < 2 ^ guess := by positivity
    split
    · next whole =>
        have one : (1 : ℚ) ≤ num / den / 2 ^ guess := by
          rw [← units, one_le_div denominator]
          exact_mod_cast whole
        exact ⟨guess, rfl, (one_le_div power).mp one, high⟩
    · next part =>
        have less : (num / den / 2 ^ guess : ℚ) < 1 := by
          rw [← units, div_lt_one denominator]
          exact_mod_cast not_le.mp part
        refine ⟨guess - 1, rfl, low, ?_⟩
        rw [sub_add_cancel]
        exact (div_lt_one power).mp less
  rw [chosen]
  refine ⟨le_max_right _ _, stop.trans_le (zpow_le_zpow_right₀ one_le_two (by omega)), ?_⟩
  rcases le_total (top - 52) leastExponent with least | more
  · exact .inl (max_eq_right least)
  · right
    rwa [max_eq_left more, sub_add_cancel]

theorem round_half_even_floor (num den : Nat) :
    num / den ≤ roundHalfEven num den ∧ roundHalfEven num den ≤ num / den + 1 := by
  simp only [roundHalfEven]
  repeat' split
  all_goals omega

theorem rounded_fits {num den : Nat} (positive : 0 < num) (below : 0 < den) :
    let parts := inUnits num den (unitExponent num den)
    roundHalfEven parts.1 parts.2 ≤ 2 * leastNormal ∧
      (unitExponent num den = leastExponent ∨ leastNormal ≤ roundHalfEven parts.1 parts.2) := by
  obtain ⟨-, high, low⟩ := unit_exponent_fits positive below
  have units := in_units_quotient num den (unitExponent num den)
  have some := in_units_den_pos below num (unitExponent num den)
  generalize inUnits num den (unitExponent num den) = parts at units some ⊢
  have denominator : (0 : ℚ) < parts.2 := by exact_mod_cast some
  have power : (0 : ℚ) < 2 ^ unitExponent num den := by positivity
  rw [eq_div_iff power.ne'] at units
  rw [← units] at high low
  obtain ⟨floor, next⟩ := round_half_even_floor parts.1 parts.2
  constructor
  · have small : parts.1 / parts.2 < 2 * leastNormal := by
      rw [Nat.div_lt_iff_lt_mul some]
      rw [zpow_add₀ two_ne_zero, mul_comm (2 ^ _)] at high
      have bound := lt_of_mul_lt_mul_right high power.le
      rw [div_lt_iff₀ denominator] at bound
      have whole : parts.1 < 2 ^ 53 * parts.2 := by exact_mod_cast bound
      exact whole
    omega
  · refine low.imp_right fun reach => le_trans ?_ floor
    rw [Nat.le_div_iff_mul_le some]
    rw [zpow_add₀ two_ne_zero, mul_comm (2 ^ _)] at reach
    have bound := le_of_mul_le_mul_right reach power
    rw [le_div_iff₀ denominator] at bound
    have whole : 2 ^ 52 * parts.2 ≤ parts.1 := by exact_mod_cast bound
    exact whole

theorem zero_fits : Fits 0 leastExponent :=
  ⟨by decide, le_rfl, by decide, .inr rfl⟩

theorem of_ratio_canonical (negative : Bool) (num : Nat) {den : Nat} (below : 0 < den) :
    (ofRatio negative num den).Canonical := by
  unfold ofRatio
  split
  · exact zero_fits
  · next nonzero =>
      have positive := Nat.pos_of_ne_zero nonzero
      obtain ⟨least, -, -⟩ := unit_exponent_fits positive below
      obtain ⟨small, full⟩ := rounded_fits positive below
      dsimp only at small full ⊢
      generalize roundHalfEven (inUnits num den (unitExponent num den)).1
        (inUnits num den (unitExponent num den)).2 = rounded at small full ⊢
      generalize unitExponent num den = unit at least full ⊢
      -- a carry makes a fifty-fourth digit, which moves into the exponent
      by_cases carry : rounded = 2 * leastNormal
      · simp only [carry, if_true]
        split
        · trivial
        · next most => exact ⟨by decide, by omega, not_lt.mp most, .inl le_rfl⟩
      · simp only [carry, if_false]
        split
        · trivial
        · next most => exact ⟨by omega, least, not_lt.mp most, full.symm⟩

/-- Every decimal that is read gives a number as the format has it. -/
theorem of_decimal_canonical (negative : Bool) (digits : Nat) (exponent : Int) :
    (ofDecimal negative digits exponent).Canonical := by
  unfold ofDecimal
  dsimp only
  split
  · exact zero_fits
  · split
    · trivial
    · split
      · exact of_ratio_canonical negative _ Nat.one_pos
      · exact of_ratio_canonical negative _ (Nat.pow_pos (by decide))

theorem read_decimal_canonical {text : List Char} {number : Binary64}
    (read : readDecimal? text = some number) : number.Canonical := by
  simp only [readDecimal?, Option.ite_none_left_eq_some, Option.map_eq_some_iff] at read
  obtain ⟨-, exponent, -, rfl⟩ := read
  exact of_decimal_canonical _ _ _

end PromptLoom.Decimal.Binary64
