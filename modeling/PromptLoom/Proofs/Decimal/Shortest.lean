import Mathlib.Data.Nat.Cast.Order.Field
import PromptLoom.Decimal.Shortest
import PromptLoom.Proofs.Decimal.Intervals

/-!
# The fewest digits read back

The decimal that is found for a positive number lies in the interval of the quotients that read as
it: a hit does so by its own test, and with eighteen digits the next decimal below is less than a
quarter of the last place away.
-/

namespace PromptLoom.Decimal

open Binary64 (Fits RoundsTo quarter quarter_pos)

set_option autoImplicit false

def Scaled.value (decimal : Scaled) : ℚ := decimal.digits * 10 ^ decimal.exponent

/-! ### Counting digits -/

theorem Binary64.lt_pow_digit_count (n : Nat) : n < 10 ^ digitCount n :=
  (Nat.length_toDigits_le_iff (by decide) Nat.length_toDigits_pos).mp le_rfl

theorem Binary64.pow_digit_count_le {n : Nat} (positive : 0 < n) : 10 ^ (digitCount n - 1) ≤ n := by
  rcases Nat.eq_zero_or_pos (digitCount n - 1) with none | some
  · rw [none]
    exact positive
  · apply Decidable.byContradiction
    intro less
    have short := (Nat.length_toDigits_le_iff (by decide) some).mpr (not_le.mp less)
    unfold digitCount at short some
    omega

namespace Shortest

theorem power_quotient (base : Nat) (positive : 0 < base) (exponent : Int) :
    ((Nat.pow base exponent.toNat : Nat) : ℚ) / (Nat.pow base (-exponent).toNat : Nat) =
      (base : ℚ) ^ exponent := by
  have nonzero : (base : ℚ) ≠ 0 := by positivity
  rcases le_total 0 exponent with above | below
  · obtain ⟨power, rfl⟩ := Int.eq_ofNat_of_zero_le above
    simp
  · obtain ⟨power, opposite⟩ := Int.eq_ofNat_of_zero_le (Int.neg_nonneg_of_nonpos below)
    obtain rfl : exponent = -(power : Int) := by omega
    simp

theorem leading_exponent_le {num den : Nat} (positive : 0 < num) (below : 0 < den) :
    (10 : ℚ) ^ leadingExponent num den ≤ num / den := by
  have denominator : (0 : ℚ) < den := by exact_mod_cast below
  have numerator : (0 : ℚ) < num := by exact_mod_cast positive
  unfold leadingExponent
  split
  · next whole =>
      have some : 0 < num / den := Nat.div_pos whole below
      have digits := Binary64.pow_digit_count_le some
      have count : 0 < Binary64.digitCount (num / den) := Nat.length_toDigits_pos
      obtain ⟨more, counted⟩ := Nat.exists_eq_add_of_lt count
      rw [zero_add] at counted
      rw [counted] at digits ⊢
      have power : (10 : ℚ) ^ more ≤ (num / den : Nat) := by exact_mod_cast digits
      calc (10 : ℚ) ^ (((more + 1 : Nat) : Int) - 1) = 10 ^ more := by
            rw [Nat.cast_succ, add_sub_cancel_right, zpow_natCast]
        _ ≤ (num / den : Nat) := power
        _ ≤ num / den := Nat.cast_div_le
  · next part =>
      set count := Binary64.digitCount ((den + num - 1) / num - 1) with counted
      have digits := Binary64.lt_pow_digit_count ((den + num - 1) / num - 1)
      rw [← counted] at digits
      have steps : den ≤ num * 10 ^ count := by
        have upper : (den + num - 1) / num ≤ 10 ^ count := by omega
        have reach := (Nat.div_le_iff_le_mul_add_pred positive).mp upper
        omega
      have bound : (den : ℚ) ≤ num * 10 ^ count := by exact_mod_cast steps
      rw [zpow_neg, zpow_natCast, inv_le_comm₀ (by positivity) (by positivity), inv_div,
        div_le_iff₀ numerator, mul_comm]
      exact bound

variable {significand : Nat} {exponent : Int}

theorem interval_unit (significand : Nat) (exponent : Int) :
    ((interval significand exponent).unitNum : ℚ) / (interval significand exponent).unitDen =
      quarter exponent :=
  power_quotient 2 two_pos (exponent - 2)

theorem interval_unit_den_pos (significand : Nat) (exponent : Int) :
    0 < (interval significand exponent).unitDen :=
  Nat.pow_pos two_pos

theorem interval_unit_num_pos (significand : Nat) (exponent : Int) :
    0 < (interval significand exponent).unitNum :=
  Nat.pow_pos two_pos

theorem interval_low (positive : 0 < significand) :
    ((interval significand exponent).low : ℚ) =
      4 * significand - Binary64.below significand exponent := by
  have most : Binary64.below significand exponent ≤ 4 * significand := by
    unfold Binary64.below
    split <;> omega
  change ((4 * significand - Binary64.below significand exponent : Nat) : ℚ) = _
  push_cast [Nat.cast_sub most]
  rfl

theorem power_of_ten (place : Int) :
    ((powerOfTen place).1 : ℚ) / (powerOfTen place).2 = 10 ^ place := by
  rw [← Nat.cast_ofNat (R := ℚ), ← power_quotient 10 (by decide) place]
  rfl

theorem power_of_ten_den_pos (place : Int) : 0 < (powerOfTen place).2 := Nat.pow_pos (by decide)

theorem multiples_le_iff (first second : Nat) {num den otherNum otherDen : Nat} (below : 0 < den)
    (otherBelow : 0 < otherDen) :
    first * num * otherDen ≤ second * otherNum * den ↔
      (first : ℚ) * (num / den) ≤ second * (otherNum / otherDen) := by
  rw [mul_div_assoc', mul_div_assoc',
    div_le_div_iff₀ (by exact_mod_cast below) (by exact_mod_cast otherBelow)]
  exact_mod_cast Iff.rfl

theorem units_le_grid_iff (significand : Nat) (exponent : Int) (amount digits : Nat)
    (place : Int) :
    amount * (interval significand exponent).unitNum * (powerOfTen place).2 ≤
        digits * (powerOfTen place).1 * (interval significand exponent).unitDen ↔
      (amount : ℚ) * quarter exponent ≤ digits * 10 ^ place := by
  rw [← interval_unit significand exponent, ← power_of_ten]
  exact multiples_le_iff amount digits (interval_unit_den_pos significand exponent)
    (power_of_ten_den_pos place)

theorem grid_le_units_iff (significand : Nat) (exponent : Int) (amount digits : Nat)
    (place : Int) :
    digits * (powerOfTen place).1 * (interval significand exponent).unitDen ≤
        amount * (interval significand exponent).unitNum * (powerOfTen place).2 ↔
      (digits : ℚ) * 10 ^ place ≤ amount * quarter exponent := by
  rw [← interval_unit significand exponent, ← power_of_ten]
  exact multiples_le_iff digits amount (power_of_ten_den_pos place)
    (interval_unit_den_pos significand exponent)

theorem contains_iff (positive : 0 < significand) (digits : Nat) (place : Int) :
    (interval significand exponent).contains digits place = true ↔
      RoundsTo significand exponent (digits * 10 ^ place) := by
  have low := units_le_grid_iff significand exponent (interval significand exponent).low digits
    place
  have high := grid_le_units_iff significand exponent (interval significand exponent).high digits
    place
  have lowStrict := not_congr (grid_le_units_iff significand exponent
    (interval significand exponent).low digits place)
  have highStrict := not_congr (units_le_grid_iff significand exponent
    (interval significand exponent).high digits place)
  rw [interval_low positive] at low lowStrict
  have top : ((interval significand exponent).high : ℚ) = 4 * significand + 2 := by
    change ((4 * significand + 2 : Nat) : ℚ) = _
    push_cast
    rfl
  rw [top] at high highStrict
  rw [not_le, not_le] at lowStrict highStrict
  unfold RoundsTo
  by_cases even : significand % 2 = 0
  · rw [if_pos even, ← low, ← high]
    simp [Interval.contains, interval, even]
  · rw [if_neg even, ← lowStrict, ← highStrict]
    simp [Interval.contains, interval, even]

theorem on_grid_contains {i : Interval} {place : Int} {digits : Nat}
    (hit : i.onGrid? place = some digits) : i.contains digits place = true ∧ 0 < digits := by
  simp only [Interval.onGrid?] at hit
  generalize i.value * i.unitNum * (powerOfTen place).2 /
    ((powerOfTen place).1 * i.unitDen) = below at hit
  split at hit
  · next both =>
      simp only [Bool.and_eq_true, decide_eq_true_eq] at both
      split at hit
      · rw [← Option.some.inj hit]
        exact both.1
      · rw [← Option.some.inj hit]
        exact ⟨both.2, Nat.succ_pos _⟩
  · split at hit
    · next lower =>
        simp only [Bool.and_eq_true, decide_eq_true_eq] at lower
        rw [← Option.some.inj hit]
        exact lower
    · split at hit
      · next upper =>
          rw [← Option.some.inj hit]
          exact ⟨upper, Nat.succ_pos _⟩
      · cases hit

/-- The decimal just below a number on a grid that is fine enough reads as it. -/
theorem floor_rounds {place : Int} (fits : Fits significand exponent)
    (fine : 10 ^ (17 : Nat) * (10 : ℚ) ^ place ≤ 4 * significand * quarter exponent) :
    RoundsTo significand exponent
      (((interval significand exponent).value * (interval significand exponent).unitNum *
        (powerOfTen place).2 / ((powerOfTen place).1 * (interval significand exponent).unitDen) :
          Nat) * 10 ^ place) := by
  have step : 0 < (powerOfTen place).1 * (interval significand exponent).unitDen :=
    Nat.mul_pos (Nat.pow_pos (by decide)) (interval_unit_den_pos significand exponent)
  set floor := (interval significand exponent).value * (interval significand exponent).unitNum *
    (powerOfTen place).2 / ((powerOfTen place).1 * (interval significand exponent).unitDen)
    with floored
  have value : ((interval significand exponent).value : ℚ) = 4 * significand := by
    change ((4 * significand : Nat) : ℚ) = _
    push_cast
    rfl
  have most : (floor : ℚ) * 10 ^ place ≤ 4 * significand * quarter exponent := by
    rw [← value, ← grid_le_units_iff significand exponent, mul_assoc, floored]
    exact Nat.div_mul_le_self _ _
  have next : (4 * significand * quarter exponent : ℚ) < (floor + 1 : Nat) * 10 ^ place := by
    have reach := Nat.lt_div_mul_add (a := (interval significand exponent).value *
      (interval significand exponent).unitNum * (powerOfTen place).2) step
    rw [← floored, ← Nat.succ_mul, ← mul_assoc] at reach
    rw [← value, ← not_le, ← grid_le_units_iff significand exponent, not_le]
    exact reach
  have positive := quarter_pos exponent
  -- 4 * 2^53 is less than 10^17, so one step of the grid is less than a quarter of the last place
  have small : (4 * significand : ℚ) < 10 ^ (17 : Nat) := by
    have bound := fits.small
    rw [Binary64.leastNormal] at bound
    have : 4 * significand < 10 ^ 17 := by omega
    exact_mod_cast this
  have close : (10 : ℚ) ^ place < quarter exponent := by
    have := fine.trans_lt (mul_lt_mul_of_pos_right small positive)
    exact lt_of_mul_lt_mul_left this (by positivity)
  refine RoundsTo.of_close ?_ most
  rw [Nat.cast_succ] at next
  linarith

theorem first_hit_rounds {leading : Int} (fits : Fits significand exponent)
    (positive : 0 < significand)
    (least : (10 : ℚ) ^ leading ≤ 4 * significand * quarter exponent) (more count : Nat)
    (eighteen : more + count = 18) :
    RoundsTo significand exponent
      (firstHit (interval significand exponent) leading more count).value := by
  induction more generalizing count with
  | zero =>
      -- no grid of up to seventeen digits has been hit
      refine floor_rounds fits (le_trans (le_of_eq ?_) least)
      rw [← zpow_natCast, ← zpow_add₀ (by norm_num)]
      congr 1
      omega
  | succ more ih =>
      rw [firstHit]
      split
      · next digits hit => exact (contains_iff positive _ _).mp (on_grid_contains hit).1
      · exact ih (count + 1) (by omega)

theorem strip_zeros_value (more : Nat) (decimal : Scaled) :
    (stripZeros more decimal).value = decimal.value := by
  induction more generalizing decimal with
  | zero => rfl
  | succ more ih =>
      rw [stripZeros]
      split
      · next zero =>
          rw [ih]
          have whole : (decimal.digits : ℚ) = (decimal.digits / 10 : Nat) * 10 := by
            exact_mod_cast (Nat.div_mul_cancel (Nat.dvd_of_mod_eq_zero zero.1)).symm
          rw [Scaled.value, Scaled.value, whole, zpow_add_one₀ (by norm_num)]
          ring
      · rfl

/-- The shortest decimal of a positive number reads as it. -/
theorem of_finite_rounds (fits : Fits significand exponent) (positive : 0 < significand) :
    RoundsTo significand exponent (ofFinite significand exponent).value := by
  have amount :
      0 < (interval significand exponent).value * (interval significand exponent).unitNum :=
    Nat.mul_pos (Nat.mul_pos (by decide) positive) (interval_unit_num_pos significand exponent)
  have least := leading_exponent_le amount (interval_unit_den_pos significand exponent)
  rw [Nat.cast_mul, mul_div_assoc, interval_unit] at least
  change _ ≤ ((4 * significand : Nat) : ℚ) * _ at least
  rw [Nat.cast_mul, Nat.cast_ofNat] at least
  rw [ofFinite, strip_zeros_value]
  exact first_hit_rounds fits positive least 17 1 rfl

theorem of_finite_pos (fits : Fits significand exponent) (positive : 0 < significand) :
    0 < (ofFinite significand exponent).value := by
  have some : (1 : ℚ) ≤ significand := by exact_mod_cast positive
  have few : (Binary64.below significand exponent : ℚ) ≤ 2 := by
    unfold Binary64.below
    split <;> norm_num
  refine lt_of_lt_of_le (mul_pos ?_ (quarter_pos exponent)) (of_finite_rounds fits positive).low_le
  linarith

/-- Two positive numbers with the same shortest decimal are one number. -/
theorem of_finite_injective {other : Nat} {otherExponent : Int} (fits : Fits significand exponent)
    (positive : 0 < significand) (otherFits : Fits other otherExponent) (otherPositive : 0 < other)
    (same : (ofFinite significand exponent).value = (ofFinite other otherExponent).value) :
    significand = other ∧ exponent = otherExponent := by
  have rounds := of_finite_rounds fits positive
  rw [same] at rounds
  exact rounds.unique fits otherFits (of_finite_rounds otherFits otherPositive)

end Shortest

end PromptLoom.Decimal
