import Mathlib.Algebra.Order.Field.Basic
import Mathlib.Algebra.Order.Field.Power
import Mathlib.Data.Rat.Cast.Order
import Mathlib.Tactic.Linarith
import Mathlib.Tactic.NormNum
import Mathlib.Tactic.Positivity
import Mathlib.Tactic.Ring
import PromptLoom.Decimal.Binary64

/-!
# Which quotients read as a number

A significand and an exponent fit the format when the significand is as long as it can be. Around
every number lies an interval of quotients that are nearest to it, with its ends when the
significand is even. The intervals of two different numbers have no quotient in common: where they
touch, the end belongs to one of them at most.
-/

namespace PromptLoom.Decimal.Binary64

set_option autoImplicit false

/-- A significand and an exponent as the format has them: fifty-three binary digits, or fewer under
the least exponent. -/
structure Fits (significand : Nat) (exponent : Int) : Prop where
  small : significand < 2 * leastNormal
  least : leastExponent ≤ exponent
  greatest : exponent ≤ greatestExponent
  full : leastNormal ≤ significand ∨ exponent = leastExponent

/-- A number as the format has it. -/
def Canonical : Binary64 → Prop
  | finite _ significand exponent => Fits significand exponent
  | infinite _ | nan => True

/-- A quarter of the last place of a number. -/
def quarter (exponent : Int) : ℚ := 2 ^ (exponent - 2)

/-- The distance from a number down to the end of its interval, in quarters of its last place. At a
power of two the number below is only half as far away. -/
def below (significand : Nat) (exponent : Int) : Nat :=
  if significand = leastNormal ∧ leastExponent < exponent then 1 else 2

/-- A quotient nearest to a number, or halfway to a neighbour with an odd significand. -/
def RoundsTo (significand : Nat) (exponent : Int) (quotient : ℚ) : Prop :=
  let low := (4 * significand - below significand exponent : ℚ) * quarter exponent
  let high := (4 * significand + 2 : ℚ) * quarter exponent
  if significand % 2 = 0 then low ≤ quotient ∧ quotient ≤ high else low < quotient ∧ quotient < high

theorem quarter_pos (exponent : Int) : 0 < quarter exponent := by
  unfold quarter
  positivity

theorem quarter_doubles {first second : Int} (later : first < second) :
    2 * quarter first ≤ quarter second := by
  have step : 2 * quarter first = 2 ^ (first - 2 + 1) := by
    rw [quarter, zpow_add_one₀ two_ne_zero, mul_comm]
  rw [step, quarter]
  exact zpow_le_zpow_right₀ one_le_two (by omega)

variable {significand other : Nat} {exponent otherExponent : Int} {quotient : ℚ}

namespace RoundsTo

theorem low_le (rounds : RoundsTo significand exponent quotient) :
    (4 * significand - below significand exponent : ℚ) * quarter exponent ≤ quotient := by
  unfold RoundsTo at rounds
  split at rounds
  · exact rounds.1
  · exact rounds.1.le

theorem le_high (rounds : RoundsTo significand exponent quotient) :
    quotient ≤ (4 * significand + 2 : ℚ) * quarter exponent := by
  unfold RoundsTo at rounds
  split at rounds
  · exact rounds.2
  · exact rounds.2.le

theorem lt_high (rounds : RoundsTo significand exponent quotient) (odd : significand % 2 = 1) :
    quotient < (4 * significand + 2 : ℚ) * quarter exponent := by
  rw [RoundsTo, if_neg (by omega)] at rounds
  exact rounds.2

theorem low_lt (rounds : RoundsTo significand exponent quotient) (odd : significand % 2 = 1) :
    (4 * significand - below significand exponent : ℚ) * quarter exponent < quotient := by
  rw [RoundsTo, if_neg (by omega)] at rounds
  exact rounds.1

/-- What lies less than a quarter of the last place below a number reads as it. -/
theorem of_close (near : (4 * significand - 1 : ℚ) * quarter exponent < quotient)
    (most : quotient ≤ 4 * significand * quarter exponent) :
    RoundsTo significand exponent quotient := by
  have positive := quarter_pos exponent
  have least : (1 : ℚ) ≤ below significand exponent := by
    unfold below
    split <;> norm_num
  have low : (4 * significand - below significand exponent : ℚ) * quarter exponent < quotient :=
    (mul_le_mul_of_nonneg_right (by linarith) positive.le).trans_lt near
  have high : quotient < (4 * significand + 2 : ℚ) * quarter exponent :=
    most.trans_lt (mul_lt_mul_of_pos_right (by linarith) positive)
  unfold RoundsTo
  split
  · exact ⟨low.le, high.le⟩
  · exact ⟨low, high⟩

theorem not_above (first : RoundsTo significand exponent quotient)
    (second : RoundsTo other exponent quotient) : other ≤ significand := by
  apply Decidable.byContradiction
  intro less
  have above : (significand : ℚ) + 1 ≤ other := by exact_mod_cast not_le.mp less
  have few : (below other exponent : ℚ) ≤ 2 := by
    unfold below
    split <;> norm_num
  have positive := quarter_pos exponent
  have meets := second.low_le.trans first.le_high
  have ends : (4 * other - below other exponent : ℚ) ≤ 4 * significand + 2 :=
    le_of_mul_le_mul_right meets positive
  have next : other = significand + 1 := by
    have : (other : ℚ) = significand + 1 := by linarith
    exact_mod_cast this
  rcases Nat.mod_two_eq_zero_or_one significand with even | odd
  · have strict := (second.low_lt (by omega)).trans_le first.le_high
    have := lt_of_mul_lt_mul_right strict positive.le
    linarith
  · have strict := second.low_le.trans_lt (first.lt_high odd)
    have := lt_of_mul_lt_mul_right strict positive.le
    linarith

theorem not_under (fits : Fits significand exponent) (otherFits : Fits other otherExponent)
    (first : RoundsTo significand exponent quotient)
    (second : RoundsTo other otherExponent quotient) : otherExponent ≤ exponent := by
  apply Decidable.byContradiction
  intro less
  have later := not_le.mp less
  have raised : leastExponent < otherExponent := fits.least.trans_lt later
  have normal : leastNormal ≤ other := otherFits.full.resolve_right raised.ne'
  have low : (2 ^ 54 - 1 : ℚ) ≤ 4 * other - below other otherExponent := by
    unfold below
    split
    · next least =>
        rw [least.1, leastNormal]
        norm_num
    · next more =>
        have : leastNormal + 1 ≤ other := by
          rcases normal.lt_or_eq with above | same
          · exact above
          · exact absurd ⟨same.symm, raised⟩ more
        rw [leastNormal] at this
        have bound : (4503599627370496 + 1 : ℚ) ≤ other := by exact_mod_cast this
        rw [Nat.cast_two]
        linarith
  have positive := quarter_pos exponent
  have reach : (2 ^ 55 - 2 : ℚ) * quarter exponent ≤ quotient := by
    calc (2 ^ 55 - 2 : ℚ) * quarter exponent = (2 ^ 54 - 1) * (2 * quarter exponent) := by ring
      _ ≤ (2 ^ 54 - 1) * quarter otherExponent :=
          mul_le_mul_of_nonneg_left (quarter_doubles later) (by norm_num)
      _ ≤ (4 * other - below other otherExponent) * quarter otherExponent :=
          mul_le_mul_of_nonneg_right low (quarter_pos otherExponent).le
      _ ≤ quotient := second.low_le
  have small := fits.small
  rw [leastNormal] at small
  -- only the greatest significand, an odd one, reaches up to the next exponent
  have greatest : significand = 2 ^ 53 - 1 := by
    have ends := le_of_mul_le_mul_right (reach.trans first.le_high) positive
    have bound : (2 ^ 53 - 1 : ℚ) ≤ significand := by linarith
    have : 2 ^ 53 ≤ significand + 1 := by
      have : (2 ^ 53 : ℚ) ≤ significand + 1 := by linarith
      exact_mod_cast this
    omega
  have strict := reach.trans_lt (first.lt_high (by omega))
  have ends := lt_of_mul_lt_mul_right strict positive.le
  rw [greatest] at ends
  norm_num at ends

/-- A quotient reads as one number only. -/
theorem unique (fits : Fits significand exponent) (otherFits : Fits other otherExponent)
    (first : RoundsTo significand exponent quotient)
    (second : RoundsTo other otherExponent quotient) :
    significand = other ∧ exponent = otherExponent := by
  obtain rfl := le_antisymm (not_under otherFits fits second first)
    (not_under fits otherFits first second)
  exact ⟨le_antisymm (not_above second first) (not_above first second), rfl⟩

end RoundsTo

end PromptLoom.Decimal.Binary64
