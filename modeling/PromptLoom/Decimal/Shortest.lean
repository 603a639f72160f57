import PromptLoom.Decimal.Binary64

/-!
# The fewest digits that read back

Every decimal in an interval around a double-precision number reads as that number. For one digit,
two digits and so on, the two neighbours of the number on the decimal grid of that many digits are
tried, in exact arithmetic; the first grid with a neighbour in the interval gives the digits, and of
two such neighbours the nearer is taken.
-/

namespace PromptLoom.Decimal

set_option autoImplicit false

/-- A positive decimal `digits * 10 ^ exponent`. -/
structure Scaled where
  digits : Nat
  exponent : Int
  deriving Repr, DecidableEq

namespace Shortest

/-- A positive number and the ends of the interval of decimals that read as it, all in units of
`unitNum / unitDen`. The ends belong to it when the significand is even. -/
structure Interval where
  low : Nat
  value : Nat
  high : Nat
  closed : Bool
  unitNum : Nat
  unitDen : Nat
  deriving Repr

/-- The interval of a finite number, in units of a quarter of its last place. At a power of two the
number below is only half as far away. -/
def interval (significand : Nat) (exponent : Int) : Interval :=
  let below := if significand = Binary64.leastNormal ∧ Binary64.leastExponent < exponent then 1 else 2
  let quarter := exponent - 2
  { low := 4 * significand - below
    value := 4 * significand
    high := 4 * significand + 2
    closed := significand % 2 = 0
    unitNum := Nat.pow 2 quarter.toNat
    unitDen := Nat.pow 2 (-quarter).toNat }

def leadingExponent (num den : Nat) : Int :=
  if den ≤ num then (Binary64.digitCount (num / den) : Int) - 1
  else -(Binary64.digitCount ((den + num - 1) / num - 1) : Int)

/-- `10 ^ exponent` as a numerator and a denominator. -/
def powerOfTen (exponent : Int) : Nat × Nat := (Nat.pow 10 exponent.toNat, Nat.pow 10 (-exponent).toNat)

def Interval.contains (i : Interval) (digits : Nat) (exponent : Int) : Bool :=
  let (n, d) := powerOfTen exponent
  let point := digits * n * i.unitDen
  let low := i.low * i.unitNum * d
  let high := i.high * i.unitNum * d
  if i.closed then decide (low ≤ point) && decide (point ≤ high)
  else decide (low < point) && decide (point < high)

/-- The neighbour in the interval on the grid of `10 ^ exponent`. -/
def Interval.onGrid? (i : Interval) (exponent : Int) : Option Nat :=
  let (n, d) := powerOfTen exponent
  let num := i.value * i.unitNum * d
  let den := n * i.unitDen
  let below := num / den
  let lower := i.contains below exponent && decide (0 < below)
  let upper := i.contains (below + 1) exponent
  if lower && upper then
    let twice := 2 * (num % den)
    if twice < den ∨ (twice = den ∧ below % 2 = 0) then some below else some (below + 1)
  else if lower then some below
  else if upper then some (below + 1)
  else none

/-- The first hit on the grids of `count` digits and more. Seventeen digits always read back. -/
def firstHit (i : Interval) (leading : Int) : Nat → Nat → Scaled
  | 0, count =>
      let exponent := leading - (count : Int) + 1
      let (n, d) := powerOfTen exponent
      ⟨i.value * i.unitNum * d / (n * i.unitDen), exponent⟩
  | more + 1, count =>
      let exponent := leading - (count : Int) + 1
      match i.onGrid? exponent with
      | some digits => ⟨digits, exponent⟩
      | none => firstHit i leading more (count + 1)

def stripZeros : Nat → Scaled → Scaled
  | 0, decimal => decimal
  | more + 1, decimal =>
      if decimal.digits % 10 = 0 ∧ decimal.digits ≠ 0 then
        stripZeros more ⟨decimal.digits / 10, decimal.exponent + 1⟩
      else decimal

def ofFinite (significand : Nat) (exponent : Int) : Scaled :=
  let i := interval significand exponent
  let leading := leadingExponent (i.value * i.unitNum) i.unitDen
  stripZeros 20 (firstHit i leading 17 1)

end Shortest

end PromptLoom.Decimal
