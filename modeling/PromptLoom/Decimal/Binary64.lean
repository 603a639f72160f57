/-!
# Double-precision numbers as exact values

A number of the 64-bit binary format is held as what it is: a sign, a significand below 2^53 and a
power of two. Reading a decimal rounds the exact quotient to the nearest such number, a tie to the
even one.
-/

namespace PromptLoom.Decimal

set_option autoImplicit false

/-- A number of the 64-bit binary format. A finite one stands for `significand * 2 ^ exponent`. -/
inductive Binary64 where
  | finite (negative : Bool) (significand : Nat) (exponent : Int)
  | infinite (negative : Bool)
  | nan
  deriving Repr, DecidableEq, Inhabited

namespace Binary64

def leastExponent : Int := -1074

def greatestExponent : Int := 971

/-- The least significand of fifty-three binary digits. -/
def leastNormal : Nat := 4503599627370496

/-- A quotient rounded to the nearest whole number, a tie to the even one. -/
def roundHalfEven (num den : Nat) : Nat :=
  let floor := num / den
  let twice := 2 * (num % den)
  if twice < den then floor
  else if twice > den then floor + 1
  else if floor % 2 = 0 then floor else floor + 1

/-- `num / den` in units of `2 ^ exponent`, as a numerator and a denominator. -/
def inUnits (num den : Nat) (exponent : Int) : Nat × Nat :=
  if 0 ≤ exponent then (num, den * Nat.pow 2 exponent.toNat)
  else (num * Nat.pow 2 (-exponent).toNat, den)

/-- The exponent of the unit in which a positive quotient has fifty-three digits, but never less
than the least one. -/
def unitExponent (num den : Nat) : Int :=
  let guess : Int := (num.log2 : Int) - (den.log2 : Int)
  let (n, d) := inUnits num den guess
  let top := if d ≤ n then guess else guess - 1
  max (top - 52) leastExponent

def ofRatio (negative : Bool) (num den : Nat) : Binary64 :=
  if num = 0 then finite negative 0 leastExponent
  else
    let unit := unitExponent num den
    let (n, d) := inUnits num den unit
    let rounded := roundHalfEven n d
    let (significand, exponent) :=
      if rounded = 2 * leastNormal then (leastNormal, unit + 1) else (rounded, unit)
    if exponent > greatestExponent then infinite negative
    else finite negative significand exponent

def ofInt (n : Int) : Binary64 := ofRatio (n < 0) n.natAbs 1

def digitCount (n : Nat) : Nat := (Nat.toDigits 10 n).length

/-- The number nearest to `digits * 10 ^ exponent`. Far outside the range of the format the result
is known without arithmetic. -/
def ofDecimal (negative : Bool) (digits : Nat) (exponent : Int) : Binary64 :=
  let places := (digitCount digits : Int) + exponent
  if digits = 0 ∨ places < -340 then finite negative 0 leastExponent
  else if places > 320 then infinite negative
  else if 0 ≤ exponent then ofRatio negative (digits * Nat.pow 10 exponent.toNat) 1
  else ofRatio negative digits (Nat.pow 10 (-exponent).toNat)

def readExponent? (text : List Char) : Option Int :=
  let (negative, digits) := match text with
    | '-' :: rest => (true, rest)
    | '+' :: rest => (false, rest)
    | _ => (false, text)
  if digits.isEmpty || !digits.all Char.isDigit then none
  else
    let value : Int := (Nat.ofDigitChars 10 digits 0 : Nat)
    some (if negative then -value else value)

/-- Reads a decimal: an optional sign, digits with at most one point among or around them, and an
optional exponent. -/
def readDecimal? (text : List Char) : Option Binary64 :=
  let (negative, body) := match text with
    | '-' :: rest => (true, rest)
    | '+' :: rest => (false, rest)
    | _ => (false, text)
  let whole := body.takeWhile Char.isDigit
  let afterWhole := body.dropWhile Char.isDigit
  let (fraction, tail) := match afterWhole with
    | '.' :: rest => (rest.takeWhile Char.isDigit, rest.dropWhile Char.isDigit)
    | _ => ([], afterWhole)
  if whole.isEmpty && fraction.isEmpty then none
  else
    let exponent? : Option Int := match tail with
      | [] => some 0
      | mark :: rest => if mark = 'e' ∨ mark = 'E' then readExponent? rest else none
    exponent?.map fun exponent =>
      ofDecimal negative (Nat.ofDigitChars 10 (whole ++ fraction) 0)
        (exponent - (fraction.length : Int))

def isFinite : Binary64 → Bool
  | finite _ _ _ => true
  | _ => false

/-- Equality of values: the two zeros are one value, and an undefined number equals itself. -/
def sameValue : Binary64 → Binary64 → Bool
  | finite n s e, finite n' s' e' => (s == 0 && s' == 0) || (n == n' && s == s' && e == e')
  | infinite n, infinite n' => n == n'
  | nan, nan => true
  | _, _ => false

end Binary64

end PromptLoom.Decimal
