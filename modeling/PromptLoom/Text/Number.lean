/-!
# Decimal numbers in texts

Unsigned numbers as selectors and options write them: ASCII digits, a single `+` allowed before
them, and a largest admissible value.
-/

namespace PromptLoom.Text

set_option autoImplicit false

def digitValue? (c : Char) : Option Nat :=
  if '0' ≤ c && c ≤ '9' then some (c.toNat - 48) else none

/-- The value of a digit in a base up to 16; letters count in either case. -/
def radixDigitValue? (base : Nat) (c : Char) : Option Nat :=
  let value :=
    if '0' ≤ c && c ≤ '9' then c.toNat - 48
    else if 'a' ≤ c && c ≤ 'f' then c.toNat - 87
    else if 'A' ≤ c && c ≤ 'F' then c.toNat - 55
    else base
  if value < base then some value else none

/-- The value of a digit list read after `value`. -/
def readRadixFrom (base value : Nat) : List Char → Option Nat
  | [] => some value
  | c :: rest => (radixDigitValue? base c).bind fun d => readRadixFrom base (value * base + d) rest

def readRadix? (base : Nat) (text : List Char) : Option Nat :=
  if text.isEmpty then none else readRadixFrom base 0 text

/-- An unsigned number up to `largest`, with an optional `+`. -/
def readUnsigned? (largest : Nat) (text : List Char) : Option Nat :=
  let digits := match text with
    | '+' :: rest => rest
    | _ => text
  (readRadix? 10 digits).filter fun n => decide (n ≤ largest)

def maxWord32 : Nat := 4294967295

def maxWord64 : Nat := 18446744073709551615

def maxWord128 : Nat := 340282366920938463463374607431768211455

def leastAmount64 : Nat := 9223372036854775808

def leastAmount128 : Nat := 170141183460469231731687303715884105728

end PromptLoom.Text
