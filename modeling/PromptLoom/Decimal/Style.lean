import PromptLoom.Decimal.Shortest

/-!
# Writing numbers

How the digits of a number are laid out: which numbers are written positionally, whether whole
numbers keep a point, and how what is not finite is written.
-/

namespace PromptLoom.Decimal

set_option autoImplicit false

/-- The decisions of an output format. A number is positional when the exponent of its first digit
lies between `lowest` and `highest`; without bounds every number is. A positive exponent may be written
with its sign. -/
structure Style where
  lowest : Option Int
  highest : Option Int
  wholePoint : Bool
  plusSign : Bool
  infinite : String
  undefined : String
  deriving Repr

namespace Style

def isPositional (style : Style) (leading : Int) : Bool :=
  (match style.lowest with
    | none => true
    | some bound => decide (bound ≤ leading)) &&
  (match style.highest with
    | none => true
    | some bound => decide (leading ≤ bound))

/-- Positional digits, with zeros up to the point where needed. -/
def positional (style : Style) (digits : List Char) (leading : Int) : List Char :=
  if leading < 0 then
    '0' :: '.' :: (List.replicate (-leading - 1).toNat '0' ++ digits)
  else
    let wholeLength := leading.toNat + 1
    if digits.length ≤ wholeLength then
      digits ++ List.replicate (wholeLength - digits.length) '0' ++
        (if style.wholePoint then ['.', '0'] else [])
    else digits.take wholeLength ++ '.' :: digits.drop wholeLength

def scientific (style : Style) (digits : List Char) (leading : Int) : List Char :=
  let mantissa := match digits with
    | first :: second :: rest => first :: '.' :: second :: rest
    | _ => digits
  let sign := if style.plusSign && 0 ≤ leading then ['+'] else []
  mantissa ++ 'e' :: (sign ++ (toString leading).toList)

def write (style : Style) : Binary64 → String
  | .nan => style.undefined
  | .infinite negative => (if negative then "-" else "") ++ style.infinite
  | .finite negative significand exponent =>
      let sign := if negative then ['-'] else []
      if significand = 0 then
        String.ofList (sign ++ (if style.wholePoint then ['0', '.', '0'] else ['0']))
      else
        let decimal := Shortest.ofFinite significand exponent
        let digits := (toString decimal.digits).toList
        let leading := decimal.exponent + (digits.length : Int) - 1
        String.ofList (sign ++
          (if style.isPositional leading then style.positional digits leading
          else style.scientific digits leading))

end Style

end PromptLoom.Decimal
