import PromptLoom.Text.Number

/-!
# Counting with mixed radices

An odometer shows one digit per radix and counts through all combinations, the last digit fastest.
Only the current digits are kept, so spaces of any size are walked in constant memory.
-/

namespace PromptLoom

set_option autoImplicit false

/-- The radices, the digits shown, and whether every combination has been shown. -/
structure Odometer where
  radices : List Nat
  digits : List Nat
  finished : Bool
  deriving Repr, DecidableEq

namespace Odometer

/-- Starts at zero; with a radix of zero there is nothing to show. -/
def start (radices : List Nat) : Odometer :=
  ⟨radices, radices.map fun _ => 0, radices.contains 0⟩

/-- The digits after the given ones; none when every digit is at its highest. -/
def advance : List Nat → List Nat → Option (List Nat)
  | radix :: radices, digit :: digits =>
      match advance radices digits with
      | some next => some (digit :: next)
      | none =>
          if digit + 1 < radix then some ((digit + 1) :: digits.map fun _ => 0) else none
  | _, _ => none

def next? (odometer : Odometer) : Option (List Nat × Odometer) :=
  if odometer.finished then none
  else
    match advance odometer.radices odometer.digits with
    | some digits => some (odometer.digits, { odometer with digits })
    | none => some (odometer.digits, { odometer with finished := true })

def take : Nat → Odometer → List (List Nat) × Odometer
  | 0, odometer => ([], odometer)
  | count + 1, odometer =>
      match odometer.next? with
      | none => ([], odometer)
      | some (digits, later) =>
          let (more, last) := take count later
          (digits :: more, last)

end Odometer

/-- A product that stops growing at `largest`. -/
def cappedProduct (largest : Nat) (factors : List Nat) : Nat :=
  factors.foldl (fun product factor => min (product * factor) largest) 1

/-- The number of combinations of some radices, as a 128-bit word that stays at its largest. -/
def spaceSize (radices : List Nat) : Nat := cappedProduct Text.maxWord128 radices

end PromptLoom
