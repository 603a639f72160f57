/-!
# Random draws

A source of randomness is an unending sequence of numbers with the count of those already used.
Nothing in this library depends on which sequence it is, so every statement about a run is one about
all sequences.
-/

namespace PromptLoom

set_option autoImplicit false

/-- An unending sequence of numbers, and how many of them are used up. -/
structure Draws where
  values : Nat → Nat
  used : Nat

namespace Draws

/-- A number below `bound`; zero when there is none. -/
def below (draws : Draws) (bound : Nat) : Nat × Draws :=
  (draws.values draws.used % bound, { draws with used := draws.used + 1 })

/-- `count` members of a list without repetition, in the order in which they are drawn. -/
def sample {α : Type} : Nat → List α → Draws → List α × Draws
  | 0, _, draws => ([], draws)
  | _ + 1, [], draws => ([], draws)
  | count + 1, x :: xs, draws =>
      let (index, draws) := draws.below (x :: xs).length
      let chosen := ((x :: xs)[index]?).getD x
      let (others, draws) := sample count ((x :: xs).eraseIdx index) draws
      (chosen :: others, draws)

def belowEach : List Nat → Draws → List Nat × Draws
  | [], draws => ([], draws)
  | bound :: bounds, draws =>
      let (value, draws) := draws.below bound
      let (values, draws) := belowEach bounds draws
      (value :: values, draws)

def scramble (word : UInt64) : UInt64 :=
  let a := (word ^^^ (word >>> 30)) * 0xbf58476d1ce4e5b9
  let b := (a ^^^ (a >>> 27)) * 0x94d049bb133111eb
  b ^^^ (b >>> 31)

def seeded (seed : Nat) : Draws :=
  ⟨fun index => (scramble (seed.toUInt64 + (index + 1).toUInt64 * 0x9e3779b97f4a7c15)).toNat, 0⟩

theorem below_lt (draws : Draws) {bound : Nat} (positive : 0 < bound) :
    (draws.below bound).1 < bound := Nat.mod_lt _ positive

end Draws

end PromptLoom
