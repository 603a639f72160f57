import PromptLoom.Document.Config
import PromptLoom.Draws
import PromptLoom.Text.Number

/-!
# Seeds of outputs

A run has a base seed: the declared one, or a drawn one where none is declared or it is negative.
Outputs share the base, count up from it in 64-bit words, or draw a seed each.
-/

namespace PromptLoom

set_option autoImplicit false

structure Seeds where
  mode : SeedMode
  base : Nat
  deriving Repr, DecidableEq, Inhabited

namespace Seeds

def drawBound : Nat := Text.maxWord32 + 1

def wordCount : Nat := Text.maxWord64 + 1

def start (generation : Generation) (draws : Draws) : Seeds × Draws :=
  match generation.seed with
  | some seed =>
      if 0 ≤ seed then (⟨generation.seedMode, seed.toNat⟩, draws)
      else
        let (base, draws) := draws.below drawBound
        (⟨generation.seedMode, base⟩, draws)
  | none =>
      let (base, draws) := draws.below drawBound
      (⟨generation.seedMode, base⟩, draws)

def seedFor (seeds : Seeds) (index : Nat) (draws : Draws) : Nat × Draws :=
  match seeds.mode with
  | .fixed => (seeds.base, draws)
  | .progressive => ((seeds.base + index) % wordCount, draws)
  | .random => draws.below drawBound

end Seeds

end PromptLoom
