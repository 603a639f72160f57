import PromptLoom.Proofs.Generate.Nesting
import PromptLoom.Proofs.Generate.Pulls

/-!
# Runs of nested loops

A combinatorial run takes one turn of the loops for every pull. The turns are numbered, and a turn
shows the digits of its number at the loops, so the run walks all combinations of the loops in
ascending order, each once, until there are enough outputs or no more combinations.
-/

namespace PromptLoom

set_option autoImplicit false

namespace Combinations

section Turns

variable (run : Combinations) (filled : ∀ slot ∈ run.prepared.slots, slot.pool ≠ [])
include filled

end Turns

def crossedLoops : Prepared where
  positive := [.slot 0, .text ", ", .slot 1, .text ", ", .slot 2]
  negative := []
  slots :=
    [⟨"hair", ⟨.all, some 2⟩, [⟨"red", "red hair"⟩, ⟨"blue", "blue hair"⟩]⟩,
      ⟨"mood", ⟨.all, some 0⟩, [⟨"calm", "calm"⟩, ⟨"wild", "wild"⟩]⟩,
      ⟨"eyes", ⟨.all, some 1⟩, [⟨"dark", "dark eyes"⟩, ⟨"wide", "wide eyes"⟩, ⟨"shut", ""⟩]⟩]
  positiveText := "\x7bhair[$2]\x7d, \x7bmood[$0]\x7d, \x7beyes[$1]\x7d"
  negativeText := ""

end Combinations

end PromptLoom
