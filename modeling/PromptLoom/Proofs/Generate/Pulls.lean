import PromptLoom.Generate.Combinations

/-!
# Pulling outputs one after another

A run is followed pull by pull. An output is made of nothing but the prepared prompt, the separator,
its index, its seed and its choice, so a statement about the choices of a run is one about its
outputs.
-/

namespace PromptLoom

set_option autoImplicit false

/-- The seeds that the output with an index may have. -/
def Seeds.Gives (seeds : Seeds) (index seed : Nat) : Prop :=
  match seeds.mode with
  | .fixed => seed = seeds.base
  | .progressive => seed = (seeds.base + index) % wordCount
  | .random => seed < drawBound

theorem Seeds.seed_for_gives (seeds : Seeds) (index : Nat) (draws : Draws) :
    seeds.Gives index (seeds.seedFor index draws).1 := by
  unfold Gives seedFor
  cases seeds.mode with
  | fixed => rfl
  | progressive => rfl
  | random => exact draws.below_lt (Nat.succ_pos _)

namespace Combinations

def afterPulls (run : Combinations) : Nat → Combinations
  | 0 => run
  | count + 1 => (run.afterPulls count).pull.2

def output? (run : Combinations) (count : Nat) : Option Combination :=
  (run.afterPulls count).pull.1

def combinationOf (prepared : Prepared) (separator : String) (index seed : Nat)
    (choice : List Nat) : Combination where
  index
  positive := Text.Layout.normalize (prepared.render choice).1 separator
  negative := Text.Layout.normalize (prepared.render choice).2 separator
  seed
  variations := chosenVariations prepared.slots choice

theorem none_empty {slots : List Slot} (filled : ∀ slot ∈ slots, slot.pool ≠ []) :
    (slots.any fun slot => slot.pool.isEmpty) = false := by
  rw [List.any_eq_false]
  intro slot member
  rw [List.isEmpty_iff]
  exact filled slot member

theorem pull_found {run later : Combinations} {choice : List Nat}
    (incomplete : run.isComplete = false) (found : run.choose = (some choice, later)) :
    ∃ seed, later.seeds.Gives later.emitted seed ∧
      run.pull =
        (some (combinationOf later.prepared later.separator later.emitted seed choice),
          { later with
            draws := (later.seeds.seedFor later.emitted later.draws).2
            emitted := later.emitted + 1 }) := by
  refine ⟨_, later.seeds.seed_for_gives later.emitted later.draws, ?_⟩
  simp only [pull, incomplete, Bool.false_eq_true, if_false, found]
  rfl

/-- Where a pull gives nothing and leaves the run as it is, so do all later ones. -/
theorem after_pulls_settled {run : Combinations} {count : Nat}
    (settled : (run.afterPulls count).pull = (none, run.afterPulls count)) {later : Nat}
    (notBefore : count ≤ later) : run.afterPulls later = run.afterPulls count := by
  induction notBefore with
  | refl => rfl
  | step _ ih => rw [afterPulls, ih, settled]

end Combinations

end PromptLoom
