import Mathlib.Data.List.Sort
import PromptLoom.Generate.Combinations
import PromptLoom.Proofs.Generate.Odometer
import PromptLoom.Proofs.Lists

/-!
# The choices of nested loops

The loops of a run are its slots with a positive weight, by ascending weight and then by position.
A turn of the loops chooses a variation for every slot: the digits of the turn at the loops, and a
draw at every other slot.
-/

namespace PromptLoom

set_option autoImplicit false

namespace Slot

theorem pool_sizes_pos {slots : List Slot} (filled : ∀ slot ∈ slots, slot.pool ≠ []) :
    ∀ size ∈ poolSizes slots, 0 < size := by
  intro size member
  obtain ⟨slot, inside, rfl⟩ := List.mem_map.mp member
  exact List.length_pos_iff.mpr (filled slot inside)

/-- The capped number of choices is exact as long as it is a 128-bit word. -/
theorem random_space_eq (slots : List Slot) :
    randomSpace slots = min (poolSizes slots).prod Text.maxWord128 :=
  capped_product_eq Text.maxWord128 (by decide) (poolSizes slots)

theorem variation_of_within {slots : List Slot} {choice : List Nat}
    (within : Odometer.Within (poolSizes slots) choice) {index : Nat} {slot : Slot}
    (placed : slots[index]? = some slot) :
    ∃ position variation, choice[index]? = some position ∧
      slot.pool[position]? = some variation := by
  obtain ⟨inSlots, here⟩ := List.getElem?_eq_some_iff.mp placed
  have fits : choice.length = slots.length := by
    rw [within.length_eq, poolSizes, List.length_map]
  have inChoice : index < choice.length := fits ▸ inSlots
  have small : choice[index] < slot.pool.length := by
    have below := within.get inChoice (by rwa [← within.length_eq])
    simpa [poolSizes, here] using below
  exact ⟨_, _, List.getElem?_eq_getElem inChoice, List.getElem?_eq_getElem small⟩

end Slot

namespace Draws

theorem below_each_within {bounds : List Nat} (positive : ∀ bound ∈ bounds, 0 < bound)
    (draws : Draws) : Odometer.Within bounds (draws.belowEach bounds).1 := by
  induction bounds generalizing draws with
  | nil => exact .nil
  | cons bound bounds ih =>
      have rest : ∀ other ∈ bounds, 0 < other := fun other member =>
        positive other (List.mem_cons_of_mem bound member)
      exact .cons (draws.below_lt (positive bound List.mem_cons_self)) (ih rest _)

end Draws

namespace Combinations

end Combinations

end PromptLoom
