import PromptLoom.Generate.Odometer
import PromptLoom.Prompt.Prepared

/-!
# Nested loops over slots

Slots with a positive weight are nested loops, those with a low weight outside; equal weights keep
the order of the slots. Slots of weight zero are no loops.
-/

namespace PromptLoom

set_option autoImplicit false

namespace Slot

def poolSize (slots : List Slot) (index : Nat) : Nat :=
  ((slots[index]?).map fun slot => slot.pool.length).getD 0

def weightAt (slots : List Slot) (index : Nat) : Nat := ((slots[index]?).map weight).getD 0

/-- The indexes of the loops, outermost first. -/
def nestingOrder (slots : List Slot) : List Nat :=
  ((List.range slots.length).filter fun index => 0 < weightAt slots index).mergeSort
    fun first second => decide (weightAt slots first ≤ weightAt slots second)

def sampledIndexes (slots : List Slot) : List Nat :=
  (List.range slots.length).filter fun index => weightAt slots index == 0

def loopSizes (slots : List Slot) : List Nat := (nestingOrder slots).map (poolSize slots)

def poolSizes (slots : List Slot) : List Nat := slots.map fun slot => slot.pool.length

def combinatorialSpace (slots : List Slot) : Nat := spaceSize (loopSizes slots)

def randomSpace (slots : List Slot) : Nat := spaceSize (poolSizes slots)

def byName (slots : List Slot) : List Nat :=
  let nameAt (index : Nat) := ((slots[index]?).map Slot.name).getD ""
  (List.range slots.length).mergeSort fun first second => decide (nameAt first ≤ nameAt second)

end Slot

end PromptLoom
