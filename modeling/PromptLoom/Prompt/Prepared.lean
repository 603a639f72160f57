import PromptLoom.Decimal.Style
import PromptLoom.Error
import PromptLoom.NameMap
import PromptLoom.Selector

/-!
# Prepared prompts

A prepared prompt is a pair of bodies, each a list of fixed texts and slots, together with the
slots: one for each placeholder name, with the variations it may take. Choosing a variation for
every slot renders both bodies.
-/

namespace PromptLoom

open Text

set_option autoImplicit false

/-- A part of a body: fixed text, or the place of a slot. -/
inductive Segment where
  | text (text : String)
  | slot (index : Nat)
  deriving Repr, DecidableEq, Inhabited

/-- A placeholder name, its selector, and the variations that the selector took. -/
structure Slot where
  name : String
  selector : Selector
  pool : List Variation
  deriving Repr, DecidableEq, Inhabited

/-- The weight of a slot is that of its selector. -/
def Slot.weight (slot : Slot) : Nat := slot.selector.weight

/-- Both bodies with their slots, and the texts that they were made from. -/
structure Prepared where
  positive : List Segment
  negative : List Segment
  slots : List Slot
  positiveText : String
  negativeText : String
  deriving Repr, DecidableEq, Inhabited

namespace Prepared

def chosen? (prepared : Prepared) (choice : List Nat) (index : Nat) : Option Variation := do
  let position ← choice[index]?
  let slot ← prepared.slots[index]?
  slot.pool[position]?

def renderSegment (prepared : Prepared) (choice : List Nat) : Segment → String
  | .text text => text
  | .slot index => ((prepared.chosen? choice index).map Variation.value).getD ""

def renderBody (prepared : Prepared) (choice : List Nat) (segments : List Segment) : String :=
  String.join (segments.map (prepared.renderSegment choice))

def render (prepared : Prepared) (choice : List Nat) : String × String :=
  (prepared.renderBody choice prepared.positive, prepared.renderBody choice prepared.negative)

end Prepared

/-- Weights of LoRAs are written positionally with the fewest digits that read back, and a whole one
without a point. -/
def loraWeight : Decimal.Style := ⟨none, none, false, false, "inf", "NaN"⟩

def loraTag (name : String) (weight : Decimal.Binary64) : String :=
  "<lora:" ++ name ++ ":" ++ loraWeight.write weight ++ ">"

/-- The tags of the LoRAs in the order of their names, parted by the separator and a space. -/
def renderLoras (loras : NameMap Decimal.Binary64) (separator : String) : String :=
  (trimmed separator ++ " ").intercalate
    (loras.entries.map fun (name, weight) => loraTag name weight)

end PromptLoom
