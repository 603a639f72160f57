import PromptLoom.Generate.Combinations
import PromptLoom.Proofs.Generate.Nesting
import PromptLoom.Proofs.NameMap

/-!
# What a choice is remembered by

Where slots have distinct names, an output lists under each name the variation that its choice takes
there. The text by which a choice is remembered is made from the names and the keys alone, so two
outputs with the same keys come from choices that are remembered alike.
-/

namespace PromptLoom

set_option autoImplicit false

namespace NameMap

variable {α : Type}

theorem insert_all_absent {entries : List (String × α)} {name : String}
    (absent : name ∉ entries.map Prod.fst) (map : NameMap α) :
    (entries.foldl (fun map (name, value) => map.insert name value) map).get? name =
      map.get? name := by
  induction entries generalizing map with
  | nil => rfl
  | cons entry rest ih =>
      obtain ⟨other, value⟩ := entry
      rw [List.map_cons, List.mem_cons, not_or] at absent
      rw [List.foldl_cons, ih absent.2, get?_insert, if_neg absent.1]

theorem get_of_list {entries : List (String × α)} (once : (entries.map Prod.fst).Nodup)
    {name : String} {value : α} (member : (name, value) ∈ entries) :
    (ofList entries).get? name = some value := by
  unfold ofList
  generalize empty = map
  induction entries generalizing map with
  | nil => exact nomatch member
  | cons entry rest ih =>
      obtain ⟨fresh, restOnce⟩ := List.nodup_cons.mp once
      rcases List.mem_cons.mp member with rfl | inside
      · rw [List.foldl_cons, insert_all_absent fresh, get?_insert, if_pos rfl]
      · rw [List.foldl_cons, ih restOnce inside]

end NameMap

def Combination.keyOf (combination : Combination) (name : String) : Option String :=
  (combination.variations.get? name).map Variation.key

namespace Combinations

theorem chosen_names_sublist (slots : List Slot) (choice : List Nat) :
    (((slots.zip choice).filterMap fun (slot, position) =>
      (slot.pool[position]?).map fun variation => (slot.name, variation)).map Prod.fst).Sublist
        (slots.map Slot.name) := by
  induction slots generalizing choice with
  | nil => exact .slnil
  | cons slot slots ih =>
      cases choice with
      | nil => exact List.nil_sublist _
      | cons position choice =>
          cases taken : slot.pool[position]? with
          | none =>
              simp only [List.zip_cons_cons, List.filterMap_cons, taken, Option.map_none]
              exact (ih choice).cons slot.name
          | some variation =>
              simp only [List.zip_cons_cons, List.filterMap_cons, taken, Option.map_some]
              exact (ih choice).cons_cons slot.name

variable {slots : List Slot} (named : (slots.map Slot.name).Nodup)
include named

theorem chosen_variations_get {choice : List Nat} {index position : Nat} {slot : Slot}
    {variation : Variation} (placed : slots[index]? = some slot)
    (chosen : choice[index]? = some position) (taken : slot.pool[position]? = some variation) :
    (chosenVariations slots choice).get? slot.name = some variation := by
  apply NameMap.get_of_list (named.sublist (chosen_names_sublist slots choice))
  apply List.mem_filterMap.mpr
  refine ⟨(slot, position), ?_, by simp only [taken, Option.map_some]⟩
  exact List.mem_iff_getElem?.mpr ⟨index, List.getElem?_zip_eq_some.mpr ⟨placed, chosen⟩⟩

theorem key_at_eq {choice : List Nat} (within : Odometer.Within (Slot.poolSizes slots) choice)
    (index : Nat) {slot : Slot} (placed : slots[index]? = some slot) :
    keyAt slots choice index =
      slot.name ++ "=" ++
        (((chosenVariations slots choice).get? slot.name).map Variation.key).getD "" ++ ";" := by
  obtain ⟨position, variation, chosen, taken⟩ := Slot.variation_of_within within placed
  rw [chosen_variations_get named placed chosen taken]
  simp only [keyAt, placed, chosen, Option.bind_some, taken]

/-- Choices whose outputs have the same keys are remembered alike. -/
theorem choice_key_eq {first second : List Nat}
    (firstWithin : Odometer.Within (Slot.poolSizes slots) first)
    (secondWithin : Odometer.Within (Slot.poolSizes slots) second)
    (same : ∀ name, ((chosenVariations slots first).get? name).map Variation.key =
      ((chosenVariations slots second).get? name).map Variation.key) (order : List Nat) :
    choiceKey slots order first = choiceKey slots order second := by
  apply congrArg String.join
  apply List.map_congr_left
  intro index _
  rcases placed : slots[index]? with _ | slot
  · simp only [keyAt, placed]
  · rw [key_at_eq named firstWithin index placed, key_at_eq named secondWithin index placed,
      same slot.name]

end Combinations

end PromptLoom
