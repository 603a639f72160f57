import PromptLoom.Prompt.Resolution
import PromptLoom.Proofs.Generate.Nesting
import PromptLoom.Proofs.Prompt.Substitution

/-!
# Prepared prompts render their texts

A prompt that could be prepared has one slot for each name in its expanded bodies, and rendering a
choice puts the chosen value of its slot, the LoRA tags or nothing in the place of every placeholder
of the two texts.
-/

namespace PromptLoom

set_option autoImplicit false

namespace Prepared

def chosenFor (prepared : Prepared) (choice : List Nat) (name : String) : Option Variation :=
  (prepared.slots.findIdx? fun slot => slot.name == name).bind (prepared.chosen? choice)

def replacement (prepared : Prepared) (loras : String) (choice : List Nat) (name : String) :
    String :=
  if Placeholder.isReserved name then if name = "loras" then loras else ""
  else ((prepared.chosenFor choice name).map Variation.value).getD ""

variable (prepared : Prepared) (loras : String) (choice : List Nat)

end Prepared

theorem prepare_ready {workspace : Workspace} {separator : String} {config : ResolvedConfig}
    {scope : Scope} {resolver : Resolver} {draws : Draws} {prepared : Prepared}
    (ready : (prepare workspace separator config scope resolver draws).result = .ok prepared) :
    let first := Expansion.expandBody workspace config "prompt" config.positive
      ⟨resolver, scope, [], []⟩
    let second := Expansion.expandBody workspace config "negative-prompt" config.negative first.2
    let loras := (renderLoras config.loras separator).toList
    let positive := Cut.ofPieces config.source "prompt" loras [] [] (Piece.ofText first.1)
    let negative := Cut.ofPieces config.source "negative-prompt" loras positive.table []
      (Piece.ofText second.1)
    let filled := SlotTable.slots config.source second.2.scope negative.table draws
    positive.errors = [] ∧ negative.errors = [] ∧ filled.2.1 = [] ∧
      prepared = ⟨positive.segments, negative.segments, filled.1, first.1, second.1⟩ := by
  intro first second loras positive negative filled
  simp only [prepare] at ready
  split at ready
  · next clean =>
      rw [List.isEmpty_iff, List.append_eq_nil_iff, List.append_eq_nil_iff,
        List.append_eq_nil_iff] at clean
      obtain ⟨⟨⟨_, cleanPositive⟩, cleanNegative⟩, cleanSlots⟩ := clean
      exact ⟨cleanPositive, cleanNegative, cleanSlots, (Except.ok.inj ready).symm⟩
  · exact nomatch ready

theorem prepare_expanded {workspace : Workspace} {separator : String} {config : ResolvedConfig}
    {scope : Scope} {resolver : Resolver} {draws : Draws} {prepared : Prepared}
    (ready : (prepare workspace separator config scope resolver draws).result = .ok prepared) :
    let first := Expansion.expandBody workspace config "prompt" config.positive
      ⟨resolver, scope, [], []⟩
    (Expansion.expandBody workspace config "negative-prompt" config.negative first.2).2.errors =
      [] := by
  simp only [prepare] at ready
  split at ready
  · next clean =>
      rw [List.isEmpty_iff, List.append_eq_nil_iff, List.append_eq_nil_iff,
        List.append_eq_nil_iff] at clean
      exact clean.1.1.1
  · cases ready

section Ready

variable {workspace : Workspace} {separator : String} {config : ResolvedConfig} {scope : Scope}
  {resolver : Resolver} {draws : Draws} {prepared : Prepared}
  (ready : (prepare workspace separator config scope resolver draws).result = .ok prepared)
include ready

theorem prepare_table :
    let first := Expansion.expandBody workspace config "prompt" config.positive
      ⟨resolver, scope, [], []⟩
    let second := Expansion.expandBody workspace config "negative-prompt" config.negative first.2
    ∃ table : SlotTable,
      table.Describes
        (placeholders prepared.positiveText ++ placeholders prepared.negativeText) ∧
      List.Forall₂ (SlotTable.Fills second.2.scope draws.values) table prepared.slots := by
  intro first second
  obtain ⟨cleanPositive, cleanNegative, cleanSlots, rfl⟩ := prepare_ready ready
  have seen := Cut.of_pieces_describes SlotTable.Describes.nothing cleanPositive
  exact ⟨_, Cut.of_pieces_describes seen cleanNegative, SlotTable.slots_fill cleanSlots⟩

theorem prepare_shown {slotText : Nat → String} {replacement : String → String}
    (loraTags : replacement "loras" = renderLoras config.loras separator)
    (silent : ∀ name, Placeholder.isReserved name = true → name ≠ "loras" → replacement name = "")
    (agrees : ∀ index name,
      (SlotTable.slotNames (placeholders prepared.positiveText ++
        placeholders prepared.negativeText))[index]? = some name →
      slotText index = replacement name) :
    (∀ index, .slot index ∈ prepared.positive ++ prepared.negative →
      index < (SlotTable.slotNames (placeholders prepared.positiveText ++
        placeholders prepared.negativeText)).length) ∧
    String.ofList (prepared.positive.flatMap (Segment.shown slotText)) =
      substituted replacement prepared.positiveText ∧
    String.ofList (prepared.negative.flatMap (Segment.shown slotText)) =
      substituted replacement prepared.negativeText := by
  obtain ⟨cleanPositive, cleanNegative, _, rfl⟩ := prepare_ready ready
  have lorasShown := congrArg String.toList loraTags
  obtain ⟨seen, -⟩ := SlotTable.describes_iff.mp
    (Cut.of_pieces_describes SlotTable.Describes.nothing cleanPositive)
  obtain ⟨boundedPositive, shownPositive⟩ := Cut.of_pieces_shown SlotTable.Notes.nothing
    cleanPositive (SlotTable.slot_names_append _ _) lorasShown silent agrees
  obtain ⟨boundedNegative, shownNegative⟩ := Cut.of_pieces_shown seen cleanNegative
    (List.prefix_refl _) lorasShown silent agrees
  refine ⟨?_, ?_, ?_⟩
  · intro index member
    rcases List.mem_append.mp member with positive | negative
    · exact boundedPositive index positive
    · exact boundedNegative index negative
  · exact congrArg String.ofList shownPositive
  · exact congrArg String.ofList shownNegative

end Ready

def paintedConfig : ResolvedConfig where
  source := ⟨"p.yml"⟩
  name := ""
  parameters := .empty
  imports := .empty
  chunks := .empty
  loras := .ofList [("x", .ofRatio false 1 2)]
  positive := "\x7bhue\x7d \x7bmood[ #1 ]\x7d\x7bloras\x7d"
  negative := "\x7bprompt\x7d\x7bmood\x7d\x7bhue[r;$2]\x7d"
  generation := none

end PromptLoom
