import PromptLoom.Proofs.Prompt.Expansion
import PromptLoom.Proofs.Prompt.Loading
import PromptLoom.Proofs.Prompt.Preparation

/-!
# Selectors are compared as they are written

Nothing but cutting the expanded bodies reports selectors that conflict. So a preparation reports the
conflicts among all placeholders of the expanded bodies and no others: selectors that mean different
things always conflict, but selectors that mean the same may conflict too.
-/

namespace PromptLoom

set_option autoImplicit false

/-- No error is about two selectors under one name. -/
def Unclashing (errors : List DocumentError) : Prop :=
  ∀ error ∈ errors, ∀ name first second, error.cause ≠ .conflictingSelectors name first second

theorem Unclashing.append {errors more : List DocumentError} (one : Unclashing errors)
    (other : Unclashing more) : Unclashing (errors ++ more) := by
  intro error member
  rcases List.mem_append.mp member with left | right
  · exact one error left
  · exact other error right

theorem Unclashing.snoc {errors : List DocumentError} {error : DocumentError}
    (before : Unclashing errors)
    (last : ∀ name first second, error.cause ≠ .conflictingSelectors name first second) :
    Unclashing (errors ++ [error]) :=
  before.append fun _ member => List.mem_singleton.mp member ▸ last

theorem not_conflict_of_category_ne {error : DocumentError} (other : error.category ≠ .template)
    (name first second : String) : error.cause ≠ .conflictingSelectors name first second := by
  intro same
  rw [DocumentError.category, same] at other
  exact other rfl

theorem fill_unclashing (chunk : ResolvedChunk) (ref : ChunkRef) (own caller : Scope) :
    Unclashing (Chunk.fill chunk ref own caller).2 := by
  intro error member name first second
  cases Chunk.fill_fault member <;> exact nofun

namespace Expansion

variable {workspace : Workspace} {config : ResolvedConfig} {field : String}

theorem expand_ref_unclashing {state : Expansion} (ref : ChunkRef)
    (before : Unclashing state.errors) :
    Unclashing (expandRef workspace config field state ref).2.errors := by
  unfold expandRef
  split
  · exact before.snoc nofun
  split
  · next unopened =>
      exact before.snoc (not_conflict_of_category_ne (open_chunk_category (congrArg Prod.fst unopened)))
  split
  · next unresolved =>
      have loads := Scope.resolve_loads (congrArg Prod.fst unresolved)
      exact before.append fun error member => not_conflict_of_category_ne (loads error member)
  · exact before.append (fill_unclashing _ ref _ _)

/-- Expanding mentions reports no selectors: they are compared in the expanded bodies only. -/
theorem expand_parts_unclashing {state : Expansion} (parts : List BodyPart)
    (before : Unclashing state.errors) :
    Unclashing (expandParts workspace config field state parts).2.errors := by
  refine expand_parts_keeps (fun state => Unclashing state.errors) ?_ ?_ parts before
  · intro state problem unclashing
    exact unclashing.snoc nofun
  · intro state ref unclashing
    exact expand_ref_unclashing ref unclashing

end Expansion

/-- A preparation fails with an error of some cause, among others. -/
def Preparation.Reports (done : Preparation) (cause : Cause) : Prop :=
  ∃ errors, done.result = .error errors ∧ ∃ error ∈ errors, error.cause = cause

theorem reports_iff {value : Prepared} {found : List DocumentError} {resolver : Resolver}
    {warnings : List Finding} {draws : Draws} {cause : Cause} :
    (Preparation.mk (if found.isEmpty then .ok value else .error found) resolver warnings
        draws).Reports cause ↔ ∃ error ∈ found, error.cause = cause := by
  constructor
  · rintro ⟨errors, failed, met⟩
    rwa [reported failed]
  · rintro ⟨error, member, same⟩
    have some : found.isEmpty = false :=
      List.isEmpty_eq_false_iff.mpr (List.ne_nil_of_mem member)
    exact ⟨found, by rw [some]; rfl, error, member, same⟩

section Prepare

variable {workspace : Workspace} {separator : String} {config : ResolvedConfig} {scope : Scope}
  {resolver : Resolver} {draws : Draws}

theorem prepare_clashes {name one other : String} :
    let first := Expansion.expandBody workspace config "prompt" config.positive
      ⟨resolver, scope, [], []⟩
    let second := Expansion.expandBody workspace config "negative-prompt" config.negative first.2
    (prepare workspace separator config scope resolver draws).Reports
        (.conflictingSelectors name one other) ↔
      SlotTable.Clash (placeholders first.1 ++ placeholders second.1) name one other := by
  intro first second
  let loras := (renderLoras config.loras separator).toList
  let positive := Cut.ofPieces config.source "prompt" loras [] [] (Piece.ofText first.1)
  let negative := Cut.ofPieces config.source "negative-prompt" loras positive.table []
    (Piece.ofText second.1)
  let filled := SlotTable.slots config.source second.2.scope negative.table draws
  have expanded : Unclashing second.2.errors :=
    Expansion.expand_parts_unclashing _ (Expansion.expand_parts_unclashing _ nofun)
  have unfilled : Unclashing filled.2.1 := by
    intro error member name one other same
    obtain ⟨entry, -, fault⟩ := SlotTable.slots_fault member
    rw [same] at fault
    cases fault
  obtain ⟨seen, early⟩ : positive.table.Notes (placeholders first.1) ∧
      ∀ name one other, SlotTable.Clash (placeholders first.1) name one other ↔
        SlotTable.Clash [] name one other ∨
          ∃ error ∈ positive.errors, error.cause = .conflictingSelectors name one other :=
    Cut.of_pieces_clashes SlotTable.Notes.nothing
  obtain ⟨-, late⟩ : _ ∧ ∀ name one other,
      SlotTable.Clash (placeholders first.1 ++ placeholders second.1) name one other ↔
        SlotTable.Clash (placeholders first.1) name one other ∨
          ∃ error ∈ negative.errors, error.cause = .conflictingSelectors name one other :=
    Cut.of_pieces_clashes seen
  have all : (prepare workspace separator config scope resolver draws).Reports
      (.conflictingSelectors name one other) ↔
      ∃ error ∈ second.2.errors ++ positive.errors ++ negative.errors ++ filled.2.1,
        error.cause = .conflictingSelectors name one other := reports_iff
  rw [all, late, early, or_iff_right SlotTable.no_clash]
  simp only [List.mem_append, or_and_right, exists_or]
  constructor
  · rintro (((⟨error, member, same⟩ | met) | met) | ⟨error, member, same⟩)
    · cases expanded error member name one other same
    · exact .inl met
    · exact .inr met
    · cases unfilled error member name one other same
  · rintro (met | met)
    · exact .inl (.inl (.inr met))
    · exact .inl (.inr met)

theorem prepared_selector {prepared : Prepared} {name : String}
    (ready : (prepare workspace separator config scope resolver draws).result = .ok prepared)
    (free : Placeholder.isReserved name = false) :
    let occurrences := placeholders prepared.positiveText ++ placeholders prepared.negativeText
    (∃ found ∈ occurrences, found.name = name) →
    (prepared.slots.map Slot.name).count name = 1 ∧
      ∀ slot ∈ prepared.slots, slot.name = name →
        (∀ text ∈ SlotTable.texts name occurrences, Selector.parse text = .ok slot.selector) ∧
        (SlotTable.texts name occurrences = [] → Selector.parse "" = .ok slot.selector) := by
  intro occurrences written
  obtain ⟨table, known, filled⟩ := prepare_table ready
  obtain ⟨notes, consistent⟩ := SlotTable.describes_iff.mp known
  have listed : prepared.slots.map Slot.name = SlotTable.slotNames occurrences :=
    (SlotTable.filled_names filled).trans known.names
  constructor
  · rw [listed]
    exact List.count_eq_one_of_mem (SlotTable.slot_names_once occurrences)
      (SlotTable.mem_slot_names.mpr ⟨written, free⟩)
  · rintro slot member rfl
    obtain ⟨entry, inside, same, -, set, -, parsed, -⟩ := SlotTable.filled_from filled member
    rw [notes.taken entry inside, ← same] at parsed
    constructor
    · intro text among
      obtain ⟨first, early, head⟩ := mem_head among
      rw [head] at parsed
      rwa [SlotTable.consistent_iff.mp consistent slot.name free text among first early]
    · intro nothing
      rw [nothing] at parsed
      exact parsed

end Prepare

/-- Selectors are compared as they are written. A preparation reports a conflict under a name for the
first selector written there and every other text, in whichever body and from whichever chunk; so
selectors that mean different things always conflict. And where a prompt could be prepared every name
has one slot, with the selector that all its texts mean. -/
theorem selectors_compared_as_written (workspace : Workspace) (separator : String)
    (config : ResolvedConfig) (scope : Scope) (resolver : Resolver) (draws : Draws) :
    let first := Expansion.expandBody workspace config "prompt" config.positive
      ⟨resolver, scope, [], []⟩
    let second := Expansion.expandBody workspace config "negative-prompt" config.negative first.2
    let occurrences := placeholders first.1 ++ placeholders second.1
    let done := prepare workspace separator config scope resolver draws
    (∀ name one other, done.Reports (.conflictingSelectors name one other) ↔
      Placeholder.isReserved name = false ∧
        (SlotTable.texts name occurrences).head? = some one ∧
        other ∈ SlotTable.texts name occurrences ∧ one ≠ other) ∧
    (∀ name, Placeholder.isReserved name = false →
      ((∃ one other, done.Reports (.conflictingSelectors name one other)) ↔
        ∃ one ∈ SlotTable.texts name occurrences, ∃ other ∈ SlotTable.texts name occurrences,
          one ≠ other) ∧
      ((∃ one ∈ SlotTable.texts name occurrences, ∃ other ∈ SlotTable.texts name occurrences,
          Selector.parse one ≠ Selector.parse other) →
        ∃ one other, done.Reports (.conflictingSelectors name one other))) ∧
    ∀ prepared, done.result = .ok prepared →
      ∀ name, Placeholder.isReserved name = false → (∃ found ∈ occurrences, found.name = name) →
        (prepared.slots.map Slot.name).count name = 1 ∧
          ∀ slot ∈ prepared.slots, slot.name = name →
            (∀ text ∈ SlotTable.texts name occurrences, Selector.parse text = .ok slot.selector) ∧
            (SlotTable.texts name occurrences = [] → Selector.parse "" = .ok slot.selector) := by
  intro first second occurrences done
  have clashes : ∀ name one other, done.Reports (.conflictingSelectors name one other) ↔
      SlotTable.Clash occurrences name one other := fun _ _ _ => prepare_clashes
  have differ : ∀ name, Placeholder.isReserved name = false →
      ((∃ one other, done.Reports (.conflictingSelectors name one other)) ↔
        ∃ one ∈ SlotTable.texts name occurrences, ∃ other ∈ SlotTable.texts name occurrences,
          one ≠ other) := by
    intro name free
    simp only [clashes, SlotTable.clash_iff, free, true_and]
  refine ⟨?_, ?_, ?_⟩
  · intro name one other
    rw [clashes]
    exact ⟨fun clash => ⟨clash.free, clash.head, clash.among, clash.differ⟩,
      fun ⟨free, head, among, different⟩ => ⟨free, head, among, different⟩⟩
  · intro name free
    refine ⟨differ name free, ?_⟩
    rintro ⟨one, oneAmong, other, otherAmong, meaning⟩
    exact (differ name free).mpr
      ⟨one, oneAmong, other, otherAmong, fun same => meaning (congrArg Selector.parse same)⟩
  · intro prepared ready name free written
    obtain ⟨_, _, _, made⟩ := prepare_ready ready
    have texts : placeholders prepared.positiveText ++ placeholders prepared.negativeText =
        occurrences := by
      rw [made]
    have selected := prepared_selector ready free
    rw [texts] at selected
    exact selected written

def respelledConfig : ResolvedConfig :=
  { paintedConfig with positive := "{Hair[red;$2]} {Hair[$2;red]}", negative := "" }

def respelledScope : Scope := .ofList [("Hair", .ofList [("red", "red hair")])]

theorem respelled_selectors_conflict :
    ¬ ∀ (workspace : Workspace) (separator : String) (config : ResolvedConfig) (scope : Scope)
      (resolver : Resolver) (draws : Draws) (name : String) (selector : Selector),
      let first := Expansion.expandBody workspace config "prompt" config.positive
        ⟨resolver, scope, [], []⟩
      let second := Expansion.expandBody workspace config "negative-prompt" config.negative first.2
      (∀ text ∈ SlotTable.texts name (placeholders first.1 ++ placeholders second.1),
        Selector.parse text = .ok selector) →
      ∀ one other, ¬ (prepare workspace separator config scope resolver draws).Reports
        (.conflictingSelectors name one other) := by
  intro claimed
  let first := Expansion.expandBody ⟨.empty, []⟩ respelledConfig "prompt" respelledConfig.positive
    ⟨.start .empty, respelledScope, [], []⟩
  let second := Expansion.expandBody ⟨.empty, []⟩ respelledConfig "negative-prompt"
    respelledConfig.negative first.2
  have written : SlotTable.texts "Hair" (placeholders first.1 ++ placeholders second.1) =
      ["red;$2", "$2;red"] := by
    decide +kernel
  have alike : ∀ text ∈ SlotTable.texts "Hair" (placeholders first.1 ++ placeholders second.1),
      Selector.parse text = .ok ⟨.keys ["red"], some 2⟩ := by
    rw [written]
    decide +kernel
  have clash : SlotTable.Clash (placeholders first.1 ++ placeholders second.1) "Hair" "red;$2"
      "$2;red" :=
    ⟨by decide, by rw [written]; rfl, by rw [written]; decide, by decide⟩
  exact claimed ⟨.empty, []⟩ "," respelledConfig respelledScope (.start .empty) (.seeded 0) "Hair" _
    alike "red;$2" "$2;red" (prepare_clashes.mpr clash)

end PromptLoom
