import PromptLoom.Proofs.Prompt.Preparation

/-!
# When a prompt can be prepared

Cutting bodies and filling slots fails for three reasons only: two selectors written under one name,
a name that stands for nothing, and a selector that is malformed or takes nothing. None of them
depends on the order in which the placeholders are written, nor on the draws.
-/

namespace PromptLoom

set_option autoImplicit false

/-- A name stands for a set, and what is written under it takes something from the set. -/
def Scope.Serves (scope : Scope) (occurrences : List Placeholder) (name : String) : Prop :=
  ∃ text set selector,
    (∀ written, (∃ occurrence ∈ occurrences, occurrence.name = name ∧
      SlotTable.written occurrence.selector = some written) ↔ text = some written) ∧
    scope.get? name = some set ∧ Selector.parse (text.getD "") = .ok selector ∧
    ∀ draws : Draws, (selector.select set draws).1 ≠ []

structure Scope.Ready (scope : Scope) (occurrences : List Placeholder) : Prop where
  consistent : SlotTable.Consistent occurrences
  served : ∀ occurrence ∈ occurrences, Placeholder.isReserved occurrence.name = false →
    scope.Serves occurrences occurrence.name

/-- Being ready is a matter of which placeholders are written and of what the names stand for. -/
theorem Scope.Ready.congr {scope other : Scope} {occurrences others : List Placeholder}
    (ready : scope.Ready occurrences) (written : ∀ found, found ∈ occurrences ↔ found ∈ others)
    (known : ∀ name, scope.get? name = other.get? name) : other.Ready others where
  consistent := by
    intro first firstMember second secondMember
    exact ready.consistent first ((written first).mpr firstMember) second
      ((written second).mpr secondMember)
  served := by
    intro found member free
    obtain ⟨text, set, selector, taken, stands, parsed, fills⟩ :=
      ready.served found ((written found).mpr member) free
    refine ⟨text, set, selector, ?_, (known _).symm.trans stands, parsed, fills⟩
    intro selectorText
    rw [← taken]
    simp only [written]

theorem Selector.select_some (selector : Selector) (set : VariationSet) {draws : Draws}
    (taken : (selector.select set draws).1 ≠ []) (other : Draws) :
    (selector.select set other).1 ≠ [] := by
  rcases selector.select_agrees set draws other with same | ⟨count, _, size, otherSize⟩
  · rw [← same]
    exact taken
  · intro nothing
    rw [nothing] at otherSize
    exact taken (List.length_eq_zero_iff.mp (size.trans otherSize.symm))

namespace SlotTable

theorem Consistent.before {occurrences more : List Placeholder}
    (consistent : Consistent (occurrences ++ more)) : Consistent occurrences := by
  intro first firstMember second secondMember
  exact consistent first (List.mem_append_left _ firstMember) second
    (List.mem_append_left _ secondMember)

theorem Describes.entry_written {table : SlotTable} {occurrences : List Placeholder}
    (known : table.Describes occurrences) {entry : SlotEntry} (member : entry ∈ table) :
    (∃ occurrence ∈ occurrences, occurrence.name = entry.name) ∧
      Placeholder.isReserved entry.name = false := by
  apply mem_slot_names.mp
  rw [← known.names]
  exact List.mem_map_of_mem member

theorem slot_of_served {scope : Scope} {occurrences : List Placeholder} {entry : SlotEntry}
    (served : scope.Serves occurrences entry.name)
    (taken : ∀ text, entry.selector = some text ↔
      ∃ occurrence ∈ occurrences, occurrence.name = entry.name ∧
        written occurrence.selector = some text) (draws : Draws) :
    ∃ slot later, slotOf scope entry draws = (.ok slot, later) := by
  obtain ⟨text, set, selector, wrote, stands, parsed, fills⟩ := served
  have same : entry.selector = text := by
    apply Option.ext
    intro selectorText
    exact (taken selectorText).trans (wrote selectorText)
  have some : (selector.select set draws).1.isEmpty = false :=
    List.isEmpty_eq_false_iff.mpr (fills draws)
  unfold slotOf
  simp only [stands, same, parsed, some, Bool.not_false, if_true]
  exact ⟨_, _, rfl⟩

theorem slots_served {scope : Scope} {occurrences : List Placeholder} {table : SlotTable}
    (file : Path)
    (served : ∀ entry ∈ table, scope.Serves occurrences entry.name)
    (taken : ∀ entry ∈ table, ∀ text, entry.selector = some text ↔
      ∃ occurrence ∈ occurrences, occurrence.name = entry.name ∧
        written occurrence.selector = some text) (draws : Draws) :
    (table.slots file scope draws).2.1 = [] := by
  induction table generalizing draws with
  | nil => rfl
  | cons entry rest ih =>
      obtain ⟨first, others⟩ := List.forall_mem_cons.mp served
      obtain ⟨firstTaken, othersTaken⟩ := List.forall_mem_cons.mp taken
      obtain ⟨slot, later, made⟩ := slot_of_served first firstTaken draws
      simp only [slots, made]
      exact ih others othersTaken later

end SlotTable

section Prepare

variable {workspace : Workspace} {separator : String} {config : ResolvedConfig} {scope : Scope}
  {resolver : Resolver} {draws : Draws}

/-- A prompt can be prepared if its mentions expand without an error and slots can be made for the
placeholders of the expanded bodies, and only then. -/
theorem prepare_succeeds_iff :
    let first := Expansion.expandBody workspace config "prompt" config.positive
      ⟨resolver, scope, [], []⟩
    let second := Expansion.expandBody workspace config "negative-prompt" config.negative first.2
    (prepare workspace separator config scope resolver draws).result.isOk = true ↔
      second.2.errors = [] ∧
        second.2.scope.Ready (placeholders first.1 ++ placeholders second.1) := by
  intro first second
  constructor
  · intro succeeds
    rcases ready : (prepare workspace separator config scope resolver draws).result
      with errors | prepared
    · rw [ready] at succeeds
      cases succeeds
    obtain ⟨_, _, _, made⟩ := prepare_ready ready
    obtain ⟨table, known, filled⟩ := prepare_table ready
    have texts : placeholders prepared.positiveText ++ placeholders prepared.negativeText =
        placeholders first.1 ++ placeholders second.1 := by
      rw [made]
    rw [texts] at known
    refine ⟨?_, (SlotTable.describes_iff.mp known).2, ?_⟩
    · exact prepare_expanded ready
    · intro found member free
      have listed : found.name ∈ table.map SlotEntry.name := by
        rw [known.names]
        exact SlotTable.mem_slot_names.mpr ⟨⟨found, member, rfl⟩, free⟩
      rw [← SlotTable.filled_names filled] at listed
      obtain ⟨slot, inside, name⟩ := List.mem_map.mp listed
      obtain ⟨entry, entryMember, same, some, set, stands, parsed, source, _, pool⟩ :=
        SlotTable.filled_from filled inside
      rw [← name, same]
      refine ⟨entry.selector, set, slot.selector, ?_, stands, parsed, ?_⟩
      · intro text
        exact (known.selectors entry entryMember text).symm
      · rw [pool] at some
        exact slot.selector.select_some set some
  · rintro ⟨clean, ready⟩
    let loras := (renderLoras config.loras separator).toList
    let positive := Cut.ofPieces config.source "prompt" loras [] [] (Piece.ofText first.1)
    let negative := Cut.ofPieces config.source "negative-prompt" loras positive.table []
      (Piece.ofText second.1)
    have positiveClean : positive.errors = [] :=
      (Cut.of_pieces_clean_iff .nothing).mpr ready.consistent.before
    have seen := Cut.of_pieces_describes .nothing positiveClean
    have negativeClean : negative.errors = [] :=
      (Cut.of_pieces_clean_iff seen).mpr ready.consistent
    have known : negative.table.Describes (placeholders first.1 ++ placeholders second.1) :=
      Cut.of_pieces_describes seen negativeClean
    have served : ∀ entry ∈ negative.table,
        second.2.scope.Serves (placeholders first.1 ++ placeholders second.1) entry.name := by
      intro entry member
      obtain ⟨⟨found, inside, same⟩, free⟩ := known.entry_written member
      rw [← same] at free ⊢
      exact ready.served found inside free
    have slotsClean :
        (SlotTable.slots config.source second.2.scope negative.table draws).2.1 = [] :=
      SlotTable.slots_served config.source served known.selectors draws
    have nothing : second.2.errors ++ positive.errors ++ negative.errors ++
        (SlotTable.slots config.source second.2.scope negative.table draws).2.1 = [] := by
      rw [clean, positiveClean, negativeClean, slotsClean]
      rfl
    unfold prepare
    change Except.isOk (if (second.2.errors ++ positive.errors ++ negative.errors ++
      (SlotTable.slots config.source second.2.scope negative.table draws).2.1).isEmpty then _
      else _) = true
    rw [nothing]
    rfl

end Prepare

end PromptLoom
