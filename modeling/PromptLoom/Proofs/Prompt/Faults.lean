import PromptLoom.Prompt.Resolution
import PromptLoom.Proofs.Chunk.Filling
import PromptLoom.Proofs.NameMap
import PromptLoom.Proofs.Prompt.Clashes

/-!
# What can be wrong with bodies

Every error of filling a chunk goes back to one of its placeholders, every error of cutting bodies
into slots to one name. They are all of the template category.
-/

namespace PromptLoom

set_option autoImplicit false

/-- Every error is about placeholders, mentions, selectors or values. -/
def AllTemplate (errors : List DocumentError) : Prop :=
  ∀ error ∈ errors, error.category = .template

theorem all_template_nil : AllTemplate [] := by
  intro error member
  cases member

theorem reported {α : Type} {value : α} {found errors : List DocumentError}
    (failed : (if found.isEmpty then Except.ok value else .error found) = .error errors) :
    found = errors := by
  split at failed
  · cases failed
  · exact Except.error.inj failed

namespace Chunk

structure Unready (chunk : ResolvedChunk) (ref : ChunkRef) (own : Scope) (found : Placeholder) :
    Prop where
  free : Placeholder.isReserved found.name = false
  unbound : ∀ binding ∈ ref.bindings, binding.1 ≠ found.name
  notOverridden : chunk.overrides.contains found.name = false
  notDefaulted : chunk.defaults.contains found.name = false
  notImported : own.contains found.name = false

inductive Fault (chunk : ResolvedChunk) (ref : ChunkRef) (own : Scope) : DocumentError → Prop where
  | reserved (name : String) :
      Fault chunk ref own ⟨chunk.source, some "template", .reservedInChunk name⟩
  | valueImport (field : String) (reference name : String) :
      Fault chunk ref own ⟨chunk.source, some field, .unknownValueImport reference name⟩
  | valueKey (field : String) (reference key name : String) :
      Fault chunk ref own ⟨chunk.source, some field, .unknownValueKey reference key name⟩
  | unfilled (found : Placeholder) (written : found ∈ placeholders chunk.body)
      (unready : Unready chunk ref own found) :
      Fault chunk ref own
        ⟨chunk.source, some "template", .unfilledPlaceholder found.name ref.name⟩

variable {chunk : ResolvedChunk} {ref : ChunkRef} {own caller : Scope} {error : DocumentError}

theorem value_fault {value field : String} {scopes : List Scope}
    (failed : ValueRef.resolve value scopes chunk.source field = .error error) :
    Fault chunk ref own error := by
  simp only [ValueRef.resolve] at failed
  split at failed
  · cases failed
  · split at failed
    · cases failed
    · split at failed
      · rw [← Except.error.inj failed]
        exact .valueImport ..
      · split at failed
        · cases failed
        · rw [← Except.error.inj failed]
          exact .valueKey ..

theorem filling_fault {found : Placeholder} (written : found ∈ placeholders chunk.body)
    (failed : filling chunk ref own caller found = .error error) : Fault chunk ref own error := by
  unfold filling at failed
  dsimp only at failed
  split at failed
  · rw [← Except.error.inj failed]
    exact .reserved _
  next free =>
  split at failed
  · cases failed
  next unbound =>
  split at failed
  · exact value_fault failed
  next notOverridden =>
  split at failed
  · exact value_fault failed
  next notDefaulted =>
  split at failed
  · cases failed
  next notImported =>
  rw [← Except.error.inj failed]
  refine .unfilled found written ⟨by simpa using free, ?_, ?_, ?_, by simpa using notImported⟩
  · intro binding member same
    have differ := List.lookup_eq_none_iff.mp unbound binding member
    simp [same] at differ
  · rw [NameMap.contains, notOverridden, Option.isSome_none]
  · rw [NameMap.contains, notDefaulted, Option.isSome_none]

theorem fill_fault (member : error ∈ (fill chunk ref own caller).2) :
    Fault chunk ref own error := by
  rw [fill_eq] at member
  obtain ⟨found, written, failed⟩ := List.mem_filterMap.mp member
  exact filling_fault written (fault?_eq_some.mp failed)

theorem fill_template (chunk : ResolvedChunk) (ref : ChunkRef) (own caller : Scope) :
    AllTemplate (fill chunk ref own caller).2 := by
  intro error member
  cases fill_fault member <;> rfl

end Chunk

theorem Cut.of_pieces_template (file : Path) (field : String) (loras : List Char)
    (table : SlotTable) (pending : List Char) (pieces : List Piece) :
    AllTemplate (ofPieces file field loras table pending pieces).errors := by
  intro error member
  obtain ⟨name, first, second, same⟩ := of_pieces_fault member
  rw [DocumentError.category, same]
  rfl

namespace SlotTable

inductive Fault (scope : Scope) (entry : SlotEntry) : Cause → Prop where
  | unknown (absent : scope.get? entry.name = none) :
      Fault scope entry (.unknownPlaceholder entry.name)
  | selector (text : String) (problem : SelectorError) :
      Fault scope entry (.malformedSelector entry.name text problem)
  | empty : Fault scope entry (.emptyImport entry.name)
  | nothing (selector : String) : Fault scope entry (.nothingSelected selector entry.name)

theorem slot_of_fault {scope : Scope} {entry : SlotEntry} {draws later : Draws} {cause : Cause}
    (failed : slotOf scope entry draws = (.error cause, later)) : Fault scope entry cause := by
  unfold slotOf at failed
  split at failed
  · next absent =>
      rw [← Except.error.inj (Prod.mk.inj failed).1]
      exact .unknown absent
  dsimp only at failed
  split at failed
  · rw [← Except.error.inj (Prod.mk.inj failed).1]
    exact .selector ..
  split at failed
  · cases failed
  split at failed
  · rw [← Except.error.inj (Prod.mk.inj failed).1]
    exact .empty
  · rw [← Except.error.inj (Prod.mk.inj failed).1]
    exact .nothing _

theorem slots_fault {file : Path} {scope : Scope} {table : SlotTable} {draws : Draws}
    {error : DocumentError} (member : error ∈ (slots file scope table draws).2.1) :
    ∃ entry ∈ table, Fault scope entry error.cause := by
  induction table generalizing draws with
  | nil => cases member
  | cons entry rest ih =>
      rcases first : slotOf scope entry draws with ⟨cause | slot, later⟩
      · simp only [slots, first] at member
        rcases List.mem_cons.mp member with rfl | further
        · exact ⟨entry, List.mem_cons_self .., slot_of_fault first⟩
        · obtain ⟨other, inside, fault⟩ := ih further
          exact ⟨other, List.mem_cons_of_mem _ inside, fault⟩
      · simp only [slots, first] at member
        obtain ⟨other, inside, fault⟩ := ih member
        exact ⟨other, List.mem_cons_of_mem _ inside, fault⟩

theorem slots_template (file : Path) (scope : Scope) (table : SlotTable) (draws : Draws) :
    AllTemplate (slots file scope table draws).2.1 := by
  intro error member
  obtain ⟨entry, _, fault⟩ := slots_fault member
  obtain ⟨file, field, cause⟩ := error
  cases fault <;> rfl

end SlotTable

end PromptLoom
