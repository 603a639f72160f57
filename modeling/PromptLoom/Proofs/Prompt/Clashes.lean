import PromptLoom.Proofs.Prompt.SlotTable

/-!
# Which placeholders conflict

A name takes the first selector that is written under it, and every later one that is spelled in
another way conflicts with that one. Cutting a body reports just these conflicts, and whether or not
there are any the table knows all names and the first selector under each.
-/

namespace PromptLoom

set_option autoImplicit false

theorem Piece.placeholder_snoc (occurrences : List Placeholder) (found : Placeholder)
    (rest : List Piece) :
    occurrences ++ (.placeholder found :: rest : List Piece).filterMap Piece.placeholder? =
      occurrences ++ [found] ++ rest.filterMap Piece.placeholder? := by
  simp [Piece.placeholder?]

namespace SlotTable

/-- Two selectors that conflict: the first one that is written under a name, and another. -/
structure Clash (occurrences : List Placeholder) (name first second : String) : Prop where
  free : Placeholder.isReserved name = false
  head : (texts name occurrences).head? = some first
  among : second ∈ texts name occurrences
  differ : first ≠ second

theorem no_clash {name first second : String} : ¬ Clash [] name first second :=
  fun clash => nomatch clash.among

variable {occurrences : List Placeholder} {found : Placeholder} {name first second : String}

/-- A name that is not reserved is in conflict when two different selectors are written under it. -/
theorem clash_iff : (∃ first second, Clash occurrences name first second) ↔
    Placeholder.isReserved name = false ∧
      ∃ one ∈ texts name occurrences, ∃ other ∈ texts name occurrences, one ≠ other := by
  constructor
  · rintro ⟨first, second, free, head, among, differ⟩
    exact ⟨free, first, List.mem_of_head? head, second, among, differ⟩
  · rintro ⟨free, one, oneAmong, other, otherAmong, differ⟩
    obtain ⟨first, -, head⟩ := mem_head oneAmong
    by_cases same : first = one
    · exact ⟨first, other, free, head, otherAmong, same ▸ differ⟩
    · exact ⟨first, one, free, head, oneAmong, same⟩

theorem clash_snoc : Clash (occurrences ++ [found]) name first second ↔
    Clash occurrences name first second ∨
      (Placeholder.isReserved found.name = false ∧ found.name = name ∧
        (texts found.name occurrences).head? = some first ∧
        written found.selector = some second ∧ first ≠ second) := by
  by_cases same : found.name = name
  · subst same
    constructor
    · rintro ⟨free, head, among, differ⟩
      rw [texts_own] at among
      rw [head_texts_own] at head
      rcases before : (texts found.name occurrences).head? with _ | earlier
      · -- nothing was written before, so the first selector is the one written here
        have wrote : written found.selector = some first := by simpa [before] using head
        rw [List.head?_eq_none_iff.mp before, wrote] at among
        cases differ (List.mem_singleton.mp among).symm
      · obtain rfl : earlier = first := by simpa [before] using head
        rcases List.mem_append.mp among with old | new
        · exact .inl ⟨free, before, old, differ⟩
        · exact .inr ⟨free, rfl, rfl, Option.mem_toList.mp new, differ⟩
    · rintro (⟨free, head, among, differ⟩ | ⟨free, -, head, wrote, differ⟩)
      · refine ⟨free, ?_, ?_, differ⟩
        · rw [head_texts_own, head, Option.some_or]
        · rw [texts_own]
          exact List.mem_append_left _ among
      · refine ⟨free, ?_, ?_, differ⟩
        · rw [head_texts_own, head, Option.some_or]
        · rw [texts_own, wrote]
          exact List.mem_append_right _ (.head _)
  · constructor
    · rintro ⟨free, head, among, differ⟩
      rw [texts_other same] at head among
      exact .inl ⟨free, head, among, differ⟩
    · rintro (⟨free, head, among, differ⟩ | ⟨-, equal, -⟩)
      · rw [← texts_other same occurrences] at head among
        exact ⟨free, head, among, differ⟩
      · cases same equal

theorem consistent_iff_unclashed : Consistent occurrences ↔
    ∀ name first second, ¬ Clash occurrences name first second := by
  rw [consistent_iff]
  constructor
  · rintro equal name first second ⟨free, head, among, differ⟩
    exact differ (equal name free first (List.mem_of_head? head) second among)
  · intro none name free one oneAmong other otherAmong
    by_contra differ
    obtain ⟨first, second, clash⟩ :=
      clash_iff.mpr ⟨free, one, oneAmong, other, otherAmong, differ⟩
    exact none name first second clash

variable {table next : SlotTable} {field : String} {index : Nat} {cause : Cause}
  (known : table.Notes occurrences)

include known

theorem Notes.registered_clash (free : Placeholder.isReserved found.name = false)
    (done : table.register found field = .ok (index, next)) :
    Clash (occurrences ++ [found]) name first second ↔ Clash occurrences name first second := by
  obtain ⟨-, -, agree⟩ := known.registered free done
  rw [clash_snoc]
  refine or_iff_left ?_
  rintro ⟨-, -, head, wrote, differ⟩
  exact differ (agree first second head wrote)

theorem Notes.refused_clash (free : Placeholder.isReserved found.name = false)
    (failed : table.register found field = .error cause) :
    Clash (occurrences ++ [found]) name first second ↔
      Clash occurrences name first second ∨ cause = .conflictingSelectors name first second := by
  obtain ⟨entry, member, one, other, same, own, wrote, differ, rfl⟩ := register_refused failed
  have head : (texts found.name occurrences).head? = some one := by
    rw [← same, ← known.taken entry member, own]
  rw [clash_snoc]
  refine or_congr_right ?_
  rw [head, wrote]
  constructor
  · rintro ⟨-, rfl, ⟨⟩, ⟨⟩, -⟩
    rfl
  · rintro ⟨⟩
    exact ⟨free, rfl, rfl, rfl, differ⟩

end SlotTable

namespace Cut

variable {file : Path} {field : String} {loras pending : List Char} {table : SlotTable}
  {pieces : List Piece} {occurrences : List Placeholder}

theorem of_pieces_fault {error : DocumentError}
    (member : error ∈ (ofPieces file field loras table pending pieces).errors) :
    ∃ name first second, error.cause = .conflictingSelectors name first second := by
  induction pieces generalizing table pending with
  | nil => cases member
  | cons piece rest ih =>
      cases piece with
      | char c => exact ih member
      | placeholder found =>
          unfold ofPieces at member
          split at member
          · exact ih member
          split at member
          · exact ih member
          · next failed =>
              rcases List.mem_cons.mp member with rfl | later
              · obtain ⟨_, _, first, second, _, _, _, _, same⟩ := SlotTable.register_refused failed
                exact ⟨found.name, first, second, same⟩
              · exact ih later

/-- Cutting a body reports just the conflicts of its placeholders, among themselves and with those
before them. -/
theorem of_pieces_clashes (known : table.Notes occurrences) :
    let cut := ofPieces file field loras table pending pieces
    let seen := occurrences ++ pieces.filterMap Piece.placeholder?
    cut.table.Notes seen ∧ ∀ name first second, SlotTable.Clash seen name first second ↔
      SlotTable.Clash occurrences name first second ∨
        ∃ error ∈ cut.errors, error.cause = .conflictingSelectors name first second := by
  -- the induction is on the pieces, with the occurrences seen so far
  induction pieces generalizing table pending occurrences with
  | nil =>
      simp only [List.filterMap_nil, List.append_nil]
      refine ⟨known, fun name first second => ?_⟩
      simp [ofPieces]
  | cons piece rest ih =>
      cases piece with
      | char c => exact ih known
      | placeholder found =>
          rw [Piece.placeholder_snoc]
          cases reserved : Placeholder.isReserved found.name with
          | true =>
              obtain ⟨after, clashes⟩ := ih (known.reserved reserved)
              simp only [ofPieces, reserved, if_true]
              refine ⟨after, fun name first second => ?_⟩
              rw [clashes, SlotTable.clash_snoc, reserved]
              simp
          | false =>
              rcases done : table.register found field with cause | ⟨index, next⟩
              · obtain ⟨after, clashes⟩ := ih (known.refused reserved done)
                simp only [ofPieces, reserved, done, Bool.false_eq_true, if_false]
                refine ⟨after, fun name first second => ?_⟩
                rw [clashes, known.refused_clash reserved done, or_assoc]
                simp
              · obtain ⟨after, clashes⟩ := ih (known.registered reserved done).1
                simp only [ofPieces, reserved, done, Bool.false_eq_true, if_false]
                refine ⟨after, fun name first second => ?_⟩
                rw [clashes, known.registered_clash reserved done]

theorem of_pieces_clean_iff (known : table.Describes occurrences) :
    (ofPieces file field loras table pending pieces).errors = [] ↔
      SlotTable.Consistent (occurrences ++ pieces.filterMap Piece.placeholder?) := by
  obtain ⟨notes, consistent⟩ := SlotTable.describes_iff.mp known
  obtain ⟨-, clashes⟩ : _ ∧ ∀ name first second,
      SlotTable.Clash (occurrences ++ pieces.filterMap Piece.placeholder?) name first second ↔
        SlotTable.Clash occurrences name first second ∨
          ∃ error ∈ (ofPieces file field loras table pending pieces).errors,
            error.cause = .conflictingSelectors name first second := of_pieces_clashes notes
  rw [SlotTable.consistent_iff_unclashed] at consistent ⊢
  simp only [clashes, consistent, false_or]
  constructor
  · rintro clean name first second ⟨error, member, -⟩
    rw [clean] at member
    cases member
  · intro none
    rw [List.eq_nil_iff_forall_not_mem]
    intro error member
    obtain ⟨name, first, second, same⟩ := of_pieces_fault member
    exact none name first second ⟨error, member, same⟩

theorem of_pieces_describes (known : table.Describes occurrences)
    (clean : (ofPieces file field loras table pending pieces).errors = []) :
    (ofPieces file field loras table pending pieces).table.Describes
      (occurrences ++ pieces.filterMap Piece.placeholder?) := by
  obtain ⟨notes, -⟩ := SlotTable.describes_iff.mp known
  exact SlotTable.describes_iff.mpr
    ⟨(of_pieces_clashes notes).1, (of_pieces_clean_iff known).mp clean⟩

end Cut

end PromptLoom
