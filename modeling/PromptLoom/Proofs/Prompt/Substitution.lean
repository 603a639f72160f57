import PromptLoom.Proofs.Prompt.Clashes

/-!
# Rendering is substitution

A body that was cut without an error renders to its text with every placeholder replaced at once: a
reserved name by what it stands for, and any other by what is shown at the number of its name.
-/

namespace PromptLoom

set_option autoImplicit false

/-- What a piece becomes when every name stands for a text. -/
def Piece.replaced (replacement : String → String) : Piece → List Char
  | .char c => [c]
  | .placeholder found => (replacement found.name).toList

/-- A text with all its placeholders replaced at once. -/
def substituted (replacement : String → String) (text : String) : String :=
  String.ofList ((Piece.ofText text).flatMap (Piece.replaced replacement))

def Segment.shown (slotText : Nat → String) : Segment → List Char
  | .text fixed => fixed.toList
  | .slot index => (slotText index).toList

namespace Cut

variable {file : Path} {field : String} {loras pending : List Char} {table : SlotTable}
  {pieces : List Piece} {occurrences : List Placeholder}

theorem flush_shown (slotText : Nat → String) (pending : List Char) :
    (flush pending).flatMap (Segment.shown slotText) = pending.reverse := by
  cases pending with
  | nil => rfl
  | cons c rest => simp [flush, Segment.shown]

theorem slot_not_flushed (index : Nat) (pending : List Char) : .slot index ∉ flush pending := by
  cases pending with
  | nil => exact nofun
  | cons c rest => simp [flush]

variable {names : List String} {slotText : Nat → String} {replacement : String → String}

/-- The parts of a body without errors show its text with the placeholders replaced, and every slot
among them has a name. -/
theorem of_pieces_shown (known : table.Notes occurrences)
    (clean : (ofPieces file field loras table pending pieces).errors = [])
    (listed : SlotTable.slotNames (occurrences ++ pieces.filterMap Piece.placeholder?) <+: names)
    (lorasShown : (replacement "loras").toList = loras)
    (silent : ∀ name, Placeholder.isReserved name = true → name ≠ "loras" → replacement name = "")
    (agrees : ∀ index name, names[index]? = some name → slotText index = replacement name) :
    (∀ index, .slot index ∈ (ofPieces file field loras table pending pieces).segments →
        index < names.length) ∧
      (ofPieces file field loras table pending pieces).segments.flatMap (Segment.shown slotText) =
        pending.reverse ++ pieces.flatMap (Piece.replaced replacement) := by
  induction pieces generalizing table pending occurrences with
  | nil =>
      constructor
      · intro index member
        exact absurd member (slot_not_flushed index pending)
      · rw [List.flatMap_nil, List.append_nil]
        exact flush_shown slotText pending
  | cons piece rest ih =>
      cases piece with
      | char c =>
          have cleanRest : (ofPieces file field loras table (c :: pending) rest).errors = [] := clean
          obtain ⟨bounded, shown⟩ := ih known cleanRest listed
          refine ⟨bounded, ?_⟩
          simp only [ofPieces, shown, List.reverse_cons, List.flatMap_cons, Piece.replaced,
            List.append_assoc]
      | placeholder found =>
          rw [Piece.placeholder_snoc] at listed
          cases reserved : Placeholder.isReserved found.name with
          | true =>
              simp only [ofPieces, reserved, if_true] at clean ⊢
              obtain ⟨bounded, shown⟩ := ih (known.reserved reserved) clean listed
              refine ⟨bounded, ?_⟩
              rw [shown, List.flatMap_cons, Piece.replaced]
              by_cases loraTags : found.name = "loras"
              · rw [if_pos loraTags, loraTags, lorasShown, List.reverse_append, List.reverse_reverse,
                  List.append_assoc]
              · rw [if_neg loraTags, silent found.name reserved loraTags]
                rfl
          | false =>
              rcases done : table.register found field with cause | ⟨index, next⟩
              · simp [ofPieces, reserved, done] at clean
              · simp only [ofPieces, reserved, done, Bool.false_eq_true, if_false] at clean ⊢
                obtain ⟨follows, numbered, -⟩ := known.registered reserved done
                obtain ⟨bounded, shown⟩ := ih follows clean listed
                -- later occurrences add names behind, so the number keeps its name
                have named : names[index]? = some found.name := by
                  obtain ⟨behind, rfl⟩ := (SlotTable.slot_names_append _ _).trans listed
                  have inside := (List.getElem?_eq_some_iff.mp numbered).1
                  rw [List.getElem?_append_left inside]
                  exact numbered
                constructor
                · intro other member
                  rcases List.mem_append.mp member with early | late
                  · exact absurd early (slot_not_flushed other pending)
                  · rcases List.mem_cons.mp late with here | later
                    · obtain rfl : other = index := Segment.slot.inj here
                      exact (List.getElem?_eq_some_iff.mp named).1
                    · exact bounded other later
                · rw [List.flatMap_append, List.flatMap_cons, shown, flush_shown, Segment.shown,
                    agrees index found.name named]
                  rfl

end Cut

end PromptLoom
