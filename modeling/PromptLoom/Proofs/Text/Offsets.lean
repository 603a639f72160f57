import Mathlib.Data.List.Basic
import PromptLoom.Text.Utf8

/-!
# Byte offsets

A text can be cut at a byte offset if that is the size of one of its beginnings, and so lies neither
beyond the text nor within a character. The places of some parts of a text are slices of it, one
behind another; and the text between them, with something shown in the place of each, is the text of
the parts in which those are replaced.
-/

namespace PromptLoom.Text

set_option autoImplicit false

/-- The text before and after a byte offset. There is none beyond the text or within a character. -/
def cutAtByte? : Nat → List Char → Option (List Char × List Char)
  | 0, text => some ([], text)
  | _ + 1, [] => none
  | offset + 1, c :: rest =>
      if c.utf8Size ≤ offset + 1 then
        (cutAtByte? (offset + 1 - c.utf8Size) rest).map fun (before, after) => (c :: before, after)
      else none

def slice? (text : List Char) (start stop : Nat) : Option (List Char) :=
  if start ≤ stop then
    (cutAtByte? start text).bind fun (_, rest) => (cutAtByte? (stop - start) rest).map Prod.fst
  else none

theorem byte_length_eq_zero {text : List Char} : byteLength text = 0 ↔ text = [] := by
  cases text with
  | nil => simp [byteLength]
  | cons c rest =>
      have some := c.utf8Size_pos
      simp only [byteLength, reduceCtorEq, iff_false]
      omega

theorem cut_at_byte_iff {offset : Nat} {text before after : List Char} :
    cutAtByte? offset text = some (before, after) ↔
      text = before ++ after ∧ byteLength before = offset := by
  fun_induction cutAtByte? offset text generalizing before after with
  | case1 text =>
      simp only [Option.some.injEq, Prod.mk.injEq, byte_length_eq_zero]
      constructor
      · rintro ⟨rfl, rfl⟩
        exact ⟨rfl, rfl⟩
      · rintro ⟨rfl, rfl⟩
        exact ⟨rfl, rfl⟩
  | case2 offset =>
      simp only [reduceCtorEq, false_iff, not_and]
      intro empty
      rw [(List.append_eq_nil_iff.mp empty.symm).1]
      simp [byteLength]
  | case3 offset c rest fits ih =>
      simp only [Option.map_eq_some_iff, Prod.exists, Prod.mk.injEq, ih]
      constructor
      · rintro ⟨front, behind, ⟨rfl, size⟩, rfl, rfl⟩
        refine ⟨rfl, ?_⟩
        rw [byteLength, size]
        omega
      · rintro ⟨same, size⟩
        cases before with
        | nil => cases size
        | cons d front =>
            obtain ⟨rfl, rfl⟩ := List.cons_eq_cons.mp same
            rw [byteLength] at size
            exact ⟨front, after, ⟨rfl, by omega⟩, rfl, rfl⟩
  | case4 offset c rest wide =>
      simp only [reduceCtorEq, false_iff, not_and]
      intro same size
      cases before with
      | nil => cases size
      | cons d front =>
          obtain ⟨rfl, -⟩ := List.cons_eq_cons.mp same
          rw [byteLength] at size
          omega

theorem slice_iff {text part : List Char} {start stop : Nat} :
    slice? text start stop = some part ↔ ∃ before after, text = before ++ (part ++ after) ∧
      byteLength before = start ∧ start + byteLength part = stop := by
  unfold slice?
  split
  · next order =>
      simp only [Option.bind_eq_some_iff, Option.map_eq_some_iff, Prod.exists, cut_at_byte_iff]
      constructor
      · rintro ⟨before, _, ⟨rfl, first⟩, _, after, ⟨rfl, second⟩, rfl⟩
        exact ⟨before, after, rfl, first, by omega⟩
      · rintro ⟨before, after, rfl, first, second⟩
        exact ⟨before, part ++ after, ⟨rfl, first⟩, part, after, ⟨rfl, by omega⟩, rfl⟩
  · next disorder =>
      simp only [reduceCtorEq, false_iff, not_exists, not_and]
      intro _ _ _ _ second
      omega

theorem append_eq_around {one other before after : List Char} {c : Char} :
    one ++ other = before ++ c :: after ↔
      (∃ right, one = before ++ c :: right ∧ after = right ++ other) ∨
        ∃ left, before = one ++ left ∧ other = left ++ c :: after := by
  constructor
  · intro same
    rcases List.append_eq_append_iff.mp same with ⟨left, rfl, later⟩ | ⟨right, rfl, here⟩
    · exact .inr ⟨left, rfl, later⟩
    · rcases List.cons_eq_append_iff.mp here with ⟨rfl, rfl⟩ | ⟨right, rfl, rfl⟩
      · exact .inr ⟨[], by simp, rfl⟩
      · exact .inl ⟨right, rfl, rfl⟩
  · rintro (⟨right, rfl, rfl⟩ | ⟨left, rfl, rfl⟩)
    · simp
    · simp

/-! ### Places -/

/-- Something in a text with the byte offsets of its first byte and of the first byte after it. -/
structure Place (Item : Type) where
  item : Item
  start : Nat
  stop : Nat

section Parts

variable {Part Item : Type} (printed : Part → List Char) (item? : Part → Option Item)

/-- The places of those parts of a text that are items; the first part starts at an offset. -/
def places (offset : Nat) : List Part → List (Place Item)
  | [] => []
  | part :: rest =>
      let next := offset + byteLength (printed part)
      match item? part with
      | none => places next rest
      | some item => ⟨item, offset, next⟩ :: places next rest

variable {printed item?} {offset : Nat} {parts : List Part} {place : Place Item}

theorem mem_places : place ∈ places printed item? offset parts ↔
    ∃ front part behind, parts = front ++ part :: behind ∧ item? part = some place.item ∧
      place.start = offset + byteLength (front.flatMap printed) ∧
      place.stop = place.start + byteLength (printed part) := by
  induction parts generalizing offset with
  | nil => simp [places]
  | cons first rest ih =>
      have here_or_later : (∃ front part behind, first :: rest = front ++ part :: behind ∧
            item? part = some place.item ∧
            place.start = offset + byteLength (front.flatMap printed) ∧
            place.stop = place.start + byteLength (printed part)) ↔
          (item? first = some place.item ∧ place.start = offset ∧
            place.stop = place.start + byteLength (printed first)) ∨
          place ∈ places printed item? (offset + byteLength (printed first)) rest := by
        rw [ih]
        constructor
        · rintro ⟨front, part, behind, same, found, start, stop⟩
          cases front with
          | nil =>
              obtain ⟨rfl, -⟩ := List.cons_eq_cons.mp same
              exact .inl ⟨found, start, stop⟩
          | cons one front =>
              obtain ⟨rfl, rfl⟩ := List.cons_eq_cons.mp same
              rw [List.flatMap_cons, byte_length_append, ← Nat.add_assoc] at start
              exact .inr ⟨front, part, behind, rfl, found, start, stop⟩
        · rintro (⟨found, start, stop⟩ | ⟨front, part, behind, rfl, found, start, stop⟩)
          · exact ⟨[], first, rest, rfl, found, start, stop⟩
          · rw [Nat.add_assoc, ← byte_length_append, ← List.flatMap_cons] at start
            exact ⟨first :: front, part, behind, rfl, found, start, stop⟩
      rw [here_or_later, places]
      rcases found : item? first with _ | item
      · simp
      · obtain ⟨other, start, stop⟩ := place
        simp only [List.mem_cons, Place.mk.injEq, Option.some.injEq]
        constructor
        · rintro (⟨rfl, rfl, rfl⟩ | later)
          · exact .inl ⟨rfl, rfl, rfl⟩
          · exact .inr later
        · rintro (⟨rfl, rfl, rfl⟩ | later)
          · exact .inl ⟨rfl, rfl, rfl⟩
          · exact .inr later

theorem part_or_place (item? : Part → Option Item) (offset : Nat) {before after : List Char}
    {c : Char} (whole : parts.flatMap printed = before ++ c :: after) :
    (∃ front part behind left right, parts = front ++ part :: behind ∧ item? part = none ∧
        printed part = left ++ c :: right ∧ before = front.flatMap printed ++ left ∧
        after = right ++ behind.flatMap printed) ∨
      ∃ place ∈ places printed item? offset parts,
        place.start ≤ offset + byteLength before ∧ offset + byteLength before < place.stop := by
  induction parts generalizing offset before with
  | nil => simp at whole
  | cons first rest ih =>
      rw [List.flatMap_cons] at whole
      rcases append_eq_around.mp whole with ⟨right, printing, rfl⟩ | ⟨left, rfl, later⟩
      · rcases found : item? first with _ | item
        · exact .inl ⟨[], first, rest, before, right, rfl, found, printing, rfl, rfl⟩
        · refine .inr ⟨⟨item, offset, offset + byteLength (printed first)⟩, ?_, ?_, ?_⟩
          · rw [places, found]
            exact .head _
          · exact Nat.le_add_right ..
          · have size := c.utf8Size_pos
            simp only [printing, byte_length_append, byteLength]
            omega
      · rcases ih (offset + byteLength (printed first)) later with
          ⟨front, part, behind, left, right, rfl, free, printing, rfl, rfl⟩ |
          ⟨place, member, start, stop⟩
        · refine .inl ⟨first :: front, part, behind, left, right, rfl, free, printing, ?_, rfl⟩
          rw [List.flatMap_cons, List.append_assoc]
        · refine .inr ⟨place, ?_, ?_⟩
          · rw [places]
            split
            · exact member
            · exact .tail _ member
          · rw [byte_length_append]
            omega

theorem map_item_places : (places printed item? offset parts).map (·.item) =
    parts.filterMap item? := by
  induction parts generalizing offset with
  | nil => rfl
  | cons first rest ih =>
      rw [places]
      rcases found : item? first with _ | item
      · rw [List.filterMap_cons_none found]
        exact ih
      · rw [List.filterMap_cons_some found, List.map_cons]
        exact congrArg (item :: ·) ih

theorem places_apart : (places printed item? offset parts).Pairwise
    fun one other => one.stop ≤ other.start := by
  induction parts generalizing offset with
  | nil => exact .nil
  | cons first rest ih =>
      rw [places]
      rcases item? first with _ | item
      · exact ih
      · refine List.pairwise_cons.mpr ⟨?_, ih⟩
        intro other later
        obtain ⟨_, _, _, _, _, start, _⟩ := mem_places.mp later
        rw [start]
        exact Nat.le_add_right ..

theorem slice_of_place (member : place ∈ places printed item? 0 parts) :
    ∃ front part behind, parts = front ++ part :: behind ∧ item? part = some place.item ∧
      place.start = byteLength (front.flatMap printed) ∧
      slice? (parts.flatMap printed) place.start place.stop = some (printed part) := by
  obtain ⟨front, part, behind, rfl, found, start, stop⟩ := mem_places.mp member
  rw [Nat.zero_add] at start
  refine ⟨front, part, behind, rfl, found, start, slice_iff.mpr ?_⟩
  exact ⟨front.flatMap printed, behind.flatMap printed, by simp, start.symm, stop.symm⟩

/-- A text with something shown in each of some places. From an offset on, the text up to the next
place stays as it is. -/
def spliced? (text : List Char) (shown : Item → List Char) (last : Nat) :
    List (Place Item) → Option (List Char)
  | [] => slice? text last (byteLength text)
  | place :: rest =>
      (slice? text last place.start).bind fun gap =>
        (spliced? text shown place.stop rest).map fun others => gap ++ (shown place.item ++ others)

def replaced (printed : Part → List Char) (item? : Part → Option Item) (shown : Item → List Char)
    (part : Part) : List Char :=
  match item? part with
  | none => printed part
  | some item => shown item

/-- Showing something in the places of a text replaces its parts. The text before the offset is done,
and what is pending behind it belongs to parts that are no items. -/
theorem spliced_places (shown : Item → List Char) {before pending : List Char}
    (here : byteLength (before ++ pending) = offset) :
    spliced? (before ++ (pending ++ parts.flatMap printed)) shown (byteLength before)
        (places printed item? offset parts) =
      some (pending ++ parts.flatMap (replaced printed item? shown)) := by
  induction parts generalizing before pending offset with
  | nil =>
      rw [places, spliced?, List.flatMap_nil, List.append_nil, slice_iff]
      refine ⟨before, [], by simp, rfl, ?_⟩
      simp [byte_length_append]
  | cons first rest ih =>
      subst here
      rw [places, List.flatMap_cons, List.flatMap_cons]
      rcases found : item? first with _ | item
      · have pended : byteLength (before ++ (pending ++ printed first)) =
            byteLength (before ++ pending) + byteLength (printed first) := by
          simp only [byte_length_append, Nat.add_assoc]
        have later := ih pended
        simp only [replaced, found]
        simpa only [List.append_assoc] using later
      · have gap : slice? (before ++ (pending ++ (printed first ++ rest.flatMap printed)))
            (byteLength before) (byteLength (before ++ pending)) = some pending :=
          slice_iff.mpr ⟨before, _, rfl, rfl, (byte_length_append before pending).symm⟩
        have done : byteLength (before ++ (pending ++ printed first) ++ []) =
            byteLength (before ++ pending) + byteLength (printed first) := by
          simp only [byte_length_append, List.append_nil, Nat.add_assoc]
        have later := ih done
        simp only [List.nil_append, List.append_assoc] at later
        simp only [spliced?, gap, Option.bind_some, replaced, found]
        rw [← byte_length_append, List.append_assoc] at later ⊢
        rw [later, Option.map_some]

theorem spliced_text (shown : Item → List Char) :
    spliced? (parts.flatMap printed) shown 0 (places printed item? 0 parts) =
      some (parts.flatMap (replaced printed item? shown)) := by
  have start : byteLength (([] : List Char) ++ []) = 0 := rfl
  exact spliced_places shown start

theorem spliced_back {shown : Item → List Char}
    (same : ∀ part ∈ parts, ∀ item ∈ item? part, shown item = printed part) :
    spliced? (parts.flatMap printed) shown 0 (places printed item? 0 parts) =
      some (parts.flatMap printed) := by
  rw [spliced_text]
  refine congrArg some (List.flatMap_congr ?_)
  intro part member
  unfold replaced
  split
  · rfl
  · next item found => exact same part member item found

end Parts

end PromptLoom.Text
