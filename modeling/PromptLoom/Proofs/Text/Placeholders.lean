import PromptLoom.Proofs.Text.Braces
import PromptLoom.Proofs.Text.Identifiers
import PromptLoom.Proofs.Text.Offsets

/-!
# Where placeholders are found

A placeholder is identifiers joined by dots, with or without a selector, between two braces. Its
text is read as it is written, and no other begins before its end: so the placeholders found in a
text are all slices of it that have this form.
-/

namespace PromptLoom

open Text

set_option autoImplicit false

namespace Text

theorem Dotted.taken {name rest : List Char} (dotted : Dotted name)
    (ends : ∀ c ∈ rest.head?, isIdentRest c = false ∧ c ≠ '.') :
    takeDotted (name ++ rest) = some (name, rest) := by
  induction dotted with
  | single ident =>
      refine take_dotted_plain (take_ident_iff.mpr ⟨rfl, ident, fun c first => (ends c first).1⟩) ?_
      rintro tail rfl
      exact (ends '.' rfl).2 rfl
  | @dot name names ident others ih =>
      have first : takeIdent (name ++ '.' :: names ++ rest) = some (name, '.' :: (names ++ rest)) :=
        take_ident_iff.mpr ⟨by simp, ident, fun c dot => by obtain rfl := Option.some.inj dot; decide⟩
      rw [take_dotted_dot first, ih]

end Text

namespace Placeholder

/-- A placeholder as it can be written. -/
structure WellFormed (placeholder : Placeholder) : Prop where
  name : Dotted placeholder.name.toList
  selector : ∀ selector ∈ placeholder.selector, ∀ mark ∈ ['[', ']', '{', '}'],
    mark ∉ selector.toList

theorem selector_chars_iff {text : List Char} :
    (∀ c ∈ text, isSelectorChar c = true) ↔ ∀ mark ∈ ['[', ']', '{', '}'], mark ∉ text := by
  have one : ∀ c, isSelectorChar c = true ↔ c ∉ ['[', ']', '{', '}'] := by
    intro c
    simp [isSelectorChar, and_assoc]
  simp only [one]
  exact ⟨fun apart mark listed member => apart mark member listed,
    fun apart c member listed => apart c listed member⟩

theorem ending_iff {text rest : List Char} {selector : Option (List Char)} :
    ending? text = some (selector, rest) ↔
      (selector = none ∧ text = '}' :: rest) ∨
        ∃ chars, selector = some chars ∧ (∀ c ∈ chars, isSelectorChar c = true) ∧
          text = '[' :: (chars ++ ']' :: '}' :: rest) := by
  constructor
  · intro found
    unfold ending? at found
    split at found
    · obtain ⟨rfl, rfl⟩ := Prod.mk.inj (Option.some.inj found)
      exact .inl ⟨rfl, rfl⟩
    · next more =>
        split at found
        · next behind closed =>
            obtain ⟨rfl, rfl⟩ := Prod.mk.inj (Option.some.inj found)
            refine .inr ⟨_, rfl, List.all_eq_true.mp List.all_takeWhile, ?_⟩
            rw [← closed, List.takeWhile_append_dropWhile]
        · cases found
    · cases found
  · rintro (⟨rfl, rfl⟩ | ⟨chars, rfl, inside, rfl⟩)
    · rfl
    · have ends : ∀ c ∈ (']' :: '}' :: rest).head?, isSelectorChar c = false := by
        intro c first
        obtain rfl := Option.some.inj first
        rfl
      obtain ⟨taken, left⟩ := take_while_exact inside ends
      simp only [ending?, taken, left]

theorem read?_written {name : String} {text rest : List Char} {selector : Option (List Char)}
    (dotted : Dotted name.toList) (ends : ending? text = some (selector, rest)) :
    read? ('{' :: (name.toList ++ text)) = some (⟨name, selector.map String.ofList⟩, rest) := by
  have stops : ∀ c ∈ text.head?, isIdentRest c = false ∧ c ≠ '.' := by
    intro c first
    rcases ending_iff.mp ends with ⟨-, rfl⟩ | ⟨_, -, -, rfl⟩
    all_goals
      obtain rfl := Option.some.inj first
      decide
  rw [read?_eq, dotted.taken stops]
  simp only [Option.bind_some, ends, Option.map_some, String.ofList_toList]

/-- A placeholder is read off a text exactly where it is written and well formed. -/
theorem read?_iff {text rest : List Char} {placeholder : Placeholder} :
    read? text = some (placeholder, rest) ↔
      placeholder.WellFormed ∧ text = placeholder.printed ++ rest := by
  constructor
  · intro found
    refine ⟨?_, read?_append found⟩
    obtain ⟨inside, rfl, -⟩ := read?_braces found
    rw [read?_eq] at found
    obtain ⟨⟨name, behind⟩, dotted, ended⟩ := Option.bind_eq_some_iff.mp found
    obtain ⟨⟨selector, after⟩, ending, same⟩ := Option.map_eq_some_iff.mp ended
    obtain ⟨rfl, rfl⟩ := Prod.mk.inj same
    refine ⟨by simpa using take_dotted_dotted dotted, ?_⟩
    rcases ending_iff.mp ending with ⟨rfl, -⟩ | ⟨chars, rfl, inside, -⟩
    · exact fun _ none => nomatch none
    · rintro _ ⟨⟩
      rw [String.toList_ofList]
      exact selector_chars_iff.mp inside
  · rintro ⟨⟨dotted, marks⟩, rfl⟩
    obtain ⟨name, selector⟩ := placeholder
    cases selector with
    | none =>
        have ends : ending? ('}' :: rest) = some (none, rest) := rfl
        simpa [printed] using read?_written dotted ends
    | some selector =>
        have ends : ending? ('[' :: (selector.toList ++ ']' :: '}' :: rest)) =
            some (some selector.toList, rest) :=
          ending_iff.mpr (.inr ⟨_, rfl, selector_chars_iff.mpr (marks selector rfl), rfl⟩)
        simpa [printed] using read?_written dotted ends

theorem printed_opens (placeholder : Placeholder) :
    ∃ inside, placeholder.printed = '{' :: inside := by
  unfold printed
  split
  · exact ⟨_, rfl⟩
  · exact ⟨_, rfl⟩

theorem read?_before_opening {front more rest : List Char} {first : Placeholder}
    (begun : front ≠ []) (found : read? (front ++ '{' :: more) = some (first, rest)) :
    ∃ behind, rest = behind ++ '{' :: more := by
  obtain ⟨inside, same, plain⟩ := read?_braces found
  obtain ⟨c, tail, rfl⟩ := List.exists_cons_of_ne_nil begun
  rcases append_eq_around.mp (List.cons_eq_cons.mp same).2 with
    ⟨behind, -, left⟩ | ⟨others, rfl, closing⟩
  · exact ⟨behind, left⟩
  · rcases List.cons_eq_append_iff.mp closing with ⟨rfl, brace⟩ | ⟨_, rfl, -⟩
    · cases brace
    · cases plain '{' (by simp)

end Placeholder

namespace Piece

/-- Where a well-formed placeholder is written it is a piece of its own: no placeholder read before it
reaches past its opening brace. -/
theorem of_chars_written {placeholder : Placeholder} (formed : placeholder.WellFormed)
    (before after : List Char) :
    ∃ front, ofChars (before ++ (placeholder.printed ++ after)) =
        front ++ .placeholder placeholder :: ofChars after ∧
      front.flatMap printed = before := by
  induction size : before.length using Nat.strongRecOn generalizing before with
  | ind bound ih =>
      cases before with
      | nil => exact ⟨[], of_chars_read (Placeholder.read?_iff.mpr ⟨formed, rfl⟩), rfl⟩
      | cons c tail =>
          rw [List.cons_append]
          rcases read : Placeholder.read? (c :: (tail ++ (placeholder.printed ++ after))) with
            _ | ⟨first, rest⟩
          · obtain ⟨front, whole, shown⟩ := ih tail.length (by simp [← size]) tail rfl
            refine ⟨.char c :: front, ?_, congrArg (c :: ·) shown⟩
            rw [of_chars_char read, whole, List.cons_append]
          · obtain ⟨opened, opens⟩ := placeholder.printed_opens
            obtain ⟨behind, rfl⟩ : ∃ behind, rest = behind ++ (placeholder.printed ++ after) := by
              rw [opens, ← List.cons_append] at read
              rw [opens]
              exact Placeholder.read?_before_opening (List.cons_ne_nil c tail) read
            have shorter : behind.length < bound := by
              have fewer := Placeholder.read?_length read
              simp only [List.length_cons, List.length_append] at fewer size
              omega
            have taken : c :: tail = first.printed ++ behind := by
              have same : c :: tail ++ (placeholder.printed ++ after) =
                  first.printed ++ behind ++ (placeholder.printed ++ after) := by
                rw [List.append_assoc]
                exact Placeholder.read?_append read
              exact List.append_cancel_right same
            obtain ⟨front, whole, shown⟩ := ih behind.length shorter behind rfl
            refine ⟨.placeholder first :: front, ?_, ?_⟩
            · rw [of_chars_read read, whole, List.cons_append]
            · rw [List.flatMap_cons, shown, taken]
              rfl

end Piece

namespace LocatedPlaceholder

def place (located : LocatedPlaceholder) : Place Placeholder :=
  ⟨located.placeholder, located.start, located.stop⟩

theorem of_pieces_places (offset : Nat) (pieces : List Piece) :
    (ofPieces offset pieces).map place = places Piece.printed Piece.placeholder? offset pieces := by
  induction pieces generalizing offset with
  | nil => rfl
  | cons piece rest ih =>
      cases piece with
      | char c => exact ih _
      | placeholder found => exact congrArg (_ :: ·) (ih _)

theorem of_text_places (text : String) :
    (ofText text).map place = places Piece.printed Piece.placeholder? 0 (Piece.ofText text) :=
  of_pieces_places 0 _

theorem mem_of_text {text : String} {located : LocatedPlaceholder} :
    located ∈ ofText text ↔ located.place ∈
      places Piece.printed Piece.placeholder? 0 (Piece.ofText text) := by
  have injective : Function.Injective place := by
    rintro ⟨_, _, _⟩ ⟨_, _, _⟩ ⟨⟩
    rfl
  rw [← of_text_places, List.mem_map_of_injective injective]

end LocatedPlaceholder

theorem Piece.of_chars_well_formed {text : List Char} {placeholder : Placeholder}
    (member : .placeholder placeholder ∈ ofChars text) : placeholder.WellFormed := by
  fun_induction ofChars text with
  | case1 text first rest found shorter ih =>
      rcases List.mem_cons.mp member with same | later
      · cases same
        exact (Placeholder.read?_iff.mp found).1
      · exact ih later
  | case2 => cases member
  | case3 c rest none ih =>
      rcases List.mem_cons.mp member with same | later
      · cases same
      · exact ih later

theorem Text.mem_placeholders_in_iff {text : List Char} {found : Placeholder} :
    found ∈ placeholdersIn text ↔ found.WellFormed ∧ found.printed <:+: text := by
  constructor
  · intro member
    obtain ⟨piece, among, same⟩ := List.mem_filterMap.mp member
    cases piece with
    | char c => cases same
    | placeholder other =>
        obtain rfl := Option.some.inj same
        obtain ⟨front, behind, pieces⟩ := List.append_of_mem among
        have whole := Piece.flat_map_printed_of_chars text
        rw [pieces, List.flatMap_append, List.flatMap_cons, ← List.append_assoc] at whole
        exact ⟨Piece.of_chars_well_formed among, _, _, whole⟩
  · rintro ⟨formed, before, after, rfl⟩
    obtain ⟨front, pieces, -⟩ := Piece.of_chars_written formed before after
    rw [placeholdersIn, List.append_assoc, pieces, List.filterMap_append]
    exact List.mem_append_right _ (List.mem_cons_self ..)

theorem Placeholder.printed_size (placeholder : Placeholder) :
    0 < byteLength placeholder.printed := by
  obtain ⟨inside, opens⟩ := placeholder.printed_opens
  have brace := Char.utf8Size_pos '{'
  rw [opens, byteLength]
  omega

theorem Piece.flat_map_printed_of_text (text : String) :
    (ofText text).flatMap printed = text.toList :=
  flat_map_printed_of_chars text.toList

namespace LocatedPlaceholder

variable {text : String} {located : LocatedPlaceholder}

theorem of_text_sound (member : located ∈ ofText text) : located.placeholder.WellFormed ∧
    slice? text.toList located.start located.stop = some located.placeholder.printed := by
  obtain ⟨front, piece, behind, pieces, found, -, sliced⟩ := slice_of_place (mem_of_text.mp member)
  cases piece with
  | char c => cases found
  | placeholder other =>
      obtain rfl := Option.some.inj found
      have among : .placeholder located.placeholder ∈ Piece.ofText text := by
        rw [pieces]
        exact List.mem_append_right front (.head _)
      rw [Piece.flat_map_printed_of_text] at sliced
      exact ⟨Piece.of_chars_well_formed among, sliced⟩

theorem of_text_complete (formed : located.placeholder.WellFormed)
    (sliced : slice? text.toList located.start located.stop = some located.placeholder.printed) :
    located ∈ ofText text := by
  obtain ⟨before, after, same, start, stop⟩ := slice_iff.mp sliced
  obtain ⟨front, pieces, shown⟩ := Piece.of_chars_written formed before after
  rw [← same] at pieces
  refine mem_of_text.mpr (mem_places.mpr ⟨front, _, _, pieces, rfl, ?_, stop.symm⟩)
  rw [Nat.zero_add, shown]
  exact start.symm

/-- The placeholders found in a text are its slices of their form: no such slice is missed, none
overlaps another, and with what stands between them they make up the text. -/
theorem of_text_exact (text : String) :
    (∀ located, located ∈ ofText text ↔ located.placeholder.WellFormed ∧
        slice? text.toList located.start located.stop = some located.placeholder.printed) ∧
      (ofText text).Pairwise (fun one other => one.stop ≤ other.start) ∧
      (∀ located ∈ ofText text, located.start < located.stop) ∧
      spliced? text.toList Placeholder.printed 0 ((ofText text).map place) = some text.toList ∧
      placeholders text = (ofText text).map (·.placeholder) := by
  refine ⟨fun located => ⟨of_text_sound, fun exact => of_text_complete exact.1 exact.2⟩,
    ?_, ?_, ?_, ?_⟩
  · have apart : ((ofText text).map place).Pairwise fun one other => one.stop ≤ other.start := by
      rw [of_text_places]
      exact places_apart
    exact List.pairwise_map.mp apart
  · intro located member
    obtain ⟨_, _, _, _, stop⟩ := slice_iff.mp (of_text_sound member).2
    have some := located.placeholder.printed_size
    omega
  · have kept : ∀ piece ∈ Piece.ofText text, ∀ found ∈ piece.placeholder?,
        found.printed = piece.printed := by
      rintro (c | other) - found ⟨⟩
      rfl
    have back := spliced_back kept
    rwa [← of_text_places, Piece.flat_map_printed_of_text] at back
  · calc placeholders text
      _ = (places Piece.printed Piece.placeholder? 0 (Piece.ofText text)).map (·.item) :=
          map_item_places.symm
      _ = (ofText text).map (·.placeholder) := by
          rw [← of_text_places, List.map_map]
          rfl

end LocatedPlaceholder

end PromptLoom
