import PromptLoom.Chunk.Fill
import PromptLoom.Proofs.Text.Braces

/-!
# What a filled chunk shows

Filling keeps the text around the placeholders of a chunk as it is and writes something in the place
of each. The result is read again as a whole, so its placeholders are those of the texts written in,
and one more at an edge where a brace left open on one side is closed on the other.
-/

namespace PromptLoom

open Text

set_option autoImplicit false

namespace Piece

/-- Pieces as the text before the first placeholder, and each placeholder with the text behind it. -/
def runs : List Piece → List Char × List (Placeholder × List Char)
  | [] => ([], [])
  | .char c :: rest => (c :: (runs rest).1, (runs rest).2)
  | .placeholder found :: rest => ([], (found, (runs rest).1) :: (runs rest).2)

def filled (shown : Placeholder → List Char) : Piece → List Char
  | char c => [c]
  | placeholder found => shown found

def texts (shown : Placeholder → List Char) (pieces : List Piece) : List (List Char) :=
  (runs pieces).1 :: (runs pieces).2.flatMap fun (found, run) => [shown found, run]

theorem texts_flatten (shown : Placeholder → List Char) (pieces : List Piece) :
    (texts shown pieces).flatten = pieces.flatMap (filled shown) := by
  induction pieces with
  | nil => rfl
  | cons piece rest ih =>
      rw [texts, List.flatten_cons] at ih
      cases piece with
      | char c => simp [texts, runs, filled, ← ih]
      | placeholder found => simp [texts, runs, filled, ← ih]

theorem texts_printed (text : List Char) :
    (texts Placeholder.printed (ofChars text)).flatten = text := by
  have same : filled Placeholder.printed = printed := by
    funext piece
    cases piece <;> rfl
  rw [texts_flatten, same, flat_map_printed_of_chars]

theorem runs_placeholders (pieces : List Piece) :
    (runs pieces).2.map Prod.fst = pieces.filterMap placeholder? := by
  induction pieces with
  | nil => rfl
  | cons piece rest ih =>
      cases piece with
      | char c => exact ih
      | placeholder found => exact congrArg (found :: ·) ih

/-- The text between placeholders shows none by itself: what begins there is not read in the whole
text, of which it sees enough. -/
theorem runs_bare (text : List Char) :
    placeholdersIn (runs (ofChars text)).1 = [] ∧
      ∀ run ∈ (runs (ofChars text)).2, placeholdersIn run.2 = [] := by
  fun_induction ofChars text with
  | case1 text first rest read shorter ih =>
      obtain ⟨lead, others⟩ := ih
      exact ⟨placeholders_in_nil, List.forall_mem_cons.mpr ⟨lead, others⟩⟩
  | case2 =>
      refine ⟨placeholders_in_nil, ?_⟩
      intro run member
      cases member
  | case3 c rest none ih =>
      obtain ⟨lead, others⟩ := ih
      refine ⟨?_, others⟩
      have alone : Placeholder.read? (c :: (runs (ofChars rest)).1) = Option.none := by
        by_contra some
        obtain ⟨⟨found, after⟩, read⟩ := Option.ne_none_iff_exists'.mp some
        obtain ⟨inside, same, -⟩ := Placeholder.read?_braces read
        obtain ⟨rfl, tail⟩ := List.cons_eq_cons.mp same
        have closed : '}' ∈ (runs (ofChars rest)).1 := by simp [tail]
        have longer := Placeholder.read?_up_to_brace (by decide) closed
          (texts Placeholder.printed (ofChars rest)).tail.flatten
        have whole := texts_printed rest
        rw [texts, List.flatten_cons] at whole
        rw [List.cons_append, texts, List.tail_cons, whole, none, read] at longer
        cases longer
      change placeholdersIn (c :: (runs (ofChars rest)).1) = []
      rw [placeholders_in_char alone]
      exact lead

theorem texts_placeholders (shown : Placeholder → List Char) (text : List Char) :
    (texts shown (ofChars text)).flatMap placeholdersIn =
      (placeholdersIn text).flatMap fun found => placeholdersIn (shown found) := by
  obtain ⟨lead, others⟩ := runs_bare text
  rw [texts, List.flatMap_cons, lead, List.nil_append, List.flatMap_assoc, placeholdersIn,
    ← runs_placeholders, List.flatMap_map]
  apply List.flatMap_congr
  intro run member
  simp [others run member]

end Piece

namespace Chunk

variable (chunk : ResolvedChunk) (ref : ChunkRef) (own caller : Scope)

/-- The text written in the place of a placeholder, none where there is an error. -/
def replacement (found : Placeholder) : List Char :=
  ((filling chunk ref own caller found).toOption.getD "").toList

def fault? (found : Placeholder) : Option DocumentError :=
  match filling chunk ref own caller found with
  | .ok _ => none
  | .error error => some error

def filledTexts : List (List Char) :=
  Piece.texts (replacement chunk ref own caller) (Piece.ofText chunk.body)

variable {chunk ref own caller}

theorem fill_pieces_eq (pieces : List Piece) :
    fillPieces chunk ref own caller pieces =
      (pieces.flatMap (Piece.filled (replacement chunk ref own caller)),
        (pieces.filterMap Piece.placeholder?).filterMap (fault? chunk ref own caller)) := by
  induction pieces with
  | nil => rfl
  | cons piece rest ih =>
      cases piece with
      | char c =>
          rw [fillPieces, ih]
          rfl
      | placeholder found =>
          have next : (Piece.placeholder found :: rest).filterMap Piece.placeholder? =
            found :: rest.filterMap Piece.placeholder? := rfl
          rw [fillPieces, ih, next]
          cases filled : filling chunk ref own caller found with
          | ok value => simp [filled, Piece.filled, replacement, fault?, Except.toOption]
          | error error => simp [filled, Piece.filled, replacement, fault?, Except.toOption]

/-- A filled body is its texts one behind another, with the errors of its placeholders in order. -/
theorem fill_eq :
    fill chunk ref own caller =
      (String.ofList (filledTexts chunk ref own caller).flatten,
        (placeholders chunk.body).filterMap (fault? chunk ref own caller)) := by
  rw [fill, fill_pieces_eq, filledTexts, Piece.texts_flatten]
  rfl

theorem fault?_eq_some {found : Placeholder} {error : DocumentError} :
    fault? chunk ref own caller found = some error ↔
      filling chunk ref own caller found = .error error := by
  unfold fault?
  cases filling chunk ref own caller found <;> simp

theorem fault?_eq_none {found : Placeholder} (clean : fault? chunk ref own caller found = none) :
    filling chunk ref own caller found =
      .ok (String.ofList (replacement chunk ref own caller found)) := by
  unfold fault? at clean
  split at clean
  · next value filled => simp [replacement, filled, Except.toOption]
  · cases clean

/-- What a filled body shows when it is read again: the placeholders of the texts filled in, and at
each edge at most one more. -/
theorem filled_placeholders {text : String} (clean : fill chunk ref own caller = (text, [])) :
    let fills := replacement chunk ref own caller
    let texts := filledTexts chunk ref own caller
    (∀ found ∈ placeholders chunk.body,
      filling chunk ref own caller found = .ok (String.ofList (fills found))) ∧
    text.toList = texts.flatten ∧
    (placeholdersIn (Piece.runs (Piece.ofText chunk.body)).1 = [] ∧
      ∀ run ∈ (Piece.runs (Piece.ofText chunk.body)).2, placeholdersIn run.2 = []) ∧
    placeholders text = placeholdersAcross texts ∧
    ((∀ written ∈ texts.dropLast, openEnd written = none) →
      placeholders text =
        (placeholders chunk.body).flatMap fun found => placeholdersIn (fills found)) ∧
    ∀ before fill behind, texts = before ++ fill :: behind → (∀ c ∈ fill, isBrace c = false) →
      openEnd before.flatten = none →
      placeholders text = placeholdersIn before.flatten ++ placeholdersIn behind.flatten := by
  intro fills texts
  rw [fill_eq] at clean
  obtain ⟨rfl, faultless⟩ := Prod.mk.inj clean
  have across : placeholders (String.ofList texts.flatten) = placeholdersAcross texts := by
    rw [placeholders_of_list, placeholders_in_flatten]
  refine ⟨?_, String.toList_ofList, Piece.runs_bare _, across, ?_, ?_⟩
  · intro found member
    exact fault?_eq_none (List.filterMap_eq_nil_iff.mp faultless found member)
  · intro closed
    rw [across, placeholders_apart closed]
    exact Piece.texts_placeholders fills chunk.body.toList
  · intro before fill behind cut plain closed
    have unopened : '{' ∉ fill := fun member => nomatch plain '{' member
    change placeholders (String.ofList texts.flatten) = _
    rw [placeholders_of_list, cut, List.flatten_append, List.flatten_cons, placeholders_in_append,
      straddling_closed closed, placeholders_in_unopened unopened, Option.toList_none,
      List.append_nil]

def framed (body : String) : ResolvedChunk where
  source := ⟨"/face"⟩
  name := ""
  chunkType := none
  imports := .empty
  defaults := .empty
  overrides := .empty
  body := body

theorem framed_name_shown :
    let ref : ChunkRef := ⟨"Face", [("Name", "Hair")]⟩
    let own : Scope := .ofList [("Eyes", .empty)]
    fill (framed "\x7b\x7bName\x7d\x7d \x7bEyes[2]\x7d") ref own .empty =
        ("\x7bHair\x7d \x7bFace.Eyes[2]\x7d", []) ∧
      placeholders "\x7bHair\x7d \x7bFace.Eyes[2]\x7d" =
        [⟨"Hair", none⟩, ⟨"Face.Eyes", some "2"⟩] := by
  intro ref own
  have clean : fill (framed "\x7b\x7bName\x7d\x7d \x7bEyes[2]\x7d") ref own .empty =
      ("\x7bHair\x7d \x7bFace.Eyes[2]\x7d", []) := by decide +kernel
  obtain ⟨-, -, -, across, -⟩ := filled_placeholders clean
  refine ⟨clean, across.trans ?_⟩
  decide +kernel

theorem framed_name_joins : ¬ ∀ (chunk : ResolvedChunk) (ref : ChunkRef) (own caller : Scope)
    (text : String), fill chunk ref own caller = (text, []) →
    placeholders text = (placeholders chunk.body).flatMap fun found =>
      placeholdersIn (replacement chunk ref own caller found) := by
  intro hygienic
  have same := hygienic (framed "\x7b\x7bName\x7d\x7d") ⟨"Face", [("Name", "Hair")]⟩ .empty .empty
    "\x7bHair\x7d" (by decide +kernel)
  exact absurd same (by decide +kernel)

end Chunk

end PromptLoom
