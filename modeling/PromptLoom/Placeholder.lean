import PromptLoom.Text.Identifier
import PromptLoom.Text.Utf8

/-!
# Placeholders

A placeholder is `{Name}` or `{Name[selector]}`, where the name may be dotted and the selector holds
no bracket and no brace. A text is read as a list of pieces, each a placeholder or a single
character, and `printed` gives the text back; so whatever replaces placeholders replaces pieces.
-/

namespace PromptLoom

open Text

set_option autoImplicit false

structure Placeholder where
  name : String
  selector : Option String
  deriving Repr, DecidableEq, Inhabited

namespace Placeholder

def printed (placeholder : Placeholder) : List Char :=
  match placeholder.selector with
  | none => '{' :: (placeholder.name.toList ++ ['}'])
  | some selector =>
      '{' :: (placeholder.name.toList ++ '[' :: (selector.toList ++ [']', '}']))

/-- The names with a meaning of their own, which never stand for an import. -/
def reservedNames : List String := ["prompt", "negprompt", "loras"]

def isReserved (name : String) : Bool := reservedNames.contains name

def isSelectorChar (c : Char) : Bool := c != '[' && c != ']' && c != '{' && c != '}'

def read? (text : List Char) : Option (Placeholder × List Char) :=
  match text with
  | '{' :: inside =>
      match takeDotted inside with
      | some (name, '}' :: rest) => some (⟨String.ofList name, none⟩, rest)
      | some (name, '[' :: more) =>
          match more.dropWhile isSelectorChar with
          | ']' :: '}' :: rest =>
              some (⟨String.ofList name, some (String.ofList (more.takeWhile isSelectorChar))⟩, rest)
          | _ => none
      | _ => none
  | _ => none

end Placeholder

theorem Text.take_dotted_parts {text name rest : List Char}
    (found : takeDotted text = some (name, rest)) : text = name ++ rest := by
  fun_induction takeDotted text generalizing name rest with
  | case1 => simp at found
  | case2 text first tail ident shorter names after deeper ih =>
      simp only [Option.some.injEq, Prod.mk.injEq] at found
      obtain ⟨rfl, rfl⟩ := found
      rw [take_ident_parts ident, ih deeper]
      simp
  | case3 text first tail ident shorter none ih =>
      simp only [Option.some.injEq, Prod.mk.injEq] at found
      obtain ⟨rfl, rfl⟩ := found
      exact take_ident_parts ident
  | case4 text first tail notDot ident =>
      simp only [Option.some.injEq, Prod.mk.injEq] at found
      obtain ⟨rfl, rfl⟩ := found
      exact take_ident_parts ident

namespace Placeholder

/-- Reading takes exactly the printed placeholder off the text. -/
theorem read?_append {text rest : List Char} {placeholder : Placeholder}
    (found : read? text = some (placeholder, rest)) : text = placeholder.printed ++ rest := by
  unfold read? at found
  split at found
  · next inside =>
      split at found
      · next name after dotted =>
          simp only [Option.some.injEq, Prod.mk.injEq] at found
          obtain ⟨rfl, rfl⟩ := found
          simp [printed, take_dotted_parts dotted]
      · next name more dotted =>
          split at found
          · next after closing =>
              simp only [Option.some.injEq, Prod.mk.injEq] at found
              obtain ⟨rfl, rfl⟩ := found
              have whole : more = more.takeWhile isSelectorChar ++ ']' :: '}' :: after := by
                rw [← closing, List.takeWhile_append_dropWhile]
              have tail : '[' :: more =
                  '[' :: (more.takeWhile isSelectorChar ++ ']' :: '}' :: after) :=
                congrArg ('[' :: ·) whole
              rw [take_dotted_parts dotted, tail]
              simp [printed]
          · simp at found
      · simp at found
  · simp at found

theorem read?_length {text rest : List Char} {placeholder : Placeholder}
    (found : read? text = some (placeholder, rest)) : rest.length < text.length := by
  have whole := read?_append found
  have : 0 < placeholder.printed.length := by
    unfold printed
    split <;> simp
  rw [whole, List.length_append]
  omega

end Placeholder

inductive Piece where
  | char (c : Char)
  | placeholder (found : Placeholder)
  deriving Repr, DecidableEq, Inhabited

namespace Piece

def printed : Piece → List Char
  | char c => [c]
  | placeholder found => found.printed

/-- The pieces of a text, placeholders found from the left without overlap. -/
def ofChars (text : List Char) : List Piece :=
  match found : Placeholder.read? text with
  | some (first, rest) =>
      have := Placeholder.read?_length found
      .placeholder first :: ofChars rest
  | none =>
      match text with
      | [] => []
      | c :: rest => .char c :: ofChars rest
termination_by text.length

def ofText (text : String) : List Piece := ofChars text.toList

def placeholder? : Piece → Option Placeholder
  | char _ => none
  | placeholder found => some found

theorem flat_map_printed_of_chars (text : List Char) : (ofChars text).flatMap printed = text := by
  fun_induction ofChars text with
  | case1 text placeholder rest found shorter ih =>
      simp [printed, ih, Placeholder.read?_append found]
  | case2 => rfl
  | case3 c rest none ih => simp [printed, ih]

end Piece

/-- A placeholder with the byte offsets of its first byte and of the first byte after it. -/
structure LocatedPlaceholder where
  placeholder : Placeholder
  start : Nat
  stop : Nat
  deriving Repr, DecidableEq

namespace LocatedPlaceholder

def ofPieces (offset : Nat) : List Piece → List LocatedPlaceholder
  | [] => []
  | piece :: rest =>
      let next := offset + byteLength piece.printed
      match piece with
      | .char _ => ofPieces next rest
      | .placeholder found => ⟨found, offset, next⟩ :: ofPieces next rest

def ofText (text : String) : List LocatedPlaceholder := ofPieces 0 (Piece.ofText text)

end LocatedPlaceholder

def placeholders (text : String) : List Placeholder :=
  (Piece.ofText text).filterMap Piece.placeholder?

end PromptLoom
