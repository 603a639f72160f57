/-!
# Identifiers

Names of imports, chunks and placeholders are ASCII identifiers; imports and placeholders may be
several of them joined by dots.
-/

namespace PromptLoom.Text

set_option autoImplicit false

def isIdentStart (c : Char) : Bool :=
  ('a' ≤ c && c ≤ 'z') || ('A' ≤ c && c ≤ 'Z') || c == '_'

def isIdentRest (c : Char) : Bool := isIdentStart c || ('0' ≤ c && c ≤ '9')

/-- The longest identifier at the start of a text, and the text after it. -/
def takeIdent (text : List Char) : Option (List Char × List Char) :=
  match text with
  | [] => none
  | c :: rest =>
      if isIdentStart c then
        some (c :: rest.takeWhile isIdentRest, rest.dropWhile isIdentRest)
      else none

def isIdent (text : List Char) : Bool :=
  match text with
  | [] => false
  | c :: rest => isIdentStart c && rest.all isIdentRest

theorem take_ident_parts {text name rest : List Char} (found : takeIdent text = some (name, rest)) :
    text = name ++ rest := by
  cases text with
  | nil => simp [takeIdent] at found
  | cons c tail =>
      simp only [takeIdent] at found
      split at found
      · simp only [Option.some.injEq, Prod.mk.injEq] at found
        obtain ⟨rfl, rfl⟩ := found
        simp
      · simp at found

theorem take_ident_is_ident {text name rest : List Char}
    (found : takeIdent text = some (name, rest)) : isIdent name = true := by
  cases text with
  | nil => simp [takeIdent] at found
  | cons c tail =>
      simp only [takeIdent] at found
      split at found
      · next start =>
          simp only [Option.some.injEq, Prod.mk.injEq] at found
          obtain ⟨rfl, rfl⟩ := found
          simp only [isIdent, start, Bool.true_and, List.all_eq_true]
          intro x member
          exact List.all_eq_true.mp (List.all_takeWhile (p := isIdentRest) (l := tail)) x member
      · simp at found

theorem take_ident_length {text name rest : List Char}
    (found : takeIdent text = some (name, rest)) : rest.length < text.length := by
  have nonempty : name ≠ [] := by
    intro empty
    have := take_ident_is_ident found
    simp [empty, isIdent] at this
  have whole := take_ident_parts found
  have : 0 < name.length := List.length_pos_iff.mpr nonempty
  rw [whole, List.length_append]
  omega

/-- The longest run of identifiers joined by dots at the start of a text, and the text after it. A
dot with no identifier behind it stays outside. -/
def takeDotted (text : List Char) : Option (List Char × List Char) :=
  match first : takeIdent text with
  | none => none
  | some (name, '.' :: rest) =>
      have : rest.length < text.length := by
        have := take_ident_length first
        simp only [List.length_cons] at this
        omega
      match takeDotted rest with
      | some (names, after) => some (name ++ '.' :: names, after)
      | none => some (name, '.' :: rest)
  | some (name, rest) => some (name, rest)
termination_by text.length

def isDotted (text : List Char) : Bool :=
  match takeDotted text with
  | some (_, []) => true
  | _ => false

end PromptLoom.Text
