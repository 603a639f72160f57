/-!
# Cutting and joining texts

Texts are lists of characters here. Cutting at a character or at a word always yields at least one
part, and joining the parts with what they were cut at gives the text back.
-/

namespace PromptLoom.Text

set_option autoImplicit false

def splitAtChar (mark : Char) : List Char → List (List Char)
  | [] => [[]]
  | c :: rest =>
      if c = mark then [] :: splitAtChar mark rest
      else match splitAtChar mark rest with
        | part :: parts => (c :: part) :: parts
        | [] => [[c]]

/-- The text after `word`, when the text begins with it. -/
def dropWord : List Char → List Char → Option (List Char)
  | [], text => some text
  | _ :: _, [] => none
  | w :: word, c :: text => if w = c then dropWord word text else none

theorem drop_word_eq_some_iff {word text rest : List Char} :
    dropWord word text = some rest ↔ text = word ++ rest := by
  induction word generalizing text with
  | nil => simp [dropWord]
  | cons w word ih =>
      cases text with
      | nil => simp [dropWord]
      | cons c text =>
          by_cases same : w = c
          · simp [dropWord, same, ih]
          · simp only [dropWord, same, ↓reduceIte, reduceCtorEq, List.cons_append,
              List.cons.injEq, false_iff, not_and]
            intro equal
            exact absurd equal.symm same

theorem drop_word_length {word text rest : List Char} (found : dropWord word text = some rest) :
    text.length = word.length + rest.length := by
  rw [drop_word_eq_some_iff.mp found, List.length_append]

/-- The parts between the occurrences of a word, found from the left without overlap. The word is
given by its first character and its remaining ones, so that it is never empty. -/
def splitAtWord (first : Char) (others : List Char) (text : List Char) : List (List Char) :=
  match found : dropWord (first :: others) text with
  | some rest =>
      have : rest.length < text.length := by
        have := drop_word_length found
        simp only [List.length_cons] at this
        omega
      [] :: splitAtWord first others rest
  | none =>
      match text with
      | [] => [[]]
      | c :: rest =>
          match splitAtWord first others rest with
          | part :: parts => (c :: part) :: parts
          | [] => [[c]]
termination_by text.length

def cutAtWord (word : List Char) : List Char → Option (List Char × List Char)
  | [] => if word.isEmpty then some ([], []) else none
  | c :: text =>
      match dropWord word (c :: text) with
      | some rest => some ([], rest)
      | none => (cutAtWord word text).map fun (before, after) => (c :: before, after)

def cutAtChar (mark : Char) : List Char → Option (List Char × List Char)
  | [] => none
  | c :: text =>
      if c = mark then some ([], text)
      else (cutAtChar mark text).map fun (before, after) => (c :: before, after)

def cutAtLastChar (mark : Char) (text : List Char) : Option (List Char × List Char) :=
  (cutAtChar mark text.reverse).map fun (after, before) => (before.reverse, after.reverse)

def hasWord (word text : List Char) : Bool := (cutAtWord word text).isSome

/-- The parts of a text, with `glue` between neighbours. -/
def join (glue : List Char) : List (List Char) → List Char
  | [] => []
  | [part] => part
  | part :: next :: parts => part ++ glue ++ join glue (next :: parts)

/-- Every occurrence of `word` written as `replacement` instead. An empty word occurs at every
place between two characters and at both ends. -/
def replaceWord (word replacement text : List Char) : List Char :=
  match word with
  | [] => replacement ++ text.flatMap fun c => c :: replacement
  | first :: others => join replacement (splitAtWord first others text)

theorem split_at_char_ne_nil (mark : Char) (text : List Char) : splitAtChar mark text ≠ [] := by
  induction text with
  | nil => simp [splitAtChar]
  | cons c rest ih =>
      simp only [splitAtChar]
      split
      · simp
      · split <;> simp

theorem split_at_word_ne_nil (first : Char) (others text : List Char) :
    splitAtWord first others text ≠ [] := by
  unfold splitAtWord
  split
  · simp
  · split
    · simp
    · split <;> simp

end PromptLoom.Text
