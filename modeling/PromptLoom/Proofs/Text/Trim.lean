import Mathlib.Data.List.DropRight
import PromptLoom.Text.Blank

/-!
# Trimmed texts

A text is bare when no blank stands at its ends. Trimming makes a text bare and leaves bare texts
alone.
-/

namespace PromptLoom.Text

set_option autoImplicit false

/-- Neither the first nor the last character is blank. -/
def Bare (text : List Char) : Prop :=
  (∀ c ∈ text.head?, isBlank c = false) ∧ ∀ c ∈ text.getLast?, isBlank c = false

instance (text : List Char) : Decidable (Bare text) :=
  decidable_of_iff (text.head?.all (fun c => !isBlank c) = true ∧
    text.getLast?.all (fun c => !isBlank c) = true) (by simp [Bare, Option.all_eq_true])

variable {text rest : List Char}

theorem trim_end_eq (text : List Char) : trimEnd text = text.rdropWhile isBlank := rfl

theorem trim_inside (text : List Char) : trim text <:+: text := by
  have front : trim text <+: trimStart text := List.rdropWhile_prefix isBlank (trimStart text)
  exact front.isInfix.trans (List.dropWhile_suffix isBlank).isInfix

theorem trim_bare (text : List Char) : Bare (trim text) := by
  constructor
  · intro c first
    have whole : c ∈ (trimStart text).head? := by
      obtain ⟨more, joined⟩ := List.rdropWhile_prefix isBlank (trimStart text)
      rw [← joined]
      exact List.mem_head?_append_of_mem_head? first
    have started := List.head?_dropWhile_not isBlank text
    rwa [show (List.dropWhile isBlank text).head? = some c from whole] at started
  · intro c last
    obtain ⟨some, rfl⟩ := List.mem_getLast?_eq_getLast last
    exact eq_false_of_ne_true (List.rdropWhile_last_not isBlank _ some)

theorem Bare.trim_end (bare : Bare text) : trimEnd text = text := by
  rw [trim_end_eq]
  apply List.rdropWhile_eq_self_iff.mpr
  intro some
  rw [bare.2 _ (List.getLast?_eq_some_getLast some)]
  decide

theorem Bare.trim (bare : Bare text) : trim text = text := by
  have front : trimStart text = text := by
    apply List.dropWhile_eq_self_iff.mpr
    intro some
    rw [bare.1 _ (by simp [List.head?_eq_getElem?, some])]
    decide
  rw [Text.trim, front, bare.trim_end]

theorem trim_trim (text : List Char) : trim (trim text) = trim text := (trim_bare text).trim

theorem bare_nil : Bare [] := ⟨fun _ none => (nomatch none), fun _ none => (nomatch none)⟩

theorem Bare.append (bare : Bare text) (more : Bare rest) : Bare (text ++ rest) := by
  constructor
  · intro c first
    rw [List.head?_append, Option.mem_def, Option.or_eq_some_iff] at first
    rcases first with first | ⟨_, first⟩
    · exact bare.1 c first
    · exact more.1 c first
  · intro c last
    rw [List.getLast?_append, Option.mem_def, Option.or_eq_some_iff] at last
    rcases last with last | ⟨_, last⟩
    · exact more.2 c last
    · exact bare.2 c last

/-- A bare text that holds anything keeps its ends apart from what stands between. -/
theorem Bare.around (bare : Bare text) (more : Bare rest) (first : text ≠ []) (last : rest ≠ [])
    (between : List Char) : Bare (text ++ between ++ rest) := by
  constructor
  · intro c member
    rw [List.append_assoc, List.head?_append_of_ne_nil _ first] at member
    exact bare.1 c member
  · intro c member
    rw [List.getLast?_append_of_ne_nil _ last] at member
    exact more.2 c member

theorem trim_cons {c : Char} (blank : isBlank c = true) (text : List Char) :
    trim (c :: text) = trim text := by
  unfold trim trimStart
  rw [List.dropWhile_cons_of_pos blank]

theorem trim_append_blanks (text : List Char) {blanks : List Char}
    (all : ∀ c ∈ blanks, isBlank c = true) : trim (text ++ blanks) = trim text := by
  unfold trim trimStart
  rw [List.dropWhile_append]
  split
  · next none =>
      rw [List.dropWhile_eq_nil_iff.mpr all, List.isEmpty_iff.mp none]
  · unfold trimEnd
    rw [List.reverse_append, List.dropWhile_append_of_pos (by simpa using all)]

end PromptLoom.Text
