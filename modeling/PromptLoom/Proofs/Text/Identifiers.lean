import Mathlib.Data.List.Basic
import PromptLoom.Text.Blank
import PromptLoom.Text.Identifier
import PromptLoom.Text.LetterNumber

/-!
# Identifiers and words

An identifier is read as far as its characters go. Its characters are no blanks, and they continue
words, so a text with an identifier at its end ends in a word.
-/

namespace PromptLoom.Text

set_option autoImplicit false

/-- A run that ends where a text does, or before a character that does not belong to it, is taken
whole. -/
theorem take_while_exact {p : Char → Bool} {run rest : List Char} (inside : ∀ c ∈ run, p c = true)
    (ends : ∀ c ∈ rest.head?, p c = false) :
    (run ++ rest).takeWhile p = run ∧ (run ++ rest).dropWhile p = rest := by
  have stops : rest.takeWhile p = [] ∧ rest.dropWhile p = rest := by
    cases rest with
    | nil => exact ⟨rfl, rfl⟩
    | cons c behind => simp [ends c rfl]
  rw [List.takeWhile_append_of_pos inside, List.dropWhile_append_of_pos inside, stops.1, stops.2,
    List.append_nil]
  exact ⟨rfl, rfl⟩

theorem ident_not_blank {c : Char} (ident : isIdentRest c = true) : isBlank c = false := by
  simp only [isIdentRest, isIdentStart, Bool.or_eq_true, Bool.and_eq_true, decide_eq_true_eq,
    beq_iff_eq, Char.le_def, UInt32.le_iff_toNat_le] at ident
  simp only [isBlank, Bool.or_eq_false_iff, Bool.and_eq_false_iff, decide_eq_false_iff_not,
    beq_eq_false_iff_ne]
  rcases ident with ((⟨low, high⟩ | ⟨low, high⟩) | rfl) | ⟨low, high⟩
  · change 97 ≤ c.toNat at low
    change c.toNat ≤ 122 at high
    omega
  · change 65 ≤ c.toNat at low
    change c.toNat ≤ 90 at high
    omega
  · decide
  · change 48 ≤ c.toNat at low
    change c.toNat ≤ 57 at high
    omega

theorem take_ident_iff {text name rest : List Char} :
    takeIdent text = some (name, rest) ↔
      text = name ++ rest ∧ isIdent name = true ∧ ∀ c ∈ rest.head?, isIdentRest c = false := by
  constructor
  · intro found
    refine ⟨take_ident_parts found, take_ident_is_ident found, ?_⟩
    cases text with
    | nil => cases found
    | cons c tail =>
        rw [takeIdent] at found
        split at found
        · obtain ⟨-, rfl⟩ := Prod.mk.inj (Option.some.inj found)
          intro next first
          have stops := List.head?_dropWhile_not isIdentRest tail
          rw [Option.mem_def.mp first] at stops
          simpa using stops
        · cases found
  · rintro ⟨rfl, ident, ends⟩
    cases name with
    | nil => cases ident
    | cons c others =>
        obtain ⟨starts, all⟩ := Bool.and_eq_true_iff.mp ident
        obtain ⟨taken, left⟩ := take_while_exact (List.all_eq_true.mp all) ends
        rw [List.cons_append, takeIdent, if_pos starts, taken, left]

/-! ### Words -/

theorem in_run {c : Char} {first last : Nat} (listed : (first, last) ∈ letterNumberRuns)
    (lower : first ≤ c.toNat) (upper : c.toNat ≤ last) : isWordChar c = true := by
  refine Bool.or_eq_true_iff.mpr (.inl (List.any_eq_true.mpr ⟨_, listed, ?_⟩))
  simp only [lower, upper, decide_true, Bool.and_self]

theorem ident_in_word {c : Char} (ident : isIdentRest c = true) : isWordChar c = true := by
  simp only [isIdentRest, isIdentStart, Bool.or_eq_true, Bool.and_eq_true, decide_eq_true_eq,
    beq_iff_eq] at ident
  rcases ident with ((⟨lower, upper⟩ | ⟨lower, upper⟩) | rfl) | ⟨lower, upper⟩
  · exact in_run (.tail _ (.tail _ (.head _))) lower upper
  · exact in_run (.tail _ (.head _)) lower upper
  · exact Bool.or_eq_true_iff.mpr (.inr rfl)
  · exact in_run (.head _) lower upper

theorem ident_starts_rest {c : Char} (start : isIdentStart c = true) : isIdentRest c = true :=
  Bool.or_eq_true_iff.mpr (.inl start)

def endsInWord (text : List Char) : Bool := text.getLast?.any isWordChar

theorem ends_in_word_concat (text : List Char) (c : Char) :
    endsInWord (text ++ [c]) = isWordChar c := by
  simp [endsInWord]

theorem ends_in_word_ident {name : List Char} (ident : isIdent name = true)
    (before : List Char) : endsInWord (before ++ name) = true := by
  obtain ⟨front, c, rfl⟩ : ∃ front c, name = front ++ [c] := by
    refine (List.eq_nil_or_concat' name).resolve_left ?_
    rintro rfl
    cases ident
  rw [← List.append_assoc, ends_in_word_concat]
  cases front with
  | nil =>
      obtain ⟨start, -⟩ := Bool.and_eq_true_iff.mp ident
      exact ident_in_word (ident_starts_rest start)
  | cons d front =>
      obtain ⟨-, all⟩ := Bool.and_eq_true_iff.mp ident
      exact ident_in_word (List.all_eq_true.mp all c (by simp))

end PromptLoom.Text
