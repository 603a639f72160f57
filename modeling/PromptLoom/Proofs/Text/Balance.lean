import Mathlib.Data.List.Infix

/-!
# Balanced braces

A text balances its braces if none closes before one opens and all that open close. A text behind
some open braces settles them if it closes these as well as its own.
-/

namespace PromptLoom.Text

set_option autoImplicit false

/-- No brace closes before one opens, and all that open close. -/
structure BraceBalanced (text : List Char) : Prop where
  opened : ∀ front, front <+: text → front.count '}' ≤ front.count '{'
  settled : text.count '{' = text.count '}'

instance (text : List Char) : Decidable (BraceBalanced text) :=
  decidable_of_iff ((∀ front ∈ text.inits, front.count '}' ≤ front.count '{') ∧
      text.count '{' = text.count '}') <| by
    simp only [List.mem_inits]
    exact ⟨fun both => ⟨both.1, both.2⟩, fun balanced => ⟨balanced.opened, balanced.settled⟩⟩

/-- A text that closes the braces opened before it, and all that it opens itself. -/
structure Settles (depth : Nat) (text : List Char) : Prop where
  opened : ∀ front, front <+: text → front.count '}' ≤ front.count '{' + depth
  settled : text.count '{' + depth = text.count '}'

theorem settles_zero {text : List Char} : Settles 0 text ↔ BraceBalanced text :=
  ⟨fun settles => ⟨settles.opened, settles.settled⟩,
    fun balanced => ⟨balanced.opened, balanced.settled⟩⟩

theorem settles_nil {depth : Nat} : Settles depth [] ↔ depth = 0 := by
  constructor
  · intro settles
    simpa using settles.settled
  · rintro rfl
    exact ⟨fun front begins => by simp [List.prefix_nil.mp begins], rfl⟩

theorem settles_cons {depth : Nat} {c : Char} {rest : List Char} :
    Settles depth (c :: rest) ↔ (c = '}' → 0 < depth) ∧
      Settles (depth + [c].count '{' - [c].count '}') rest := by
  have one : [c].count '}' = if c = '}' then 1 else 0 := by simp [List.count_singleton]
  constructor
  · rintro ⟨opened, settled⟩
    have first := opened [c] (List.cons_prefix_cons.mpr ⟨rfl, List.nil_prefix⟩)
    rw [← List.singleton_append, List.count_append, List.count_append] at settled
    refine ⟨?_, ⟨?_, by omega⟩⟩
    · rintro rfl
      have counted : 1 ≤ 0 + depth := first
      omega
    · intro front begins
      have longer := opened (c :: front) (List.cons_prefix_cons.mpr ⟨rfl, begins⟩)
      rw [← List.singleton_append, List.count_append, List.count_append] at longer
      omega
  · rintro ⟨enough, opened, settled⟩
    have within : [c].count '}' ≤ [c].count '{' + depth := by
      rw [one]
      split
      · next closes => exact Nat.le_add_left_of_le (enough closes)
      · exact Nat.zero_le _
    refine ⟨?_, ?_⟩
    · intro front begins
      rcases List.prefix_cons_iff.mp begins with rfl | ⟨more, rfl, later⟩
      · simp
      · have counted := opened more later
        rw [← List.singleton_append, List.count_append, List.count_append]
        omega
    · rw [← List.singleton_append, List.count_append, List.count_append]
      omega

@[simp] theorem settles_open {depth : Nat} {rest : List Char} :
    Settles depth ('{' :: rest) ↔ Settles (depth + 1) rest := by
  simp [settles_cons]

@[simp] theorem settles_close {depth : Nat} {rest : List Char} :
    Settles depth ('}' :: rest) ↔ ∃ outer, depth = outer + 1 ∧ Settles outer rest := by
  cases depth with
  | zero => simp [settles_cons]
  | succ outer => simp [settles_cons]

theorem settles_other {depth : Nat} {c : Char} {rest : List Char} (opening : c ≠ '{')
    (closing : c ≠ '}') : Settles depth (c :: rest) ↔ Settles depth rest := by
  simp [settles_cons, opening, closing]

end PromptLoom.Text
