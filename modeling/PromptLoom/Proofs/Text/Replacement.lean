import PromptLoom.Proofs.Text.Cutting

/-!
# Writing a word as another text

A word is replaced from left to right. Replacing goes on behind each occurrence, so a text that has
been put in is not looked at again; replacing a second time looks at it, and finds the occurrences
inside it and none beside, unless one straddles an end of what was put in.
-/

namespace PromptLoom.Text

set_option autoImplicit false

variable {word replacement text rest : List Char}

theorem has_word_iff : hasWord word text = true ↔ word <:+: text := by
  unfold hasWord
  induction text with
  | nil =>
      rw [cutAtWord, List.infix_nil]
      split
      · next none => simpa using none
      · next some => simpa using some
  | cons c rest ih =>
      rw [cutAtWord, List.infix_cons_iff, ← ih]
      cases found : dropWord word (c :: rest) with
      | some behind =>
          simp only [Option.isSome_some, true_iff]
          exact .inl ⟨behind, (drop_word_eq_some_iff.mp found).symm⟩
      | none =>
          have missing : ¬ word <+: c :: rest := by
            rintro ⟨behind, whole⟩
            rw [drop_word_eq_some_iff.mpr whole.symm] at found
            cases found
          rw [Option.isSome_map]
          exact (or_iff_right missing).symm

/-! ### One step of replacing -/

theorem replace_word_nil (some : word ≠ []) : replaceWord word replacement [] = [] := by
  cases word with
  | nil => exact absurd rfl some
  | cons first others => rw [replaceWord, split_at_word_free (by simp), join]

theorem replace_word_found (some : word ≠ []) (rest : List Char) :
    replaceWord word replacement (word ++ rest) =
      replacement ++ replaceWord word replacement rest := by
  cases word with
  | nil => exact absurd rfl some
  | cons first others =>
      have filled := split_at_word_ne_nil first others rest
      simp only [replaceWord, join_eq]
      rw [split_at_word_found, List.intercalate_cons_of_ne_nil filled, List.nil_append]

theorem replace_word_cons {c : Char} (some : word ≠ []) (missing : ¬ word <+: c :: rest) :
    replaceWord word replacement (c :: rest) = c :: replaceWord word replacement rest := by
  cases word with
  | nil => exact absurd rfl some
  | cons first others =>
      obtain ⟨part, parts, cut⟩ := List.exists_cons_of_ne_nil (split_at_word_ne_nil first others rest)
      simp only [replaceWord, join_eq, split_at_word_cons missing, cut, List.modifyHead_cons,
        List.intercalate_cons_cons_left]

/-- Texts as a word is looked for in them: what begins with the word goes on behind it, and anything
else behind its first character. -/
theorem scan_induction {motive : List Char → Prop} (some : word ≠ []) (nil : motive [])
    (found : ∀ rest, motive rest → motive (word ++ rest))
    (missing : ∀ c rest, ¬ word <+: c :: rest → motive rest → motive (c :: rest))
    (text : List Char) : motive text := by
  by_cases start : word <+: text
  · obtain ⟨rest, rfl⟩ := start
    have : rest.length < (word ++ rest).length := by
      have := List.length_pos_of_ne_nil some
      rw [List.length_append]
      omega
    exact found rest (scan_induction some nil found missing rest)
  · cases text with
    | nil => exact nil
    | cons c rest => exact missing c rest start (scan_induction some nil found missing rest)
termination_by text.length

/-! ### Seams -/

/-- A text that a word does not straddle: it begins with no end of the word and ends with no
beginning of it. -/
def Seamless (word text : List Char) : Prop :=
  ∀ front back, front ≠ [] → back ≠ [] → front ++ back = word →
    ¬ back <+: text ∧ ¬ front <:+ text

/-- An occurrence at the start of a text with more behind it lies in the text, or ends in what
stands behind. -/
theorem starts_or_straddles (start : word <+: text ++ rest) :
    word <+: text ∨ ∃ back, back ≠ [] ∧ text ++ back = word ∧ back <+: rest := by
  rcases Nat.lt_or_ge text.length word.length with short | long
  · obtain ⟨back, whole⟩ :=
      List.prefix_of_prefix_length_le (List.prefix_append text rest) start (Nat.le_of_lt short)
    refine .inr ⟨back, ?_, whole, ?_⟩
    · rintro rfl
      rw [List.append_nil] at whole
      rw [whole] at short
      exact Nat.lt_irrefl _ short
    · rwa [← whole, List.prefix_append_right_inj] at start
  · exact .inl (List.prefix_of_prefix_length_le start (List.prefix_append text rest) long)

theorem replace_word_append (some : word ≠ []) {text behind : List Char}
    (apart : ∀ front back, front ≠ [] → back ≠ [] → front ++ back = word → ¬ front <:+ text) :
    replaceWord word replacement (text ++ behind) =
      replaceWord word replacement text ++ replaceWord word replacement behind := by
  induction text using scan_induction some with
  | nil => rw [replace_word_nil some, List.nil_append, List.nil_append]
  | found rest ih =>
      rw [List.append_assoc, replace_word_found some, replace_word_found some, ih,
        List.append_assoc]
      intro front back filled more whole ends
      exact apart front back filled more whole (ends.trans (List.suffix_append word rest))
  | missing c rest missing ih =>
      have late : ¬ word <+: c :: (rest ++ behind) := by
        intro start
        rcases @starts_or_straddles word (c :: rest) behind start
          with inside | ⟨back, more, whole, -⟩
        · exact missing inside
        · exact apart (c :: rest) back (List.cons_ne_nil c rest) more whole List.suffix_rfl
      rw [List.cons_append, replace_word_cons some late, replace_word_cons some missing, ih,
        List.cons_append]
      intro front back filled more whole ends
      exact apart front back filled more whole (ends.trans (List.suffix_cons c rest))

theorem replaced_start (some : word ≠ []) (replacement text : List Char) :
    ∃ front, front <+: text ∧ (replaceWord word replacement text = text ∨
      front ++ replacement <+: replaceWord word replacement text) := by
  induction text using scan_induction some with
  | nil => exact ⟨[], List.nil_prefix, .inl (replace_word_nil some)⟩
  | found rest _ =>
      rw [replace_word_found some]
      exact ⟨[], List.nil_prefix, .inr (List.prefix_append replacement _)⟩
  | missing c rest missing ih =>
      obtain ⟨front, start, kept⟩ := ih
      rw [replace_word_cons some missing]
      refine ⟨c :: front, List.cons_prefix_cons.mpr ⟨rfl, start⟩, kept.imp (congrArg _) ?_⟩
      exact fun inside => List.cons_prefix_cons.mpr ⟨rfl, inside⟩

theorem replaced_inside (some : word ≠ []) (holds : word <:+: text) (replacement : List Char) :
    replacement <:+: replaceWord word replacement text := by
  induction text using scan_induction some with
  | nil => exact absurd (List.infix_nil.mp holds) some
  | found rest _ =>
      rw [replace_word_found some]
      exact (List.prefix_append replacement _).isInfix
  | missing c rest missing ih =>
      rw [replace_word_cons some missing]
      have later := (List.infix_cons_iff.mp holds).resolve_left missing
      exact (ih later).trans (List.suffix_cons c _).isInfix

section Twice

variable {middle : List Char} (some : word ≠ []) (holds : word <:+: middle)
  (seamless : Seamless word middle)
include some holds seamless

/-- Putting in a text whose beginning ends no occurrence makes none in front of it. -/
theorem replaced_missing {c : Char} (missing : ¬ word <+: c :: rest) :
    ¬ word <+: c :: replaceWord word middle rest := by
  intro start
  obtain ⟨front, kept, same | ⟨behind, whole⟩⟩ := replaced_start some middle rest
  · rw [same] at start
    exact missing start
  · rw [← whole, List.append_assoc, ← List.cons_append] at start
    rcases starts_or_straddles start with inside | ⟨back, more, split, ends⟩
    · exact missing (inside.trans (List.cons_prefix_cons.mpr ⟨rfl, kept⟩))
    · have shorter : back.length ≤ middle.length := by
        refine Nat.le_trans ?_ holds.length_le
        rw [← split, List.length_append]
        exact Nat.le_add_left _ _
      have begins := List.prefix_of_prefix_length_le ends (List.prefix_append middle behind) shorter
      exact (seamless (c :: front) back (List.cons_ne_nil c front) more split).1 begins

/-- Replacing twice is replacing once by what the text in between is replaced to. -/
theorem replace_word_twice (replacement text : List Char) :
    replaceWord word replacement (replaceWord word middle text) =
      replaceWord word (replaceWord word replacement middle) text := by
  induction text using scan_induction some with
  | nil => simp only [replace_word_nil some]
  | found rest ih =>
      rw [replace_word_found some, replace_word_found some, ← ih]
      exact replace_word_append some fun front back filled more whole =>
        (seamless front back filled more whole).2
  | missing c rest missing ih =>
      rw [replace_word_cons some missing, replace_word_cons some missing, ← ih]
      exact replace_word_cons some (replaced_missing some holds seamless missing)

end Twice

end PromptLoom.Text
