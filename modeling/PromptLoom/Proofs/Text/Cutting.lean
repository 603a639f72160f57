import Mathlib.Data.List.Infix
import PromptLoom.Proofs.Text.Trim
import PromptLoom.Text.Split

/-!
# Where a text is cut

Cutting at a character undoes joining, and cutting at a word finds the first occurrence. A word can
occur earlier than where it was written behind a text, if it overlaps itself: its end, taken from
the text, then begins with what the word begins with.
-/

namespace PromptLoom.Text

set_option autoImplicit false

/-! ### At a character -/

theorem split_at_char_eq (mark : Char) (text : List Char) :
    splitAtChar mark text = text.splitOn mark := by
  induction text with
  | nil => rfl
  | cons c rest ih =>
      rw [splitAtChar, List.splitOn_cons_eq_if_modifyHead, ih]
      by_cases same : c = mark
      · simp [same]
      · rw [if_neg same, if_neg (by simpa using same)]
        cases parts : rest.splitOn mark with
        | nil => exact absurd parts (List.splitOn_ne_nil mark rest)
        | cons part more => rfl

theorem cut_at_char_eq_some {mark : Char} {text before after : List Char} :
    cutAtChar mark text = some (before, after) ↔ text = before ++ mark :: after ∧ mark ∉ before := by
  induction text generalizing before with
  | nil => simp [cutAtChar]
  | cons c rest ih =>
      by_cases same : c = mark
      · subst same
        cases before with
        | nil => simp [cutAtChar, eq_comm]
        | cons d front =>
            simp only [cutAtChar, if_true, Option.some.injEq, Prod.mk.injEq, List.cons_append,
              List.cons_eq_cons, List.mem_cons, not_or]
            constructor
            · rintro ⟨impossible, _⟩
              cases impossible
            · rintro ⟨⟨rfl, _⟩, other, _⟩
              exact absurd rfl other
      · simp only [cutAtChar, if_neg same, Option.map_eq_some_iff, Prod.mk.injEq]
        constructor
        · rintro ⟨⟨front, behind⟩, cut, rfl, rfl⟩
          obtain ⟨rfl, unmarked⟩ := ih.mp cut
          refine ⟨rfl, List.not_mem_cons_of_ne_of_not_mem (Ne.symm same) unmarked⟩
        · rintro ⟨whole, unmarked⟩
          cases before with
          | nil => exact absurd (List.head_eq_of_cons_eq whole) same
          | cons d front =>
              obtain ⟨rfl, tail⟩ := List.cons_eq_cons.mp whole
              exact ⟨(front, after), ih.mpr ⟨tail, List.not_mem_of_not_mem_cons unmarked⟩, rfl, rfl⟩

theorem cut_at_last_char_eq_some {mark : Char} {text before after : List Char} :
    cutAtLastChar mark text = some (before, after) ↔
      text = before ++ mark :: after ∧ mark ∉ after := by
  simp only [cutAtLastChar, Option.map_eq_some_iff, Prod.mk.injEq]
  constructor
  · rintro ⟨⟨back, front⟩, cut, rfl, rfl⟩
    obtain ⟨whole, unmarked⟩ := cut_at_char_eq_some.mp cut
    refine ⟨?_, by simpa using unmarked⟩
    rw [← List.reverse_reverse text, whole]
    simp
  · rintro ⟨rfl, unmarked⟩
    refine ⟨(after.reverse, before.reverse), cut_at_char_eq_some.mpr ⟨by simp, by simpa using unmarked⟩,
      List.reverse_reverse _, List.reverse_reverse _⟩

theorem join_eq (glue : List Char) (parts : List (List Char)) :
    join glue parts = glue.intercalate parts := by
  fun_induction join glue parts with
  | case1 => rw [List.intercalate_nil]
  | case2 part => rw [List.intercalate_singleton]
  | case3 part next parts ih => rw [ih, List.intercalate_cons_cons]

theorem split_on_parts {α : Type} [BEq α] [LawfulBEq α] {mark : α} {list part : List α}
    (member : part ∈ list.splitOn mark) : mark ∉ part := by
  induction list generalizing part with
  | nil =>
      rw [List.mem_singleton.mp member]
      exact List.not_mem_nil
  | cons item rest ih =>
      rw [List.splitOn_cons_eq_if_modifyHead] at member
      split at member
      · rcases List.mem_cons.mp member with rfl | later
        · exact List.not_mem_nil
        · exact ih later
      · next other =>
          obtain ⟨first, more, parts⟩ :=
            List.exists_cons_of_ne_nil (List.splitOn_ne_nil mark rest)
          rw [parts] at ih member
          rcases List.mem_cons.mp member with rfl | later
          · intro inside
            rcases List.mem_cons.mp inside with rfl | inside
            · exact other (beq_self_eq_true _)
            · exact ih (List.mem_cons_self ..) inside
          · exact ih (List.mem_cons_of_mem _ later)

theorem split_at_char_parts {mark : Char} {text part : List Char}
    (member : part ∈ splitAtChar mark text) : mark ∉ part := by
  rw [split_at_char_eq] at member
  exact split_on_parts member

theorem split_joined {mark : Char} {parts : List (List Char)} (some : parts ≠ [])
    (apart : ∀ part ∈ parts, mark ∉ part) : splitAtChar mark (join [mark] parts) = parts := by
  rw [split_at_char_eq, join_eq, List.splitOn_intercalate mark apart some]

theorem infix_intercalate {α : Type} {part : List α} {parts : List (List α)} (glue : List α)
    (member : part ∈ parts) : part <:+: glue.intercalate parts := by
  induction parts with
  | nil => cases member
  | cons first more ih =>
      cases more with
      | nil =>
          rw [List.mem_singleton.mp member, List.intercalate_singleton]
      | cons next more =>
          rw [List.intercalate_cons_cons]
          rcases List.mem_cons.mp member with rfl | later
          · rw [List.append_assoc]
            exact (List.prefix_append _ _).isInfix
          · exact (ih later).trans (List.suffix_append _ _).isInfix

theorem joined_filled {glue : List Char} {parts : List (List Char)} (some : parts ≠ [])
    (filled : ∀ part ∈ parts, part ≠ []) : join glue parts ≠ [] := by
  fun_cases join glue parts with
  | case1 => exact absurd rfl some
  | case2 part => exact filled part (List.mem_singleton_self part)
  | case3 part next parts => simp [filled part (List.mem_cons_self ..)]

theorem joined_bare {glue : List Char} {parts : List (List Char)}
    (filled : ∀ part ∈ parts, part ≠ []) (bare : ∀ part ∈ parts, Bare part) :
    Bare (join glue parts) := by
  fun_induction join glue parts with
  | case1 => exact bare_nil
  | case2 part => exact bare part (List.mem_singleton_self part)
  | case3 part next parts ih =>
      obtain ⟨some, others⟩ := List.forall_mem_cons.mp filled
      obtain ⟨first, rest⟩ := List.forall_mem_cons.mp bare
      exact first.around (ih others rest) some (joined_filled (List.cons_ne_nil _ _) others) glue

/-! ### At a word -/

variable {first : Char} {others text : List Char}

theorem cut_at_word_behind (clear : first ∉ text) (rest : List Char) :
    cutAtWord (first :: others) (text ++ (first :: others ++ rest)) = some (text, rest) := by
  induction text with
  | nil =>
      rw [List.nil_append, List.cons_append, cutAtWord, ← List.cons_append,
        drop_word_eq_some_iff.mpr rfl]
  | cons c text ih =>
      obtain ⟨other, clear⟩ := List.ne_and_not_mem_of_not_mem_cons clear
      have missing : dropWord (first :: others) (c :: (text ++ (first :: others ++ rest))) = none := by
        rw [dropWord, if_neg other]
      rw [List.cons_append, cutAtWord, missing]
      dsimp only
      rw [ih clear, Option.map_some]

theorem split_at_word_found (first : Char) (others rest : List Char) :
    splitAtWord first others (first :: others ++ rest) = [] :: splitAtWord first others rest := by
  rw [splitAtWord]
  split
  · next more found =>
      exact congrArg (fun text => [] :: splitAtWord first others text)
        (List.append_cancel_left (drop_word_eq_some_iff.mp found)).symm
  · next missing =>
      rw [drop_word_eq_some_iff.mpr rfl] at missing
      cases missing

theorem split_at_word_cons {c : Char} {rest : List Char}
    (missing : ¬ first :: others <+: c :: rest) :
    splitAtWord first others (c :: rest) =
      (splitAtWord first others rest).modifyHead (List.cons c) := by
  rw [splitAtWord]
  split
  · next more found => exact absurd ⟨more, (drop_word_eq_some_iff.mp found).symm⟩ missing
  · cases parts : splitAtWord first others rest with
    | nil => exact absurd parts (split_at_word_ne_nil first others rest)
    | cons part more => simp [parts]

theorem join_split_at_word (first : Char) (others text : List Char) :
    join (first :: others) (splitAtWord first others text) = text := by
  rw [join_eq]
  fun_induction splitAtWord first others text with
  | case1 text rest found _ ih =>
      rw [List.intercalate_cons_of_ne_nil (split_at_word_ne_nil first others rest), ih,
        drop_word_eq_some_iff.mp found, List.nil_append]
  | case2 => exact List.intercalate_singleton
  | case3 c rest _ part parts cut ih =>
      rw [cut] at ih
      rw [List.intercalate_cons_cons_left, ih]
  | case4 _ rest _ cut => exact absurd cut (split_at_word_ne_nil first others rest)

theorem split_at_word_free (free : ¬ first :: others <:+: text) :
    splitAtWord first others text = [text] := by
  induction text with
  | nil =>
      rw [splitAtWord]
      rfl
  | cons c rest ih =>
      rw [split_at_word_cons fun start => free start.isInfix,
        ih fun inside => free (inside.trans (List.suffix_cons c rest).isInfix),
        List.modifyHead_cons]

theorem split_at_word_parts {part : List Char} (member : part ∈ splitAtWord first others text) :
    ¬ first :: others <:+: part := by
  fun_induction splitAtWord first others text generalizing part with
  | case1 text rest found _ ih =>
      rcases List.mem_cons.mp member with rfl | later
      · simp
      · exact ih later
  | case2 =>
      rw [List.mem_singleton.mp member]
      simp
  | case3 c rest missing head parts cut ih =>
      rw [cut] at ih
      rcases List.mem_cons.mp member with rfl | later
      · intro inside
        rcases List.infix_cons_iff.mp inside with ⟨more, start⟩ | inside
        · have whole := join_split_at_word first others rest
          rw [cut, join_eq] at whole
          obtain ⟨tail, joined⟩ : head <+: rest := by
            rw [← whole]
            cases parts with
            | nil => rw [List.intercalate_singleton]
            | cons next parts =>
                rw [List.intercalate_cons_cons, List.append_assoc]
                exact List.prefix_append _ _
          have found : dropWord (first :: others) (c :: rest) = some (more ++ tail) := by
            rw [drop_word_eq_some_iff, ← joined, ← List.append_assoc, start, List.cons_append]
          rw [found] at missing
          cases missing
        · exact ih (List.mem_cons_self ..) inside
      · exact ih (List.mem_cons_of_mem _ later)
  | case4 _ rest _ cut => exact absurd cut (split_at_word_ne_nil first others rest)

/-- A word occurs where it is written behind a text, and begins inside the text. -/
def Early (word text : List Char) : Prop :=
  ∃ before rest, before ++ rest = text ∧ rest ≠ [] ∧ word <+: rest ++ word

/-- The first part ends where the word is written, unless the word occurs before. -/
theorem split_at_word_first (late : ¬ Early (first :: others) text) (tail : List Char) :
    splitAtWord first others (text ++ (first :: others ++ tail)) =
      text :: splitAtWord first others tail := by
  induction text with
  | nil => exact split_at_word_found first others tail
  | cons c rest ih =>
      have missing : ¬ first :: others <+: c :: (rest ++ (first :: others ++ tail)) := by
        intro start
        have bound : first :: others <+: c :: rest ++ first :: others := by
          refine List.prefix_of_prefix_length_le start ?_ (by simp; omega)
          simp
        exact late ⟨[], c :: rest, rfl, List.cons_ne_nil c rest, bound⟩
      have later : ¬ Early (first :: others) rest := by
        rintro ⟨before, more, rfl, some, start⟩
        exact late ⟨c :: before, more, rfl, some, start⟩
      rw [List.cons_append, split_at_word_cons missing, ih later, List.modifyHead_cons]

/-- A word that can be read one step early behind a bare text: its front, which does not end in a
blank, is followed by a part of the word that the word begins with. -/
def Overlaps (word : List Char) : Prop :=
  ∃ front back, front ≠ [] ∧ back ≠ [] ∧ front ++ back = word ∧ back <+: word ∧
    trimEnd front = front

/-- Behind a bare text in which it does not occur, a word that does not overlap itself is found
where it is written. -/
theorem not_early {word : List Char} (apart : ¬ Overlaps word) (bare : trimEnd text = text)
    (free : ¬ word <:+: text) : ¬ Early word text := by
  rintro ⟨before, rest, rfl, some, start⟩
  rcases Nat.lt_or_ge rest.length word.length with short | long
  · obtain ⟨back, split⟩ := List.prefix_of_prefix_length_le (List.prefix_append rest word) start
      (Nat.le_of_lt short)
    refine apart ⟨rest, back, some, ?_, split, ?_, ?_⟩
    · rintro rfl
      rw [List.append_nil] at split
      rw [split] at short
      exact Nat.lt_irrefl _ short
    · have inside := start
      nth_rewrite 1 [← split] at inside
      exact (List.prefix_append_right_inj rest).mp inside
    · rw [trim_end_eq] at bare ⊢
      rw [List.rdropWhile_eq_self_iff] at bare ⊢
      intro _
      rw [← List.getLast_append_of_ne_nil (by simp [some]) some]
      exact bare _
  · have prefixed := List.prefix_of_prefix_length_le start (List.prefix_append rest word) long
    exact free (prefixed.isInfix.trans (List.suffix_append before rest).isInfix)

theorem replace_word_free {replacement : List Char} (free : ¬ first :: others <:+: text) :
    replaceWord (first :: others) replacement text = text := by
  rw [replaceWord, split_at_word_free free]
  rfl

end PromptLoom.Text
