import Mathlib.Data.List.Chain
import PromptLoom.Proofs.Text.Cutting
import PromptLoom.Text.Layout

/-!
# Tokens of a text

A list of tokens is settled when every separator in it parts two pieces of content, which is what
dropping the surplus ones leads to. Line breaks play no part in this, and a settled list stays so
when further separators are taken out of it.
-/

namespace PromptLoom.Text.Layout

set_option autoImplicit false

variable {afterContent : Bool} {list thinner : List Token}

/-! ### Settled lists -/

/-- Every separator stands behind a piece of content and before another one, line breaks aside.
`afterContent` tells whether content stands before the list. -/
def Settled : Bool → List Token → Prop
  | _, [] => True
  | _, .content _ :: rest => Settled true rest
  | afterContent, .newline :: rest => Settled afterContent rest
  | afterContent, .separator :: rest =>
      afterContent = true ∧ rest.any Token.isContent = true ∧ Settled false rest

theorem drop_surplus_sublist (afterContent : Bool) (list : List Token) :
    (dropSurplus afterContent list).Sublist list := by
  fun_induction dropSurplus afterContent list with
  | case1 => exact List.Sublist.refl _
  | case2 _ text rest ih => exact ih.cons_cons _
  | case3 _ rest ih => exact ih.cons_cons _
  | case4 _ rest _ ih => exact ih.cons_cons _
  | case5 _ rest _ ih => exact ih.cons _

theorem drop_surplus_contents (afterContent : Bool) (list : List Token) :
    (dropSurplus afterContent list).filter Token.isContent = list.filter Token.isContent := by
  fun_induction dropSurplus afterContent list with
  | case1 => rfl
  | case2 _ text rest ih => rw [List.filter_cons_of_pos rfl, List.filter_cons_of_pos rfl, ih]
  | case3 _ rest ih => simpa [Token.isContent] using ih
  | case4 _ rest _ ih => simpa [Token.isContent] using ih
  | case5 _ rest _ ih => simpa [Token.isContent] using ih

theorem any_content_iff : list.any Token.isContent = true ↔ list.filter Token.isContent ≠ [] := by
  simp

theorem drop_surplus_settled (afterContent : Bool) (list : List Token) :
    Settled afterContent (dropSurplus afterContent list) := by
  fun_induction dropSurplus afterContent list with
  | case1 => trivial
  | case2 _ text rest ih => exact ih
  | case3 _ rest ih => exact ih
  | case4 afterContent rest parting ih =>
      obtain ⟨after, before⟩ := Bool.and_eq_true_iff.mp parting
      refine ⟨after, ?_, ih⟩
      rw [any_content_iff, drop_surplus_contents]
      exact any_content_iff.mp before
  | case5 _ rest _ ih => exact ih

theorem Settled.drop_surplus (settled : Settled afterContent list) :
    dropSurplus afterContent list = list := by
  fun_induction dropSurplus afterContent list with
  | case1 => rfl
  | case2 _ text rest ih => rw [ih settled]
  | case3 _ rest ih => rw [ih settled]
  | case4 _ rest _ ih => rw [ih settled.2.2]
  | case5 _ rest surplus _ =>
      exact absurd (Bool.and_eq_true_iff.mpr ⟨settled.1, settled.2.1⟩) surplus

theorem Settled.after_content (settled : Settled afterContent list) : Settled true list := by
  induction list with
  | nil => trivial
  | cons token rest ih =>
      cases token with
      | content text => exact settled
      | newline => exact ih settled
      | separator => exact ⟨rfl, settled.2⟩

theorem settled_without_newlines :
    Settled afterContent (list.filter (· ≠ .newline)) ↔ Settled afterContent list := by
  induction list generalizing afterContent with
  | nil => rfl
  | cons token rest ih =>
      cases token with
      | content text => simpa [Settled] using ih
      | newline => simpa [Settled] using ih
      | separator =>
          have contents : (rest.filter (· ≠ .newline)).any Token.isContent =
              rest.any Token.isContent := by
            rw [List.any_filter]
            congr 1
            funext token
            cases token <;> rfl
          simp only [ne_eq, reduceCtorEq, not_false_eq_true, decide_true, List.filter_cons_of_pos,
            Settled]
          simp only [ne_eq] at ih contents
          rw [ih, contents]

theorem Settled.thin (settled : Settled afterContent list) (taken : thinner.Sublist list)
    (contents : thinner.filter Token.isContent = list.filter Token.isContent) :
    Settled afterContent thinner := by
  induction taken generalizing afterContent with
  | slnil => trivial
  | @cons thinner list token taken ih =>
      cases token with
      | content text =>
          have shorter := (taken.filter Token.isContent).length_le
          rw [contents, List.filter_cons_of_pos rfl, List.length_cons] at shorter
          exact absurd shorter (Nat.not_succ_le_self _)
      | newline => exact ih settled contents
      | separator =>
          obtain ⟨rfl, -, rest⟩ := settled
          exact ih rest.after_content contents
  | @cons_cons thinner list token taken ih =>
      cases token with
      | content text =>
          rw [List.filter_cons_of_pos rfl, List.filter_cons_of_pos rfl] at contents
          exact ih settled (List.cons.inj contents).2
      | newline => exact ih settled contents
      | separator =>
          obtain ⟨after, before, rest⟩ := settled
          refine ⟨after, ?_, ih rest contents⟩
          rw [any_content_iff] at before ⊢
          rwa [show thinner.filter Token.isContent = _ from contents]

/-! ### Neighbours -/

/-- No two pieces of content stand side by side. -/
def Spaced (list : List Token) : Prop :=
  List.IsChain (fun first second => ¬ (first.isContent = true ∧ second.isContent = true)) list

/-- A separator that parts two pieces of content is not dropped, so that they stay apart. -/
theorem drop_surplus_spaced (afterContent : Bool) (spaced : Spaced list) :
    Spaced (dropSurplus afterContent list) ∧
      (afterContent = true → ∀ token ∈ (dropSurplus afterContent list).head?,
        token.isContent = true → list.head? = some token) := by
  fun_induction dropSurplus afterContent list with
  | case1 => exact ⟨.nil, fun _ _ none => nomatch none⟩
  | case2 _ text rest ih =>
      obtain ⟨first, others⟩ := List.isChain_cons.mp spaced
      obtain ⟨kept, head⟩ := ih others
      refine ⟨List.isChain_cons.mpr ⟨?_, kept⟩, fun _ _ same _ => same⟩
      intro next follows both
      exact first next (head rfl next follows both.2) both
  | case3 _ rest ih =>
      obtain ⟨-, others⟩ := List.isChain_cons.mp spaced
      refine ⟨List.isChain_cons.mpr ⟨?_, (ih others).1⟩, fun _ _ same _ => same⟩
      intro _ _ both
      cases both.1
  | case4 _ rest _ ih =>
      obtain ⟨-, others⟩ := List.isChain_cons.mp spaced
      refine ⟨List.isChain_cons.mpr ⟨?_, (ih others).1⟩, fun _ _ same _ => same⟩
      intro _ _ both
      cases both.1
  | case5 afterContent rest surplus ih =>
      obtain ⟨-, others⟩ := List.isChain_cons.mp spaced
      refine ⟨(ih others).1, ?_⟩
      rintro rfl token first content
      have member : token ∈ rest :=
        (drop_surplus_sublist true rest).subset (List.mem_of_mem_head? first)
      exact absurd (List.any_eq_true.mpr ⟨token, member, content⟩) surplus

theorem parted_eq (mark : Token) (parts : List (List Token)) :
    parted mark parts = [mark].intercalate parts := by
  fun_induction parted mark parts with
  | case1 => rw [List.intercalate_nil]
  | case2 part => rw [List.intercalate_singleton]
  | case3 part next parts ih =>
      rw [ih, List.intercalate_cons_cons, List.append_assoc, List.singleton_append]

theorem spaced_parted {mark : Token} {parts : List (List Token)} (apart : mark.isContent = false)
    (spaced : ∀ part ∈ parts, Spaced part) : Spaced (parted mark parts) := by
  fun_induction parted mark parts with
  | case1 => exact .nil
  | case2 part => exact spaced part (List.mem_cons_self ..)
  | case3 part next parts ih =>
      obtain ⟨first, others⟩ := List.forall_mem_cons.mp spaced
      refine List.isChain_append.mpr ⟨first, List.isChain_cons.mpr ⟨?_, ih others⟩, ?_⟩
      · intro token _ both
        rw [apart] at both
        cases both.1
      · intro token _ second same both
        obtain rfl := Option.some.inj same
        rw [apart] at both
        cases both.2

theorem mem_parted {mark token : Token} {parts : List (List Token)}
    (member : token ∈ parted mark parts) : token = mark ∧ 1 < parts.length ∨
      ∃ part ∈ parts, token ∈ part := by
  fun_induction parted mark parts with
  | case1 => cases member
  | case2 part => exact .inr ⟨part, List.mem_cons_self .., member⟩
  | case3 part next parts ih =>
      rcases List.mem_append.mp member with inside | later
      · exact .inr ⟨part, List.mem_cons_self .., inside⟩
      · rcases List.mem_cons.mp later with same | later
        · exact .inl ⟨same, by simp⟩
        · rcases ih later with ⟨same, _⟩ | ⟨other, among, inside⟩
          · exact .inl ⟨same, by simp⟩
          · exact .inr ⟨other, List.mem_cons_of_mem _ among, inside⟩

theorem spaced_of_line (mark line : List Char) : Spaced (ofLine mark line) := by
  have piece : ∀ text, Spaced (ofPiece text) := by
    intro text
    unfold ofPiece
    split
    · exact .nil
    · exact .singleton _
  unfold ofLine
  split
  · exact piece line
  · apply spaced_parted rfl
    intro part member
    obtain ⟨text, _, rfl⟩ := List.mem_map.mp member
    exact piece text

theorem spaced_tokens (mark text : List Char) : Spaced (tokens mark text) := by
  apply spaced_parted rfl
  intro part member
  obtain ⟨line, _, rfl⟩ := List.mem_map.mp member
  exact spaced_of_line mark line

/-! ### What the tokens are -/

/-- A piece of content: a bare text on one line in which the mark does not occur. -/
structure Piece (mark text : List Char) : Prop where
  some : text ≠ []
  bare : Bare text
  one_line : '\n' ∉ text
  free : mark ≠ [] → ¬ mark <:+: text

/-- Content is a piece, and separators stand for a mark on one line. -/
def Proper (mark : List Char) : Token → Prop
  | .content text => Piece mark text
  | .separator => mark ≠ [] ∧ '\n' ∉ mark
  | .newline => True

theorem proper_of_piece {mark text : List Char} (one_line : '\n' ∉ text)
    (free : mark ≠ [] → ¬ mark <:+: text) : ∀ token ∈ ofPiece text, Proper mark token := by
  intro token member
  unfold ofPiece at member
  split at member
  · cases member
  · next some =>
      rw [List.mem_singleton.mp member]
      have inside := trim_inside text
      exact ⟨some, trim_bare text, fun wrong => one_line (inside.subset wrong),
        fun marked wrong => free marked (wrong.trans inside)⟩

theorem proper_of_line {mark line : List Char} (one_line : '\n' ∉ line) :
    ∀ token ∈ ofLine mark line, Proper mark token := by
  intro token member
  unfold ofLine at member
  split at member
  · exact proper_of_piece one_line (fun wrong => absurd rfl wrong) token member
  · next first others =>
      have joined := join_split_at_word first others line
      rw [join_eq] at joined
      rcases mem_parted member with ⟨rfl, several⟩ | ⟨part, among, inside⟩
      · refine ⟨List.cons_ne_nil first others, ?_⟩
        intro wrong
        -- a line that is cut holds the mark
        cases Classical.em (first :: others <:+: line) with
        | inl inside => exact one_line (inside.subset wrong)
        | inr free =>
            rw [split_at_word_free free] at several
            simp at several
      · obtain ⟨text, cut, rfl⟩ := List.mem_map.mp among
        have within : text <:+: line := joined ▸ infix_intercalate _ cut
        exact proper_of_piece (fun wrong => one_line (within.subset wrong))
          (fun _ => split_at_word_parts cut) token inside

theorem proper_tokens (mark text : List Char) : ∀ token ∈ tokens mark text, Proper mark token := by
  intro token member
  rcases mem_parted member with ⟨rfl, _⟩ | ⟨part, among, inside⟩
  · trivial
  · obtain ⟨line, cut, rfl⟩ := List.mem_map.mp among
    exact proper_of_line (split_at_char_parts cut) token inside

end PromptLoom.Text.Layout
