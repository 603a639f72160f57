import Mathlib.Data.List.Perm.Basic
import Mathlib.Data.List.Perm.Subperm
import Mathlib.Data.List.Nodup
import PromptLoom.Selector

/-!
# What a limit draws

Sampling takes members of a list without repetition, whatever the draws are. So the number of
variations that a selector takes from a set does not depend on the draws, and neither do the
variations themselves unless the selector is a limit below the size of the set.
-/

namespace PromptLoom

set_option autoImplicit false

namespace Draws

variable {α : Type}

theorem sample_subperm (count : Nat) (list : List α) (draws : Draws) :
    (draws.sample count list).1.Subperm list := by
  fun_induction sample count list draws with
  | case1 => exact List.nil_subperm
  | case2 => exact List.nil_subperm
  | case3 count x xs draws index later drawn chosen others last sampled ih =>
      have inside : index < (x :: xs).length := by
        have bounded := draws.below_lt (List.length_pos_of_ne_nil (List.cons_ne_nil x xs))
        rw [drawn] at bounded
        exact bounded
      have front : chosen = (x :: xs)[index] := by
        simp only [chosen, List.getElem?_eq_getElem inside, Option.getD_some]
      rw [sampled] at ih
      have whole := List.getElem_cons_eraseIdx_perm inside
      rw [← front] at whole
      exact ((List.subperm_cons chosen).mpr ih).trans whole.subperm

theorem sample_values (count : Nat) (list : List α) (draws : Draws) :
    (draws.sample count list).2.values = draws.values := by
  induction count generalizing list draws with
  | zero => rfl
  | succ count ih =>
      cases list with
      | nil => rfl
      | cons x xs => exact ih _ (draws.below (x :: xs).length).2

theorem sample_length (count : Nat) (list : List α) (draws : Draws) :
    (draws.sample count list).1.length = min count list.length := by
  fun_induction sample count list draws with
  | case1 => simp
  | case2 => simp
  | case3 count x xs draws index later drawn chosen others last sampled ih =>
      have inside : index < (x :: xs).length := by
        have bounded := draws.below_lt (List.length_pos_of_ne_nil (List.cons_ne_nil x xs))
        rw [drawn] at bounded
        exact bounded
      rw [sampled, List.length_eraseIdx_of_lt inside] at ih
      simp only [List.length_cons] at ih ⊢
      omega

end Draws

namespace Selector

theorem positions_in_order {positions : List Nat} {size : Nat} (distinct : positions.Nodup)
    (inside : positions ⊆ List.range size) :
    ((List.range size).filter fun index => positions.contains index).Perm positions := by
  refine (List.perm_ext_iff_of_nodup (List.nodup_range.filter _) distinct).mpr ?_
  intro index
  simp only [List.mem_filter, List.contains_iff_mem]
  exact ⟨fun both => both.2, fun member => ⟨inside member, member⟩⟩

theorem drawn_positions_length (count size : Nat) (draws : Draws) :
    ((List.range size).filter fun index =>
      (draws.sample count (List.range size)).1.contains index).length = min count size := by
  have part := Draws.sample_subperm count (List.range size) draws
  have distinct : (draws.sample count (List.range size)).1.Nodup := by
    obtain ⟨sorted, same, inside⟩ := part
    exact same.nodup_iff.mp (List.nodup_range.sublist inside)
  rw [(positions_in_order distinct part.subset).length_eq, Draws.sample_length, List.length_range]

theorem filter_map_at_index_length (set : VariationSet) (positions : List Nat)
    (inside : ∀ index ∈ positions, index < set.size) :
    (positions.filterMap set.atIndex?).length = positions.length := by
  induction positions with
  | nil => rfl
  | cons index rest ih =>
      have bound : index < set.entries.length := inside index (by simp)
      have found : set.atIndex? index = some set.entries[index] :=
        List.getElem?_eq_getElem bound
      rw [List.filterMap_cons_some found, List.length_cons, List.length_cons,
        ih fun other member => inside other (by simp [member])]

theorem select_limit_length (selector : Selector) (set : VariationSet) (draws : Draws)
    (count : Nat) (limited : selector.selection = .limit count) :
    (selector.select set draws).1.length = min count set.size := by
  unfold select
  simp only [limited]
  split
  · next whole => exact (Nat.min_eq_right whole).symm
  · rw [filter_map_at_index_length, drawn_positions_length]
    intro index member
    simpa using (List.mem_filter.mp member).1

theorem select_values (selector : Selector) (set : VariationSet) (draws : Draws) :
    (selector.select set draws).2.values = draws.values := by
  cases kind : selector.selection with
  | limit count =>
      by_cases whole : set.size ≤ count
      · simp only [select, kind, if_pos whole]
      · simp only [select, kind, if_neg whole]
        exact draws.sample_values count (List.range set.size)
  | all | indexes | keys => simp only [select, kind]

/-- Only a limit below the size of the set looks at the draws, and then their number is fixed. -/
theorem select_agrees (selector : Selector) (set : VariationSet) (left right : Draws) :
    (selector.select set left).1 = (selector.select set right).1 ∨
      ∃ count, selector.selection = .limit count ∧
        (selector.select set left).1.length = count ∧
        (selector.select set right).1.length = count := by
  cases kind : selector.selection with
  | limit count =>
      by_cases whole : set.size ≤ count
      · left
        simp only [select, kind, if_pos whole]
      · right
        have fits : min count set.size = count := Nat.min_eq_left (Nat.le_of_not_le whole)
        refine ⟨count, rfl, ?_, ?_⟩
        · rw [select_limit_length selector set left count kind, fits]
        · rw [select_limit_length selector set right count kind, fits]
  | all | indexes | keys => simp [select, kind]

end Selector

end PromptLoom
