import Mathlib.Data.List.Forall2
import Mathlib.Data.List.Induction
import Mathlib.Data.List.Perm.Basic
import Mathlib.Tactic.MkIffOfInductiveProp
import PromptLoom.Proofs.Text.Cutting
import PromptLoom.Proofs.Text.WholeNumbers
import PromptLoom.Selector

/-!
# The grammar of selectors

A text is a selector if at most one of its clauses is a weight, at most one is a selection, and each
of them can be read. The first sign of a clause tells a weight and a list of positions; of the other
clauses those of digits alone are limits and the rest are keys. The order of the clauses does not
count.
-/

namespace PromptLoom.Selector

open Text

set_option autoImplicit false

def pieces (mark : Char) (text : List Char) : List (List Char) := (text.splitOn mark).map trim

structure Lists (list : List Char) (parts : List (List Char)) : Prop where
  between : pieces ',' list = parts
  filled : [] ∉ parts

inductive Weighs : List Char → Option Nat → Prop where
  | weight {text : List Char} {n : Nat} (number : Unsigned maxWord32 (trim text) n) :
      Weighs ('$' :: text) (some n)

inductive Selects : List Char → Selection → Prop where
  | indexes {list : List Char} {parts : List (List Char)} {numbers : List Nat}
      (listed : Lists list parts) (read : List.Forall₂ (Unsigned maxWord64) parts numbers) :
      Selects ('#' :: list) (.indexes numbers)
  | limit {clause : List Char} {count : Nat} (digits : Digits clause count) (low : 1 ≤ count)
      (high : count ≤ maxWord64) : Selects clause (.limit count)
  | keys {clause : List Char} {parts : List (List Char)} (unmarked : clause.head? ≠ some '#')
      (other : ¬ ∀ c ∈ clause, c.isDigit = true) (listed : Lists clause parts) :
      Selects clause (.keys (parts.map String.ofList))

/-- One part of a selector is absent, or one clause gives it. -/
inductive AtMostOne {α : Type} (reads : List Char → α → Prop) (absent : α) :
    List (List Char) → α → Prop where
  | none : AtMostOne reads absent [] absent
  | one {clause : List Char} {value : α} (read : reads clause value) :
      AtMostOne reads absent [clause] value

def isWeight (clause : List Char) : Bool := clause.head? == some '$'

@[mk_iff]
structure Declares (parts : List (List Char)) (selector : Selector) : Prop where
  weight : AtMostOne Weighs none (parts.filter isWeight) selector.declaredWeight
  selection : AtMostOne Selects .all (parts.filter fun part => !isWeight part) selector.selection

theorem clauses_eq (text : List Char) : clauses text = (pieces ';' text).filter (· ≠ []) := by
  rw [clauses, split_at_char_eq, pieces]
  exact List.filter_congr fun piece _ => by cases piece <;> rfl

/-! ### Reading a clause -/

theorem entries_ok_iff {list : List Char} {parts : List (List Char)} :
    entries list = .ok parts ↔ Lists list parts := by
  have blank : (pieces ',' list).any List.isEmpty = true ↔ [] ∈ pieces ',' list := by
    simp [List.any_eq_true]
  have read : entries list = if (pieces ',' list).any List.isEmpty then
      .error (.emptyEntry (String.ofList list)) else .ok (pieces ',' list) := by
    rw [pieces, ← split_at_char_eq]
    rfl
  rw [read]
  split
  · next hole =>
      constructor
      · intro read
        cases read
      · rintro ⟨rfl, filled⟩
        exact absurd (blank.mp hole) filled
  · next filled =>
      constructor
      · intro read
        obtain rfl := Except.ok.inj read
        exact ⟨rfl, mt blank.mpr filled⟩
      · rintro ⟨rfl, -⟩
        rfl

theorem read_indexes_ok_iff {parts : List (List Char)} {numbers : List Nat} :
    readIndexes parts = .ok numbers ↔ List.Forall₂ (Unsigned maxWord64) parts numbers := by
  induction parts generalizing numbers with
  | nil => simp [readIndexes, eq_comm]
  | cons part rest ih =>
      rw [readIndexes, List.forall₂_cons_left_iff]
      simp only [← read_unsigned_iff, ← ih]
      cases readUnsigned? maxWord64 part with
      | none => simp
      | some index => cases readIndexes rest <;> simp [Except.map, eq_comm]

theorem read_digits_iff {clause : List Char} {count : Nat}
    (digits : ∀ c ∈ clause, c.isDigit = true) :
    readUnsigned? maxWord64 clause = some count ↔ Digits clause count ∧ count ≤ maxWord64 := by
  rw [read_unsigned_iff, Unsigned, and_comm]
  refine and_congr_left fun _ => ⟨?_, .inl⟩
  rintro (plain | ⟨rest, rfl, -⟩)
  · exact plain
  · cases digits '+' (List.mem_cons_self ..)

theorem read_indexed_ok_iff {list : List Char} {selection : Selection} :
    readSelection ('#' :: list) = .ok selection ↔ Selects ('#' :: list) selection := by
  have selects : Selects ('#' :: list) selection ↔ ∃ parts numbers,
      entries list = .ok parts ∧ readIndexes parts = .ok numbers ∧
        selection = .indexes numbers := by
    simp only [entries_ok_iff, read_indexes_ok_iff]
    constructor
    · intro selects
      cases selects with
      | indexes listed read => exact ⟨_, _, listed, read, rfl⟩
      | limit digits => cases digits.all '#' (List.mem_cons_self ..)
      | keys unmarked => exact absurd rfl unmarked
    · rintro ⟨parts, numbers, listed, read, rfl⟩
      exact .indexes listed read
  rw [selects]
  change (entries list).bind (fun parts => (readIndexes parts).map .indexes) = .ok selection ↔ _
  cases entries list with
  | error => simp [Except.bind]
  | ok parts =>
      change (readIndexes parts).map .indexes = .ok selection ↔ _
      cases found : readIndexes parts <;> simp [Except.map, found, eq_comm]

theorem read_limit_ok_iff {clause : List Char} {selection : Selection}
    (digits : ∀ c ∈ clause, c.isDigit = true) :
    readSelection clause = .ok selection ↔ Selects clause selection := by
  unfold readSelection
  split
  · cases digits '#' (List.mem_cons_self ..)
  · rw [if_pos (List.all_eq_true.mpr digits)]
    constructor
    · intro read
      split at read
      · cases read
      · cases read
      · next count positive found =>
          obtain rfl := Except.ok.inj read
          obtain ⟨spelled, high⟩ := (read_digits_iff digits).mp found
          exact .limit spelled (Nat.one_le_iff_ne_zero.mpr positive) high
    · intro selects
      cases selects with
      | indexes => cases digits '#' (List.mem_cons_self ..)
      | keys _ other => exact absurd digits other
      | @limit _ count spelled low high =>
          rw [(read_digits_iff digits).mpr ⟨spelled, high⟩]
          cases count with
          | zero => cases low
          | succ count => rfl

theorem read_keys_ok_iff {clause : List Char} {selection : Selection}
    (unmarked : clause.head? ≠ some '#') (other : ¬ ∀ c ∈ clause, c.isDigit = true) :
    readSelection clause = .ok selection ↔ Selects clause selection := by
  have selects : Selects clause selection ↔
      ∃ parts, entries clause = .ok parts ∧ selection = .keys (parts.map String.ofList) := by
    simp only [entries_ok_iff]
    constructor
    · intro selects
      cases selects with
      | indexes => exact absurd rfl unmarked
      | limit digits => exact absurd digits.all other
      | keys _ _ listed => exact ⟨_, listed, rfl⟩
    · rintro ⟨parts, listed, rfl⟩
      exact .keys unmarked other listed
  rw [selects]
  unfold readSelection
  split
  · exact absurd rfl unmarked
  · rw [if_neg (mt List.all_eq_true.mp other)]
    cases entries clause <;> simp [Except.map, eq_comm]

theorem read_selection_ok_iff {clause : List Char} {selection : Selection} :
    readSelection clause = .ok selection ↔ Selects clause selection := by
  by_cases marked : clause.head? = some '#'
  · obtain ⟨list, rfl⟩ := List.head?_eq_some_iff.mp marked
    exact read_indexed_ok_iff
  · by_cases digits : ∀ c ∈ clause, c.isDigit = true
    · exact read_limit_ok_iff digits
    · exact read_keys_ok_iff marked digits

theorem is_weight_iff {clause : List Char} :
    isWeight clause = true ↔ ∃ text, clause = '$' :: text := by
  rw [isWeight, beq_iff_eq, List.head?_eq_some_iff]

theorem add_weight_ok_iff {selector next : Selector} {clause : List Char}
    (heavy : isWeight clause = true) :
    addClause selector clause = .ok next ↔
      selector.declaredWeight = none ∧ Weighs clause next.declaredWeight ∧
        next.selection = selector.selection := by
  obtain ⟨selection, declared⟩ := selector
  obtain ⟨nextSelection, nextDeclared⟩ := next
  obtain ⟨text, rfl⟩ := is_weight_iff.mp heavy
  have weighs : Weighs ('$' :: text) nextDeclared ↔
      ∃ n, readUnsigned? maxWord32 (trim text) = some n ∧ nextDeclared = some n := by
    simp only [read_unsigned_iff]
    constructor
    · rintro ⟨number⟩
      exact ⟨_, number, rfl⟩
    · rintro ⟨n, number, rfl⟩
      exact ⟨number⟩
  rw [weighs]
  cases declared with
  | some n => simp [addClause]
  | none =>
      cases found : readUnsigned? maxWord32 (trim text) <;>
        simp [addClause, found, eq_comm, and_comm]

theorem add_selection_ok_iff {selector next : Selector} {clause : List Char}
    (light : isWeight clause = false) :
    addClause selector clause = .ok next ↔
      selector.selection = .all ∧ Selects clause next.selection ∧
        next.declaredWeight = selector.declaredWeight := by
  obtain ⟨selection, declared⟩ := selector
  obtain ⟨nextSelection, nextDeclared⟩ := next
  have added : addClause ⟨selection, declared⟩ clause =
      if selection = .all then (readSelection clause).map fun read => ⟨read, declared⟩
      else .error .conflictingSelection := by
    unfold addClause
    split
    · next text => cases light
    · rfl
  rw [added, ← read_selection_ok_iff]
  by_cases free : selection = .all
  · rw [if_pos free]
    cases readSelection clause <;> simp [Except.map, free, eq_comm]
  · simp [free]

/-! ### Reading clause after clause -/

namespace AtMostOne

variable {α : Type} {reads : List Char → α → Prop} {absent value : α}
  {parts other : List (List Char)}

theorem snoc_iff {clause : List Char} :
    AtMostOne reads absent (parts ++ [clause]) value ↔ parts = [] ∧ reads clause value := by
  constructor
  · intro given
    generalize whole : parts ++ [clause] = list at given
    cases given with
    | none => simp at whole
    | one read =>
        obtain ⟨rfl, same⟩ := List.append_eq_singleton_iff.mp whole |>.resolve_right (by simp)
        obtain rfl := List.singleton_inj.mp same
        exact ⟨rfl, read⟩
  · rintro ⟨rfl, read⟩
    exact .one read

theorem nothing_read (given : ∀ clause, ¬ reads clause absent)
    (one : AtMostOne reads absent parts absent) : parts = [] := by
  cases one with
  | none => rfl
  | one read => exact absurd read (given _)

theorem perm (same : parts.Perm other) (one : AtMostOne reads absent parts value) :
    AtMostOne reads absent other value := by
  cases one with
  | none =>
      rw [List.nil_perm.mp same]
      exact .none
  | one read =>
      rw [List.perm_singleton.mp same.symm]
      exact .one read

end AtMostOne

theorem declares_snoc_iff {parts : List (List Char)} {clause : List Char} {next : Selector} :
    Declares (parts ++ [clause]) next ↔
      ∃ selector, Declares parts selector ∧ addClause selector clause = .ok next := by
  cases heavy : isWeight clause with
  | true =>
      have weights : (parts ++ [clause]).filter isWeight = parts.filter isWeight ++ [clause] := by
        simp [heavy]
      have others : (parts ++ [clause]).filter (fun part => !isWeight part) =
          parts.filter fun part => !isWeight part := by
        simp [heavy]
      rw [declares_iff, weights, others, AtMostOne.snoc_iff]
      simp only [add_weight_ok_iff heavy]
      constructor
      · rintro ⟨⟨none, weighs⟩, selection⟩
        exact ⟨⟨next.selection, Option.none⟩, ⟨none ▸ .none, selection⟩, rfl, weighs, rfl⟩
      · rintro ⟨selector, ⟨weight, selection⟩, undeclared, weighs, same⟩
        rw [undeclared] at weight
        exact ⟨⟨weight.nothing_read fun _ wrong => (nomatch wrong), weighs⟩, same ▸ selection⟩
  | false =>
      have weights : (parts ++ [clause]).filter isWeight = parts.filter isWeight := by
        simp [heavy]
      have others : (parts ++ [clause]).filter (fun part => !isWeight part) =
          (parts.filter fun part => !isWeight part) ++ [clause] := by
        simp [heavy]
      rw [declares_iff, weights, others, AtMostOne.snoc_iff]
      simp only [add_selection_ok_iff heavy]
      constructor
      · rintro ⟨weight, none, selects⟩
        exact ⟨⟨.all, next.declaredWeight⟩, ⟨weight, none ▸ .none⟩, rfl, selects, rfl⟩
      · rintro ⟨selector, ⟨weight, selection⟩, free, selects, same⟩
        rw [free] at selection
        exact ⟨same ▸ weight, selection.nothing_read fun _ wrong => (nomatch wrong), selects⟩

theorem read_clauses_snoc (selector : Selector) (parts : List (List Char)) (clause : List Char) :
    readClauses selector (parts ++ [clause]) =
      (readClauses selector parts).bind fun read => addClause read clause := by
  induction parts generalizing selector with
  | nil =>
      change (addClause selector clause).bind .ok = addClause selector clause
      cases addClause selector clause <;> rfl
  | cons first rest ih =>
      simp only [List.cons_append, readClauses]
      cases addClause selector first with
      | error => rfl
      | ok next => exact ih next

theorem read_clauses_ok_iff {parts : List (List Char)} {selector : Selector} :
    readClauses default parts = .ok selector ↔ Declares parts selector := by
  -- the induction is from the end: what has been read is what the clauses so far declare
  induction parts using List.reverseRecOn generalizing selector with
  | nil =>
      constructor
      · intro read
        obtain rfl := Except.ok.inj read
        exact ⟨.none, .none⟩
      · obtain ⟨selection, declared⟩ := selector
        rintro ⟨weight, selected⟩
        cases weight
        cases selected
        rfl
  | append_singleton parts clause ih =>
      rw [read_clauses_snoc, declares_snoc_iff]
      simp only [← ih]
      cases readClauses default parts <;> simp [Except.bind]

theorem parse_ok_iff {text : String} {selector : Selector} :
    parse text = .ok selector ↔ Declares (clauses text.toList) selector := read_clauses_ok_iff

theorem Declares.perm {parts other : List (List Char)} {selector : Selector}
    (declares : Declares parts selector) (same : parts.Perm other) : Declares other selector where
  weight := declares.weight.perm (same.filter _)
  selection := declares.selection.perm (same.filter _)

theorem pieces_ne_nil (mark : Char) (text : List Char) : pieces mark text ≠ [] := by
  simp [pieces]

theorem Selects.filled {clause : List Char} {selection : Selection}
    (selects : Selects clause selection) : selection ≠ .indexes [] ∧ selection ≠ .keys [] := by
  cases selects with
  | @indexes list parts numbers listed read =>
      refine ⟨?_, by simp⟩
      rintro ⟨rfl⟩
      cases read
      exact pieces_ne_nil ',' list listed.between
  | limit => simp
  | keys unmarked other listed =>
      simp only [ne_eq, reduceCtorEq, not_false_eq_true, Selection.keys.injEq, List.map_eq_nil_iff,
        true_and]
      rintro rfl
      exact pieces_ne_nil ',' _ listed.between

theorem AtMostOne.selection_filled {parts : List (List Char)} {selection : Selection}
    (one : AtMostOne Selects .all parts selection) :
    selection ≠ .indexes [] ∧ selection ≠ .keys [] := by
  cases one with
  | none => simp
  | one read => exact read.filled

/-- A text is read as a selector exactly when its clauses declare one, in whatever order they stand.
The lists of a selector hold something. -/
theorem parse_accepts_grammar (text : String) :
    let parts := (pieces ';' text.toList).filter (· ≠ [])
    (∀ selector, parse text = .ok selector ↔ Declares parts selector) ∧
    (∀ selector, parse text = .ok selector →
      selector.selection ≠ .indexes [] ∧ selector.selection ≠ .keys []) ∧
    ∀ other : String, ((pieces ';' other.toList).filter (· ≠ [])).Perm parts →
      (parse other).toOption = (parse text).toOption := by
  intro parts
  have accepts (text : String) (selector : Selector) : parse text = .ok selector ↔
      Declares ((pieces ';' text.toList).filter (· ≠ [])) selector := by
    rw [parse_ok_iff, clauses_eq]
  have filled (selector : Selector) (read : parse text = .ok selector) :=
    ((accepts text selector).mp read).selection.selection_filled
  refine ⟨accepts text, filled, ?_⟩
  intro other turned
  have same (selector : Selector) : parse other = .ok selector ↔ parse text = .ok selector := by
    rw [accepts, accepts]
    exact ⟨fun declares => declares.perm turned, fun declares => declares.perm turned.symm⟩
  have read (text : String) (selector : Selector) :
      (parse text).toOption = some selector ↔ parse text = .ok selector := by
    cases parse text <;> simp [Except.toOption]
  refine Option.ext fun selector => ?_
  rw [read, read, same]

theorem turned_clauses_parsed :
    parse " $+5 ;; red, light blue" = .ok ⟨.keys ["red", "light blue"], some 5⟩ ∧
      (parse "red, light blue;$+5").toOption = some ⟨.keys ["red", "light blue"], some 5⟩ := by
  obtain ⟨-, -, turned⟩ := parse_accepts_grammar " $+5 ;; red, light blue"
  have read : parse " $+5 ;; red, light blue" = .ok ⟨.keys ["red", "light blue"], some 5⟩ := by
    decide +kernel
  have same := turned "red, light blue;$+5" (by decide +kernel)
  rw [read] at same
  exact ⟨read, same⟩

end PromptLoom.Selector
