import PromptLoom.Proofs.Lists
import PromptLoom.Proofs.Selection.Drawing
import PromptLoom.Proofs.Selection.Grammar

/-!
# What a selector takes

A list takes the variations that it mentions in the order of their first mention, and a limit takes
a part of the set of the right size, in set order. Since a sample can be any members of a list in
any order, some draws lead to each such part: what a selector may take from a set is settled by its
selection. No variation is taken twice, and nothing is taken only where nothing could be.
-/

namespace PromptLoom

set_option autoImplicit false

/-! ### Every sample is drawn -/

namespace Draws

variable {α : Type}

/-- The first number of a sample is the place of its first member, the others sample the rest. -/
theorem sample_first (count : Nat) {list : List α} {draws : Draws} {place : Nat}
    (inside : place < list.length) (first : (draws.below list.length).1 = place) :
    (draws.sample (count + 1) list).1 =
      list[place] :: (sample count (list.eraseIdx place) (draws.below list.length).2).1 := by
  subst first
  cases list with
  | nil => cases inside
  | cons x xs =>
      simp only [sample]
      rw [List.getElem?_eq_getElem inside, Option.getD_some]

theorem sample_congr (count : Nat) (list : List α) (left right : Draws)
    (level : left.used = right.used)
    (same : ∀ index, left.used ≤ index → left.values index = right.values index) :
    (left.sample count list).1 = (right.sample count list).1 := by
  induction count generalizing list left right with
  | zero => rfl
  | succ count ih =>
      cases list with
      | nil => rfl
      | cons x xs =>
          have inside := left.below_lt (List.length_pos_of_ne_nil (List.cons_ne_nil x xs))
          have first : (right.below (x :: xs).length).1 = (left.below (x :: xs).length).1 := by
            rw [below, below, ← level, same left.used (Nat.le_refl _)]
          rw [sample_first count inside rfl, sample_first count inside first]
          refine congrArg _ (ih _ _ _ (congrArg (· + 1) level) ?_)
          intro index later
          exact same index (Nat.le_of_succ_le later)

/-- Whatever members of a list are chosen, in whatever order, some draws choose them. -/
theorem sample_reaches {chosen list : List α} (part : chosen.Subperm list) (used : Nat) :
    ∃ values, (sample chosen.length list ⟨values, used⟩).1 = chosen := by
  induction chosen generalizing list used with
  | nil => exact ⟨fun _ => 0, rfl⟩
  | cons c rest ih =>
      obtain ⟨place, inside, here⟩ := List.mem_iff_getElem.mp (part.subset (List.mem_cons_self ..))
      have whole := List.getElem_cons_eraseIdx_perm inside
      rw [here] at whole
      have others : rest.Subperm (list.eraseIdx place) :=
        (List.subperm_cons c).mp (part.trans whole.symm.subperm)
      obtain ⟨values, drawn⟩ := ih others (used + 1)
      refine ⟨Function.update values used place, ?_⟩
      have first : (below ⟨Function.update values used place, used⟩ list.length).1 = place := by
        change Function.update values used place used % list.length = place
        rw [Function.update_self, Nat.mod_eq_of_lt inside]
      have later := sample_congr rest.length (list.eraseIdx place)
        ⟨Function.update values used place, used + 1⟩ ⟨values, used + 1⟩ rfl
        fun index unused => Function.update_of_ne (Nat.ne_of_gt unused) place values
      rw [List.length_cons, sample_first rest.length inside first, here]
      exact congrArg (c :: ·) (later.trans drawn)

end Draws

namespace Selector

/-! ### The first of each -/

theorem any_same_key {kept : List Variation} {entry : Variation} :
    (kept.any fun other => other.key == entry.key) = true ↔
      entry.key ∈ kept.map Variation.key := by
  simp [List.any_eq_true]

theorem first_of_each_once (kept list : List Variation) :
    ((firstOfEach kept list).map Variation.key).Nodup ∧
      ∀ entry ∈ firstOfEach kept list, entry.key ∉ kept.map Variation.key := by
  fun_induction firstOfEach kept list with
  | case1 kept => exact ⟨List.nodup_nil, fun _ none => nomatch none⟩
  | case2 kept entry rest known ih => exact ih
  | case3 kept entry rest fresh ih =>
      obtain ⟨once, others⟩ := ih
      constructor
      · rw [List.map_cons, List.nodup_cons]
        refine ⟨fun repeated => ?_, once⟩
        obtain ⟨other, later, same⟩ := List.mem_map.mp repeated
        exact others other later (by simp [same])
      · intro other member before
        rcases List.mem_cons.mp member with rfl | later
        · exact fresh (any_same_key.mpr before)
        · exact others other later (by simp [before])

theorem first_of_each_snoc (kept list : List Variation) (entry : Variation) :
    firstOfEach kept (list ++ [entry]) =
      if entry.key ∈ (kept ++ list).map Variation.key then firstOfEach kept list
      else firstOfEach kept list ++ [entry] := by
  fun_induction firstOfEach kept list with
  | case1 kept => simp [firstOfEach]
  | case2 kept first rest known ih =>
      have seen : entry.key ∈ (kept ++ first :: rest).map Variation.key ↔
          entry.key ∈ (kept ++ rest).map Variation.key := by
        have before := any_same_key.mp known
        simp only [List.map_append, List.map_cons, List.mem_append, List.mem_cons]
        constructor
        · rintro (early | here | late)
          · exact .inl early
          · exact .inl (here ▸ before)
          · exact .inr late
        · exact Or.imp_right .inr
      rw [List.cons_append, firstOfEach, if_pos known, ih]
      simp only [seen]
  | case3 kept first rest fresh ih =>
      have seen : entry.key ∈ (kept ++ first :: rest).map Variation.key ↔
          entry.key ∈ (first :: kept ++ rest).map Variation.key := by
        simp [or_left_comm]
      rw [List.cons_append, firstOfEach, if_neg fresh, ih]
      simp only [seen, ← apply_ite, List.cons_append]

section Mentions

variable {Mention : Type} {look : Mention → Option Variation}

/-- Different mentions never lead to one key. -/
def Apart (look : Mention → Option Variation) : Prop :=
  ∀ one other entry found, look one = some entry → look other = some found →
    entry.key = found.key → one = other

variable [BEq Mention] [LawfulBEq Mention] (apart : Apart look)
include apart

/-- Looking up what is mentioned and keeping the first under each key is looking up what is
mentioned first. -/
theorem first_of_each_mentioned (mentions : List Mention) :
    firstOfEach [] (mentions.filterMap look) = mentions.eraseDups.filterMap look := by
  -- the induction is from the end of the list, since whether a variation is kept depends on those
  -- before it
  induction mentions using List.reverseRecOn with
  | nil => rfl
  | append_singleton mentions last ih =>
      rw [erase_dups_snoc, List.filterMap_append]
      rcases found : look last with _ | entry
      · have nothing : [last].filterMap look = [] := by simp [found]
        rw [nothing, List.append_nil, ih]
        split
        · rfl
        · rw [List.filterMap_append, nothing, List.append_nil]
      · have single : [last].filterMap look = [entry] := by simp [found]
        have seen : entry.key ∈ (mentions.filterMap look).map Variation.key ↔ last ∈ mentions := by
          constructor
          · intro member
            obtain ⟨other, taken, same⟩ := List.mem_map.mp member
            obtain ⟨one, mentioned, looked⟩ := List.mem_filterMap.mp taken
            rw [← apart one last other entry looked found same]
            exact mentioned
          · intro member
            exact List.mem_map_of_mem (List.mem_filterMap.mpr ⟨last, member, found⟩)
        rw [single, first_of_each_snoc, List.nil_append, ih]
        simp only [seen]
        split
        · rfl
        · rw [List.filterMap_append, single]

theorem mentioned_once (mentions : List Mention) :
    ((mentions.eraseDups.filterMap look).map Variation.key).Nodup := by
  rw [← first_of_each_mentioned apart]
  exact (first_of_each_once [] _).1

end Mentions

/-! ### Limits -/

theorem positions_entries (set : VariationSet) :
    (List.range set.size).filterMap set.atIndex? = set.entries := by
  obtain ⟨entries⟩ := set
  change (List.range entries.length).filterMap (fun index => entries[index]?) = entries
  induction entries with
  | nil => rfl
  | cons entry rest ih =>
      rw [List.length_cons, List.range_succ_eq_map, List.filterMap_cons, List.filterMap_map]
      exact congrArg (entry :: ·) ih

theorem ordered_positions {positions : List Nat} {size : Nat}
    (order : positions.Sublist (List.range size)) :
    ((List.range size).filter fun index => positions.contains index) = positions := by
  have within := order.filter fun index => positions.contains index
  have own : (positions.filter fun index => positions.contains index) = positions := by simp
  rw [own] at within
  have same := positions_in_order (List.nodup_range.sublist order) order.subset
  exact (within.eq_of_length same.length_eq.symm).symm

variable {set : VariationSet}

theorem limit_sublist {selector : Selector} {count : Nat}
    (limited : selector.selection = .limit count) (draws : Draws) :
    (selector.select set draws).1.Sublist set.entries := by
  unfold select
  simp only [limited]
  split
  · exact List.Sublist.refl _
  · have kept : ((List.range set.size).filter fun index =>
        (draws.sample count (List.range set.size)).1.contains index).Sublist
          (List.range set.size) := List.filter_sublist
    have taken := kept.filterMap set.atIndex?
    rwa [positions_entries] at taken

theorem limit_reaches {selector : Selector} {count : Nat}
    (limited : selector.selection = .limit count) {part : List Variation}
    (order : part.Sublist set.entries) (size : part.length = min count set.size) :
    ∃ draws, (selector.select set draws).1 = part := by
  unfold select
  simp only [limited]
  by_cases whole : set.size ≤ count
  · rw [Nat.min_eq_right whole] at size
    refine ⟨.seeded 0, ?_⟩
    rw [if_pos whole]
    exact (order.eq_of_length size).symm
  · rw [Nat.min_eq_left (Nat.le_of_not_le whole)] at size
    rw [← positions_entries] at order
    obtain ⟨positions, placed, rfl⟩ := List.sublist_filterMap_iff.mp order
    have all : (positions.filterMap set.atIndex?).length = positions.length :=
      filter_map_at_index_length set positions fun index member =>
        List.mem_range.mp (placed.subset member)
    obtain ⟨values, drawn⟩ := Draws.sample_reaches placed.subperm 0
    rw [← all, size] at drawn
    refine ⟨⟨values, 0⟩, ?_⟩
    simp only [if_neg whole, drawn, ordered_positions placed]

/-! ### What is taken -/

inductive Takes (set : VariationSet) : Selection → List Variation → Prop where
  | all : Takes set .all set.entries
  | limit {count : Nat} {part : List Variation} (order : part.Sublist set.entries)
      (size : part.length = min count set.size) : Takes set (.limit count) part
  | indexes (list : List Nat) : Takes set (.indexes list) (list.eraseDups.filterMap set.atIndex?)
  | keys (list : List String) : Takes set (.keys list) (list.eraseDups.filterMap set.get?)

/-- A list of positions or of keys mentions nothing that is in a set. -/
def Misses (set : VariationSet) : Selection → Prop
  | .indexes list => ∀ index ∈ list, set.size ≤ index
  | .keys list => ∀ key ∈ list, key ∉ set.keys
  | .all => False
  | .limit _ => False

theorem at_index_apart (distinct : set.keys.Nodup) : Apart set.atIndex? := by
  intro one other entry found here there same
  have keyed : set.keys[one]? = set.keys[other]? := by
    rw [VariationSet.keys, List.getElem?_map, List.getElem?_map]
    change (set.atIndex? one).map _ = (set.atIndex? other).map _
    rw [here, there, Option.map_some, Option.map_some, same]
  have inside : one < set.keys.length := by
    rw [VariationSet.keys, List.length_map]
    exact (List.getElem?_eq_some_iff.mp here).1
  exact (List.getElem?_inj inside distinct).mp keyed

theorem get_apart (set : VariationSet) : Apart set.get? := by
  intro one other entry found here there same
  have oneKey : entry.key = one := by simpa using List.find?_some here
  have otherKey : found.key = other := by simpa using List.find?_some there
  rw [← oneKey, ← otherKey, same]

theorem first_of_each_distinct {list : List Variation} (distinct : (list.map Variation.key).Nodup) :
    firstOfEach [] list = list := by
  induction list using List.reverseRecOn with
  | nil => rfl
  | append_singleton list last ih =>
      rw [List.map_append, List.nodup_append] at distinct
      obtain ⟨once, -, apart⟩ := distinct
      have fresh : last.key ∉ ([] ++ list).map Variation.key := fun member =>
        apart last.key member last.key (by simp) rfl
      rw [first_of_each_snoc, if_neg fresh, ih once]

theorem select_takes_kind (distinct : set.keys.Nodup) (selector : Selector) (draws : Draws) :
    Takes set selector.selection (selector.select set draws).1 := by
  cases kind : selector.selection with
  | all =>
      simp only [select, kind, first_of_each_distinct distinct]
      exact .all
  | limit count =>
      exact .limit (limit_sublist kind draws) (select_limit_length selector set draws count kind)
  | indexes list =>
      simp only [select, kind, first_of_each_mentioned (at_index_apart distinct)]
      exact .indexes list
  | keys list =>
      simp only [select, kind, first_of_each_mentioned (get_apart set)]
      exact .keys list

theorem Takes.settled {selection : Selection} {one other : List Variation}
    (takes : Takes set selection one) (again : Takes set selection other)
    (unlimited : ∀ count, selection ≠ .limit count) : one = other := by
  cases takes with
  | limit => exact absurd rfl (unlimited _)
  | all | indexes | keys =>
      cases again
      rfl

/-- What a selection may take, some draws make a selector take. -/
theorem select_reaches (distinct : set.keys.Nodup) {selector : Selector} {taken : List Variation}
    (takes : Takes set selector.selection taken) :
    ∃ draws, (selector.select set draws).1 = taken := by
  by_cases limited : ∃ count, selector.selection = .limit count
  · obtain ⟨count, kind⟩ := limited
    rw [kind] at takes
    cases takes with
    | limit order size => exact limit_reaches kind order size
  · have unlimited : ∀ count, selector.selection ≠ .limit count :=
      fun count kind => limited ⟨count, kind⟩
    exact ⟨.seeded 0, (select_takes_kind distinct selector (.seeded 0)).settled takes unlimited⟩

theorem Takes.inside (distinct : set.keys.Nodup) {selection : Selection} {taken : List Variation}
    (takes : Takes set selection taken) :
    (∀ entry ∈ taken, entry ∈ set.entries) ∧ (taken.map Variation.key).Nodup := by
  cases takes with
  | all => exact ⟨fun _ member => member, distinct⟩
  | limit order size => exact ⟨fun _ member => order.subset member, distinct.sublist (order.map _)⟩
  | indexes list =>
      refine ⟨?_, mentioned_once (at_index_apart distinct) list⟩
      intro entry member
      obtain ⟨index, _, found⟩ := List.mem_filterMap.mp member
      exact List.mem_of_getElem? found
  | keys list =>
      refine ⟨?_, mentioned_once (get_apart set) list⟩
      intro entry member
      obtain ⟨key, _, found⟩ := List.mem_filterMap.mp member
      exact List.mem_of_find?_eq_some found

theorem get_eq_none_iff {key : String} : set.get? key = none ↔ key ∉ set.keys := by
  simp [VariationSet.get?, VariationSet.keys]

theorem misses_empty (empty : set.entries = []) :
    (∀ index, set.size ≤ index) ∧ ∀ key, key ∉ set.keys := by
  simp [VariationSet.size, VariationSet.keys, empty]

theorem Takes.nothing_iff {selection : Selection} {taken : List Variation}
    (takes : Takes set selection taken) (positive : selection ≠ .limit 0) :
    taken = [] ↔ set.entries = [] ∨ Misses set selection := by
  cases takes with
  | all => simp [Misses]
  | @limit count part order size =>
      have some : count ≠ 0 := fun zero => positive (by rw [zero])
      rw [← List.length_eq_zero_iff, size, ← List.length_eq_zero_iff]
      simp only [Misses, VariationSet.size, or_false]
      omega
  | indexes list =>
      simp only [List.filterMap_eq_nil_iff, List.mem_eraseDups, VariationSet.atIndex?,
        List.getElem?_eq_none_iff]
      exact ⟨.inr, fun either => either.elim (fun empty index _ => (misses_empty empty).1 index) id⟩
  | keys list =>
      simp only [List.filterMap_eq_nil_iff, List.mem_eraseDups, get_eq_none_iff]
      exact ⟨.inr, fun either => either.elim (fun empty key _ => (misses_empty empty).2 key) id⟩

theorem Selects.limit_positive {clause : List Char} {selection : Selection}
    (selects : Selects clause selection) : selection ≠ .limit 0 := by
  rintro rfl
  cases selects with
  | limit digits low high => cases low

theorem parse_limit_positive {text : String} {selector : Selector}
    (read : parse text = .ok selector) : selector.selection ≠ .limit 0 := by
  have one := (parse_ok_iff.mp read).selection
  generalize (clauses text.toList).filter (fun part => !isWeight part) = parts at one
  generalize selector.selection = selection at one
  cases one with
  | none => simp
  | one selects => exact selects.limit_positive

/-- What a selector takes from a set under distinct keys. A limit takes any part of its size in set
order, a list what it mentions in the order of first mention, and no selection the whole set; nothing
stands twice, and nothing at all is taken only where the set is empty or the list misses it. -/
theorem select_takes {text : String} {selector : Selector} (read : parse text = .ok selector)
    {set : VariationSet} (distinct : set.keys.Nodup) :
    (∀ taken, (∃ draws, (selector.select set draws).1 = taken) ↔
      Takes set selector.selection taken) ∧
    ∀ draws,
      let taken := (selector.select set draws).1
      (∀ entry ∈ taken, entry ∈ set.entries) ∧ (taken.map Variation.key).Nodup ∧
      (taken = [] ↔ set.entries = [] ∨ Misses set selector.selection) := by
  constructor
  · intro taken
    constructor
    · rintro ⟨draws, rfl⟩
      exact select_takes_kind distinct selector draws
    · exact select_reaches distinct
  · intro draws taken
    have takes := select_takes_kind distinct selector draws
    obtain ⟨inside, once⟩ := takes.inside distinct
    exact ⟨inside, once, takes.nothing_iff (parse_limit_positive read)⟩

def fiveLetters : VariationSet :=
  .ofList [("a", "first"), ("b", "second"), ("c", "third"), ("d", "fourth"), ("e", "fifth")]

theorem letters_taken :
    parse "#3, 1,9,3;$2" = .ok ⟨.indexes [3, 1, 9, 3], some 2⟩ ∧ fiveLetters.keys.Nodup ∧
      (∀ draws, (select ⟨.indexes [3, 1, 9, 3], some 2⟩ fiveLetters draws).1 =
        [⟨"d", "fourth"⟩, ⟨"b", "second"⟩]) ∧
      parse "2" = .ok ⟨.limit 2, none⟩ ∧
      ∃ draws, (select ⟨.limit 2, none⟩ fiveLetters draws).1 = [⟨"b", "second"⟩, ⟨"e", "fifth"⟩] := by
  have listed : parse "#3, 1,9,3;$2" = .ok ⟨.indexes [3, 1, 9, 3], some 2⟩ := by decide +kernel
  have limited : parse "2" = .ok ⟨.limit 2, none⟩ := by decide +kernel
  have distinct : fiveLetters.keys.Nodup := by decide +kernel
  refine ⟨listed, distinct, ?_, limited, ?_⟩
  · intro draws
    have takes := ((select_takes listed distinct).1 _).mp ⟨draws, rfl⟩
    have written : Takes fiveLetters (.indexes [3, 1, 9, 3]) [⟨"d", "fourth"⟩, ⟨"b", "second"⟩] :=
      .indexes [3, 1, 9, 3]
    exact takes.settled written (by simp)
  · refine ((select_takes limited distinct).1 _).mpr (.limit ?_ ?_)
    · decide +kernel
    · decide +kernel

end Selector

end PromptLoom
