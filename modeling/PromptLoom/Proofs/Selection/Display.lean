import PromptLoom.Proofs.Selection.Grammar

/-!
# Selectors as they are written

A selector that was read is written with the clauses of its own kind: a limit in digits, positions
behind a number sign, keys as they stand between commas, and a weight last. No clause holds a
semicolon or begins with the sign of another kind, so the text is read as the same selector.
-/

namespace PromptLoom

set_option autoImplicit false

namespace Text

theorem digit_not_blank {c : Char} (digit : c.isDigit = true) : isBlank c = false := by
  have range : 48 ≤ c.toNat ∧ c.toNat ≤ 57 := by
    simpa [Char.isDigit, UInt32.le_iff_toNat_le] using digit
  simp only [isBlank, Bool.or_eq_false_iff, Bool.and_eq_false_iff, decide_eq_false_iff_not,
    beq_eq_false_iff_ne]
  omega

theorem Digits.bare {text : List Char} {n : Nat} (digits : Digits text n) : Bare text :=
  ⟨fun c first => digit_not_blank (digits.all c (List.mem_of_mem_head? first)),
    fun c last => digit_not_blank (digits.all c (List.mem_of_getLast? last))⟩

theorem Digits.free {text : List Char} {n : Nat} (digits : Digits text n) {c : Char}
    (other : c.isDigit = false) : c ∉ text := by
  intro member
  rw [digits.all c member] at other
  cases other

theorem to_string_digits (n : Nat) : Digits (toString n).toList n := by
  change Digits n.repr.toList n
  rw [Nat.toList_repr]
  exact to_digits_digits n

variable {mark : Char} {parts : List (List Char)}

theorem not_mem_joined {c : Char} (other : c ≠ mark) (free : ∀ part ∈ parts, c ∉ part) :
    c ∉ join [mark] parts := by
  fun_induction join [mark] parts with
  | case1 => exact List.not_mem_nil
  | case2 part => exact free part (List.mem_singleton_self part)
  | case3 part next parts ih =>
      obtain ⟨first, rest⟩ := List.forall_mem_cons.mp free
      simp only [List.mem_append, List.mem_singleton, not_or]
      exact ⟨⟨first, other⟩, ih rest⟩

theorem joined_head {glue part : List Char} (some : part ≠ []) (more : List (List Char)) :
    (join glue (part :: more)).head? = part.head? := by
  cases more with
  | nil => rfl
  | cons next more =>
      rw [join, List.append_assoc, List.head?_append_of_ne_nil _ some]

theorem trim_head {c : Char} (solid : isBlank c = false) (text : List Char) :
    (trim (c :: text)).head? = some c := by
  have start : trimStart (c :: text) = c :: text :=
    List.dropWhile_cons_of_neg (by simp [solid])
  obtain ⟨behind, whole⟩ := List.rdropWhile_prefix isBlank (c :: text)
  rw [trim, start, trim_end_eq]
  cases kept : (c :: text).rdropWhile isBlank with
  | nil =>
      have blank := List.rdropWhile_eq_nil_iff.mp kept c (List.mem_cons_self ..)
      rw [solid] at blank
      cases blank
  | cons d rest =>
      rw [kept] at whole
      rw [List.head?_cons, List.head_eq_of_cons_eq whole]

end Text

namespace Selector

open Text

variable {mark : Char} {text clause : List Char} {parts : List (List Char)}

/-! ### Pieces and clauses -/

theorem piece_bare (member : clause ∈ pieces mark text) : Bare clause := by
  obtain ⟨raw, -, rfl⟩ := List.mem_map.mp member
  exact trim_bare raw

theorem piece_unmarked (member : clause ∈ pieces mark text) : mark ∉ clause := by
  obtain ⟨raw, between, rfl⟩ := List.mem_map.mp member
  exact fun inside => split_on_parts between ((trim_inside raw).subset inside)

theorem piece_inside (member : clause ∈ pieces mark text) : clause <:+: text := by
  obtain ⟨raw, between, rfl⟩ := List.mem_map.mp member
  refine (trim_inside raw).trans ?_
  have part := infix_intercalate [mark] between
  rwa [List.intercalate_splitOn] at part

theorem pieces_joined (some : parts ≠ []) (unmarked : ∀ part ∈ parts, mark ∉ part)
    (bare : ∀ part ∈ parts, Bare part) : pieces mark (join [mark] parts) = parts := by
  rw [pieces, ← split_at_char_eq, split_joined some unmarked]
  exact (List.map_congr_left fun part member => (bare part member).trim).trans (List.map_id' parts)

structure Clause (clause : List Char) : Prop where
  some : clause ≠ []
  bare : Bare clause
  whole : ';' ∉ clause

theorem clauses_stand (member : clause ∈ clauses text) : Clause clause := by
  rw [clauses_eq, List.mem_filter] at member
  exact ⟨of_decide_eq_true member.2, piece_bare member.1, piece_unmarked member.1⟩

theorem clauses_joined (stand : ∀ part ∈ parts, Clause part) :
    clauses (join [';'] parts) = parts := by
  rw [clauses_eq]
  cases parts with
  | nil => rfl
  | cons first rest =>
      rw [pieces_joined (List.cons_ne_nil first rest) (fun part member => (stand part member).whole)
        fun part member => (stand part member).bare]
      exact List.filter_eq_self.mpr fun part member => decide_eq_true (stand part member).some

/-! ### What a selection is written with -/

theorem digits_stand {n : Nat} (digits : Digits clause n) :
    Clause clause ∧ isWeight clause = false := by
  refine ⟨⟨digits.some, digits.bare, digits.free rfl⟩, ?_⟩
  rw [Bool.eq_false_iff]
  intro heavy
  obtain ⟨text, rfl⟩ := is_weight_iff.mp heavy
  cases digits.all '$' (List.mem_cons_self ..)

/-- A clause that stands for a selection and says the same when it is read. -/
structure Rewrites (clause : List Char) (selection : Selection) : Prop where
  stands : Clause clause
  light : isWeight clause = false
  selects : Selects clause selection

theorem limit_rewritten {count : Nat} (low : 1 ≤ count) (high : count ≤ maxWord64) :
    Rewrites (toString count).toList (.limit count) := by
  have digits := to_string_digits count
  exact ⟨(digits_stand digits).1, (digits_stand digits).2, .limit digits low high⟩

theorem indexes_rewritten {numbers : List Nat} (some : numbers ≠ [])
    (high : ∀ n ∈ numbers, n ≤ maxWord64) :
    Rewrites ('#' :: join [','] (numbers.map fun n => (toString n).toList)) (.indexes numbers) := by
  have digits : ∀ part ∈ numbers.map fun n => (toString n).toList, ∃ n, Digits part n := by
    intro part member
    obtain ⟨n, -, rfl⟩ := List.mem_map.mp member
    exact ⟨n, to_string_digits n⟩
  generalize spelled : numbers.map (fun n => (toString n).toList) = parts at digits
  have filled : ∀ part ∈ parts, part ≠ [] := by
    intro part member
    obtain ⟨n, spells⟩ := digits part member
    exact spells.some
  have bare : ∀ part ∈ parts, Bare part := by
    intro part member
    obtain ⟨n, spells⟩ := digits part member
    exact spells.bare
  have free : ∀ c : Char, c.isDigit = false → ∀ part ∈ parts, c ∉ part := by
    intro c other part member
    obtain ⟨n, spells⟩ := digits part member
    exact spells.free other
  have between : pieces ',' (join [','] parts) = parts :=
    pieces_joined (by simpa [← spelled] using some) (free ',' rfl) bare
  have listed : Lists (join [','] parts) parts := ⟨between, fun hole => filled [] hole rfl⟩
  refine ⟨⟨List.cons_ne_nil _ _, ?_, ?_⟩, rfl, .indexes listed ?_⟩
  · have sign : Bare ['#'] := by decide
    exact sign.append (joined_bare filled bare)
  · exact List.not_mem_cons_of_ne_of_not_mem (by decide) (not_mem_joined (by decide) (free ';' rfl))
  · rw [← spelled, List.forall₂_map_left_iff, List.forall₂_same]
    exact fun n member => ⟨high n member, .inl (to_string_digits n)⟩

/-- The pieces of a clause are those of its own text, so it is what they are joined to, up to the
blanks around them. -/
theorem clause_split (clause : List Char) :
    ∃ first rest, clause = join [','] (first :: rest) ∧
      pieces ',' clause = trim first :: rest.map trim := by
  obtain ⟨first, rest, split⟩ := List.exists_cons_of_ne_nil (List.splitOn_ne_nil ',' clause)
  refine ⟨first, rest, ?_, ?_⟩
  · rw [join_eq, ← split, List.intercalate_splitOn]
  · rw [pieces, split, List.map_cons]

theorem keys_head (stands : Clause clause) (listed : Lists clause parts) :
    (join [','] parts).head? = clause.head? := by
  obtain ⟨first, rest, whole, split⟩ := clause_split clause
  obtain rfl := listed.between.symm.trans split
  have filled : trim first ≠ [] := fun none => listed.filled (none ▸ List.mem_cons_self ..)
  cases first with
  | nil => exact absurd rfl filled
  | cons c more =>
      have start : clause.head? = some c := by
        rw [whole, joined_head (List.cons_ne_nil c more), List.head?_cons]
      rw [joined_head filled, trim_head (stands.bare.1 c start), start]

/-- Keys without a comma are a single key, which is the clause. -/
theorem keys_other (stands : Clause clause) (listed : Lists clause parts)
    (other : ¬ ∀ c ∈ clause, c.isDigit = true) :
    ¬ ∀ c ∈ join [','] parts, c.isDigit = true := by
  obtain ⟨first, rest, whole, split⟩ := clause_split clause
  obtain rfl := listed.between.symm.trans split
  cases rest with
  | nil =>
      obtain rfl : clause = first := whole
      change ¬ ∀ c ∈ trim clause, _
      rwa [stands.bare.trim]
  | cons next rest =>
      intro digits
      cases digits ',' (by simp [join])

theorem keys_rewritten (stands : Clause clause) (light : isWeight clause = false)
    (unmarked : clause.head? ≠ some '#') (other : ¬ ∀ c ∈ clause, c.isDigit = true)
    (listed : Lists clause parts) :
    Rewrites (join [','] parts) (.keys (parts.map String.ofList)) := by
  have head := keys_head stands listed
  obtain ⟨rfl, hole⟩ := listed
  have filled : ∀ part ∈ pieces ',' clause, part ≠ [] :=
    fun part member blank => hole (blank ▸ member)
  have bare : ∀ part ∈ pieces ',' clause, Bare part := fun _ => piece_bare
  have between := pieces_joined (pieces_ne_nil ',' clause) (fun _ => piece_unmarked) bare
  refine ⟨⟨joined_filled (pieces_ne_nil ',' clause) filled, joined_bare filled bare, ?_⟩, ?_,
    .keys (head ▸ unmarked) (keys_other stands ⟨rfl, hole⟩ other) ⟨between, hole⟩⟩
  · refine not_mem_joined (by decide) fun part member inside => ?_
    exact stands.whole ((piece_inside member).subset inside)
  · rw [isWeight, head]
    exact light

theorem numbers_high {largest : Nat} {numbers : List Nat}
    (read : List.Forall₂ (Unsigned largest) parts numbers) : ∀ n ∈ numbers, n ≤ largest := by
  induction read with
  | nil => simp
  | cons number _ ih => exact List.forall_mem_cons.mpr ⟨number.1, ih⟩

theorem Selects.rewritten {selection : Selection} (selects : Selects clause selection)
    (stands : Clause clause) (light : isWeight clause = false) :
    ∃ printed, written ⟨selection, none⟩ = [printed] ∧ Rewrites printed selection := by
  have filled := selects.filled
  cases selects with
  | limit _ low high => exact ⟨_, rfl, limit_rewritten low high⟩
  | @indexes list parts numbers listed read =>
      exact ⟨_, rfl, indexes_rewritten (fun none => filled.1 (congrArg _ none)) (numbers_high read)⟩
  | keys unmarked other listed =>
      have rewrites := keys_rewritten stands light unmarked other listed
      refine ⟨_, ?_, rewrites⟩
      simp [written, List.map_map]

/-! ### Reading what was written -/

def writtenWeight (declared : Option Nat) : List (List Char) :=
  (declared.map fun n => '$' :: (toString n).toList).toList

theorem written_eq (selection : Selection) (declared : Option Nat) :
    written ⟨selection, declared⟩ = written ⟨selection, none⟩ ++ writtenWeight declared := by
  cases declared <;> simp [written, writtenWeight]

theorem selection_rewritten {selection : Selection}
    (one : AtMostOne Selects .all parts selection)
    (stand : ∀ part ∈ parts, Clause part ∧ isWeight part = false) :
    AtMostOne Selects .all (written ⟨selection, none⟩) selection ∧
      ∀ part ∈ written ⟨selection, none⟩, Clause part ∧ isWeight part = false := by
  cases one with
  | none => exact ⟨.none, fun _ member => nomatch member⟩
  | @one clause _ read =>
      obtain ⟨stands, light⟩ := stand clause (List.mem_singleton_self clause)
      obtain ⟨printed, spelled, rewrites⟩ := read.rewritten stands light
      rw [spelled]
      refine ⟨.one rewrites.selects, fun part member => ?_⟩
      rw [List.mem_singleton.mp member]
      exact ⟨rewrites.stands, rewrites.light⟩

theorem weight_rewritten {declared : Option Nat}
    (one : AtMostOne Weighs none parts declared) :
    AtMostOne Weighs none (writtenWeight declared) declared ∧
      ∀ part ∈ writtenWeight declared, Clause part ∧ isWeight part = true := by
  cases one with
  | none => exact ⟨.none, fun _ member => nomatch member⟩
  | one read =>
      obtain @⟨text, n, number⟩ := read
      have digits := to_string_digits n
      have sign : Bare ['$'] := by decide
      refine ⟨.one ⟨number.1, .inl (digits.bare.trim.symm ▸ digits)⟩, fun part member => ?_⟩
      rw [List.mem_singleton.mp member]
      refine ⟨⟨List.cons_ne_nil _ _, sign.append digits.bare, ?_⟩, rfl⟩
      exact List.not_mem_cons_of_ne_of_not_mem (by decide) (digits.free rfl)

theorem Declares.rewritten {selector : Selector} (declares : Declares parts selector)
    (stand : ∀ part ∈ parts, Clause part) :
    Declares (written selector) selector ∧ ∀ part ∈ written selector, Clause part := by
  obtain ⟨selection, declared⟩ := selector
  obtain ⟨weight, weights⟩ := weight_rewritten declares.weight
  obtain ⟨select, others⟩ := selection_rewritten declares.selection fun part member => by
    obtain ⟨inside, light⟩ := List.mem_filter.mp member
    exact ⟨stand part inside, by simpa using light⟩
  rw [written_eq]
  constructor
  · rw [declares_iff, List.filter_append, List.filter_append]
    have noWeight : (written ⟨selection, none⟩).filter isWeight = [] :=
      List.filter_eq_nil_iff.mpr fun part member => by simp [(others part member).2]
    have allWeights : (writtenWeight declared).filter isWeight = writtenWeight declared :=
      List.filter_eq_self.mpr fun part member => (weights part member).2
    have allSelections : (written ⟨selection, none⟩).filter (fun part => !isWeight part) =
        written ⟨selection, none⟩ :=
      List.filter_eq_self.mpr fun part member => by simp [(others part member).2]
    have noSelection : (writtenWeight declared).filter (fun part => !isWeight part) = [] :=
      List.filter_eq_nil_iff.mpr fun part member => by simp [(weights part member).2]
    rw [noWeight, allWeights, allSelections, noSelection, List.nil_append, List.append_nil]
    exact ⟨weight, select⟩
  · intro part member
    rcases List.mem_append.mp member with front | back
    · exact (others part front).1
    · exact (weights part back).1

/-- The text of a selector that was read is read as the same selector. -/
theorem parse_display {text : String} {selector : Selector} (read : parse text = .ok selector) :
    parse selector.display = .ok selector := by
  have declares := parse_ok_iff.mp read
  obtain ⟨rewritten, stand⟩ := declares.rewritten fun _ => clauses_stand
  rw [parse_ok_iff, display, String.toList_ofList, clauses_joined stand]
  exact rewritten

/-- Keys that hold the signs of other clauses, with blanks around them and a weight in front. -/
theorem signed_keys_again :
    parse " $ +3 ;; 1 #2 ,$x " = .ok ⟨.keys ["1 #2", "$x"], some 3⟩ ∧
      parse (display ⟨.keys ["1 #2", "$x"], some 3⟩) = .ok ⟨.keys ["1 #2", "$x"], some 3⟩ := by
  have read : parse " $ +3 ;; 1 #2 ,$x " = .ok ⟨.keys ["1 #2", "$x"], some 3⟩ := by decide +kernel
  exact ⟨read, parse_display read⟩

end Selector

end PromptLoom
