import PromptLoom.Proofs.Lists
import PromptLoom.Proofs.Text.WholeNumbers
import PromptLoom.Variation

/-!
# Keys of a variation set

The candidates for the key of a literal are all different, so a set with `n` variations leaves one
of the first `n + 1` free. A literal therefore goes to the end of a set under a key of its own, and
inserting under a key that is not taken does the same; the keys of a set stay distinct. A set that
is made from a list has the keys of the list in the order of their first appearance, each with the
last text under it.
-/

namespace PromptLoom.VariationSet

set_option autoImplicit false

theorem contains_iff_mem_keys {set : VariationSet} {key : String} :
    set.contains key = true ↔ key ∈ set.keys := by
  simp [contains, get?, keys]

/-! ### Keys of literals -/

theorem candidate_key_injective (base : String) : Function.Injective (candidateKey base) := by
  have unlike : ∀ tries, candidateKey base 0 ≠ candidateKey base (tries + 1) := by
    intro tries same
    have lengths := congrArg String.length same
    simp only [candidateKey, String.length_append] at lengths
    have dash : "-".length = 1 := rfl
    omega
  intro first second same
  cases first with
  | zero =>
      cases second with
      | zero => rfl
      | succ second => exact absurd same (unlike second)
  | succ first =>
      cases second with
      | zero => exact absurd same.symm (unlike first)
      | succ second =>
          have digits : Nat.toDigits 10 (first + 2) = Nat.toDigits 10 (second + 2) := by
            have texts := congrArg String.toList same
            simpa [candidateKey, Nat.toString_eq_ofList_toDigits] using texts
          have numbers := to_digits_injective digits
          omega

/-- Among the first candidates for a base, one more than a set has variations, one is free. -/
theorem free_candidate (set : VariationSet) (base : String) :
    ∃ tries ≤ set.size, candidateKey base tries ∉ set.keys := by
  apply Decidable.byContradiction
  intro none
  have taken : ((List.range (set.size + 1)).map (candidateKey base)) ⊆ set.keys := by
    intro key member
    obtain ⟨tries, inside, rfl⟩ := List.mem_map.mp member
    apply Decidable.byContradiction
    intro free
    exact none ⟨tries, Nat.lt_succ_iff.mp (List.mem_range.mp inside), free⟩
  have distinct : ((List.range (set.size + 1)).map (candidateKey base)).Nodup :=
    List.nodup_range.map (candidate_key_injective base)
  have few := (List.subperm_of_subset distinct taken).length_le
  simp only [List.length_map, List.length_range, keys, size] at few
  omega

/-- The key of a literal is the first candidate that is free, and the search for it looks at no
more candidates than one more than the set has variations. -/
theorem fresh_key_first (set : VariationSet) (base : String) :
    ∃ tries ≤ set.size, set.freshKey base = candidateKey base tries ∧
      candidateKey base tries ∉ set.keys ∧
      ∀ earlier < tries, candidateKey base earlier ∈ set.keys := by
  have taken_of : ∀ tries, (!(!set.contains (candidateKey base tries))) = true →
      candidateKey base tries ∈ set.keys := by
    intro tries taken
    rwa [Bool.not_not, contains_iff_mem_keys] at taken
  unfold freshKey
  rw [List.find?_map]
  rcases found : (List.range (set.size + 1)).find?
    ((fun key => !set.contains key) ∘ candidateKey base) with _ | tries
  · -- were every candidate taken, there would be more of them than variations
    obtain ⟨tries, bound, free⟩ := set.free_candidate base
    have taken := List.find?_range_eq_none.mp found tries (Nat.lt_succ_of_le bound)
    exact absurd (taken_of tries taken) free
  · obtain ⟨free, inside, before⟩ := List.find?_range_eq_some.mp found
    have bound : tries ≤ set.size := Nat.lt_succ_iff.mp (List.mem_range.mp inside)
    refine ⟨tries, bound, rfl, ?_, fun earlier less => taken_of earlier (before earlier less)⟩
    rw [← contains_iff_mem_keys]
    simpa using free

theorem fresh_key_free (set : VariationSet) (base : String) :
    set.freshKey base ∉ set.keys ∧ ∃ tries, set.freshKey base = candidateKey base tries := by
  obtain ⟨tries, -, found, free, -⟩ := set.fresh_key_first base
  exact ⟨found ▸ free, tries, found⟩

theorem push_literal_entries (set : VariationSet) (text : String) :
    ∃ tries, candidateKey (literalKey text) tries ∉ set.keys ∧
      (set.pushLiteral text).entries =
        set.entries ++ [⟨candidateKey (literalKey text) tries, text⟩] := by
  obtain ⟨free, tries, same⟩ := set.fresh_key_free (literalKey text)
  refine ⟨tries, same ▸ free, ?_⟩
  rw [← same]
  rfl

theorem literal_key_tilde (text : String) (tries : Nat) :
    (candidateKey (literalKey text) tries).toList.head? = some '~' := by
  cases tries with
  | zero => simp [candidateKey, literalKey]
  | succ tries => simp [candidateKey, literalKey]

/-! ### Keys that are inserted -/

theorem insert_entry_absent {key : String} (value : String) {entries : List Variation}
    (absent : key ∉ entries.map Variation.key) :
    insertEntry key value entries = entries ++ [⟨key, value⟩] := by
  induction entries with
  | nil => rfl
  | cons entry rest ih =>
      rw [List.map_cons, List.mem_cons, not_or] at absent
      have other : (entry.key == key) = false := beq_eq_false_iff_ne.mpr (Ne.symm absent.1)
      rw [insertEntry, other, ih absent.2]
      rfl

theorem insert_absent {set : VariationSet} {key : String} (absent : key ∉ set.keys)
    (value : String) : (set.insert key value).entries = set.entries ++ [⟨key, value⟩] :=
  insert_entry_absent value absent

theorem insert_entry_keys (key value : String) (entries : List Variation) :
    (insertEntry key value entries).map Variation.key =
      if key ∈ entries.map Variation.key then entries.map Variation.key
      else entries.map Variation.key ++ [key] := by
  induction entries with
  | nil => rfl
  | cons entry rest ih =>
      rw [insertEntry]
      by_cases same : entry.key = key
      · simp [same]
      · have other : (entry.key == key) = false := beq_eq_false_iff_ne.mpr same
        simp only [other, List.map_cons, Bool.false_eq_true, if_false, ih, List.mem_cons,
          Ne.symm same, false_or]
        split
        · rfl
        · rfl

theorem append_keys_nodup {set : VariationSet} {variations : List Variation}
    (distinct : set.keys.Nodup) (others : (variations.map Variation.key).Nodup)
    (absent : ∀ variation ∈ variations, variation.key ∉ set.keys) :
    ((set.entries ++ variations).map Variation.key).Nodup := by
  rw [List.map_append]
  refine List.nodup_append.mpr ⟨distinct, others, ?_⟩
  rintro key inside other last rfl
  obtain ⟨variation, member, rfl⟩ := List.mem_map.mp last
  exact absent variation member inside

/-! ### Inserting one after another -/

variable {pairs : List (String × String)} {key other value : String}

theorem of_list_snoc (pairs : List (String × String)) (pair : String × String) :
    ofList (pairs ++ [pair]) = (ofList pairs).insert pair.1 pair.2 := by
  rw [ofList, List.foldl_append]
  rfl

theorem find_insert_self (key value : String) (entries : List Variation) :
    (insertEntry key value entries).find? (fun entry => entry.key == key) = some ⟨key, value⟩ := by
  induction entries with
  | nil => simp [insertEntry]
  | cons entry rest ih =>
      rw [insertEntry]
      by_cases same : entry.key = key
      · simp [same]
      · simp [same, ih]

theorem find_insert_other (different : other ≠ key) (value : String) (entries : List Variation) :
    (insertEntry other value entries).find? (fun entry => entry.key == key) =
      entries.find? fun entry => entry.key == key := by
  induction entries with
  | nil => simp [insertEntry, different]
  | cons entry rest ih =>
      rw [insertEntry]
      by_cases same : entry.key = other
      · simp [same, different]
      · by_cases found : entry.key = key
        · simp [found, Ne.symm different]
        · simp [same, found, ih]

theorem get_insert_self (set : VariationSet) (key value : String) :
    (set.insert key value).get? key = some ⟨key, value⟩ :=
  find_insert_self key value set.entries

theorem get_insert_other (different : other ≠ key) (set : VariationSet) (value : String) :
    (set.insert other value).get? key = set.get? key :=
  find_insert_other different value set.entries

theorem insert_keys (set : VariationSet) (key value : String) :
    (set.insert key value).keys = if key ∈ set.keys then set.keys else set.keys ++ [key] :=
  insert_entry_keys key value set.entries

theorem of_list_keys (pairs : List (String × String)) :
    (ofList pairs).keys = (pairs.map Prod.fst).eraseDups := by
  induction pairs using List.reverseRecOn with
  | nil => rfl
  | append_singleton pairs pair ih =>
      rw [of_list_snoc, insert_keys, ih, List.map_append, List.map_singleton, erase_dups_snoc]
      simp only [List.mem_eraseDups]

theorem of_list_get_last {before after : List (String × String)} (last : key ∉ after.map Prod.fst) :
    (ofList (before ++ (key, value) :: after)).get? key = some ⟨key, value⟩ := by
  -- from the end, since a set is made by inserting the last pair last
  induction after using List.reverseRecOn with
  | nil =>
      rw [of_list_snoc]
      exact get_insert_self _ key value
  | append_singleton after pair ih =>
      rw [List.map_append, List.mem_append, not_or] at last
      have different : pair.1 ≠ key := fun same => last.2 (List.mem_singleton.mpr same.symm)
      rw [← List.cons_append, ← List.append_assoc, of_list_snoc, get_insert_other different]
      exact ih last.1

theorem of_list_entries (once : (pairs.map Prod.fst).Nodup) :
    (ofList pairs).entries = pairs.map fun pair => ⟨pair.1, pair.2⟩ := by
  induction pairs using List.reverseRecOn with
  | nil => rfl
  | append_singleton pairs pair ih =>
      rw [List.map_append, List.map_singleton] at once
      obtain ⟨before, -, apart⟩ := List.nodup_append.mp once
      have absent : pair.1 ∉ (ofList pairs).keys := by
        rw [of_list_keys, List.mem_eraseDups]
        exact fun member => apart pair.1 member pair.1 (List.mem_singleton_self _) rfl
      rw [of_list_snoc, insert_absent absent, ih before, List.map_append, List.map_singleton]

theorem of_list_keys_nodup (pairs : List (String × String)) : (ofList pairs).keys.Nodup := by
  rw [of_list_keys]
  exact erase_dups_nodup _

end PromptLoom.VariationSet
