import PromptLoom.Proofs.Yaml.Keys

/-!
# What a variation set keeps

A flat mapping is read as one variation for each text that its keys are written as, in the order in
which the texts first appear, with the value of the last entry under it. Keys are different values,
so an entry gives way only to a text that spells its key, or to the value that its text spells;
without such a pair every entry is kept.
-/

namespace PromptLoom

open Yaml (Value)

set_option autoImplicit false

namespace Config

variable {source : Path} {value : Value} {entries : List (Value × Value)}

/-! ### Flat mappings -/

def entryTexts? (entry : Value × Value) : Option (String × String) :=
  match entry.1.scalarText?, entry.2.scalarText? with
  | some key, some value => some (key, value)
  | _, _ => none

theorem entry_texts {entry : Value × Value} {pair : String × String} :
    entryTexts? entry = some pair ↔
      entry.1.scalarText? = some pair.1 ∧ entry.2.scalarText? = some pair.2 := by
  unfold entryTexts?
  split
  · next key value keyText valueText =>
      rw [keyText, valueText, Option.some.injEq, Option.some.injEq, Option.some.injEq, Prod.ext_iff]
  · next missing =>
      constructor
      · intro none
        cases none
      · intro both
        exact absurd both.2 (missing _ _ both.1)

theorem flat_texts (flat : Value.isFlat entries = true) :
    ∃ pairs : List (String × String), entries.map entryTexts? = pairs.map some := by
  induction entries with
  | nil => exact ⟨[], rfl⟩
  | cons entry rest ih =>
      simp only [Value.isFlat, List.all_cons, Bool.and_eq_true] at flat
      obtain ⟨⟨key, value⟩, others⟩ := flat
      obtain ⟨keyText, keyed⟩ := Option.isSome_iff_exists.mp key
      obtain ⟨valueText, valued⟩ := Option.isSome_iff_exists.mp value
      obtain ⟨pairs, texts⟩ := ih others
      have shown : entryTexts? entry = some (keyText, valueText) := entry_texts.mpr ⟨keyed, valued⟩
      refine ⟨(keyText, valueText) :: pairs, ?_⟩
      rw [List.map_cons, List.map_cons, texts, shown]

theorem variations_of_texts {pairs : List (String × String)}
    (texts : entries.map entryTexts? = pairs.map some) :
    variationsOf entries = .ofList pairs := by
  have kept : entries.filterMap entryTexts? = pairs := by
    have mapped := congrArg (List.filterMap id) texts
    simpa using mapped
  rw [← kept]
  rfl

theorem read_flat (mapping : value.entries? = some entries)
    (flat : Kind.ofEntries entries = .variationSet) :
    read source value = .ok (.variations (variationsOf entries)) := by
  rw [read_mapping mapping, flat]
  have clean : faults source entries = [] := by
    rw [faults, flat]
    rfl
  simp only [typed?, clean]
  rfl

theorem flat_of_kind (kind : Kind.ofEntries entries = .variationSet) :
    Value.isFlat entries = true := by
  unfold Kind.ofEntries at kind
  split at kind
  · cases kind
  · split at kind
    · cases kind
    · split at kind
      · next flat =>
          rw [Bool.and_eq_true] at flat
          exact flat.1
      · cases kind

/-- Of two keys that are written alike, one is a text that spells the other. -/
theorem keys_written_apart (formed : value.WellFormed) (mapping : value.entries? = some entries)
    {pairs : List (String × String)} (texts : entries.map entryTexts? = pairs.map some) :
    entries.Pairwise fun entry later => entry.1.scalarText? = later.1.scalarText? →
      entry.1.isText ≠ later.1.isText := by
  obtain ⟨canonical, different⟩ := formed.keys mapping
  refine different.imp_of_mem fun {entry later} member last apart alike => ?_
  have listed : entryTexts? entry ∈ pairs.map some := texts ▸ List.mem_map_of_mem member
  obtain ⟨pair, -, shown⟩ := List.mem_map.mp listed
  have written := (entry_texts.mp shown.symm).1
  exact Value.one_text_of_alike (canonical entry member) (canonical later last) apart written
    (alike ▸ written)

theorem key_texts {pairs : List (String × String)}
    (texts : entries.map entryTexts? = pairs.map some) :
    entries.map (fun entry => entry.1.scalarText?) = (pairs.map Prod.fst).map some := by
  induction entries generalizing pairs with
  | nil =>
      obtain rfl := List.map_eq_nil_iff.mp texts.symm
      rfl
  | cons entry rest ih =>
      obtain ⟨pair, others, rfl, shown, later⟩ := List.map_eq_cons_iff.mp texts.symm
      rw [List.map_cons, List.map_cons, List.map_cons, ih later.symm,
        (entry_texts.mp shown.symm).1]

theorem pair_keys_nodup {pairs : List (String × String)}
    (texts : entries.map entryTexts? = pairs.map some)
    (apart : entries.Pairwise fun entry later => entry.1.scalarText? ≠ later.1.scalarText?) :
    (pairs.map Prod.fst).Nodup := by
  have once : (entries.map fun entry => entry.1.scalarText?).Nodup := List.pairwise_map.mpr apart
  rw [key_texts texts] at once
  exact once.of_map some

/-- A variation set has one variation for each text of a key, where the text first appears, with the
value that stands last under it; two keys share a text only where one is a text that spells the
other, and without such keys every entry is a variation of its own. -/
theorem variations_kept (source : Path) {value : Value} (formed : value.WellFormed)
    (flat : Kind.classify? value = some .variationSet) :
    ∃ (entries : List (Value × Value)) (pairs : List (String × String)) (set : VariationSet),
      value.entries? = some entries ∧ entries.map entryTexts? = pairs.map some ∧
      read source value = .ok (.variations set) ∧
      set.keys = (pairs.map Prod.fst).eraseDups ∧
      (∀ before key text after, pairs = before ++ (key, text) :: after →
        key ∉ after.map Prod.fst → set.get? key = some ⟨key, text⟩) ∧
      (entries.Pairwise fun entry later => entry.1.scalarText? = later.1.scalarText? →
        entry.1.isText ≠ later.1.isText) ∧
      ((entries.Pairwise fun entry later => entry.1.scalarText? ≠ later.1.scalarText?) →
        set.entries = pairs.map fun pair => ⟨pair.1, pair.2⟩) := by
  obtain ⟨entries, mapping, kind⟩ := Option.map_eq_some_iff.mp flat
  obtain ⟨pairs, texts⟩ := flat_texts (flat_of_kind kind)
  refine ⟨entries, pairs, .ofList pairs, mapping, texts, ?_, VariationSet.of_list_keys pairs, ?_,
    keys_written_apart formed mapping texts, fun apart => ?_⟩
  · rw [read_flat mapping kind, variations_of_texts texts]
  · rintro before key text after rfl last
    exact VariationSet.of_list_get_last last
  · exact VariationSet.of_list_entries (pair_keys_nodup texts apart)

def spelledKeys : String := "1: one\n0.10: tenth\n\"1\": uno\nyes: true\n"

theorem spelled_keys_read :
    ∃ value entries set, Value.ofText spelledKeys = .ok value ∧
      Kind.classify? value = some .variationSet ∧ value.entries? = some entries ∧
      entries.length = 4 ∧ read ⟨"v.yaml"⟩ value = .ok (.variations set) ∧
      set.entries = [⟨"1", "uno"⟩, ⟨"0.1", "tenth"⟩, ⟨"yes", "true"⟩] := by
  have checked : (Value.ofText spelledKeys).toOption.any (fun value =>
      value.entries?.any fun entries => entries.length == 4 &&
        Kind.ofEntries entries == .variationSet &&
        (variationsOf entries).entries == [⟨"1", "uno"⟩, ⟨"0.1", "tenth"⟩, ⟨"yes", "true"⟩]) =
      true := by
    decide +kernel
  rcases read : Value.ofText spelledKeys with problem | value
  · rw [read] at checked
    cases checked
  · rw [read] at checked
    simp only [Except.toOption, Option.any_some, Option.any_eq_true, Bool.and_eq_true,
      beq_iff_eq] at checked
    obtain ⟨entries, mapping, ⟨count, kind⟩, kept⟩ := checked
    refine ⟨value, entries, variationsOf entries, rfl, ?_, mapping, count, read_flat mapping kind,
      kept⟩
    rw [Kind.classify?, mapping, Option.map_some, kind]

/-- An entry can be lost: a later key that is written alike takes its place. -/
theorem spelled_keys_lost : ¬ ∀ (source : Path) (value : Value) (entries : List (Value × Value))
    (set : VariationSet), value.WellFormed → Kind.classify? value = some .variationSet →
    value.entries? = some entries → read source value = .ok (.variations set) →
    set.size = entries.length := by
  intro kept
  obtain ⟨value, entries, set, parsed, kind, mapping, count, done, variations⟩ := spelled_keys_read
  have formed := Value.of_text_well_formed parsed
  have size := kept ⟨"v.yaml"⟩ value entries set formed kind mapping done
  rw [VariationSet.size, variations, count] at size
  cases size

theorem spelled_keys_kept :
    ∃ value entries set, ∃ pairs : List (String × String), Value.ofText spelledKeys = .ok value ∧
      value.entries? = some entries ∧ entries.map entryTexts? = pairs.map some ∧
      read ⟨"v.yaml"⟩ value = .ok (.variations set) ∧
      set.entries = [⟨"1", "uno"⟩, ⟨"0.1", "tenth"⟩, ⟨"yes", "true"⟩] ∧
      (pairs.map Prod.fst).eraseDups = ["1", "0.1", "yes"] ∧
      entries.Pairwise fun entry later => entry.1.scalarText? = later.1.scalarText? →
        entry.1.isText ≠ later.1.isText := by
  obtain ⟨value, entries, set, parsed, kind, mapping, -, done, variations⟩ := spelled_keys_read
  obtain ⟨others, pairs, found, again, texts, reread, keys, -, apart, -⟩ :=
    variations_kept ⟨"v.yaml"⟩ (Value.of_text_well_formed parsed) kind
  obtain rfl := Option.some.inj (mapping.symm.trans again)
  obtain rfl := Config.variations.inj (Except.ok.inj (done.symm.trans reread))
  refine ⟨value, entries, set, pairs, parsed, mapping, texts, done, variations, ?_, apart⟩
  rw [← keys, VariationSet.keys, variations]
  rfl

end Config

end PromptLoom
