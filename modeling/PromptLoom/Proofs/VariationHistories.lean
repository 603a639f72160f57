import PromptLoom.Proofs.VariationSets

/-!
# Histories of a variation set

A set grows from the empty one by two calls: inserting a text under a key that an author wrote, and
pushing a literal under a key that is found for it. An author may write any key, one that looks like
the key of a literal or like a numbered one included, and the function that gives a literal its
first candidate may be any. A call still only appends one variation under a key that was free, or
gives a new text to the variation that has the key, and therefore the keys stay distinct.
-/

namespace PromptLoom.VariationSet

set_option autoImplicit false

inductive Change
  | insert (key text : String)
  | literal (text : String)

def afterChange (base : String → String) (set : VariationSet) : Change → VariationSet
  | .insert key text => set.insert key text
  | .literal text => set.pushUnder (base text) text

def afterChanges (base : String → String) (changes : List Change) : VariationSet :=
  changes.foldl (afterChange base) empty

theorem after_changes_snoc (base : String → String) (changes : List Change) (change : Change) :
    afterChanges base (changes ++ [change]) =
      afterChange base (afterChanges base changes) change := by
  rw [afterChanges, List.foldl_append]
  rfl

/-- All that a call does to a set: one variation comes last under a key that was free, or the
variation that has the key takes the text where it stands. -/
inductive Puts (set next : VariationSet) (key text : String) : Prop
  | last (free : key ∉ set.keys) (appended : next.entries = set.entries ++ [⟨key, text⟩])
  | inPlace (before after : List Variation) (old : String)
      (stood : set.entries = before ++ ⟨key, old⟩ :: after)
      (stands : next.entries = before ++ ⟨key, text⟩ :: after)

theorem insert_entry_present {key : String} (text : String) {entries : List Variation}
    (present : key ∈ entries.map Variation.key) :
    ∃ before old after, entries = before ++ ⟨key, old⟩ :: after ∧
      insertEntry key text entries = before ++ ⟨key, text⟩ :: after := by
  induction entries with
  | nil => exact absurd present List.not_mem_nil
  | cons entry rest ih =>
      by_cases same : entry.key = key
      · subst same
        refine ⟨[], entry.value, rest, rfl, ?_⟩
        rw [insertEntry, beq_self_eq_true, if_pos rfl, List.nil_append]
      · have inside : key ∈ rest.map Variation.key :=
          (List.mem_cons.mp present).resolve_left (Ne.symm same)
        obtain ⟨before, old, after, stood, stands⟩ := ih inside
        refine ⟨entry :: before, old, after, by rw [stood, List.cons_append], ?_⟩
        rw [insertEntry, beq_eq_false_iff_ne.mpr same, if_neg Bool.false_ne_true, stands,
          List.cons_append]

theorem insert_puts (set : VariationSet) (key text : String) :
    Puts set (set.insert key text) key text := by
  by_cases present : key ∈ set.keys
  · obtain ⟨before, old, after, stood, stands⟩ := insert_entry_present text present
    exact .inPlace before after old stood stands
  · exact .last present (insert_absent present text)

theorem push_under_puts (set : VariationSet) (base text : String) :
    Puts set (set.pushUnder base text) (set.freshKey base) text :=
  .last (set.fresh_key_free base).1 rfl

theorem Puts.keys_nodup {set next : VariationSet} {key text : String}
    (puts : Puts set next key text) (distinct : set.keys.Nodup) : next.keys.Nodup := by
  cases puts with
  | last free appended =>
      rw [keys, appended]
      refine append_keys_nodup distinct (List.nodup_singleton key) fun variation member => ?_
      rw [List.mem_singleton.mp member]
      exact free
  | inPlace before after old stood stands =>
      -- the variation keeps its key, so the keys are the ones that stood
      have same : next.keys = set.keys := by
        rw [keys, keys, stood, stands, List.map_append, List.map_append, List.map_cons,
          List.map_cons]
      rw [same]
      exact distinct

theorem after_change_keys_nodup (base : String → String) {set : VariationSet} (change : Change)
    (distinct : set.keys.Nodup) : (afterChange base set change).keys.Nodup := by
  cases change with
  | insert key text => exact (set.insert_puts key text).keys_nodup distinct
  | literal text => exact (set.push_under_puts (base text) text).keys_nodup distinct

theorem after_changes_keys_nodup (base : String → String) (changes : List Change) :
    (afterChanges base changes).keys.Nodup := by
  induction changes using List.reverseRecOn with
  | nil => exact List.nodup_nil
  | append_singleton changes change ih =>
      rw [after_changes_snoc]
      exact after_change_keys_nodup base change ih

/-- After any history of a set its keys are distinct. Another insertion appends one variation or
changes the text of the one that has the key. Another literal finds its key among the first
candidates, one more than there are variations: the first that is free, under which it comes last.
Literals are pushed in this way with the digest of a text as its first candidate. -/
theorem histories_keep_keys_distinct (base : String → String) (changes : List Change) :
    (afterChanges base changes).keys.Nodup ∧
    (∀ key text, Puts (afterChanges base changes)
      (afterChange base (afterChanges base changes) (.insert key text)) key text) ∧
    (∀ text, ∃ tries ≤ (afterChanges base changes).size,
      (∀ earlier < tries,
        candidateKey (base text) earlier ∈ (afterChanges base changes).keys) ∧
      candidateKey (base text) tries ∉ (afterChanges base changes).keys ∧
      (afterChange base (afterChanges base changes) (.literal text)).entries =
        (afterChanges base changes).entries ++ [⟨candidateKey (base text) tries, text⟩]) ∧
    ∀ set text, afterChange literalKey set (.literal text) = set.pushLiteral text := by
  refine ⟨after_changes_keys_nodup base changes, fun key text => insert_puts _ key text,
    fun text => ?_, fun _ _ => rfl⟩
  obtain ⟨tries, bound, found, free, taken⟩ :=
    (afterChanges base changes).fresh_key_first (base text)
  refine ⟨tries, bound, taken, free, ?_⟩
  rw [afterChange, pushUnder, found]

/-- Authors have taken the first candidate for a literal and the one numbered three. -/
example :
    (afterChanges (fun _ => "~d") [.insert "~d" "own", .insert "~d-3" "numbered", .literal "red",
      .literal "red", .insert "~d" "new"]).entries =
      [⟨"~d", "new"⟩, ⟨"~d-3", "numbered"⟩, ⟨"~d-2", "red"⟩, ⟨"~d-4", "red"⟩] := by
  decide +kernel

end PromptLoom.VariationSet
