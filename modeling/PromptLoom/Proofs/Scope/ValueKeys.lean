import PromptLoom.Proofs.Chunk.Precedence
import PromptLoom.Proofs.Chunk.Scanning

/-!
# Which variations a value can refer to

A value of the form `Import.key` is a reference when its key is spelled with ASCII letters and
digits, underscores, tildes and dashes. Such a reference gives the variation under that key in the
first scope that knows the import, or fails; with any other key the value is plain text. A key may
be spelled otherwise, and its variation is then out of reach.
-/

namespace PromptLoom.ValueRef

open Text

set_option autoImplicit false

/-- The spelling of keys that references can hold. -/
def PlainKey (key : String) : Prop :=
  ∀ c ∈ key.toList, c.isAlphanum = true ∨ c = '_' ∨ c = '~' ∨ c = '-'

instance (key : String) : Decidable (PlainKey key) :=
  decidable_of_iff
    (key.toList.all (fun c => c.isAlphanum || c == '_' || c == '~' || c == '-') = true)
    (by simp [PlainKey, or_assoc])

theorem is_key_char_iff (c : Char) :
    isKeyChar c = true ↔ c.isAlphanum = true ∨ c = '_' ∨ c = '~' ∨ c = '-' := by
  have classes : c.isAlphanum = (decide ('A' ≤ c ∧ c ≤ 'Z') ||
      (decide ('a' ≤ c) && decide (c ≤ 'z')) || (decide ('0' ≤ c) && decide (c ≤ '9'))) := rfl
  simp only [isKeyChar, isIdentRest, isIdentStart, classes, Bool.or_eq_true, Bool.and_eq_true,
    decide_eq_true_eq, beq_iff_eq]
  tauto

theorem plain_key_iff {key : String} :
    PlainKey key ↔ ∀ c ∈ key.toList, isKeyChar c = true := by
  simp only [PlainKey, is_key_char_iff]

theorem dotted_start {text : List Char} (dotted : isDotted text = true) :
    ∃ c rest, text = c :: rest ∧ isIdentStart c = true := by
  cases text with
  | nil => simp [isDotted, takeDotted, takeIdent] at dotted
  | cons c rest =>
      refine ⟨c, rest, rfl, ?_⟩
      apply Decidable.byContradiction
      intro other
      have nothing : takeIdent (c :: rest) = none := by simp [takeIdent, other]
      rw [isDotted, take_dotted_none nothing] at dotted
      cases dotted

variable {importName key : String}

theorem reference_bare (dotted : isDotted importName.toList = true) (filled : key ≠ "")
    (bare : Bare key.toList) : Bare (importName.toList ++ '.' :: key.toList) := by
  obtain ⟨first, rest, letters, start⟩ := dotted_start dotted
  have some : key.toList ≠ [] := fun none => filled (String.toList_eq_nil_iff.mp none)
  constructor
  · intro c member
    rw [letters] at member
    obtain rfl := Option.some.inj member
    exact ident_not_blank (ident_starts_rest start)
  · intro c member
    rw [List.append_cons, List.getLast?_append_of_ne_nil _ some] at member
    exact bare.2 c member

theorem reference_trimmed (dotted : isDotted importName.toList = true) (filled : key ≠ "")
    (bare : Bare key.toList) :
    trim (importName ++ "." ++ key).toList = importName.toList ++ '.' :: key.toList := by
  have spelled : (importName ++ "." ++ key).toList = importName.toList ++ '.' :: key.toList := by
    simp
  rw [spelled, (reference_bare dotted filled bare).trim]

theorem plain_key_refers (dotted : isDotted importName.toList = true) (filled : key ≠ "")
    (bare : Bare key.toList) (plain : PlainKey key) :
    Refers (importName ++ "." ++ key) importName key :=
  ⟨reference_trimmed dotted filled bare, dotted, filled, plain_key_iff.mp plain⟩

/-- The key of a reference is what stands behind its last dot, so a key with another character in it
makes no reference, not even under a shorter name. -/
theorem other_key_unrelated (dotted : isDotted importName.toList = true) (filled : key ≠ "")
    (undotted : '.' ∉ key.toList) (bare : Bare key.toList) (other : ¬ PlainKey key)
    (name found : String) : ¬ Refers (importName ++ "." ++ key) name found := by
  intro refers
  have dotFree : '.' ∉ found.toList := fun member => nomatch refers.keyed '.' member
  have written : cutAtLastChar '.' (trim (importName ++ "." ++ key).toList) =
      some (importName.toList, key.toList) :=
    cut_at_last_char_eq_some.mpr ⟨reference_trimmed dotted filled bare, undotted⟩
  have read := cut_at_last_char_eq_some.mpr ⟨refers.spelled, dotFree⟩
  have keys := (Prod.mk.inj (Option.some.inj (written.symm.trans read))).2
  rw [plain_key_iff, keys] at other
  exact other refers.keyed

theorem reference_unescaped (dotted : isDotted importName.toList = true) (filled : key ≠ "")
    (bare : Bare key.toList) (text : List Char) :
    trim (importName ++ "." ++ key).toList ≠ '\x5c' :: text := by
  intro escaped
  obtain ⟨first, rest, letters, start⟩ := dotted_start dotted
  rw [reference_trimmed dotted filled bare, letters] at escaped
  obtain rfl := List.head_eq_of_cons_eq escaped
  cases start

theorem is_ref_of_unrelated {value : String}
    (unrelated : ∀ name found, ¬ Refers value name found) : isRef value = false := by
  rw [isRef, Option.isSome_eq_false_iff, Option.isNone_iff_eq_none,
    Option.eq_none_iff_forall_ne_some]
  rintro ⟨name, found⟩ parsed
  exact unrelated _ _ (refers_of_parsed parsed)

theorem lookup_first {before after : List Scope} {scope : Scope} {set : VariationSet}
    (unknown : ∀ earlier ∈ before, earlier.get? importName = none)
    (known : scope.get? importName = some set) :
    lookup importName (before ++ scope :: after) = some set := by
  unfold lookup
  rw [List.findSome?_append, List.findSome?_eq_none_iff.mpr unknown, List.findSome?_cons, known]
  rfl

/-- A reference to a key of plain spelling gives the variation under it or fails, and is never taken
for text; with any other key there is no reference, and the value stands as it is written. -/
theorem reference_by_key (importName key : String) (before after : List Scope) {scope : Scope}
    {set : VariationSet} (dotted : isDotted importName.toList = true)
    (unknown : ∀ earlier ∈ before, earlier.get? importName = none)
    (known : scope.get? importName = some set) (filled : key ≠ "") (undotted : '.' ∉ key.toList)
    (bare : Bare key.toList) (file : Path) (field : String) :
    let value := importName ++ "." ++ key
    let result := resolve value (before ++ scope :: after) file field
    (PlainKey key →
      isRef value = true ∧
      (key ∈ set.keys → ∃ variation, set.get? key = some variation ∧
        result = .ok variation.value) ∧
      (key ∉ set.keys → ∃ error, result = .error error ∧ error.category = .template ∧
        error.file = file ∧ error.field = some field)) ∧
    (¬ PlainKey key → isRef value = false ∧ result = .ok value) := by
  intro value result
  have looked : lookup importName (before ++ scope :: after) = some set :=
    lookup_first unknown known
  constructor
  · intro plain
    have refers := plain_key_refers dotted filled bare plain
    have resolved : result = _ := refers.resolved
    rw [looked] at resolved
    refine ⟨by simp only [value, isRef, refers.parsed, Option.isSome_some], ?_, ?_⟩
    · intro member
      obtain ⟨variation, held⟩ :=
        Option.isSome_iff_exists.mp (VariationSet.contains_iff_mem_keys.mpr member)
      simp only [held] at resolved
      exact ⟨variation, held, resolved⟩
    · intro absent
      have missing : set.get? key = none := by
        apply Option.not_isSome_iff_eq_none.mp
        exact fun held => absent (VariationSet.contains_iff_mem_keys.mp held)
      simp only [missing] at resolved
      exact ⟨_, resolved, rfl, rfl, rfl⟩
  · intro other
    have unrelated := other_key_unrelated dotted filled undotted bare other
    have literal : Literal value value :=
      .plain (reference_unescaped dotted filled bare) unrelated
    exact ⟨is_ref_of_unrelated unrelated, literal.resolved⟩

def hairSet : VariationSet := .ofList [("~red-2", "crimson"), ("light red", "rose")]

def hairScope : Scope := .ofList [("Scene.Hair", hairSet)]

theorem hair_known : hairScope.get? "Scene.Hair" = some hairSet := by decide +kernel

theorem hair_key_resolved :
    resolve "Scene.Hair.~red-2" [.empty, hairScope] ⟨"c"⟩ "defaults.X" = .ok "crimson" := by
  obtain ⟨referred, -⟩ := reference_by_key "Scene.Hair" "~red-2" [.empty] [] (by cbv) (by decide)
    hair_known (by decide) (by decide) (by decide +kernel) ⟨"c"⟩ "defaults.X"
  obtain ⟨-, found, -⟩ := referred (by decide +kernel)
  obtain ⟨variation, held, resolved⟩ := found (by decide +kernel)
  have own : hairSet.get? "~red-2" = some ⟨"~red-2", "crimson"⟩ := by decide +kernel
  obtain rfl := Option.some.inj (held.symm.trans own)
  exact resolved

/-- A variation whose key holds a blank cannot be referred to: the reference is taken for text. -/
theorem blank_key_unreachable : ¬ ∀ (importName key : String) (before after : List Scope)
    (scope : Scope) (set : VariationSet) (file : Path) (field : String),
    isDotted importName.toList = true → (∀ earlier ∈ before, earlier.get? importName = none) →
    scope.get? importName = some set → key ≠ "" → '.' ∉ key.toList → Bare key.toList →
    key ∈ set.keys → ∃ variation, set.get? key = some variation ∧
      resolve (importName ++ "." ++ key) (before ++ scope :: after) file field =
        .ok variation.value := by
  intro reached
  obtain ⟨variation, held, resolved⟩ := reached "Scene.Hair" "light red" [] [] hairScope hairSet
    ⟨"c"⟩ "defaults.X" (by cbv) (by decide) hair_known (by decide) (by decide)
    (by decide +kernel) (by decide +kernel)
  have own : hairSet.get? "light red" = some ⟨"light red", "rose"⟩ := by decide +kernel
  obtain rfl := Option.some.inj (held.symm.trans own)
  have text : resolve "Scene.Hair.light red" [hairScope] ⟨"c"⟩ "defaults.X" =
      .ok "Scene.Hair.light red" := by cbv
  exact absurd (resolved.symm.trans text) (by decide)

end PromptLoom.ValueRef
