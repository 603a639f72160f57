import PromptLoom.NameMap
import PromptLoom.Proofs.Lists

/-!
# Look-ups in maps from names

Maps that were built by insertions hold their names in strictly ascending order, so every name
stands in them once. Then merging lets the second map win, name by name.
-/

namespace PromptLoom.NameMap

set_option autoImplicit false

variable {α β : Type}

theorem lookup_insert_entry (name other : String) (value : α) (entries : List (String × α)) :
    (insertEntry name value entries).lookup other =
      if other = name then some value else entries.lookup other := by
  induction entries with
  | nil => exact lookup_entry name other value []
  | cons entry rest ih =>
      obtain ⟨key, kept⟩ := entry
      unfold insertEntry
      split
      · next equal =>
          subst equal
          rw [lookup_entry, lookup_entry]
          by_cases same : other = name
          · simp [same]
          · simp [same]
      · next differ =>
          split
          · exact lookup_entry name other value _
          · rw [lookup_entry, lookup_entry, ih]
            by_cases atKey : other = key
            · simp [atKey, Ne.symm differ]
            · simp [atKey]

theorem get?_insert (map : NameMap α) (name other : String) (value : α) :
    (map.insert name value).get? other = if other = name then some value else map.get? other :=
  lookup_insert_entry name other value map.entries

/-- Every name stands before all the greater ones, and once. -/
def Ordered (map : NameMap α) : Prop := map.entries.Pairwise fun entry later => entry.1 < later.1

theorem empty_ordered : (empty : NameMap α).Ordered := .nil

theorem mem_insert_entry {name : String} {value : α} {entry : String × α}
    {entries : List (String × α)} (member : entry ∈ insertEntry name value entries) :
    entry = (name, value) ∨ entry ∈ entries := by
  induction entries with
  | nil => simpa [insertEntry] using member
  | cons first rest ih =>
      obtain ⟨other, kept⟩ := first
      unfold insertEntry at member
      split at member
      · rcases List.mem_cons.mp member with new | old
        · exact .inl new
        · exact .inr (List.mem_cons_of_mem _ old)
      · split at member
        · exact List.mem_cons.mp member
        · rcases List.mem_cons.mp member with head | tail
          · exact .inr (head ▸ List.mem_cons_self ..)
          · exact (ih tail).imp_right (List.mem_cons_of_mem _)

theorem insert_ordered {map : NameMap α} (ordered : map.Ordered) (name : String) (value : α) :
    (map.insert name value).Ordered := by
  obtain ⟨entries⟩ := map
  change (insertEntry name value entries).Pairwise _
  induction entries with
  | nil => exact List.pairwise_singleton ..
  | cons first rest ih =>
      obtain ⟨other, kept⟩ := first
      obtain ⟨below, later⟩ := List.pairwise_cons.mp ordered
      unfold insertEntry
      split
      · next same =>
          subst same
          exact List.pairwise_cons.mpr ⟨below, later⟩
      · next differ =>
          split
          · next before =>
              refine List.pairwise_cons.mpr ⟨fun entry member => ?_, ordered⟩
              rcases List.mem_cons.mp member with rfl | further
              · exact before
              · exact String.lt_trans before (below entry further)
          · next notBefore =>
              have after : other < name := by
                apply Decidable.byContradiction
                intro notAfter
                exact differ (String.le_antisymm (String.not_lt.mp notAfter)
                  (String.not_lt.mp notBefore))
              refine List.pairwise_cons.mpr ⟨fun entry member => ?_, ih later⟩
              rcases mem_insert_entry member with rfl | further
              · exact after
              · exact below entry further

theorem of_list_ordered (entries : List (String × α)) : (ofList entries).Ordered := by
  have start : (empty : NameMap α).Ordered := empty_ordered
  unfold ofList
  generalize (empty : NameMap α) = map at start
  induction entries generalizing map with
  | nil => exact start
  | cons entry rest ih => exact ih _ (insert_ordered start entry.1 entry.2)

theorem mem_of_get? {map : NameMap α} {name : String} {value : α}
    (found : map.get? name = some value) : (name, value) ∈ map.entries := by
  obtain ⟨before, after, whole, _⟩ := List.lookup_eq_some_iff.mp found
  rw [whole]
  simp

theorem get?_map_values (f : α → β) (map : NameMap α) (name : String) :
    (map.mapValues f).get? name = (map.get? name).map f := by
  obtain ⟨entries⟩ := map
  simp only [get?, mapValues]
  induction entries with
  | nil => rfl
  | cons entry rest ih =>
      rw [List.map_cons, lookup_entry, lookup_entry, ih]
      split <;> rfl

theorem map_values_ordered (f : α → β) {map : NameMap α} (ordered : map.Ordered) :
    (map.mapValues f).Ordered :=
  List.Pairwise.map _ (fun _ _ before => before) ordered

/-- In an ordered map no entry hides another of its name. -/
theorem get?_of_mem {map : NameMap α} (ordered : map.Ordered) {name : String} {value : α}
    (member : (name, value) ∈ map.entries) : map.get? name = some value := by
  obtain ⟨entries⟩ := map
  simp only [get?]
  induction entries with
  | nil => cases member
  | cons entry rest ih =>
      obtain ⟨below, later⟩ := List.pairwise_cons.mp ordered
      rw [lookup_entry]
      rcases List.mem_cons.mp member with rfl | further
      · simp
      · have differ : name ≠ entry.1 := by
          intro same
          exact String.lt_irrefl _ (same ▸ below (name, value) further)
        rw [if_neg differ]
        exact ih later further

theorem get?_merge (first : NameMap α) {second : NameMap α} (ordered : second.Ordered)
    (name : String) : (first.merge second).get? name = (second.get? name).or (first.get? name) := by
  obtain ⟨entries⟩ := second
  simp only [merge]
  induction entries generalizing first with
  | nil => rfl
  | cons entry rest ih =>
      obtain ⟨key, value⟩ := entry
      obtain ⟨below, later⟩ := List.pairwise_cons.mp ordered
      rw [List.foldl_cons, ih _ later, get?_insert]
      simp only [get?, lookup_entry]
      split
      · next same =>
          subst same
          have once : rest.lookup name = none := by
            refine List.lookup_eq_none_iff.mpr fun other member => ?_
            have differ : name ≠ other.1 := by
              intro same
              exact String.lt_irrefl _ (same ▸ below other member)
            exact bne_iff_ne.mpr differ
          rw [once]
          rfl
      · rfl

theorem merge_ordered {first : NameMap α} (ordered : first.Ordered) (second : NameMap α) :
    (first.merge second).Ordered := by
  obtain ⟨entries⟩ := second
  simp only [merge]
  induction entries generalizing first with
  | nil => exact ordered
  | cons entry rest ih => exact ih (insert_ordered ordered entry.1 entry.2)

theorem mem_merge {first second : NameMap α} {entry : String × α}
    (member : entry ∈ (first.merge second).entries) :
    entry ∈ first.entries ∨ entry ∈ second.entries := by
  obtain ⟨entries⟩ := second
  simp only [merge] at member ⊢
  induction entries generalizing first with
  | nil => exact .inl member
  | cons next rest ih =>
      rcases ih member with earlier | later
      · rcases mem_insert_entry earlier with rfl | kept
        · exact .inr (List.mem_cons_self ..)
        · exact .inl kept
      · exact .inr (List.mem_cons_of_mem _ later)

theorem contains_eq_true_iff {map : NameMap α} {name : String} :
    map.contains name = true ↔ ∃ value, map.get? name = some value := by
  rw [contains, Option.isSome_iff_exists]

theorem contains_of_mem {map : NameMap α} {entry : String × α} (member : entry ∈ map.entries) :
    map.contains entry.1 = true := by
  rw [contains_eq_true_iff]
  rcases found : map.get? entry.1 with _ | value
  · exact absurd (List.lookup_eq_none_iff.mp found entry member) (by simp)
  · exact ⟨value, rfl⟩

theorem contains_of_name {map : NameMap α} {name : String} (listed : name ∈ map.names) :
    map.contains name = true := by
  obtain ⟨entry, member, rfl⟩ := List.mem_map.mp listed
  exact contains_of_mem member

theorem contains_insert {map : NameMap α} {name other : String} {value : α} :
    (map.insert name value).contains other = true ↔ other = name ∨ map.contains other = true := by
  unfold contains
  rw [get?_insert]
  split
  · next same => simp [same]
  · next differ => simp [differ]

theorem contains_merge {first second : NameMap α} {name : String}
    (known : first.contains name = true ∨ second.contains name = true) :
    (first.merge second).contains name = true := by
  obtain ⟨entries⟩ := second
  simp only [merge]
  induction entries generalizing first with
  | nil => exact known.resolve_right (by simp [contains, get?])
  | cons entry rest ih =>
      obtain ⟨key, value⟩ := entry
      rw [List.foldl_cons]
      apply ih
      rcases known with earlier | listed
      · exact .inl (contains_insert.mpr (.inr earlier))
      · simp only [contains, get?, lookup_entry] at listed
        split at listed
        · next same => exact .inl (contains_insert.mpr (.inl same))
        · exact .inr listed

theorem mem_names_of_get? {map : NameMap α} {name : String} {value : α}
    (found : map.get? name = some value) : name ∈ map.names :=
  List.mem_map_of_mem (mem_of_get? found)

end PromptLoom.NameMap
