import Mathlib.Data.List.Induction
import Mathlib.Data.List.Nodup
import Mathlib.Data.List.Perm.Subperm

/-!
# Lists and tables

Dropping what has appeared before leaves everything once, and drops nothing only where everything
stands once to begin with. A table is a list of keys with their values, where the first entry under
a key counts.
-/

namespace PromptLoom

set_option autoImplicit false

section Repetition

variable {α : Type} [BEq α] [LawfulBEq α]

theorem erase_dups_snoc (names : List α) (name : α) :
    (names ++ [name]).eraseDups =
      if name ∈ names then names.eraseDups else names.eraseDups ++ [name] := by
  rw [List.eraseDups_append]
  by_cases known : name ∈ names
  · have nothing : [name].removeAll names = [] := by simp [List.removeAll, known]
    rw [if_pos known, nothing, List.eraseDups_nil, List.append_nil]
  · have single : [name].removeAll names = [name] := by simp [List.removeAll, known]
    rw [if_neg known, single]
    rfl

theorem erase_dups_nodup (names : List α) : names.eraseDups.Nodup := by
  induction names using List.reverseRecOn with
  | nil => exact List.nodup_nil
  | append_singleton names name ih =>
      rw [erase_dups_snoc]
      split
      · exact ih
      · next fresh =>
          refine List.nodup_append.mpr ⟨ih, List.nodup_singleton name, ?_⟩
          rintro other member last single rfl
          rw [List.mem_singleton.mp single, List.mem_eraseDups] at member
          exact fresh member

theorem nodup_of_erase_dups_length {names : List α}
    (kept : names.eraseDups.length = names.length) : names.Nodup := by
  have within : names.eraseDups.Subperm names :=
    (erase_dups_nodup names).subperm fun name member => List.mem_eraseDups.mp member
  exact (within.perm_of_length_le (Nat.le_of_eq kept.symm)).nodup_iff.mp (erase_dups_nodup names)

end Repetition

theorem mem_head {α : Type} {item : α} {items : List α} (member : item ∈ items) :
    ∃ first ∈ items, items.head? = some first := by
  obtain ⟨first, rest, rfl⟩ := List.exists_cons_of_ne_nil (List.ne_nil_of_mem member)
  exact ⟨first, List.mem_cons_self, List.head?_cons⟩

theorem find_some_pair {α β : Type} (f : α → Option β) (first second : α) :
    [first, second].findSome? f = (f first).or (f second) := by
  rw [List.findSome?_cons, List.findSome?_singleton]
  cases f first <;> rfl

/-- What every entry adds after those before it, summed up, grows at the end of the list. -/
theorem zip_idx_snoc {α β : Type} (adds : List α → α → List β) (items : List α) (last : α) :
    ((items ++ [last]).zipIdx.flatMap fun (item, place) =>
        adds ((items ++ [last]).take place) item) =
      (items.zipIdx.flatMap fun (item, place) => adds (items.take place) item) ++
        adds items last := by
  rw [List.zipIdx_append, List.flatMap_append]
  congr 1
  · apply List.flatMap_congr
    rintro ⟨item, place⟩ member
    have bound : place < items.length := by
      simpa using (List.mem_zipIdx member).2.1
    simp only [List.take_append_of_le_length (Nat.le_of_lt bound)]
  · simp

/-! ### Tables -/

section Tables

variable {κ α : Type} [DecidableEq κ]

theorem lookup_entry (key other : κ) (value : α) (entries : List (κ × α)) :
    ((key, value) :: entries).lookup other =
      if other = key then some value else entries.lookup other := by
  rw [List.lookup_cons]
  by_cases same : other = key
  · simp [same]
  · simp [same, beq_eq_false_iff_ne.mpr same]

theorem not_mem_of_lookup {key : κ} {entries : List (κ × α)}
    (unknown : entries.lookup key = none) : key ∉ entries.map Prod.fst := by
  intro member
  obtain ⟨entry, inside, rfl⟩ := List.mem_map.mp member
  exact bne_iff_ne.mp (List.lookup_eq_none_iff.mp unknown entry inside) rfl

theorem lookup_entry_holds {holds : κ → α → Prop} {key : κ} {value : α} {entries : List (κ × α)}
    (before : ∀ other found, entries.lookup other = some found → holds other found)
    (new : holds key value) :
    ∀ other found, ((key, value) :: entries).lookup other = some found → holds other found := by
  intro other found known
  rw [lookup_entry] at known
  split at known
  · next same =>
      rw [same, ← Option.some.inj known]
      exact new
  · exact before other found known

end Tables

end PromptLoom
