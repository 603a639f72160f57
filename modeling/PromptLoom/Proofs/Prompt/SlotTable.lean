import Mathlib.Data.List.Induction
import Mathlib.Data.List.Nodup
import PromptLoom.Prompt.Slots
import PromptLoom.Proofs.Lists
import PromptLoom.Proofs.Selection.Drawing

/-!
# What a slot table says about the occurrences

A table that has seen some occurrences lists their names in the order of first appearance, without
the reserved ones, and under each name the first selector that is written. Every occurrence keeps
this true, whether it brings a new name, a selector for a name that had none, nothing new, or another
selector and so an error.
-/

namespace PromptLoom

set_option autoImplicit false

namespace SlotTable

/-- The names that occurrences need slots for, in the order of first appearance. -/
def slotNames (occurrences : List Placeholder) : List String :=
  ((occurrences.map Placeholder.name).filter fun name => !Placeholder.isReserved name).eraseDups

theorem mem_slot_names {occurrences : List Placeholder} {name : String} :
    name ∈ slotNames occurrences ↔
      (∃ occurrence ∈ occurrences, occurrence.name = name) ∧
        Placeholder.isReserved name = false := by
  simp only [slotNames, List.mem_eraseDups, List.mem_filter, List.mem_map, Bool.not_eq_true']

theorem slot_names_append (occurrences more : List Placeholder) :
    slotNames occurrences <+: slotNames (occurrences ++ more) := by
  rw [slotNames, slotNames, List.map_append, List.filter_append, List.eraseDups_append]
  exact List.prefix_append ..

theorem slot_names_reserved (occurrences : List Placeholder) {found : Placeholder}
    (reserved : Placeholder.isReserved found.name = true) :
    slotNames (occurrences ++ [found]) = slotNames occurrences := by
  simp [slotNames, reserved]

theorem slot_names_snoc (occurrences : List Placeholder) {found : Placeholder}
    (free : Placeholder.isReserved found.name = false) :
    slotNames (occurrences ++ [found]) =
      if found.name ∈ slotNames occurrences then slotNames occurrences
      else slotNames occurrences ++ [found.name] := by
  have last : (([found].map Placeholder.name).filter fun name =>
      !Placeholder.isReserved name) = [found.name] := by
    simp [free]
  rw [slotNames, List.map_append, List.filter_append, last, erase_dups_snoc]
  simp only [slotNames, List.mem_eraseDups]

theorem slot_names_once (occurrences : List Placeholder) : (slotNames occurrences).Nodup :=
  erase_dups_nodup _

theorem modify_taken {table : SlotTable} {index : Nat} {entry : SlotEntry}
    {selector : Option String} {text : String} (placed : table[index]? = some entry)
    (taken : entry.selector = some text) : table.modify index (adopt selector) = table := by
  have kept : adopt selector entry = entry := by
    obtain ⟨name, own, field⟩ := entry
    obtain rfl : own = some text := taken
    rfl
  apply List.ext_getElem?
  intro place
  rw [List.getElem?_modify]
  by_cases here : index = place
  · rw [← here, placed]
    exact congrArg some (by simp only [if_true, kept])
  · simp only [if_neg here]
    exact Option.map_id'

theorem map_name_modify (table : SlotTable) (index : Nat) (selector : Option String) :
    (table.modify index (adopt selector)).map SlotEntry.name = table.map SlotEntry.name := by
  apply List.ext_getElem?
  intro place
  rw [List.getElem?_map, List.getElem?_map, List.getElem?_modify]
  cases table[place]? with
  | none => rfl
  | some entry =>
      by_cases here : index = place
      · simp [here, adopt]
      · simp [here]

/-- What a registration did: a new entry at the end, or a known one that may have taken over the
selector. -/
theorem register_cases {table next : SlotTable} {found : Placeholder} {field : String}
    {index : Nat} (done : table.register found field = .ok (index, next)) :
    (index = table.length ∧ found.name ∉ table.map SlotEntry.name ∧
        next = table ++ [⟨found.name, written found.selector, field⟩]) ∨
      ∃ entry, table[index]? = some entry ∧ entry.name = found.name ∧
        next = table.modify index (adopt (written found.selector)) ∧
        ∀ first second, entry.selector = some first → written found.selector = some second →
          first = second := by
  unfold register at done
  rcases sought : table.findIdx? fun entry => entry.name == found.name with _ | place
  · simp only [sought, Except.ok.injEq, Prod.mk.injEq] at done
    obtain ⟨rfl, rfl⟩ := done
    refine .inl ⟨rfl, ?_, rfl⟩
    rw [List.findIdx?_eq_none_iff] at sought
    intro member
    obtain ⟨entry, inside, same⟩ := List.mem_map.mp member
    exact absurd (sought entry inside) (by simp [same])
  · obtain ⟨inside, same, _⟩ := List.findIdx?_eq_some_iff_getElem.mp sought
    have placed : table[place]? = some table[place] := List.getElem?_eq_getElem inside
    simp only [sought, placed, Option.bind_some] at done
    rcases first : table[place].selector with _ | first
    · simp only [first, Except.ok.injEq, Prod.mk.injEq] at done
      obtain ⟨rfl, rfl⟩ := done
      exact .inr ⟨_, placed, beq_iff_eq.mp same, rfl, fun _ _ bare => by simp [first] at bare⟩
    · rcases second : written found.selector with _ | second
      · simp only [first, second, Except.ok.injEq, Prod.mk.injEq] at done
        obtain ⟨rfl, rfl⟩ := done
        exact .inr ⟨_, placed, beq_iff_eq.mp same, rfl, fun _ _ _ bare => nomatch bare⟩
      · -- both are written, and only equal ones pass
        simp only [first, second] at done
        split at done
        · next equal =>
            simp only [Except.ok.injEq, Prod.mk.injEq] at done
            obtain ⟨rfl, rfl⟩ := done
            refine .inr ⟨_, placed, beq_iff_eq.mp same, ?_, ?_⟩
            · exact (modify_taken placed first).symm
            · intro one other oneWritten otherWritten
              rw [first] at oneWritten
              rw [← Option.some.inj oneWritten, ← Option.some.inj otherWritten, equal]
        · exact nomatch done

theorem register_refused {table : SlotTable} {found : Placeholder} {field : String} {cause : Cause}
    (failed : table.register found field = .error cause) :
    ∃ entry ∈ table, ∃ first second, entry.name = found.name ∧ entry.selector = some first ∧
      written found.selector = some second ∧ first ≠ second ∧
      cause = .conflictingSelectors found.name first second := by
  unfold register at failed
  rcases sought : table.findIdx? fun entry => entry.name == found.name with _ | place
  · simp only [sought] at failed
    cases failed
  · obtain ⟨inside, same, _⟩ := List.findIdx?_eq_some_iff_getElem.mp sought
    have placed : table[place]? = some table[place] := List.getElem?_eq_getElem inside
    simp only [sought, placed, Option.bind_some] at failed
    split at failed
    · next first second own wrote =>
        split at failed
        · cases failed
        · next differ =>
            exact ⟨_, List.getElem_mem inside, first, second, beq_iff_eq.mp same, own, wrote,
              differ, (Except.error.inj failed).symm⟩
    · cases failed

/-! ### The selectors written under a name -/

def texts (name : String) (occurrences : List Placeholder) : List String :=
  occurrences.filterMap fun found => if found.name = name then written found.selector else none

theorem mem_texts {name text : String} {occurrences : List Placeholder} :
    text ∈ texts name occurrences ↔
      ∃ found ∈ occurrences, found.name = name ∧ written found.selector = some text := by
  simp [texts, List.mem_filterMap]

theorem texts_own (occurrences : List Placeholder) (found : Placeholder) :
    texts found.name (occurrences ++ [found]) =
      texts found.name occurrences ++ (written found.selector).toList := by
  rcases wrote : written found.selector with _ | text
  · simp [texts, wrote]
  · simp [texts, wrote]

theorem texts_other {name : String} {found : Placeholder} (other : found.name ≠ name)
    (occurrences : List Placeholder) :
    texts name (occurrences ++ [found]) = texts name occurrences := by
  simp [texts, other]

theorem head_texts_own (occurrences : List Placeholder) (found : Placeholder) :
    (texts found.name (occurrences ++ [found])).head? =
      (texts found.name occurrences).head?.or (written found.selector) := by
  rw [texts_own, List.head?_append]
  cases written found.selector with
  | none => rfl
  | some text => rfl

/-- What is written under one name is the same selector everywhere. -/
def Consistent (occurrences : List Placeholder) : Prop :=
  ∀ first ∈ occurrences, ∀ second ∈ occurrences,
    Placeholder.isReserved first.name = false → first.name = second.name →
    ∀ one other, written first.selector = some one → written second.selector = some other →
      one = other

theorem consistent_iff {occurrences : List Placeholder} :
    Consistent occurrences ↔ ∀ name, Placeholder.isReserved name = false →
      ∀ one ∈ texts name occurrences, ∀ other ∈ texts name occurrences, one = other := by
  constructor
  · intro consistent name free one oneMember other otherMember
    obtain ⟨first, firstMember, rfl, wrote⟩ := mem_texts.mp oneMember
    obtain ⟨second, secondMember, same, otherWrote⟩ := mem_texts.mp otherMember
    exact consistent first firstMember second secondMember free same.symm one other wrote otherWrote
  · intro equal first firstMember second secondMember free same one other wrote otherWrote
    exact equal first.name free one (mem_texts.mpr ⟨first, firstMember, rfl, wrote⟩) other
      (mem_texts.mpr ⟨second, secondMember, same.symm, otherWrote⟩)

/-! ### What a table knows -/

/-- What a table knows after some occurrences, also if some of them conflict: the names, and the first
selector under each. -/
structure Notes (table : SlotTable) (occurrences : List Placeholder) : Prop where
  names : table.map SlotEntry.name = slotNames occurrences
  taken : ∀ entry ∈ table, entry.selector = (texts entry.name occurrences).head?

theorem Notes.nothing : Notes [] [] where
  names := rfl
  taken _ member := nomatch member

section Occurrence

variable {table next : SlotTable} {occurrences : List Placeholder} {found : Placeholder}
  {field : String} {index : Nat} {cause : Cause} (known : table.Notes occurrences)

include known

theorem Notes.reserved (reserved : Placeholder.isReserved found.name = true) :
    table.Notes (occurrences ++ [found]) where
  names := by rw [known.names, slot_names_reserved occurrences reserved]
  taken := by
    intro entry member
    have listed : entry.name ∈ slotNames occurrences := by
      rw [← known.names]
      exact List.mem_map_of_mem member
    have other : found.name ≠ entry.name := by
      intro same
      have free := (mem_slot_names.mp listed).2
      rw [← same, reserved] at free
      exact nomatch free
    rw [known.taken entry member, texts_other other]

theorem Notes.extended (free : Placeholder.isReserved found.name = false)
    (fresh : found.name ∉ slotNames occurrences) (field : String) :
    Notes (table ++ [⟨found.name, written found.selector, field⟩]) (occurrences ++ [found]) where
  names := by
    rw [slot_names_snoc occurrences free, if_neg fresh, List.map_append, known.names]
    rfl
  taken := by
    intro entry member
    rcases List.mem_append.mp member with old | new
    · have other : found.name ≠ entry.name := by
        intro same
        rw [same, ← known.names] at fresh
        exact fresh (List.mem_map_of_mem old)
      rw [known.taken entry old, texts_other other]
    · obtain rfl := List.mem_singleton.mp new
      have unseen : texts found.name occurrences = [] := by
        rw [List.eq_nil_iff_forall_not_mem]
        intro text member
        obtain ⟨earlier, seen, same, -⟩ := mem_texts.mp member
        exact fresh (mem_slot_names.mpr ⟨⟨earlier, seen, same⟩, free⟩)
      rw [head_texts_own, unseen]
      rfl

theorem Notes.place_unique {place : Nat} {entry other : SlotEntry}
    (placed : table[index]? = some entry) (stood : table[place]? = some other)
    (same : entry.name = other.name) : index = place := by
  have once := slot_names_once occurrences
  rw [← known.names] at once
  have shared : (table.map SlotEntry.name)[index]? = (table.map SlotEntry.name)[place]? := by
    rw [List.getElem?_map, List.getElem?_map, placed, stood]
    exact congrArg some same
  have bound : index < (table.map SlotEntry.name).length := by
    rw [List.length_map]
    exact (List.getElem?_eq_some_iff.mp placed).1
  exact (List.getElem?_inj bound once).mp shared

theorem Notes.listed {entry : SlotEntry} (member : entry ∈ table) :
    entry.name ∈ slotNames occurrences := by
  rw [← known.names]
  exact List.mem_map_of_mem member

theorem Notes.adopted (free : Placeholder.isReserved found.name = false) {entry : SlotEntry}
    (placed : table[index]? = some entry) (same : entry.name = found.name) :
    Notes (table.modify index (adopt (written found.selector))) (occurrences ++ [found]) where
  names := by
    have listed : found.name ∈ slotNames occurrences :=
      same ▸ known.listed (List.mem_of_getElem? placed)
    rw [slot_names_snoc occurrences free, if_pos listed, map_name_modify, known.names]
  taken := by
    intro changed member
    obtain ⟨place, changedAt⟩ := List.mem_iff_getElem?.mp member
    rw [List.getElem?_modify] at changedAt
    obtain ⟨before, stood, rfl⟩ := Option.map_eq_some_iff.mp changedAt
    have had := known.taken before (List.mem_of_getElem? stood)
    by_cases here : index = place
    · obtain rfl : entry = before := Option.some.inj (placed.symm.trans (here ▸ stood))
      simp only [if_pos here, adopt]
      rw [had, same, head_texts_own]
    · have other : found.name ≠ before.name := fun equal =>
        here (known.place_unique placed stood (same.trans equal))
      simp only [if_neg here]
      exact had.trans (congrArg List.head? (texts_other other occurrences)).symm

/-- An occurrence that is registered agrees with the first selector, and its number stands for its
name. -/
theorem Notes.registered (free : Placeholder.isReserved found.name = false)
    (done : table.register found field = .ok (index, next)) :
    next.Notes (occurrences ++ [found]) ∧
      (slotNames (occurrences ++ [found]))[index]? = some found.name ∧
      ∀ first second, (texts found.name occurrences).head? = some first →
        written found.selector = some second → first = second := by
  rcases register_cases done with ⟨rfl, fresh, rfl⟩ | ⟨entry, placed, same, rfl, agree⟩
  · rw [known.names] at fresh
    have follows := known.extended free fresh field
    refine ⟨follows, ?_, ?_⟩
    · rw [← follows.names, List.getElem?_map, List.getElem?_concat_length]
      rfl
    · intro first second head
      obtain ⟨earlier, seen, same, -⟩ := mem_texts.mp (List.mem_of_head? head)
      cases fresh (mem_slot_names.mpr ⟨⟨earlier, seen, same⟩, free⟩)
  · have follows := known.adopted free placed same
    refine ⟨follows, ?_, ?_⟩
    · rw [← follows.names, map_name_modify, List.getElem?_map, placed, ← same]
      rfl
    · intro first second head
      rw [← same, ← known.taken entry (List.mem_of_getElem? placed)] at head
      exact agree first second head

theorem Notes.refused (free : Placeholder.isReserved found.name = false)
    (failed : table.register found field = .error cause) :
    table.Notes (occurrences ++ [found]) := by
  obtain ⟨entry, member, first, second, same, own, -⟩ := register_refused failed
  obtain ⟨place, placed⟩ := List.mem_iff_getElem?.mp member
  have follows := known.adopted free placed same
  rwa [modify_taken placed own] at follows

end Occurrence

/-- What a table knows after some occurrences none of which conflicts. -/
structure Describes (table : SlotTable) (occurrences : List Placeholder) : Prop where
  names : table.map SlotEntry.name = slotNames occurrences
  selectors : ∀ entry ∈ table, ∀ text, entry.selector = some text ↔
    ∃ occurrence ∈ occurrences, occurrence.name = entry.name ∧
      written occurrence.selector = some text

theorem Describes.nothing : Describes [] [] where
  names := rfl
  selectors _ member := nomatch member

theorem describes_iff {table : SlotTable} {occurrences : List Placeholder} :
    table.Describes occurrences ↔ table.Notes occurrences ∧ Consistent occurrences := by
  rw [consistent_iff]
  constructor
  · rintro ⟨names, selectors⟩
    simp only [← mem_texts] at selectors
    refine ⟨⟨names, ?_⟩, ?_⟩
    · intro entry member
      apply Option.ext
      intro text
      constructor
      · intro own
        obtain ⟨first, listed, head⟩ := mem_head ((selectors entry member text).mp own)
        rw [head, ← own]
        exact ((selectors entry member first).mpr listed).symm
      · intro head
        exact (selectors entry member text).mpr (List.mem_of_head? head)
    · intro name free one oneMember other otherMember
      obtain ⟨found, seen, same, -⟩ := mem_texts.mp oneMember
      have listed : name ∈ table.map SlotEntry.name := by
        rw [names]
        exact mem_slot_names.mpr ⟨⟨found, seen, same⟩, free⟩
      obtain ⟨entry, member, rfl⟩ := List.mem_map.mp listed
      have own := (selectors entry member one).mpr oneMember
      exact Option.some.inj (own.symm.trans ((selectors entry member other).mpr otherMember))
  · rintro ⟨known, equal⟩
    refine ⟨known.names, ?_⟩
    intro entry member text
    rw [← mem_texts, known.taken entry member]
    have free := (mem_slot_names.mp (known.listed member)).2
    constructor
    · exact List.mem_of_head?
    · intro listed
      obtain ⟨first, among, head⟩ := mem_head listed
      rw [equal entry.name free text listed first among, head]

/-- A slot holds what its selector takes from the set under its name, and that is something. -/
def Fills (scope : Scope) (values : Nat → Nat) (entry : SlotEntry) (slot : Slot) : Prop :=
  slot.name = entry.name ∧ slot.pool ≠ [] ∧
    ∃ set, scope.get? entry.name = some set ∧
      Selector.parse (entry.selector.getD "") = .ok slot.selector ∧
      ∃ draws : Draws, draws.values = values ∧ slot.pool = (slot.selector.select set draws).1

theorem slot_of_fills {scope : Scope} {entry : SlotEntry} {draws later : Draws} {slot : Slot}
    (made : slotOf scope entry draws = (.ok slot, later)) :
    Fills scope draws.values entry slot := by
  unfold slotOf at made
  rcases found : scope.get? entry.name with _ | set
  · simp [found] at made
  · rcases parsed : Selector.parse (entry.selector.getD "") with problem | selector
    · simp [found, parsed] at made
    · simp only [found, parsed] at made
      split at made
      · next taken =>
          obtain ⟨equal, -⟩ := Prod.mk.inj made
          obtain rfl := Except.ok.inj equal
          refine ⟨rfl, ?_, set, found, parsed, draws, rfl, rfl⟩
          intro nothing
          simp only at nothing
          rw [nothing] at taken
          exact absurd taken (by decide)
      · next nothing =>
          split at made
          · simp at made
          · simp at made

theorem slot_of_values (scope : Scope) (entry : SlotEntry) (draws : Draws) :
    (slotOf scope entry draws).2.values = draws.values := by
  rcases found : scope.get? entry.name with _ | set
  · simp only [slotOf, found]
  · rcases parsed : Selector.parse (entry.selector.getD "") with problem | selector
    · simp only [slotOf, found, parsed]
    · have same := selector.select_values set draws
      simp only [slotOf, found, parsed]
      split
      · exact same
      · split
        · exact same
        · exact same

theorem slots_fill {file : Path} {scope : Scope} {table : SlotTable} {draws : Draws}
    (clean : (table.slots file scope draws).2.1 = []) :
    List.Forall₂ (Fills scope draws.values) table (table.slots file scope draws).1 := by
  induction table generalizing draws with
  | nil => exact .nil
  | cons entry rest ih =>
      have same := slot_of_values scope entry draws
      rcases first : slotOf scope entry draws with ⟨cause | slot, later⟩
      · simp [slots, first] at clean
      · rw [first] at same
        simp only [slots, first] at clean ⊢
        have others := ih clean
        rw [show later.values = draws.values from same] at others
        exact .cons (slot_of_fills first) others

theorem filled_names {scope : Scope} {values : Nat → Nat} {table : SlotTable} {slots : List Slot}
    (filled : List.Forall₂ (Fills scope values) table slots) :
    slots.map Slot.name = table.map SlotEntry.name := by
  induction filled with
  | nil => rfl
  | cons fills _ ih => rw [List.map_cons, List.map_cons, ih, fills.1]

theorem filled_from {scope : Scope} {values : Nat → Nat} {table : SlotTable} {slots : List Slot}
    (filled : List.Forall₂ (Fills scope values) table slots) {slot : Slot} (member : slot ∈ slots) :
    ∃ entry ∈ table, Fills scope values entry slot := by
  induction filled with
  | nil => exact nomatch member
  | @cons entry first _ _ fills _ ih =>
      rcases List.mem_cons.mp member with rfl | later
      · exact ⟨entry, List.mem_cons_self, fills⟩
      · obtain ⟨other, inside, fillsOther⟩ := ih later
        exact ⟨other, List.mem_cons_of_mem entry inside, fillsOther⟩

end SlotTable

end PromptLoom
