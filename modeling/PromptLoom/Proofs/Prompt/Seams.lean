import PromptLoom.Chunk.Mention
import PromptLoom.Proofs.Text.Braces

/-!
# Placeholders and the seams of bodies

A text in which a closing brace follows every opening one has its placeholders to itself, whatever
is written behind it. A body whose fixed text and whose expansions are all such texts has the
placeholders of these, in whatever order the mentions stand.
-/

namespace PromptLoom

open Text

set_option autoImplicit false

def Text.closesBraces : List Char → Bool
  | [] => true
  | c :: rest => (c != '{' || rest.contains '}') && closesBraces rest

theorem Text.closed_end {text : List Char} (closes : closesBraces text = true) :
    openEnd text = none := by
  induction text with
  | nil => rfl
  | cons c rest ih =>
      obtain ⟨here, later⟩ := Bool.and_eq_true_iff.mp closes
      have noLast : ¬ (c = '{' ∧ rest.any isBrace = false) := by
        rintro ⟨rfl, bare⟩
        have closing : '}' ∈ rest := by simpa using here
        exact List.any_eq_false.mp bare '}' closing rfl
      rw [openEnd, if_neg noLast, ih later]

namespace BodyPart

/-! ### Bodies by their mentions -/

def runs : List BodyPart → List Char × List (BodyPart × List Char)
  | [] => ([], [])
  | .char c :: rest => (c :: (runs rest).1, (runs rest).2)
  | .mention source parsed :: rest => ([], (.mention source parsed, (runs rest).1) :: (runs rest).2)

def fixedText (parts : List BodyPart) : List (List Char) :=
  (runs parts).1 :: (runs parts).2.map Prod.snd

def mentions (parts : List BodyPart) : List BodyPart := (runs parts).2.map Prod.fst

deriving instance DecidableEq for Except, BodyPart

/-- Two bodies differ in the order of their mentions only. -/
structure Reordered (first second : List BodyPart) : Prop where
  fixed : fixedText first = fixedText second
  moved : (mentions first).Perm (mentions second)

instance (first second : List BodyPart) : Decidable (Reordered first second) :=
  decidable_of_iff (fixedText first = fixedText second ∧ (mentions first).Perm (mentions second))
    ⟨fun ⟨fixed, moved⟩ => ⟨fixed, moved⟩, fun same => ⟨same.fixed, same.moved⟩⟩

theorem mention_mem {source : List Char} {parsed : Except MentionError ChunkRef}
    {parts : List BodyPart} :
    .mention source parsed ∈ parts ↔ .mention source parsed ∈ mentions parts := by
  induction parts with
  | nil => rfl
  | cons part rest ih =>
      cases part with
      | char c => simpa [mentions, runs] using ih
      | mention text parse =>
          rw [List.mem_cons, ih]
          simp [mentions, runs]

theorem Reordered.mention_mem {first second : List BodyPart} (same : Reordered first second)
    (source : List Char) (parsed : Except MentionError ChunkRef) :
    .mention source parsed ∈ first ↔ .mention source parsed ∈ second :=
  (BodyPart.mention_mem.trans same.moved.mem_iff).trans BodyPart.mention_mem.symm

section Shown

variable (shown : BodyPart → List Char)

/-- No placeholder of a body crosses an edge between fixed text and an expansion. -/
structure Seamless (parts : List BodyPart) : Prop where
  fixed : ∀ run ∈ fixedText parts, closesBraces run = true
  expanded : ∀ part ∈ mentions parts, closesBraces (shown part) = true

instance (parts : List BodyPart) : Decidable (Seamless shown parts) :=
  decidable_of_iff ((∀ run ∈ fixedText parts, closesBraces run = true) ∧
      ∀ part ∈ mentions parts, closesBraces (shown part) = true)
    ⟨fun ⟨fixed, expanded⟩ => ⟨fixed, expanded⟩,
      fun seamless => ⟨seamless.fixed, seamless.expanded⟩⟩

variable {shown}

theorem Seamless.reordered {first second : List BodyPart} (seamless : Seamless shown first)
    (same : Reordered first second) : Seamless shown second where
  fixed run member := seamless.fixed run (same.fixed ▸ member)
  expanded part member := seamless.expanded part (same.moved.mem_iff.mpr member)

theorem shown_runs (chars : ∀ c, shown (.char c) = [c]) (parts : List BodyPart) :
    parts.flatMap shown =
      (runs parts).1 ++ ((runs parts).2.flatMap fun (part, run) => [shown part, run]).flatten := by
  induction parts with
  | nil => rfl
  | cons part rest ih =>
      cases part with
      | char c => simp [runs, chars, ih]
      | mention source parsed => simp [runs, ih]

/-- The placeholders of a seamless body are those of its fixed text and of its expansions. -/
theorem Seamless.mem_placeholders {parts : List BodyPart} (seamless : Seamless shown parts)
    (chars : ∀ c, shown (.char c) = [c]) (found : Placeholder) :
    found ∈ placeholdersIn (parts.flatMap shown) ↔
      (∃ run ∈ fixedText parts, found ∈ placeholdersIn run) ∨
        ∃ part ∈ mentions parts, found ∈ placeholdersIn (shown part) := by
  obtain ⟨lead, others⟩ := List.forall_mem_cons.mp seamless.fixed
  have expanded := seamless.expanded
  simp only [mentions, List.mem_map] at expanded others
  have closed : ∀ segment ∈ (runs parts).1 ::
      (runs parts).2.flatMap fun (part, run) => [shown part, run], closesBraces segment = true := by
    refine List.forall_mem_cons.mpr ⟨lead, ?_⟩
    intro segment member
    obtain ⟨pair, inside, either⟩ := List.mem_flatMap.mp member
    rcases List.mem_cons.mp either with rfl | behind
    · exact expanded pair.1 ⟨pair, inside, rfl⟩
    · rw [List.mem_singleton.mp behind]
      exact others pair.2 ⟨pair, inside, rfl⟩
  have apart : ∀ segment ∈ ((runs parts).1 ::
      (runs parts).2.flatMap fun (part, run) => [shown part, run]).dropLast,
      openEnd segment = none :=
    fun segment member => closed_end (closed segment (List.dropLast_subset _ member))
  rw [shown_runs chars, ← List.flatten_cons, placeholders_in_flatten, placeholders_apart apart]
  simp only [fixedText, mentions, List.flatMap_cons, List.mem_append, List.mem_flatMap,
    List.mem_cons, List.mem_map]
  constructor
  · rintro (first | ⟨segment, ⟨pair, inside, rfl | rfl | impossible⟩, shows⟩)
    · exact .inl ⟨_, .inl rfl, first⟩
    · exact .inr ⟨pair.1, ⟨pair, inside, rfl⟩, shows⟩
    · exact .inl ⟨pair.2, .inr ⟨pair, inside, rfl⟩, shows⟩
    · cases impossible
  · rintro (⟨run, rfl | ⟨pair, inside, rfl⟩, shows⟩ | ⟨part, ⟨pair, inside, rfl⟩, shows⟩)
    · exact .inl shows
    · exact .inr ⟨pair.2, ⟨pair, inside, .inr (.inl rfl)⟩, shows⟩
    · exact .inr ⟨shown pair.1, ⟨pair, inside, .inl rfl⟩, shows⟩

theorem Seamless.reordered_placeholders {first second : List BodyPart}
    (seamless : Seamless shown first) (same : Reordered first second)
    (chars : ∀ c, shown (.char c) = [c]) (found : Placeholder) :
    found ∈ placeholdersIn (first.flatMap shown) ↔
      found ∈ placeholdersIn (second.flatMap shown) := by
  rw [seamless.mem_placeholders chars, (seamless.reordered same).mem_placeholders chars, same.fixed]
  simp only [same.moved.mem_iff]

end Shown

end BodyPart

end PromptLoom
