import PromptLoom.Proofs.Documents
import PromptLoom.Proofs.Reading
import PromptLoom.Proofs.Scope.Agreement
import PromptLoom.Proofs.VariationSets

/-!
# What a list import registers

A list of literal texts and documents is merged in the order written. As long as no two documents
share a key and no document holds a key that an earlier literal may have been given, every source
adds a block of its own to the set: a literal one variation, a document all of its variations.
-/

namespace PromptLoom

open Workspace

set_option autoImplicit false

inductive ListSource where
  | literal (text : String)
  | document (set : VariationSet)
  deriving DecidableEq

namespace ListSource

/-- The source that an entry of a list stands for, if it is a literal or its document loads as a
variation set. -/
def of? (workspace : Workspace) (origin : Path) (field entry : String) : Option ListSource :=
  match ImportEntry.classify entry with
  | .literal text => some (.literal text)
  | .document reference => do
      let document ← (workspace.target reference origin field).toOption
      let config ← document.read.toOption
      let .variations set := config | none
      some (.document set)

theorem of_entry {workspace : Workspace} {origin : Path} {field entry : String}
    {source : ListSource} (supplied : of? workspace origin field entry = some source) :
    (∃ text, ImportEntry.classify entry = .literal text ∧ source = literal text) ∨
      ∃ reference document set, ImportEntry.classify entry = .document reference ∧
        workspace.target reference origin field = .ok document ∧
        document.read = .ok (.variations set) ∧ source = ListSource.document set := by
  unfold of? at supplied
  cases classified : ImportEntry.classify entry with
  | literal text =>
      rw [classified] at supplied
      exact .inl ⟨text, rfl, (Option.some.inj supplied).symm⟩
  | document reference =>
      rw [classified] at supplied
      rcases leads : workspace.target reference origin field with _ | document
      · simp [leads, Except.toOption] at supplied
      rcases read : document.read with _ | config
      · simp [leads, read, Except.toOption] at supplied
      cases config with
      | template | prompt | chunk => simp [leads, read, Except.toOption] at supplied
      | variations set =>
          simp only [leads, read, Except.toOption, Option.bind_eq_bind, Option.bind_some,
            Option.some.injEq] at supplied
          exact .inr ⟨reference, document, set, rfl, leads, read, supplied.symm⟩

/-- The keys that a source brings along. A literal brings none. -/
def documentKeys : ListSource → List String
  | literal _ => []
  | document set => set.keys

def values : ListSource → List String
  | literal text => [text]
  | document set => set.entries.map Variation.value

/-- A source gives a block of variations: a literal one under a key made for its text, a document
its variations under their own keys. -/
inductive Gives : ListSource → List Variation → Prop where
  | literal (text : String) (tries : Nat) :
      Gives (.literal text) [⟨VariationSet.candidateKey (VariationSet.literalKey text) tries, text⟩]
  | document (set : VariationSet) : Gives (.document set) set.entries

/-- A key may be the one that a source is given for its literal. -/
def MayTake (source : ListSource) (key : String) : Prop :=
  ∃ text tries, source = literal text ∧
    key = VariationSet.candidateKey (VariationSet.literalKey text) tries

theorem Gives.key_known {source : ListSource} {block : List Variation} {key : String}
    (gives : source.Gives block) (member : key ∈ block.map Variation.key) :
    key ∈ source.documentKeys ∨ source.MayTake key := by
  cases gives with
  | literal text tries => exact .inr ⟨text, tries, rfl, List.mem_singleton.mp member⟩
  | document set => exact .inl member

theorem Gives.block_values {source : ListSource} {block : List Variation}
    (gives : source.Gives block) : block.map Variation.value = source.values := by
  cases gives with
  | literal text tries => rfl
  | document set => rfl

theorem blocks_values {sources : List ListSource} {blocks : List (List Variation)}
    (given : List.Forall₂ Gives sources blocks) :
    blocks.flatten.map Variation.value = sources.flatMap values := by
  induction given with
  | nil => rfl
  | cons gives _ ih =>
      rw [List.flatten_cons, List.map_append, List.flatMap_cons, gives.block_values, ih]

theorem blocks_keys_known {sources : List ListSource} {blocks : List (List Variation)}
    {key : String} (given : List.Forall₂ Gives sources blocks)
    (member : key ∈ blocks.flatten.map Variation.key) :
    ∃ source ∈ sources, key ∈ source.documentKeys ∨ source.MayTake key := by
  induction given with
  | nil => cases member
  | @cons source block others rest gives _ ih =>
      rw [List.flatten_cons, List.map_append] at member
      rcases List.mem_append.mp member with own | later
      · exact ⟨source, List.mem_cons_self .., gives.key_known own⟩
      · obtain ⟨other, inside, known⟩ := ih later
        exact ⟨other, List.mem_cons_of_mem _ inside, known⟩

/-- No key of the later of two sources is brought along by the earlier one. -/
def Disjoint (earlier later : ListSource) : Prop :=
  ∀ key ∈ later.documentKeys, key ∉ earlier.documentKeys

/-- No key of the later of two sources may be given to the literal of the earlier one. -/
def Unclaimed (earlier later : ListSource) : Prop :=
  ∀ key ∈ later.documentKeys, ¬ earlier.MayTake key

theorem unclaimed_of_plain {earlier later : ListSource}
    (plain : ∀ key ∈ later.documentKeys, key.toList.head? ≠ some '~') :
    earlier.Unclaimed later := by
  rintro key member ⟨text, tries, _, rfl⟩
  exact plain _ member (VariationSet.literal_key_tilde text tries)

end ListSource

/-- A merge that has lost nothing of the sources behind it. -/
structure ListMerge.Keeps (workspace : Workspace) (state : ListMerge Cache)
    (past : List ListSource) : Prop where
  shown : workspace.Grown .empty state.cache
  going : state.failed = false
  silent : state.errors = []
  owned : ∀ key, (state.owners.lookup key).isSome = true →
    ∃ source ∈ past, key ∈ source.documentKeys
  distinct : state.merged.keys.Nodup
  blocks : ∃ blocks, List.Forall₂ ListSource.Gives past blocks ∧
    state.merged.entries = blocks.flatten

theorem ListMerge.Keeps.with_cache {workspace : Workspace} {state : ListMerge Cache}
    {past : List ListSource} {later : Cache}
    (keeps : state.Keeps workspace past) (shown : workspace.Grown .empty later) :
    (state.withCache later).Keeps workspace past :=
  ⟨shown, keeps.going, keeps.silent, keeps.owned, keeps.distinct, keeps.blocks⟩

namespace ScopeRun

variable {workspace : Workspace} {origin : Path} {field : String}

theorem open_set_target {reference : String} {cache : Cache} {document : Document}
    {set : VariationSet} (shown : workspace.Grown .empty cache)
    (leads : workspace.target reference origin field = .ok document)
    (read : document.read = .ok (.variations set)) :
    ∃ later, openSet workspace reference origin field cache = (.ok (document.path, set), later) ∧
      workspace.Grown .empty later := by
  have opened := open_reference_result shown reference origin field
  rcases found : workspace.openReference reference origin field cache with ⟨result, later⟩
  rw [found, leads] at opened
  obtain rfl : result = .ok document := opened
  refine ⟨later, ?_, shown.trans (open_reference_grown found)⟩
  simp only [openSet, found, read]

theorem merge_variations_absent (name : String) (origin source : Path)
    (variations : List Variation) (state : ListMerge Cache)
    (distinct : (variations.map Variation.key).Nodup)
    (unowned : ∀ variation ∈ variations, state.owners.lookup variation.key = none)
    (absent : ∀ variation ∈ variations, variation.key ∉ state.merged.keys) :
    let merged := variations.foldl (mergeVariation name origin source) state
    merged.failed = state.failed ∧ merged.errors = state.errors ∧
      merged.merged.entries = state.merged.entries ++ variations ∧
      ∀ key, (merged.owners.lookup key).isSome = true →
        (state.owners.lookup key).isSome = true ∨ key ∈ variations.map Variation.key := by
  induction variations generalizing state with
  | nil => exact ⟨rfl, rfl, (List.append_nil _).symm, fun key known => .inl known⟩
  | cons variation rest ih =>
      obtain ⟨new, apart⟩ := List.nodup_cons.mp distinct
      obtain ⟨free, others⟩ := List.forall_mem_cons.mp unowned
      obtain ⟨missing, restAbsent⟩ := List.forall_mem_cons.mp absent
      have differ : ∀ other ∈ rest, other.key ≠ variation.key := by
        intro other member same
        exact new (same ▸ List.mem_map_of_mem member)
      have step : mergeVariation name origin source state variation =
          { state with
            merged := state.merged.insert variation.key variation.value
            owners := (variation.key, source) :: state.owners } := by
        simp only [mergeVariation, free]
      have entries := VariationSet.insert_absent missing variation.value
      obtain ⟨going, silent, appended, owned⟩ :=
        ih (mergeVariation name origin source state variation)
        apart
        (by
          intro other member
          rw [step, List.lookup_cons, beq_eq_false_iff_ne.mpr (differ other member)]
          exact others other member)
        (by
          intro other member
          rw [step, VariationSet.keys, entries, List.map_append, List.mem_append, not_or]
          exact ⟨restAbsent other member, fun last =>
            differ other member (List.mem_singleton.mp last)⟩)
      rw [List.foldl_cons]
      refine ⟨going.trans (by rw [step]), silent.trans (by rw [step]), ?_, ?_⟩
      · rw [appended, step, entries, List.append_assoc]
        rfl
      · intro key known
        rcases owned key known with before | later
        · rw [step, List.lookup_cons] at before
          split at before
          · next same =>
              rw [List.map_cons, eq_of_beq same]
              exact .inr (List.mem_cons_self ..)
          · exact .inl before
        · exact .inr (List.mem_cons_of_mem _ later)

theorem push_literal_keeps {state : ListMerge Cache} {past : List ListSource}
    (keeps : state.Keeps workspace past) (text : String) :
    ListMerge.Keeps workspace { state with merged := state.merged.pushLiteral text }
      (past ++ [.literal text]) := by
  obtain ⟨blocks, given, entries⟩ := keeps.blocks
  obtain ⟨tries, free, pushed⟩ := VariationSet.push_literal_entries state.merged text
  refine ⟨keeps.shown, keeps.going, keeps.silent, ?_, ?_, ?_⟩
  · intro key known
    obtain ⟨earlier, inside, brought⟩ := keeps.owned key known
    exact ⟨earlier, List.mem_append_left _ inside, brought⟩
  · rw [VariationSet.keys, pushed]
    refine VariationSet.append_keys_nodup keeps.distinct (List.nodup_singleton _) ?_
    intro variation member
    rw [List.mem_singleton.mp member]
    exact free
  · refine ⟨blocks ++ [_], List.rel_append given (.cons (.literal text tries) .nil), ?_⟩
    rw [pushed, entries, List.flatten_append, List.flatten_singleton]

theorem merge_document_keeps (name : String) (origin source : Path) {state : ListMerge Cache}
    {past : List ListSource} {set : VariationSet} (keeps : state.Keeps workspace past)
    (distinct : set.keys.Nodup) (disjoint : ∀ earlier ∈ past, earlier.Disjoint (.document set))
    (unclaimed : ∀ earlier ∈ past, earlier.Unclaimed (.document set)) :
    (set.entries.foldl (mergeVariation name origin source) state).Keeps workspace
      (past ++ [.document set]) := by
  obtain ⟨blocks, given, entries⟩ := keeps.blocks
  have absent : ∀ variation ∈ set.entries, variation.key ∉ state.merged.keys := by
    intro variation member taken
    have own : variation.key ∈ (ListSource.document set).documentKeys :=
      List.mem_map_of_mem member
    rw [VariationSet.keys, entries] at taken
    obtain ⟨earlier, inside, brought | claimed⟩ := ListSource.blocks_keys_known given taken
    · exact disjoint earlier inside _ own brought
    · exact unclaimed earlier inside _ own claimed
  have unowned : ∀ variation ∈ set.entries, state.owners.lookup variation.key = none := by
    intro variation member
    apply Option.not_isSome_iff_eq_none.mp
    intro known
    obtain ⟨earlier, inside, brought⟩ := keeps.owned _ known
    exact disjoint earlier inside _ (List.mem_map_of_mem member) brought
  obtain ⟨going, silent, appended, owned⟩ :=
    merge_variations_absent name origin source set.entries state distinct unowned absent
  refine ⟨?_, going.trans keeps.going, silent.trans keeps.silent, ?_, ?_, ?_⟩
  · rw [merge_variations_cache]
    exact keeps.shown
  · intro key known
    rcases owned key known with before | new
    · obtain ⟨earlier, inside, brought⟩ := keeps.owned key before
      exact ⟨earlier, List.mem_append_left _ inside, brought⟩
    · exact ⟨_, List.mem_append_right _ (List.mem_singleton_self _), new⟩
  · rw [VariationSet.keys, appended]
    exact VariationSet.append_keys_nodup keeps.distinct distinct absent
  · refine ⟨blocks ++ [set.entries], List.rel_append given (.cons (.document set) .nil), ?_⟩
    rw [appended, entries, List.flatten_append, List.flatten_singleton]

theorem merge_entry_keeps (name : String) {state : ListMerge Cache} {past : List ListSource}
    {entry : String} {source : ListSource} (keeps : state.Keeps workspace past)
    (supplied : ListSource.of? workspace origin field entry = some source)
    (disjoint : ∀ earlier ∈ past, earlier.Disjoint source)
    (unclaimed : ∀ earlier ∈ past, earlier.Unclaimed source) :
    (mergeEntry (openSet workspace) name origin field state entry).Keeps workspace
      (past ++ [source]) := by
  rcases ListSource.of_entry supplied with
    ⟨text, classified, rfl⟩ | ⟨reference, document, set, classified, leads, read, rfl⟩
  · simp only [mergeEntry, classified]
    exact push_literal_keeps keeps text
  · obtain ⟨later, opened, shown⟩ := open_set_target keeps.shown leads read
    have distinct : set.keys.Nodup := Config.read_variations read
    simp only [mergeEntry, classified, opened]
    exact merge_document_keeps name origin document.path (keeps.with_cache shown) distinct disjoint
      unclaimed

theorem merge_entries_keep (name : String) {state : ListMerge Cache}
    {past sources : List ListSource}
    {entries : List String} (keeps : state.Keeps workspace past)
    (supplied : List.Forall₂
      (fun entry source => ListSource.of? workspace origin field entry = some source)
      entries sources)
    (disjoint : (past ++ sources).Pairwise ListSource.Disjoint)
    (unclaimed : (past ++ sources).Pairwise ListSource.Unclaimed) :
    (entries.foldl (mergeEntry (openSet workspace) name origin field) state).Keeps workspace
      (past ++ sources) := by
  induction supplied generalizing state past with
  | nil =>
      rw [List.append_nil]
      exact keeps
  | @cons entry source rest others first _ ih =>
      have before : ∀ earlier ∈ past, earlier.Disjoint source ∧ earlier.Unclaimed source := by
        intro earlier inside
        exact ⟨(List.pairwise_append.mp disjoint).2.2 _ inside _ (List.mem_cons_self ..),
          (List.pairwise_append.mp unclaimed).2.2 _ inside _ (List.mem_cons_self ..)⟩
      have step := merge_entry_keeps name keeps first
        (fun earlier inside => (before earlier inside).1)
        (fun earlier inside => (before earlier inside).2)
      rw [List.append_cons] at disjoint unclaimed ⊢
      exact ih step disjoint unclaimed

/-- A list import whose documents load and share no key, and hold no key that may have been given to
an earlier literal, registers one block for each source in the order written, all under different
keys. -/
theorem list_merged_in_order (name : String) {run : ScopeRun Cache} {entries : List String}
    {sources : List ListSource} (shown : workspace.Grown .empty run.cache)
    (supplied : List.Forall₂ (fun entry source =>
      ListSource.of? workspace origin (Config.importField name) entry = some source)
      entries sources)
    (disjoint : sources.Pairwise ListSource.Disjoint)
    (unclaimed : sources.Pairwise ListSource.Unclaimed) :
    ∃ blocks, List.Forall₂ ListSource.Gives sources blocks ∧
      (resolveSpec (openSet workspace) origin name run (.list entries)).errors = run.errors ∧
      (resolveSpec (openSet workspace) origin name run (.list entries)).scope =
        run.scope.insert name ⟨blocks.flatten⟩ ∧
      (blocks.flatten.map Variation.key).Nodup ∧
      blocks.flatten.map Variation.value = sources.flatMap ListSource.values := by
  have start : ListMerge.Keeps workspace ⟨run.cache, .empty, [], false, []⟩ [] :=
    { shown, going := rfl, silent := rfl, owned := by simp, distinct := List.nodup_nil
      blocks := ⟨[], .nil, rfl⟩ }
  have keeps := merge_entries_keep name start supplied disjoint unclaimed
  obtain ⟨blocks, given, merged⟩ := keeps.blocks
  have distinct := keeps.distinct
  rw [VariationSet.keys, merged] at distinct
  refine ⟨blocks, given, ?_, ?_, distinct, ListSource.blocks_values given⟩
  · simp only [resolveSpec, keeps.silent, List.append_nil]
  · simp only [resolveSpec, keeps.going, Bool.false_eq_true, if_false]
    congr 1
    exact congrArg VariationSet.mk merged

/-- Two documents of hair colours. A key of the second is the one made for the text
`silver hair`. -/
def hairColours : Workspace where
  tree := ⟨[(["v.yaml"], .file "red: crimson\n".toUTF8),
    (["w.yaml"], .file "~4a21e012cbeb: gold\n".toUTF8)]⟩
  directory := []

theorem repeated_literal_merged :
    ∃ blocks, List.Forall₂ ListSource.Gives
        [.literal "silver hair", .document ⟨[⟨"red", "crimson"⟩]⟩, .literal "silver hair"] blocks ∧
      (resolveSpec (openSet hairColours) ⟨"/p"⟩ "Hair" ⟨.empty, .empty, []⟩
        (.list ["silver hair", "v.yaml", "silver hair"])).scope =
          NameMap.insert .empty "Hair" ⟨blocks.flatten⟩ ∧
      (blocks.flatten.map Variation.key).Nodup ∧
      blocks.flatten.map Variation.value = ["silver hair", "crimson", "silver hair"] := by
  have supplied : List.Forall₂ (fun entry source =>
      ListSource.of? hairColours ⟨"/p"⟩ (Config.importField "Hair") entry = some source)
      ["silver hair", "v.yaml", "silver hair"]
      [.literal "silver hair", .document ⟨[⟨"red", "crimson"⟩]⟩, .literal "silver hair"] :=
    .cons (by decide +kernel) (.cons (by decide +kernel) (.cons (by decide +kernel) .nil))
  have start : Workspace.Grown hairColours .empty (ScopeRun.mk .empty .empty []).cache := .same
  obtain ⟨blocks, given, -, registered, distinct, values⟩ :=
    list_merged_in_order "Hair" start supplied
      (by simp [ListSource.Disjoint, ListSource.documentKeys])
      (List.pairwise_of_forall_mem_list fun _ _ later inside =>
        ListSource.unclaimed_of_plain (by revert later inside; decide))
  exact ⟨blocks, given, registered, distinct, values⟩

/-- A document that comes after a literal and holds the key made for it takes its place. -/
theorem literal_replaced : ¬ ∀ (workspace : Workspace) (origin : Path) (name : String)
    (entries : List String) (sources : List ListSource),
    List.Forall₂ (fun entry source =>
      ListSource.of? workspace origin (Config.importField name) entry = some source)
      entries sources →
    sources.Pairwise ListSource.Disjoint →
    ((resolveSpec (openSet workspace) origin name ⟨.empty, .empty, []⟩
          (.list entries)).scope.get? name).map
        (fun set => set.entries.map Variation.value) =
      some (sources.flatMap ListSource.values) := by
  intro merged
  have kept := merged hairColours ⟨"/p"⟩ "Hair" ["silver hair", "w.yaml"]
    [.literal "silver hair", .document ⟨[⟨"~4a21e012cbeb", "gold"⟩]⟩]
    (.cons (by decide +kernel) (.cons (by decide +kernel) .nil))
    (by simp [ListSource.Disjoint, ListSource.documentKeys])
  have lost : ((resolveSpec (openSet hairColours) ⟨"/p"⟩ "Hair" ⟨.empty, .empty, []⟩
      (.list ["silver hair", "w.yaml"])).scope.get? "Hair").map
      (fun set => set.entries.map Variation.value) = some ["gold"] := by
    decide +kernel
  exact absurd (kept.symm.trans lost) (by decide)

end ScopeRun

end PromptLoom
