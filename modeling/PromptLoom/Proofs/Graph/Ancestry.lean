import PromptLoom.Proofs.Graph.Coverage
import PromptLoom.Proofs.Inheritance.Origins
import PromptLoom.Validation.References

/-!
# The chain of a document that resolves

The chain that a graph lists for a document that resolves is the line of its parents up to the
first, so what the chain declares covers what the document ends up with: the names of its imports,
and for each chunk the document of the nearest declaration.
-/

namespace PromptLoom.Graph

open Relation Workspace Resolver

set_option autoImplicit false

variable {workspace : Workspace} {graph : Graph}

theorem Charts.parent_of (charts : graph.Charts workspace []) {document parent : Document}
    {layer : Layer} {bodyField : String} {generation : Option Generation}
    (held : workspace.Holds document) (inside : document.location ∈ graph.locations)
    (alone : outlook workspace document = .follows parent layer bodyField generation) :
    parent.location ∈ graph.locations ∧
      graph.parent? document.location = some parent.location := by
  obtain ⟨config, reference, read, layered, implemented, leads⟩ := outlook_follows_read alone
  have reads : graph.Reads workspace document config := ⟨held, inside, read⟩
  have own : config.implements = some reference := (layer_parts layered).1.trans implemented
  have member := Config.parent_reference.mpr own
  exact ⟨Charts.met_inside (charts.opened document config reads _ _ _ member leads).1,
    charts.up_of reads own leads⟩

theorem Charts.no_parent (charts : graph.Charts workspace []) {document : Document}
    {config : ResolvedConfig} (held : workspace.Holds document)
    (inside : document.location ∈ graph.locations)
    (alone : outlook workspace document = .starts config) :
    graph.parent? document.location = none := by
  obtain ⟨layer, read, orphan, _⟩ := outlook_starts_read alone
  exact charts.no_up ⟨held, inside, read⟩ orphan

theorem mem_without {place location : Location} {open_ : List Location} :
    location ∈ without place open_ ↔ location ∈ open_ ∧ location ≠ place := by
  simp only [without, List.mem_filter, decide_eq_true_eq]

theorem chain_follows {child parent : Location} {open_ : List Location}
    (up : graph.parent? child = some parent) (free : parent ∈ open_) :
    graph.chainWithin open_ child = child :: graph.chainWithin (without parent open_) parent := by
  rw [chainWithin]
  simp only [up]
  rw [dif_pos free]

theorem chain_starts {location : Location} {open_ : List Location}
    (alone : graph.parent? location = none) : graph.chainWithin open_ location = [location] := by
  rw [chainWithin]
  simp only [alone]

theorem chain_stops {child parent : Location} {open_ : List Location}
    (up : graph.parent? child = some parent) (passed : parent ∉ open_) :
    graph.chainWithin open_ child = [child] := by
  rw [chainWithin]
  simp only [up]
  rw [dif_neg passed]

/-! ### What a chain declares -/

theorem of_chain_cons (place : Location) (rest : List Location) :
    Declared.ofChain graph (place :: rest) =
      Declared.add graph (Declared.ofChain graph rest) place := by
  simp [Declared.ofChain]

theorem get?_inserted {α : Type} (value : String → α) (names : List String) (map : NameMap α)
    (name : String) :
    (names.foldl (fun map name => map.insert name (value name)) map).get? name =
      if name ∈ names then some (value name) else map.get? name := by
  induction names generalizing map with
  | nil => rfl
  | cons first rest ih =>
      rw [List.foldl_cons, ih, NameMap.get?_insert]
      by_cases later : name ∈ rest
      · simp [later]
      · by_cases same : name = first
        · simp [same]
        · simp [later, same]

/-- What the documents of a chain declare covers what has been inherited: every name that an import
registers, and for each chunk the outline of the document that its declaration leads to. -/
structure Covers (workspace : Workspace) (graph : Graph) (declared : Declared)
    (imports : NameMap ImportDecl) (chunks : NameMap ChunkDecl) : Prop where
  imports : ∀ entry ∈ imports.entries,
    ∀ name ∈ entry.2.spec.registeredNames entry.1, name ∈ declared.imports
  chunks : ∀ name decl, chunks.get? name = some decl →
    ∃ owner ownerConfig, graph.Reads workspace owner ownerConfig ∧
      ownerConfig.chunks.get? name = some decl.reference ∧ ownerConfig.chunks.Ordered ∧
      decl.origin = owner.path ∧
      declared.chunks.get? name =
        some ((graph.target? owner.location (Config.chunkField name)).bind graph.outline?)

theorem Covers.add {declared : Declared} {imports inherited : NameMap ImportDecl}
    {chunks above : NameMap ChunkDecl} {document : Document} {own : Config} {layer : Layer}
    (covers : Covers workspace graph declared inherited above)
    (charts : graph.Charts workspace []) (reads : graph.Reads workspace document own)
    (layered : ∃ bodyField generation, layerOf? own = some (layer, bodyField, generation))
    (importsFrom : ∀ entry ∈ imports.entries, entry ∈ inherited.entries ∨
      entry ∈ (ImportDecl.declare layer.source layer.imports).entries)
    (chunksFrom : ∀ name, chunks.get? name =
      ((ChunkDecl.declare layer.source layer.chunks).get? name).or (above.get? name)) :
    Covers workspace graph (Declared.add graph declared document.location) imports chunks := by
  obtain ⟨bodyField, generation, layered⟩ := layered
  have under := layer_source reads.read layered
  obtain ⟨_, ownImports, ownChunks⟩ := layer_parts layered
  have added : Declared.add graph declared document.location =
      { imports := declared.imports ++ Config.registeredNames own.imports
        chunks := own.chunks.names.foldl
          (fun chunks name => chunks.insert name
            ((graph.target? document.location (Config.chunkField name)).bind graph.outline?))
          declared.chunks } := by
    simp only [Declared.add, charts.config_read reads]
  rw [added]
  constructor
  · intro entry member name registered
    rcases importsFrom entry member with earlier | new
    · exact List.mem_append_left _ (covers.imports entry earlier name registered)
    · obtain ⟨⟨written, spec⟩, inside, rfl⟩ := List.mem_map.mp new
      refine List.mem_append_right _ (List.mem_flatMap.mpr ⟨(written, spec), ?_, registered⟩)
      rw [ownImports]
      exact inside
  · intro name decl found
    rw [chunksFrom, ChunkDecl.declare, NameMap.get?_map_values, ← ownChunks] at found
    rw [get?_inserted]
    have ordered : own.chunks.Ordered := ownChunks ▸ under.chunks
    rcases written : own.chunks.get? name with _ | reference
    · rw [written] at found
      have absent : name ∉ own.chunks.names := by
        intro listed
        obtain ⟨⟨_, reference⟩, member, rfl⟩ := List.mem_map.mp listed
        cases written.symm.trans (NameMap.get?_of_mem ordered member)
      rw [if_neg absent]
      exact covers.chunks name decl found
    · rw [written] at found
      obtain rfl := Option.some.inj found
      rw [if_pos (NameMap.mem_names_of_get? written)]
      exact ⟨document, own, reads, written, ordered, under.source, rfl⟩

theorem covers_nothing : Covers workspace graph ⟨[], .empty⟩ .empty .empty where
  imports := by
    intro entry member
    cases member
  chunks := by
    intro name decl found
    cases found

theorem chain_covers {document : Document} {config : ResolvedConfig} {own : List Finding}
    {open_ : List Location} (charts : graph.Charts workspace [])
    (merged : Merged workspace document config own) (held : workspace.Holds document)
    (inside : document.location ∈ graph.locations)
    (free : ∀ ancestor, TransGen (Follows workspace) document ancestor →
      ancestor.location ∈ open_) :
    Covers workspace graph (Declared.ofChain graph (graph.chainWithin open_ document.location))
      config.imports config.chunks := by
  -- the induction is on the merge. No document is above itself, so the chain never stops early
  induction merged generalizing open_ with
  | starts alone =>
      obtain ⟨layer, read, _, rfl⟩ := outlook_starts_read alone
      rw [chain_starts (charts.no_parent held inside alone), of_chain_cons]
      refine covers_nothing.add charts ⟨held, inside, read⟩ ⟨_, _, rfl⟩ (fun _ => .inr) ?_
      intro name
      exact Option.or_none.symm
  | @follows document parent layer bodyField generation base inherited alone above ih =>
      obtain ⟨ownConfig, _, read, layered, _⟩ := outlook_follows_read alone
      obtain ⟨parentInside, up⟩ := charts.parent_of held inside alone
      have parentHeld := outlook_parent_held alone
      have step : Follows workspace document parent := ⟨layer, bodyField, generation, alone⟩
      have under := layer_source read layered
      rw [chain_follows up (free parent (.single step)), of_chain_cons]
      refine (ih parentHeld parentInside ?_).add charts ⟨held, inside, read⟩ ⟨_, _, layered⟩
        (fun _ => NameMap.mem_merge) ?_
      · intro ancestor way
        have other : ancestor.location ≠ parent.location := by
          intro same
          obtain ⟨_, _, _, _, _, last⟩ := TransGen.tail'_iff.mp way
          rw [(outlook_parent_held last).eq_of_location parentHeld same] at way
          exact above.acyclic way
        exact mem_without.mpr ⟨free ancestor (.head step way), other⟩
      · intro name
        exact NameMap.get?_merge _ (NameMap.map_values_ordered _ under.chunks) name

theorem Charts.chain_covers (charts : graph.Charts workspace []) {document : Document}
    {config : ResolvedConfig} {own : List Finding}
    (merged : Merged workspace document config own) (held : workspace.Holds document)
    (inside : document.location ∈ graph.locations) :
    Covers workspace graph (Declared.ofChain graph (graph.chain document.location))
      config.imports config.chunks := by
  refine Graph.chain_covers charts merged held inside ?_
  intro ancestor way
  have ancestorInside : workspace.Holds ancestor ∧ ancestor.location ∈ graph.locations := by
    induction way with
    | single follows =>
        obtain ⟨_, _, _, alone⟩ := follows
        exact ⟨outlook_parent_held alone, (charts.parent_of held inside alone).1⟩
    | tail way follows ih =>
        obtain ⟨_, _, _, alone⟩ := follows
        exact ⟨outlook_parent_held alone, (charts.parent_of ih.1 ih.2 alone).1⟩
  have other : ancestor.location ≠ document.location := by
    intro same
    rw [ancestorInside.1.eq_of_location held same] at way
    exact merged.acyclic way
  exact mem_without.mpr ⟨ancestorInside.2, other⟩

end PromptLoom.Graph
