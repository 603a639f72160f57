import PromptLoom.Proofs.Graph.Outlines

/-!
# Layers of declarations

What the check of references holds known is what some layer registers: a document of the chain for
the bodies of a prompt, a chunk or its parent for the body of the chunk. Where the layers are merged
the declaration of an import takes the place of an earlier one as a whole, so a name that only the
earlier one registers is lost. No other name is.
-/

namespace PromptLoom

open Relation Workspace Resolver

set_option autoImplicit false

/-- A name that a layer registers, while what the merged layers declare under the same import does
not. -/
def Superseded (layers : List (NameMap ImportSpec)) (merged : NameMap ImportDecl) (name : String) :
    Prop :=
  ∃ layer ∈ layers, ∃ entry ∈ layer.entries, name ∈ entry.2.registeredNames entry.1 ∧
    ∃ decl, merged.get? entry.1 = some decl ∧ name ∉ decl.spec.registeredNames entry.1

theorem registered_or_superseded {layers : List (NameMap ImportSpec)}
    {merged : NameMap ImportDecl} {name : String}
    (known : ∀ layer ∈ layers, ∀ entry ∈ layer.entries, merged.contains entry.1 = true)
    (registered : name ∈ layers.flatMap Config.registeredNames) :
    (∃ entry ∈ merged.entries, name ∈ entry.2.spec.registeredNames entry.1) ∨
      Superseded layers merged name := by
  obtain ⟨layer, member, inside⟩ := List.mem_flatMap.mp registered
  obtain ⟨entry, declared, own⟩ := List.mem_flatMap.mp inside
  obtain ⟨decl, found⟩ := NameMap.contains_eq_true_iff.mp (known layer member entry declared)
  by_cases still : name ∈ decl.spec.registeredNames entry.1
  · exact .inl ⟨(entry.1, decl), NameMap.mem_of_get? found, still⟩
  · exact .inr ⟨layer, member, entry, declared, own, decl, found, still⟩

variable {workspace : Workspace}

namespace Resolver

/-- One lemma for the maps of a config: what a document at or above it declares is not lost. -/
theorem Merged.keeps_names {α : Type} (map : ResolvedConfig → NameMap α) (own : Layer → NameMap α)
    (starts : ∀ layer generation, map (.root layer generation) = own layer)
    (follows : ∀ (base : ResolvedConfig) layer generation,
      map (base.extend layer generation) = (map base).merge (own layer))
    {document ancestor : Document} {config : ResolvedConfig} {warnings : List Finding}
    {ancestorConfig : Config} {layer : Layer} {name : String}
    (merged : Merged workspace document config warnings)
    (found : Ancestor workspace document ancestor ancestorConfig layer)
    (declared : (own layer).contains name = true) : (map config).contains name = true := by
  obtain ⟨above, read, bodyField, generation, layered⟩ := found
  induction merged with
  | starts alone =>
      obtain ⟨first, firstRead, _, rfl⟩ := outlook_starts_read alone
      rcases ReflTransGen.cases_head above with rfl | ⟨parent, step, _⟩
      · obtain rfl := Except.ok.inj (read.symm.trans firstRead)
        obtain ⟨rfl, -⟩ := Prod.mk.inj (Option.some.inj layered)
        rw [starts]
        exact declared
      · obtain ⟨_, _, _, other⟩ := step
        cases alone.symm.trans other
  | follows alone merged ih =>
      rw [follows]
      apply NameMap.contains_merge
      rcases ReflTransGen.cases_head above with rfl | ⟨parent, step, further⟩
      · obtain ⟨_, _, ownRead, ownLayered, _⟩ := outlook_follows_read alone
        obtain rfl := Except.ok.inj (read.symm.trans ownRead)
        obtain ⟨rfl, -⟩ := Prod.mk.inj (Option.some.inj (layered.symm.trans ownLayered))
        exact .inr declared
      · obtain ⟨_, _, _, other⟩ := step
        obtain ⟨rfl, -⟩ := Outlook.follows.inj (alone.symm.trans other)
        exact .inl (ih further)

end Resolver

namespace Graph

variable {graph : Graph}

/-! ### Documents of a chain -/

def chainConfigs (graph : Graph) (chain : List Location) : List Config :=
  chain.filterMap graph.config?

theorem chain_ancestors {document : Document} {config : ResolvedConfig} {own : List Finding}
    {open_ : List Location} {found : Config} (charts : graph.Charts workspace [])
    (merged : Merged workspace document config own) (held : workspace.Holds document)
    (inside : document.location ∈ graph.locations)
    (member : found ∈ graph.chainConfigs (graph.chainWithin open_ document.location)) :
    ∃ ancestor layer, Ancestor workspace document ancestor found layer := by
  induction merged generalizing open_ with
  | @starts document config alone =>
      obtain ⟨layer, read, _, rfl⟩ := outlook_starts_read alone
      rw [chain_starts (charts.no_parent held inside alone), chainConfigs, List.filterMap_cons,
        charts.config_read ⟨held, inside, read⟩] at member
      obtain rfl := List.mem_singleton.mp member
      exact ⟨document, layer, .refl, read, _, _, rfl⟩
  | @follows document parent layer bodyField generation base inherited alone above ih =>
      obtain ⟨ownConfig, _, read, layered, _⟩ := outlook_follows_read alone
      obtain ⟨parentInside, up⟩ := charts.parent_of held inside alone
      have parentHeld := outlook_parent_held alone
      have first := charts.config_read ⟨held, inside, read⟩
      have self : Ancestor workspace document document ownConfig layer :=
        ⟨.refl, read, _, _, layered⟩
      rw [chainWithin, up] at member
      dsimp only at member
      split at member
      · rw [chainConfigs, List.filterMap_cons, first] at member
        rcases List.mem_cons.mp member with rfl | further
        · exact ⟨document, layer, self⟩
        · obtain ⟨ancestor, found, way, read, rest⟩ := ih parentHeld parentInside further
          exact ⟨ancestor, found, .head ⟨layer, bodyField, generation, alone⟩ way, read, rest⟩
      · rw [chainConfigs, List.filterMap_cons, first] at member
        obtain rfl := List.mem_singleton.mp member
        exact ⟨document, layer, self⟩

theorem of_chain_imports (chain : List Location) (name : String) :
    name ∈ (Declared.ofChain graph chain).imports ↔
      name ∈ ((graph.chainConfigs chain).map Config.imports).flatMap Config.registeredNames := by
  induction chain with
  | nil => rfl
  | cons place rest ih =>
      rw [of_chain_cons, Declared.add, chainConfigs, List.filterMap_cons]
      cases graph.config? place with
      | none => exact ih
      | some config =>
          simp only [List.mem_append, ih, List.map_cons, List.flatMap_cons]
          exact Or.comm

theorem of_chain_chunk {chain : List Location} {name : String}
    (known : (Declared.ofChain graph chain).chunks.contains name = true) :
    ∃ config ∈ graph.chainConfigs chain, name ∈ config.chunks.names := by
  induction chain with
  | nil => cases known
  | cons place rest ih =>
      rw [of_chain_cons, Declared.add] at known
      rw [chainConfigs, List.filterMap_cons]
      cases found : graph.config? place with
      | none =>
          rw [found] at known
          exact ih known
      | some config =>
          rw [found] at known
          simp only [NameMap.contains, get?_inserted] at known
          split at known
          · next own => exact ⟨config, List.mem_cons_self .., own⟩
          · obtain ⟨other, member, own⟩ := ih known
            exact ⟨other, List.mem_cons_of_mem _ member, own⟩

section Chain

variable {document : Document} {config : ResolvedConfig} {own : List Finding}
  (charts : graph.Charts workspace []) (merged : Merged workspace document config own)
  (held : workspace.Holds document) (inside : document.location ∈ graph.locations)

include charts merged held inside

theorem Charts.chain_keeps_names {found : Config}
    (listed : found ∈ graph.chainConfigs (graph.chain document.location)) :
    (∀ entry ∈ found.imports.entries, config.imports.contains entry.1 = true) ∧
      ∀ entry ∈ found.chunks.entries, config.chunks.contains entry.1 = true := by
  obtain ⟨ancestor, layer, above⟩ := chain_ancestors charts merged held inside listed
  obtain ⟨-, ownImports, ownChunks⟩ := above.parts
  rw [ownImports, ownChunks]
  constructor
  · intro entry declared
    exact merged.keeps_names (·.imports)
      (fun layer => ImportDecl.declare layer.source layer.imports) (fun _ _ => rfl)
      (fun _ _ _ => rfl) above (NameMap.contains_of_mem (List.mem_map_of_mem declared))
  · intro entry declared
    exact merged.keeps_names (·.chunks)
      (fun layer => ChunkDecl.declare layer.source layer.chunks) (fun _ _ => rfl)
      (fun _ _ _ => rfl) above (NameMap.contains_of_mem (List.mem_map_of_mem declared))

/-- The check knows a name from the imports of a chain only if the merged imports register it, or if
it is superseded. -/
theorem Charts.chain_import_known {name : String}
    (known : name ∈ (Declared.ofChain graph (graph.chain document.location)).imports) :
    (∃ entry ∈ config.imports.entries, name ∈ entry.2.spec.registeredNames entry.1) ∨
      Superseded ((graph.chainConfigs (graph.chain document.location)).map Config.imports)
        config.imports name := by
  apply registered_or_superseded ?_ ((of_chain_imports _ name).mp known)
  intro layer member entry declared
  obtain ⟨found, listed, rfl⟩ := List.mem_map.mp member
  exact (charts.chain_keeps_names merged held inside listed).1 entry declared

theorem Charts.chain_chunk_known {name : String}
    (known : (Declared.ofChain graph (graph.chain document.location)).chunks.contains name = true) :
    config.chunks.contains name = true := by
  obtain ⟨found, listed, declared⟩ := of_chain_chunk known
  obtain ⟨entry, member, rfl⟩ := List.mem_map.mp declared
  exact (charts.chain_keeps_names merged held inside listed).2 entry member

end Chain

/-! ### A chunk and its parent -/

def chunkLayers (graph : Graph) (location : Location) : List ChunkConfig :=
  ((graph.parent? location).bind graph.chunk?).toList ++ (graph.chunk? location).toList

theorem outline_layers {location : Location} {outline : ChunkOutline}
    (known : graph.outline? location = some outline) :
    outline.source = .ofLocation location ∧
      outline.imports =
        ((graph.chunkLayers location).map ChunkConfig.imports).flatMap Config.registeredNames ∧
      outline.filled = (graph.chunkLayers location).flatMap ChunkOutline.filledNames := by
  obtain ⟨child, found, rfl⟩ := Option.map_eq_some_iff.mp known
  rw [chunkLayers, found]
  exact ⟨rfl, by rw [List.flatMap_map]; rfl, rfl⟩

section Chunk

variable {document : Document} {chunk : ResolvedChunk} {own : List Finding}
  {outline : ChunkOutline} (charts : graph.Charts workspace []) (held : workspace.Holds document)
  (inside : document.location ∈ graph.locations)
  (merged : chunkOutlook workspace document = .ok (chunk, own))

include charts held inside merged

theorem Charts.chunk_keeps_names {layer : ChunkConfig}
    (member : layer ∈ graph.chunkLayers document.location) :
    (∀ entry ∈ layer.imports.entries, chunk.imports.contains entry.1 = true) ∧
      ∀ name ∈ ChunkOutline.filledNames layer,
        chunk.overrides.contains name = true ∨ chunk.defaults.contains name = true := by
  obtain ⟨child, known, shape⟩ := charts.chunk_shape held inside merged
  rcases shape with ⟨alone, rfl⟩ | ⟨base, above, rfl⟩
  · rw [chunkLayers, alone, known] at member
    obtain rfl := List.mem_singleton.mp member
    refine ⟨fun entry declared => NameMap.contains_of_mem (List.mem_map_of_mem declared), ?_⟩
    intro name filled
    exact (List.mem_append.mp filled).imp NameMap.contains_of_name NameMap.contains_of_name
  · rw [chunkLayers, above, known] at member
    have either : layer = base ∨ layer = child := List.mem_pair.mp member
    constructor
    · intro entry declared
      apply NameMap.contains_merge
      refine either.imp ?_ ?_
      all_goals
        rintro rfl
        exact NameMap.contains_of_mem (List.mem_map_of_mem declared)
    · intro name filled
      refine (List.mem_append.mp filled).imp ?_ ?_
      all_goals
        intro listed
        apply NameMap.contains_merge
        refine either.imp ?_ ?_
        all_goals
          rintro rfl
          exact NameMap.contains_of_name listed

theorem Charts.chunk_import_known (known : graph.outline? document.location = some outline)
    {name : String} (registered : name ∈ outline.imports) :
    (∃ entry ∈ chunk.imports.entries, name ∈ entry.2.spec.registeredNames entry.1) ∨
      Superseded ((graph.chunkLayers document.location).map ChunkConfig.imports) chunk.imports
        name := by
  rw [(outline_layers known).2.1] at registered
  refine registered_or_superseded ?_ registered
  intro layer member entry declared
  obtain ⟨found, listed, rfl⟩ := List.mem_map.mp member
  exact (charts.chunk_keeps_names held inside merged listed).1 entry declared

theorem Charts.chunk_filled_known (known : graph.outline? document.location = some outline)
    {name : String} (filled : name ∈ outline.filled) :
    chunk.overrides.contains name = true ∨ chunk.defaults.contains name = true := by
  rw [(outline_layers known).2.2] at filled
  obtain ⟨layer, member, own⟩ := List.mem_flatMap.mp filled
  exact (charts.chunk_keeps_names held inside merged member).2 name own

end Chunk

end Graph

end PromptLoom
