import PromptLoom.Proofs.Inheritance.ChunkStep

/-!
# Where declarations come from

A merged config declares nothing of its own: every entry of its maps was written in the document
itself or in one of those above it, and imports and chunks name that document as their origin.
-/

namespace PromptLoom.Resolver

open Relation Workspace

set_option autoImplicit false

variable {workspace : Workspace}

/-- A template or prompt at or above a document, with what it contributes. -/
structure Ancestor (workspace : Workspace) (document ancestor : Document) (config : Config)
    (layer : Layer) : Prop where
  above : ReflTransGen (Follows workspace) document ancestor
  read : ancestor.read = .ok config
  layered : ∃ bodyField generation, layerOf? config = some (layer, bodyField, generation)

theorem Ancestor.source {document ancestor : Document} {config : Config} {layer : Layer}
    (found : Ancestor workspace document ancestor config layer) :
    layer.ReadUnder ancestor.path := by
  obtain ⟨bodyField, generation, layered⟩ := found.layered
  exact layer_source found.read layered

theorem layer_parts {config : Config} {layer : Layer} {bodyField : String}
    {generation : Option Generation} (layered : layerOf? config = some (layer, bodyField, generation)) :
    config.implements = layer.implements ∧ config.imports = layer.imports ∧
      config.chunks = layer.chunks := by
  cases config with
  | template | prompt =>
      cases layered
      exact ⟨rfl, rfl, rfl⟩
  | chunk | variations => cases layered

theorem Ancestor.parts {document ancestor : Document} {config : Config} {layer : Layer}
    (found : Ancestor workspace document ancestor config layer) :
    config.implements = layer.implements ∧ config.imports = layer.imports ∧
      config.chunks = layer.chunks := by
  obtain ⟨bodyField, generation, layered⟩ := found.layered
  exact layer_parts layered

theorem Merged.declared {α : Type} (map : ResolvedConfig → NameMap α) (own : Layer → NameMap α)
    (starts : ∀ layer generation, map (.root layer generation) = own layer)
    (follows : ∀ (base : ResolvedConfig) layer generation,
      map (base.extend layer generation) = (map base).merge (own layer))
    {document : Document} {config : ResolvedConfig} {warnings : List Finding}
    (merged : Merged workspace document config warnings) {entry : String × α}
    (member : entry ∈ (map config).entries) :
    ∃ ancestor ancestorConfig layer, Ancestor workspace document ancestor ancestorConfig layer ∧
      entry ∈ (own layer).entries := by
  induction merged with
  | @starts document config alone =>
      obtain ⟨layer, read, _, rfl⟩ := outlook_starts_read alone
      rw [starts] at member
      exact ⟨document, _, layer, ⟨.refl, read, _, _, rfl⟩, member⟩
  | @follows document parent layer bodyField generation base inherited alone above ih =>
      rw [follows] at member
      rcases NameMap.mem_merge member with earlier | new
      · obtain ⟨ancestor, ancestorConfig, found, ⟨way, read, layered⟩, inside⟩ := ih earlier
        exact ⟨ancestor, ancestorConfig, found,
          ⟨.head ⟨layer, bodyField, generation, alone⟩ way, read, layered⟩, inside⟩
      · obtain ⟨ownConfig, _, read, layered, _⟩ := outlook_follows_read alone
        exact ⟨document, ownConfig, layer, ⟨.refl, read, _, _, layered⟩, new⟩

/-- An import or a chunk is declared by the document that it names as its origin. One lemma for both:
`written` is what a layer has of them, and `made` the declaration made of it. -/
theorem Merged.declared_at {α β : Type} (map : ResolvedConfig → NameMap β)
    (written : Layer → NameMap α) (made : α → Path → β)
    (starts : ∀ layer generation,
      map (.root layer generation) = (written layer).mapValues fun value => made value layer.source)
    (follows : ∀ (base : ResolvedConfig) layer generation, map (base.extend layer generation) =
      (map base).merge ((written layer).mapValues fun value => made value layer.source))
    {document : Document} {config : ResolvedConfig} {warnings : List Finding}
    (merged : Merged workspace document config warnings) {name : String} {decl : β}
    (member : (name, decl) ∈ (map config).entries) :
    ∃ ancestor ancestorConfig layer value,
      Ancestor workspace document ancestor ancestorConfig layer ∧
        (name, value) ∈ (written layer).entries ∧ decl = made value ancestor.path := by
  obtain ⟨ancestor, ancestorConfig, layer, found, inside⟩ :=
    merged.declared map _ starts follows member
  obtain ⟨⟨_, value⟩, declared, same⟩ := List.mem_map.mp inside
  obtain ⟨rfl, rfl⟩ := Prod.mk.inj same
  exact ⟨ancestor, ancestorConfig, layer, value, found, declared,
    congrArg (made value) found.source.source⟩

theorem Merged.import_declared {document : Document} {config : ResolvedConfig}
    {warnings : List Finding} (merged : Merged workspace document config warnings) {name : String}
    {decl : ImportDecl} (member : (name, decl) ∈ config.imports.entries) :
    ∃ ancestor ancestorConfig layer, Ancestor workspace document ancestor ancestorConfig layer ∧
      (name, decl.spec) ∈ ancestorConfig.imports.entries ∧ decl.origin = ancestor.path := by
  obtain ⟨ancestor, ancestorConfig, layer, spec, found, written, rfl⟩ := merged.declared_at
    (·.imports) (·.imports) ImportDecl.mk (fun _ _ => rfl) (fun _ _ _ => rfl) member
  refine ⟨ancestor, ancestorConfig, layer, found, ?_, rfl⟩
  rwa [found.parts.2.1]

theorem Merged.chunk_declared {document : Document} {config : ResolvedConfig}
    {warnings : List Finding} (merged : Merged workspace document config warnings) {name : String}
    {decl : ChunkDecl} (member : (name, decl) ∈ config.chunks.entries) :
    ∃ ancestor ancestorConfig layer, Ancestor workspace document ancestor ancestorConfig layer ∧
      (name, decl.reference) ∈ ancestorConfig.chunks.entries ∧ decl.origin = ancestor.path := by
  obtain ⟨ancestor, ancestorConfig, layer, reference, found, written, rfl⟩ := merged.declared_at
    (·.chunks) (·.chunks) ChunkDecl.mk (fun _ _ => rfl) (fun _ _ _ => rfl) member
  refine ⟨ancestor, ancestorConfig, layer, found, ?_, rfl⟩
  rwa [found.parts.2.2]

end PromptLoom.Resolver
