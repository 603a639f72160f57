import PromptLoom.Proofs.Chunk.Filling
import PromptLoom.Proofs.Graph.Ancestry
import PromptLoom.Proofs.Scope.Names

/-!
# Outlines tell what chunks fill

The outline of a chunk that resolves has the body of the resolved chunk, and knows every name that
an override, a default or an import of it stands ready for. So a mention that is filled without an
error is one that the outline has nothing to say about.
-/

namespace PromptLoom

open Workspace Resolver

set_option autoImplicit false

variable {workspace : Workspace} {graph : Graph}

/-- An outline tells the body of a resolved chunk and the names that something stands ready for. -/
structure ChunkOutline.Tells (outline : ChunkOutline) (chunk : ResolvedChunk) : Prop where
  body : outline.body = chunk.body
  overrides : ∀ name value, chunk.overrides.get? name = some value → name ∈ outline.filled
  defaults : ∀ name value, chunk.defaults.get? name = some value → name ∈ outline.filled
  imports : ∀ entry ∈ chunk.imports.entries,
    ∀ name ∈ entry.2.spec.registeredNames entry.1, name ∈ outline.imports

theorem mem_merged_names {α : Type} {first second : NameMap α} {name : String} {value : α}
    (found : (first.merge second).get? name = some value) :
    name ∈ first.names ∨ name ∈ second.names := by
  rcases NameMap.mem_merge (NameMap.mem_of_get? found) with earlier | later
  · exact .inl (List.mem_map_of_mem earlier)
  · exact .inr (List.mem_map_of_mem later)

theorem declared_registered {source : Path} {imports : NameMap ImportSpec}
    {entry : String × ImportDecl} (member : entry ∈ (ImportDecl.declare source imports).entries)
    {name : String} (registered : name ∈ entry.2.spec.registeredNames entry.1) :
    name ∈ Config.registeredNames imports := by
  obtain ⟨written, inside, rfl⟩ := List.mem_map.mp member
  exact List.mem_flatMap.mpr ⟨written, inside, registered⟩

theorem outline_tells_root (source : Path) (child : ChunkConfig) :
    (ChunkOutline.ofChunk source none child).Tells (.root child) where
  body := rfl
  overrides := by
    intro name value found
    have listed : name ∈ child.overrides.names := NameMap.mem_names_of_get? found
    simp [ChunkOutline.ofChunk, ChunkOutline.filledNames, listed]
  defaults := by
    intro name value found
    have listed : name ∈ child.defaults.names := NameMap.mem_names_of_get? found
    simp [ChunkOutline.ofChunk, ChunkOutline.filledNames, listed]
  imports := by
    intro entry member name registered
    simp [ChunkOutline.ofChunk, declared_registered member registered]

theorem outline_tells_extended (source : Path) (base child : ChunkConfig) :
    (ChunkOutline.ofChunk source (some base) child).Tells (.extend base child) where
  body := rfl
  overrides := by
    intro name value found
    rcases mem_merged_names found with above | own
    · simp [ChunkOutline.ofChunk, ChunkOutline.filledNames, above]
    · simp [ChunkOutline.ofChunk, ChunkOutline.filledNames, own]
  defaults := by
    intro name value found
    rcases mem_merged_names found with above | own
    · simp [ChunkOutline.ofChunk, ChunkOutline.filledNames, above]
    · simp [ChunkOutline.ofChunk, ChunkOutline.filledNames, own]
  imports := by
    intro entry member name registered
    rcases NameMap.mem_merge member with above | own
    · simp [ChunkOutline.ofChunk, declared_registered above registered]
    · simp [ChunkOutline.ofChunk, declared_registered own registered]

namespace Graph

theorem Charts.chunk_of (charts : graph.Charts workspace []) {document : Document}
    {child : ChunkConfig} (reads : graph.Reads workspace document (.chunk child)) :
    graph.chunk? document.location = some child := by
  simp only [chunk?, charts.config_read reads]

theorem Charts.chunk_shape (charts : graph.Charts workspace []) {document : Document}
    {chunk : ResolvedChunk} {own : List Finding} (held : workspace.Holds document)
    (inside : document.location ∈ graph.locations)
    (merged : chunkOutlook workspace document = .ok (chunk, own)) :
    ∃ child, graph.chunk? document.location = some child ∧
      (((graph.parent? document.location).bind graph.chunk? = none ∧ chunk = .root child) ∨
        ∃ base, (graph.parent? document.location).bind graph.chunk? = some base ∧
          chunk = .extend base child) := by
  obtain ⟨child, read, shape⟩ := chunk_outlook_read merged
  have reads : graph.Reads workspace document (.chunk child) := ⟨held, inside, read⟩
  refine ⟨child, charts.chunk_of reads, ?_⟩
  rcases shape with
    ⟨alone, rfl, _⟩ | ⟨reference, parent, base, implemented, leads, parentRead, rfl, _⟩
  · refine .inl ⟨?_, rfl⟩
    rw [charts.no_up reads alone, Option.bind_none]
  · refine .inr ⟨base, ?_, rfl⟩
    have member := Config.parent_reference.mpr (show (Config.chunk child).implements = _ from
      implemented)
    have parentInside := Charts.met_inside
      (charts.opened document _ reads _ _ _ member leads).1
    rw [charts.up_of reads implemented leads, Option.bind_some]
    exact charts.chunk_of ⟨target_holds leads, parentInside, parentRead⟩

theorem Charts.outline_of (charts : graph.Charts workspace []) {document : Document}
    {chunk : ResolvedChunk} {own : List Finding} (held : workspace.Holds document)
    (inside : document.location ∈ graph.locations)
    (merged : chunkOutlook workspace document = .ok (chunk, own)) :
    ∃ outline, graph.outline? document.location = some outline ∧ outline.Tells chunk := by
  obtain ⟨child, known, shape⟩ := charts.chunk_shape held inside merged
  unfold outline?
  rw [known]
  rcases shape with ⟨alone, rfl⟩ | ⟨base, above, rfl⟩
  · rw [alone]
    exact ⟨_, rfl, outline_tells_root _ child⟩
  · rw [above]
    exact ⟨_, rfl, outline_tells_extended _ base child⟩

theorem Covers.outline_of {declared : Declared} {imports : NameMap ImportDecl}
    {chunks : NameMap ChunkDecl} (covers : Covers workspace graph declared imports chunks)
    (charts : graph.Charts workspace []) {name : String} {decl : ChunkDecl} {document : Document}
    (known : chunks.get? name = some decl)
    (leads : workspace.target decl.reference decl.origin (Config.chunkField name) = .ok document) :
    document.location ∈ graph.locations ∧
      declared.chunks.get? name = some (graph.outline? document.location) := by
  obtain ⟨owner, ownerConfig, reads, written, _, origin, outlined⟩ :=
    covers.chunks name decl known
  have member := Config.chunk_reference.mpr (NameMap.mem_of_get? written)
  rw [origin] at leads
  refine ⟨Charts.met_inside (charts.opened owner ownerConfig reads _ _ _ member leads).1, ?_⟩
  have place : graph.target? owner.location (Config.chunkField name) = some document.location := by
    rw [charts.chunk_at reads, written, Option.bind_some, leads]
    rfl
  rw [outlined, place, Option.bind_some]

end Graph

/-! ### Mentions that are filled -/

namespace Chunk

theorem filling_ready {chunk : ResolvedChunk} {ref : ChunkRef} {own caller : Scope}
    {found : Placeholder} {value : String} {outline : ChunkOutline} (tells : outline.Tells chunk)
    (names : own.NamesIn outline.imports)
    (filled : filling chunk ref own caller found = .ok value) :
    (ref.bindings.any fun (param, _) => param == found.name) = true ∨
      found.name ∈ outline.filled ∨ found.name ∈ outline.imports := by
  simp only [filling] at filled
  split at filled
  · cases filled
  split at filled
  · next given bound =>
      obtain ⟨before, after, whole, _⟩ := List.lookup_eq_some_iff.mp bound
      refine .inl (List.any_eq_true.mpr ⟨(found.name, given), ?_, beq_self_eq_true _⟩)
      rw [whole]
      simp
  split at filled
  · next override => exact .inr (.inl (tells.overrides _ _ override))
  split at filled
  · next default => exact .inr (.inl (tells.defaults _ _ default))
  split at filled
  · next known => exact .inr (.inr (names _ known))
  · cases filled

/-- An outline finds nothing in a mention that is filled without an error. -/
theorem fill_clean {chunk : ResolvedChunk} {ref : ChunkRef} {own caller : Scope}
    {outline : ChunkOutline} (tells : outline.Tells chunk) (names : own.NamesIn outline.imports)
    (clean : (fill chunk ref own caller).2 = []) : outline.findings ref = [] := by
  rw [fill_eq] at clean
  have unfilled : (placeholders outline.body).filter (fun found =>
      !((ref.bindings.any fun (param, _) => param == found.name) ||
        Placeholder.isReserved found.name || outline.filled.contains found.name ||
        outline.imports.contains found.name)) = [] := by
    apply List.filter_eq_nil_iff.mpr
    intro found member
    rw [tells.body] at member
    have silent := List.filterMap_eq_nil_iff.mp clean found member
    rcases filling_ready tells names (fault?_eq_none silent) with bound | ready | known
    · simp [bound]
    · simp [ready]
    · simp [known]
  rw [ChunkOutline.findings, unfilled, List.map_nil]

end Chunk

end PromptLoom
