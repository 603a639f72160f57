import PromptLoom.Proofs.Inheritance.Merged

/-!
# Resolving a chunk

A chunk has at most one parent above it, so resolving one takes a single step: it is remembered, it
fails for a reason of its own, or it is merged.
-/

namespace PromptLoom.Resolver

open Workspace

set_option autoImplicit false

variable {workspace : Workspace}

inductive ChunkStep (workspace : Workspace) (document : Document) (resolver : Resolver) :
    Except DocumentError ResolvedChunk → Resolver → Prop where
  | recalls {chunk : ResolvedChunk} (known : resolver.chunks.lookup document.path = some chunk) :
      ChunkStep workspace document resolver (.ok chunk) resolver
  | fails {error : DocumentError} {cache : Cache}
      (unknown : resolver.chunks.lookup document.path = none)
      (alone : chunkOutlook workspace document = .error error)
      (grown : workspace.Grown resolver.cache cache) :
      ChunkStep workspace document resolver (.error error) (resolver.withCache cache)
  | merges {chunk : ResolvedChunk} {warnings : List Finding} {cache : Cache}
      (unknown : resolver.chunks.lookup document.path = none)
      (alone : chunkOutlook workspace document = .ok (chunk, warnings))
      (grown : workspace.Grown resolver.cache cache) :
      ChunkStep workspace document resolver (.ok chunk)
        ((resolver.withCache cache).keepChunk document.path chunk warnings).2

theorem extend_chunk_step {document : Document} {child : ChunkConfig} {reference : String}
    {resolver : Resolver} (shown : workspace.Grown .empty resolver.cache)
    (unknown : resolver.chunks.lookup document.path = none)
    (read : document.read = .ok (.chunk child)) (implemented : child.implements = some reference) :
    ChunkStep workspace document resolver
      (extendChunk workspace child document.path reference resolver).1
      (extendChunk workspace child document.path reference resolver).2 := by
  unfold extendChunk
  rcases opened : workspace.openReference reference document.path "implements" resolver.cache
    with ⟨failure | parent, cache⟩
  · have leads := open_reference_target shown opened
    have alone : chunkOutlook workspace document = .error failure := by
      simp only [chunkOutlook, read, implemented, leads]
    exact .fails unknown alone (open_reference_grown opened)
  have leads := open_reference_target shown opened
  have grown := open_reference_grown opened
  rcases parentRead : parent.read with faults | config
  · have alone : chunkOutlook workspace document =
        .error (Document.firstFault parent.path faults) := by
      simp only [chunkOutlook, read, implemented, leads, parentRead]
    simp only [parentRead]
    exact .fails unknown alone grown
  cases config with
  | template | prompt | variations =>
      simp only [parentRead]
      refine .fails unknown ?_ grown
      simp only [chunkOutlook, read, implemented, leads, parentRead]
  | chunk base =>
      rcases found : ResolvedChunk.extendFault? base child with _ | fault
      · have alone : chunkOutlook workspace document =
            .ok (.extend base child, ResolvedChunk.extendWarnings base child) := by
          simp only [chunkOutlook, read, implemented, leads, parentRead, found]
        simp only [parentRead, found]
        exact .merges unknown alone grown
      · have alone : chunkOutlook workspace document = .error fault := by
          simp only [chunkOutlook, read, implemented, leads, parentRead, found]
        simp only [parentRead, found]
        exact .fails unknown alone grown

theorem resolve_chunk_step {document : Document} {resolver : Resolver}
    (shown : workspace.Grown .empty resolver.cache) :
    ChunkStep workspace document resolver (resolveChunk workspace document resolver).1
      (resolveChunk workspace document resolver).2 := by
  unfold resolveChunk
  rcases known : resolver.chunks.lookup document.path with _ | chunk
  rotate_left
  · simp only [known]
    exact .recalls known
  rcases read : document.read with faults | config
  · have alone : chunkOutlook workspace document =
        .error (Document.firstFault document.path faults) := by
      simp only [chunkOutlook, read]
    simp only [known]
    exact .fails known alone .same
  cases config with
  | template | prompt | variations =>
      simp only [known]
      refine .fails known ?_ .same
      simp only [chunkOutlook, read]
  | chunk child =>
      rcases implemented : child.implements with _ | reference
      · have alone : chunkOutlook workspace document = .ok (.root child, []) := by
          simp only [chunkOutlook, read, implemented]
        simp only [known, implemented]
        exact .merges known alone .same
      · simp only [known, implemented]
        exact extend_chunk_step shown known read implemented

theorem ChunkStep.sound {document : Document} {resolver later : Resolver}
    {result : Except DocumentError ResolvedChunk}
    (step : ChunkStep workspace document resolver result later) (held : workspace.Holds document)
    (before : resolver.Sound workspace) : later.Sound workspace := by
  cases step with
  | recalls => exact before
  | fails unknown alone grown => exact before.with_cache grown
  | merges unknown alone grown => exact (before.with_cache grown).keep_chunk held alone

theorem ChunkStep.answer {document : Document} {resolver later : Resolver}
    {result : Except DocumentError ResolvedChunk}
    (step : ChunkStep workspace document resolver result later)
    (named : workspace.tree.WellNamed) (held : workspace.Holds document)
    (before : resolver.Sound workspace) :
    result = (chunkOutlook workspace document).map Prod.fst := by
  cases step with
  | recalls known =>
      obtain ⟨_, merged⟩ := before.recalled_chunk named held known
      rw [merged]
      rfl
  | fails unknown alone => rw [alone, Except.map]
  | merges unknown alone => rw [alone, Except.map]

theorem chunk_outlook_read {document : Document} {chunk : ResolvedChunk} {own : List Finding}
    (merged : chunkOutlook workspace document = .ok (chunk, own)) :
    ∃ child, document.read = .ok (.chunk child) ∧
      ((child.implements = none ∧ chunk = .root child ∧ own = []) ∨
        ∃ reference parent base, child.implements = some reference ∧
          workspace.target reference document.path "implements" = .ok parent ∧
          parent.read = .ok (.chunk base) ∧ chunk = .extend base child ∧
          own = ResolvedChunk.extendWarnings base child) := by
  unfold chunkOutlook at merged
  split at merged
  · cases merged
  next child read =>
    split at merged
    · next alone =>
        obtain ⟨rfl, rfl⟩ := Prod.mk.inj (Except.ok.inj merged)
        exact ⟨child, read, .inl ⟨alone, rfl, rfl⟩⟩
    next reference implemented =>
    split at merged
    · cases merged
    next parent leads =>
    split at merged
    · cases merged
    · next base parentRead =>
        split at merged
        · cases merged
        · obtain ⟨rfl, rfl⟩ := Prod.mk.inj (Except.ok.inj merged)
          exact ⟨child, read,
            .inr ⟨reference, parent, base, implemented, leads, parentRead, rfl, rfl⟩⟩
    · cases merged
  · cases merged

theorem chunk_outlook_source {document : Document} {chunk : ResolvedChunk} {own : List Finding}
    (merged : chunkOutlook workspace document = .ok (chunk, own)) :
    chunk.source = document.path := by
  obtain ⟨child, read, ⟨_, rfl, _⟩ | ⟨_, _, _, _, _, _, rfl, _⟩⟩ := chunk_outlook_read merged
  · exact (Config.read_chunk read).source
  · exact (Config.read_chunk read).source

end PromptLoom.Resolver
