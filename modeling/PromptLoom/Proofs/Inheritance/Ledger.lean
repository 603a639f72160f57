import PromptLoom.Proofs.Inheritance.ChunkStep

/-!
# Merges and their warnings

A resolver remembers every merged document once and counts every merge, and what it warns about a
document is what the one merge of that document warns about. A failure leaves nothing behind but
opened documents.
-/

namespace PromptLoom.Resolver

open Workspace

set_option autoImplicit false

variable {workspace : Workspace}

/-- The warnings owed about a document: those of its merge if it is remembered, else none. -/
inductive Owed (workspace : Workspace) (resolver : Resolver) (document : Document) :
    List Finding → Prop where
  | config {config : ResolvedConfig} {warnings : List Finding}
      (known : resolver.configs.lookup document.path = some config)
      (merged : Merged workspace document config warnings) :
      Owed workspace resolver document warnings
  | chunk {chunk : ResolvedChunk} {warnings : List Finding}
      (known : resolver.chunks.lookup document.path = some chunk)
      (merged : chunkOutlook workspace document = .ok (chunk, warnings)) :
      Owed workspace resolver document warnings
  | nothing (noConfig : resolver.configs.lookup document.path = none)
      (noChunk : resolver.chunks.lookup document.path = none) :
      Owed workspace resolver document []

def warningsAbout (resolver : Resolver) (document : Document) : List Finding :=
  resolver.warnings.filter fun warning => warning.file == document.path

/-- Nothing is remembered twice, every merge is counted, and every document is warned about as its
merge demands. -/
structure Balanced (workspace : Workspace) (resolver : Resolver) : Prop where
  configs : (resolver.configs.map Prod.fst).Nodup
  chunks : (resolver.chunks.map Prod.fst).Nodup
  counted : resolver.resolutions = resolver.configs.length + resolver.chunks.length
  warned : ∀ document, workspace.Holds document →
    Owed workspace resolver document (resolver.warningsAbout document)

theorem Climb.failed {passed : List Path} {document : Document} {resolver later : Resolver}
    {result : Except DocumentError ResolvedConfig} {error : DocumentError}
    (climb : Climb workspace passed document resolver result later)
    (failure : result = .error error) :
    resolver.configs.lookup document.path = none ∨ document.path ∈ passed := by
  cases climb with
  | revisits again => exact .inr again
  | fails fresh unknown => exact .inl unknown
  | stops fresh unknown => exact .inl unknown
  | recalls | starts | merges => cases failure

/-- A failure leaves nothing behind but the documents opened. -/
theorem Climb.failure_keeps {passed : List Path} {document : Document} {resolver later : Resolver}
    {result : Except DocumentError ResolvedConfig} {error : DocumentError}
    (climb : Climb workspace passed document resolver result later)
    (failure : result = .error error) : later = resolver.withCache later.cache := by
  induction climb with
  | revisits | fails => rfl
  | recalls | starts | merges => cases failure
  | stops fresh unknown alone grown above ih =>
      rw [ih failure]
      rfl

theorem Climb.passed_unchanged {passed : List Path} {document : Document}
    {resolver later : Resolver} {result : Except DocumentError ResolvedConfig} {path : Path}
    (climb : Climb workspace passed document resolver result later) (member : path ∈ passed) :
    later.configs.lookup path = resolver.configs.lookup path := by
  induction climb with
  | revisits | recalls | fails => rfl
  | starts fresh =>
      have other := ne_of_mem_of_not_mem member fresh
      simp only [keepConfig, lookup_entry, if_neg other]
  | stops fresh unknown alone grown above ih => exact ih (List.mem_append_left _ member)
  | merges fresh unknown alone grown above ih =>
      have other := ne_of_mem_of_not_mem member fresh
      simp only [keepConfig, lookup_entry, if_neg other]
      exact ih (List.mem_append_left _ member)

theorem extend_warnings_file {base : ResolvedConfig} {layer : Layer} {bodyField : String}
    {warning : Finding} (member : warning ∈ base.extendWarnings layer bodyField) :
    warning.file = layer.source := by
  simp only [ResolvedConfig.extendWarnings, List.mem_append] at member
  rcases member with positive | negative
  · split at positive
    · rw [List.mem_singleton.mp positive, Notice.finding]
    · cases positive
  · split at negative
    · rw [List.mem_singleton.mp negative, Notice.finding]
    · cases negative

theorem chunk_warnings_file {parent child : ChunkConfig} {warning : Finding}
    (member : warning ∈ ResolvedChunk.extendWarnings parent child) :
    warning.file = child.source := by
  simp only [ResolvedChunk.extendWarnings, List.mem_append, Option.mem_toList] at member
  rcases member with untyped | replaced
  · unfold ResolvedChunk.untypedParentWarning? at untyped
    split at untyped
    · rw [← Option.some.inj untyped, Notice.finding]
    · cases untyped
  · split at replaced
    · rw [List.mem_singleton.mp replaced, Notice.finding]
    · cases replaced

theorem merged_file {document : Document} {config : ResolvedConfig} {warnings : List Finding}
    (merged : Merged workspace document config warnings) :
    ∀ warning ∈ warnings, warning.file = document.path := by
  cases merged with
  | starts =>
      intro warning member
      cases member
  | follows alone above =>
      intro warning member
      obtain ⟨_, _, read, layered, _⟩ := outlook_follows_read alone
      rw [extend_warnings_file member, (layer_source read layered).source]

theorem chunk_outlook_files {document : Document} {chunk : ResolvedChunk}
    {warnings : List Finding} (merged : chunkOutlook workspace document = .ok (chunk, warnings)) :
    ∀ warning ∈ warnings, warning.file = document.path := by
  obtain ⟨child, read, ⟨_, _, rfl⟩ | ⟨_, _, base, _, _, _, _, rfl⟩⟩ := chunk_outlook_read merged
  · intro warning member
    cases member
  · intro warning member
    rw [← (Config.read_chunk read).source]
    exact chunk_warnings_file member

theorem Merged.not_chunk {document : Document} {config : ResolvedConfig} {warnings : List Finding}
    (merged : Merged workspace document config warnings) :
    ∀ result, chunkOutlook workspace document ≠ .ok result := by
  rintro ⟨chunk, own⟩ chunked
  obtain ⟨child, read, _⟩ := chunk_outlook_read chunked
  cases merged with
  | starts alone =>
      obtain ⟨_, other, _⟩ := outlook_starts_read alone
      cases read.symm.trans other
  | follows alone above =>
      obtain ⟨_, _, other, layered, _⟩ := outlook_follows_read alone
      cases read.symm.trans other
      cases layered

theorem filter_about_own {path : Path} {warnings : List Finding}
    (own : ∀ warning ∈ warnings, warning.file = path) :
    warnings.filter (fun warning => warning.file == path) = warnings := by
  apply List.filter_eq_self.mpr
  intro warning member
  exact beq_iff_eq.mpr (own warning member)

theorem filter_about_other {path other : Path} {warnings : List Finding}
    (own : ∀ warning ∈ warnings, warning.file = path) (differ : other ≠ path) :
    warnings.filter (fun warning => warning.file == other) = [] := by
  apply List.filter_eq_nil_iff.mpr
  intro warning member same
  exact differ ((beq_iff_eq.mp same).symm.trans (own warning member))

theorem Owed.moved {resolver later : Resolver} {document : Document} {warnings : List Finding}
    (owed : Owed workspace resolver document warnings)
    (configs : later.configs.lookup document.path = resolver.configs.lookup document.path)
    (chunks : later.chunks.lookup document.path = resolver.chunks.lookup document.path) :
    Owed workspace later document warnings := by
  cases owed with
  | config known merged => exact .config (configs.trans known) merged
  | chunk known merged => exact .chunk (chunks.trans known) merged
  | nothing noConfig noChunk => exact .nothing (configs.trans noConfig) (chunks.trans noChunk)

theorem Owed.quiet {resolver : Resolver} {document : Document} {warnings : List Finding}
    (owed : Owed workspace resolver document warnings)
    (noConfig : resolver.configs.lookup document.path = none)
    (noChunk : resolver.chunks.lookup document.path = none) : warnings = [] := by
  cases owed with
  | config known => cases noConfig.symm.trans known
  | chunk known => cases noChunk.symm.trans known
  | nothing => rfl

theorem Balanced.start (cache : Cache) : (start cache).Balanced workspace where
  configs := .nil
  chunks := .nil
  counted := rfl
  warned := fun _ _ => .nothing rfl rfl

theorem Balanced.with_cache {resolver : Resolver} (balanced : resolver.Balanced workspace)
    (cache : Cache) : (resolver.withCache cache).Balanced workspace where
  configs := balanced.configs
  chunks := balanced.chunks
  counted := balanced.counted
  warned := fun document held => (balanced.warned document held).moved rfl rfl

theorem Sound.no_chunk {resolver : Resolver} {document : Document} {config : ResolvedConfig}
    {own : List Finding} (sound : resolver.Sound workspace) (named : workspace.tree.WellNamed)
    (held : workspace.Holds document) (merged : Merged workspace document config own) :
    resolver.chunks.lookup document.path = none := by
  rw [Option.eq_none_iff_forall_ne_some]
  intro chunk known
  obtain ⟨_, chunked⟩ := sound.recalled_chunk named held known
  exact merged.not_chunk _ chunked

theorem Sound.no_config {resolver : Resolver} {document : Document} {chunk : ResolvedChunk}
    {own : List Finding} (sound : resolver.Sound workspace) (named : workspace.tree.WellNamed)
    (held : workspace.Holds document)
    (merged : chunkOutlook workspace document = .ok (chunk, own)) :
    resolver.configs.lookup document.path = none := by
  rw [Option.eq_none_iff_forall_ne_some]
  intro config known
  obtain ⟨_, found⟩ := sound.recalled named held known
  exact found.not_chunk _ merged

/-- When something is remembered of a document that nothing was known about, and warnings about it
are added, then that document is owed those warnings and the others are owed what they were. -/
theorem Balanced.warned_later {resolver later : Resolver} {document : Document} {own : List Finding}
    (balanced : resolver.Balanced workspace) (named : workspace.tree.WellNamed)
    (held : workspace.Holds document)
    (noConfig : resolver.configs.lookup document.path = none)
    (noChunk : resolver.chunks.lookup document.path = none)
    (owed : Owed workspace later document own)
    (added : later.warnings = resolver.warnings ++ own)
    (files : ∀ warning ∈ own, warning.file = document.path)
    (configs : ∀ path, path ≠ document.path →
      later.configs.lookup path = resolver.configs.lookup path)
    (chunks : ∀ path, path ≠ document.path →
      later.chunks.lookup path = resolver.chunks.lookup path) :
    ∀ other, workspace.Holds other → Owed workspace later other (later.warningsAbout other) := by
  intro other otherHeld
  have before := balanced.warned other otherHeld
  rw [warningsAbout] at before
  rw [warningsAbout, added, List.filter_append]
  by_cases same : other.path = document.path
  · obtain rfl := otherHeld.eq_of_path named held same
    rw [before.quiet noConfig noChunk, filter_about_own files, List.nil_append]
    exact owed
  · rw [filter_about_other files same, List.append_nil]
    exact before.moved (configs _ same) (chunks _ same)

theorem Balanced.keep_config {resolver : Resolver} {document : Document} {config : ResolvedConfig}
    {own : List Finding} (balanced : resolver.Balanced workspace)
    (sound : resolver.Sound workspace) (named : workspace.tree.WellNamed)
    (held : workspace.Holds document) (merged : Merged workspace document config own)
    (unknown : resolver.configs.lookup document.path = none) :
    (resolver.keepConfig document.path config own).2.Balanced workspace where
  configs := List.nodup_cons.mpr ⟨not_mem_of_lookup unknown, balanced.configs⟩
  chunks := balanced.chunks
  counted := by
    have counted := balanced.counted
    simp only [Resolver.keepConfig, List.length_cons]
    omega
  warned := by
    have known : ((document.path, config) :: resolver.configs).lookup document.path =
        some config := List.lookup_cons_self
    exact balanced.warned_later named held unknown (sound.no_chunk named held merged)
      (.config known merged) rfl (merged_file merged)
      (fun path differs => by simp only [Resolver.keepConfig, lookup_entry, if_neg differs])
      fun _ _ => rfl

theorem Balanced.keep_chunk {resolver : Resolver} {document : Document} {chunk : ResolvedChunk}
    {own : List Finding} (balanced : resolver.Balanced workspace)
    (sound : resolver.Sound workspace) (named : workspace.tree.WellNamed)
    (held : workspace.Holds document) (merged : chunkOutlook workspace document = .ok (chunk, own))
    (unknown : resolver.chunks.lookup document.path = none) :
    (resolver.keepChunk document.path chunk own).2.Balanced workspace where
  configs := balanced.configs
  chunks := List.nodup_cons.mpr ⟨not_mem_of_lookup unknown, balanced.chunks⟩
  counted := by
    have counted := balanced.counted
    simp only [Resolver.keepChunk, List.length_cons]
    omega
  warned := by
    have known : ((document.path, chunk) :: resolver.chunks).lookup document.path =
        some chunk := List.lookup_cons_self
    exact balanced.warned_later named held (sound.no_config named held merged) unknown
      (.chunk known merged) rfl (chunk_outlook_files merged) (fun _ _ => rfl)
      fun path differs => by simp only [Resolver.keepChunk, lookup_entry, if_neg differs]

theorem Climb.balanced {passed : List Path} {document : Document} {resolver later : Resolver}
    {result : Except DocumentError ResolvedConfig}
    (climb : Climb workspace passed document resolver result later)
    (named : workspace.tree.WellNamed) (held : workspace.Holds document)
    (sound : resolver.Sound workspace) (before : resolver.Balanced workspace) :
    later.Balanced workspace := by
  induction climb with
  | revisits | recalls => exact before
  | fails => exact before.with_cache _
  | starts fresh unknown alone =>
      exact before.keep_config sound named held (.starts alone) unknown
  | stops fresh unknown alone grown above ih =>
      exact ih (outlook_parent_held alone) (sound.with_cache grown) (before.with_cache _)
  | merges fresh unknown alone grown above ih =>
      have parentHeld := outlook_parent_held alone
      have after := ih parentHeld (sound.with_cache grown) (before.with_cache _)
      obtain ⟨laterSound, answered⟩ := above.sound named parentHeld (sound.with_cache grown)
      obtain ⟨_, parentMerged⟩ := answered _ rfl
      have stillUnknown := above.passed_unchanged (List.mem_append_right _ (List.mem_singleton_self _))
      exact after.keep_config laterSound named held (.follows alone parentMerged)
        (stillUnknown.trans unknown)

theorem ChunkStep.balanced {document : Document} {resolver later : Resolver}
    {result : Except DocumentError ResolvedChunk}
    (step : ChunkStep workspace document resolver result later)
    (named : workspace.tree.WellNamed) (held : workspace.Holds document)
    (sound : resolver.Sound workspace) (before : resolver.Balanced workspace) :
    later.Balanced workspace := by
  cases step with
  | recalls => exact before
  | fails => exact before.with_cache _
  | merges unknown alone grown =>
      exact (before.with_cache _).keep_chunk (sound.with_cache grown) named held alone unknown

end PromptLoom.Resolver
