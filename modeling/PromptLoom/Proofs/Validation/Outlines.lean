import PromptLoom.Proofs.Graph.Closure
import PromptLoom.Proofs.Graph.Layers
import PromptLoom.Proofs.Inheritance.Calls
import PromptLoom.Proofs.Inheritance.ChunkStep
import PromptLoom.Proofs.Validation.Phases

/-!
# Outlines match the chunks that resolve

An outline lists what the raw declarations of a chunk and its parent name, while a chunk that
resolves merges them. When the first four phases find no error, every chunk that the entry reaches
resolves, the two agree on the body and on the names with an override or a default, and the outline
knows every name that the merged imports register. So the check of a mention flags a placeholder
only if nothing is found for it when the mention is filled.
-/

namespace PromptLoom

open Relation Workspace Resolver

set_option autoImplicit false

variable {workspace : Workspace}

/-- An outline agrees with a resolved chunk whose own imports are in scope: the body and the filled
names are those of the chunk, the imported names are known, and a mention is flagged for a
placeholder only if filling it finds nothing there. -/
structure ChunkOutline.Matches (outline : ChunkOutline) (chunk : ResolvedChunk) (own : Scope) :
    Prop where
  body : outline.body = chunk.body
  filled : ∀ name, name ∈ outline.filled ↔
    chunk.overrides.contains name = true ∨ chunk.defaults.contains name = true
  imports : own.NamesIn outline.imports
  silent : ∀ (ref : ChunkRef) (caller : Scope), ∀ found ∈ placeholders outline.body,
    Chunk.filling chunk ref own caller found ≠
        .error ⟨chunk.source, some "template", .unfilledPlaceholder found.name ref.name⟩ →
      .fault outline.source "template" (.unfilledPlaceholder found.name ref.name) ∉
        outline.findings ref

theorem unfilled_finding_name {source : Path} {name other chunk : String}
    (same : Finding.fault source "template" (.unfilledPlaceholder name chunk) =
      .fault source "template" (.unfilledPlaceholder other chunk)) : name = other := by
  have wording : ∀ shown, Cause.message (.unfilledPlaceholder shown chunk) =
      "placeholder `" ++ ("\x7b" ++ shown ++ "\x7d") ++ s!"` of chunk `{chunk}`" ++
        " is not bound, defaulted, overridden or imported" := fun _ => rfl
  simp only [Finding.fault, Finding.ofError, DocumentError.message, wording, Finding.mk.injEq,
    String.append_left_inj, String.append_right_inj] at same
  exact same.2.2.2.2

/-- A placeholder that is flagged is not reserved, and has neither a binding nor an override, a
default or an import that the outline knows. -/
theorem ChunkOutline.flagged_nothing {outline : ChunkOutline} {ref : ChunkRef} {name : String}
    (flagged : .fault outline.source "template" (.unfilledPlaceholder name ref.name) ∈
      outline.findings ref) :
    Placeholder.isReserved name = false ∧ (∀ binding ∈ ref.bindings, binding.1 ≠ name) ∧
      name ∉ outline.filled ∧ name ∉ outline.imports := by
  obtain ⟨found, unready, same⟩ := List.mem_map.mp flagged
  obtain rfl := unfilled_finding_name same
  have nothing := (List.mem_filter.mp unready).2
  simp only [Bool.not_eq_true', Bool.or_eq_false_iff, List.any_eq_false, beq_iff_eq,
    List.contains_eq_mem, decide_eq_false_iff_not] at nothing
  obtain ⟨⟨⟨unbound, free⟩, unfilled⟩, notImported⟩ := nothing
  exact ⟨free, fun binding member => unbound binding member, unfilled, notImported⟩

theorem Chunk.filling_nothing {chunk : ResolvedChunk} {ref : ChunkRef} {own caller : Scope}
    {found : Placeholder} (free : Placeholder.isReserved found.name = false)
    (unbound : ∀ binding ∈ ref.bindings, binding.1 ≠ found.name)
    (notOverridden : chunk.overrides.get? found.name = none)
    (notDefaulted : chunk.defaults.get? found.name = none)
    (notImported : own.contains found.name = false) :
    filling chunk ref own caller found =
      .error ⟨chunk.source, some "template", .unfilledPlaceholder found.name ref.name⟩ := by
  have absent : bound? ref found.name = none := by
    apply List.lookup_eq_none_iff.mpr
    intro binding member
    exact bne_iff_ne.mpr (Ne.symm (unbound binding member))
  simp only [filling, free, absent, notOverridden, notDefaulted, notImported, Bool.false_eq_true,
    if_false]

namespace Graph

variable {graph : Graph}

theorem Charts.outline_matches (charts : graph.Charts workspace []) {document : Document}
    {chunk : ResolvedChunk} {warnings : List Finding} {cache : Cache} {own : Scope}
    {outline : ChunkOutline} (held : workspace.Holds document)
    (inside : document.location ∈ graph.locations)
    (merged : chunkOutlook workspace document = .ok (chunk, warnings))
    (known : graph.outline? document.location = some outline)
    (resolved : (Scope.resolve workspace chunk.imports cache).1 = .ok own) :
    outline.Matches chunk own := by
  obtain ⟨other, found, tells⟩ := charts.outline_of held inside merged
  obtain rfl := Option.some.inj (known.symm.trans found)
  have filled : ∀ name, name ∈ outline.filled ↔
      chunk.overrides.contains name = true ∨ chunk.defaults.contains name = true := by
    intro name
    constructor
    · exact charts.chunk_filled_known held inside merged known
    · rintro (overridden | defaulted)
      · obtain ⟨value, written⟩ := NameMap.contains_eq_true_iff.mp overridden
        exact tells.overrides name value written
      · obtain ⟨value, written⟩ := NameMap.contains_eq_true_iff.mp defaulted
        exact tells.defaults name value written
  have imports : own.NamesIn outline.imports :=
    Scope.resolve_names (Prod.ext resolved rfl) tells.imports
  refine ⟨tells.body, filled, imports, ?_⟩
  intro ref caller found written sourced flagged
  obtain ⟨free, unbound, unfilled, notImported⟩ := ChunkOutline.flagged_nothing flagged
  have missing := mt (filled found.name).mpr unfilled
  rw [not_or, NameMap.contains, NameMap.contains, Option.not_isSome_iff_eq_none,
    Option.not_isSome_iff_eq_none] at missing
  have absent := Bool.not_eq_true _ ▸ mt (imports found.name) notImported
  exact sourced (Chunk.filling_nothing free unbound missing.1 missing.2 absent)

/-- Every document that is reached from one that is read is read as well, when every reference
opens and every document is read. -/
theorem Charts.reached_reads (charts : graph.Charts workspace []) (opened : graph.openErrors = [])
    (readable : graph.readErrors = []) {entry document : Document} {config : Config}
    (reads : graph.Reads workspace entry config)
    (reached : ReflTransGen workspace.LeadsTo entry document) :
    ∃ found, graph.Reads workspace document found := by
  induction reached with
  | refl => exact ⟨config, reads⟩
  | tail _ leads ih =>
      obtain ⟨own, sourceReads⟩ := ih
      obtain ⟨same, field, reference, read, member, led⟩ := leads
      obtain rfl := Except.ok.inj (sourceReads.read.symm.trans read)
      obtain ⟨target, targetConfig, there, targetReads⟩ :=
        charts.reads_target opened readable sourceReads member
      obtain rfl := Except.ok.inj (led.symm.trans there)
      exact ⟨targetConfig, targetReads⟩

/-- When the first four phases find no error, every chunk that the entry reaches resolves, whatever
has been resolved before, its imports resolve, and its outline matches the result. -/
theorem chunk_outlines_match (named : workspace.tree.WellNamed) {path : Path}
    {cache second third : Cache} (shown : workspace.Grown .empty cache)
    (secondShown : workspace.Grown .empty second) (thirdShown : workspace.Grown .empty third)
    (structural : (ofEntry workspace path cache).1.structureFindings.any Finding.isError = false)
    (paths : (ofEntry workspace path cache).1.pathFindings.any Finding.isError = false)
    (inheritance : ((ofEntry workspace path cache).1.inheritanceFindings workspace second).1.any
      Finding.isError = false)
    (imports : (importFindings workspace third (ofEntry workspace path cache).1.nodes).1.any
      Finding.isError = false) :
    ∃ entry, (ofEntry workspace path cache).1.entry = some entry ∧
      ∀ document child, ReflTransGen workspace.LeadsTo entry document →
        document.read = .ok (.chunk child) →
        ∃ chunk outline,
          (ofEntry workspace path cache).1.outline? document.location = some outline ∧
          (∀ resolver : Resolver, resolver.Sound workspace →
            (resolveChunk workspace document resolver).1 = .ok chunk) ∧
          ∀ fourth, workspace.Grown .empty fourth →
            ∃ own, (Scope.resolve workspace chunk.imports fourth).1 = .ok own ∧
              outline.Matches chunk own := by
  obtain ⟨clear, entry, config, _, _, present, reads, _⟩ :=
    cleared_entry named shown secondShown thirdShown structural paths inheritance imports
  refine ⟨entry, present, ?_⟩
  intro document child reached read
  obtain ⟨found, documentReads⟩ :=
    clear.charts.reached_reads clear.opened clear.readable reads reached
  obtain rfl := Except.ok.inj (documentReads.read.symm.trans read)
  obtain ⟨chunk, warnings, merged, clean⟩ := clear.chunk_resolves documentReads
  obtain ⟨outline, known, -⟩ :=
    clear.charts.outline_of documentReads.held documentReads.inside merged
  refine ⟨chunk, outline, known, ?_, ?_⟩
  · intro resolver sound
    rw [(resolve_chunk_step sound.shown).answer named documentReads.held sound, merged]
    rfl
  · intro fourth fourthShown
    obtain ⟨own, resolved⟩ := Scope.resolve_clean fourthShown clean
    exact ⟨own, resolved, clear.charts.outline_matches documentReads.held documentReads.inside
      merged known resolved⟩

def hauntedFace : Workspace where
  tree := ⟨[(["b"], .file "template: \"fine, \x7bprompt\x7d\"\n".toUTF8),
    (["c"], .file ("type: x\nimplements: f\nimports:\n  Eyes:\n    Left: v.yaml\n" ++
      "template: \"\x7bEyes.Left\x7d \x7bGhost\x7d\"\n").toUTF8),
    (["f"], .file ("type: x\ndefaults:\n  Tone: warm\n" ++
      "template: \"\x7bTone\x7d \x7bprompt\x7d\"\n").toUTF8),
    (["p"], .file ("implements: b\ngeneration: \x7b\x7d\nchunks:\n  Part: c\n" ++
      "prompt: \"@Part\"\n").toUTF8),
    (["v.yaml"], .file "red: crimson\n".toUTF8)]⟩
  directory := []

theorem haunted_face_outlined : ∃ document chunk outline own,
    document.location = ["c"] ∧
    (ofEntry hauntedFace ⟨"p"⟩ .empty).1.outline? document.location = some outline ∧
    (resolveChunk hauntedFace document (.start .empty)).1 = .ok chunk ∧
    (Scope.resolve hauntedFace chunk.imports .empty).1 = .ok own ∧
    outline.Matches chunk own := by
  have checked : (ofEntryWithin hauntedFace 9 ⟨"p"⟩).any (fun graph =>
      !graph.structureFindings.any Finding.isError && !graph.pathFindings.any Finding.isError &&
      !(graph.inheritanceFindings hauntedFace .empty).1.any Finding.isError &&
      !(importFindings hauntedFace .empty graph.nodes).1.any Finding.isError &&
      graph.entry.any fun entry => entry.read.toOption.any fun config =>
        decide (("chunks.Part", "c") ∈ config.references) &&
        (hauntedFace.target "c" entry.path "chunks.Part").toOption.any fun document =>
          document.location == ["c"] &&
          document.read.toOption.any fun found => found.kind == .chunk) = true := by
    decide +kernel
  simp only [Option.any_eq_true, Bool.and_eq_true, Bool.not_eq_true', decide_eq_true_eq,
    beq_iff_eq] at checked
  obtain ⟨graph, explored, ⟨⟨⟨structural, paths⟩, inheritance⟩, imports⟩, entry, present, config,
    entryRead, declared, document, led, place, found, read, isChunk⟩ := checked
  obtain rfl := of_entry_within explored
  obtain ⟨start, same, outlined⟩ := chunk_outlines_match (by decide +kernel) .same .same .same
    structural paths inheritance imports
  obtain rfl := Option.some.inj (present.symm.trans same)
  have leads : hauntedFace.LeadsTo entry document :=
    ⟨config, "chunks.Part", "c", to_option_some entryRead, declared, to_option_some led⟩
  cases found with
  | template | prompt | variations => cases isChunk
  | chunk child =>
      obtain ⟨chunk, outline, known, resolves, opens⟩ :=
        outlined document child (.single leads) (to_option_some read)
      obtain ⟨own, resolved, agrees⟩ := opens .empty .same
      exact ⟨document, chunk, outline, own, place, known, resolves _ (.start .same), resolved,
        agrees⟩

end Graph

end PromptLoom
