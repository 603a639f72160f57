import PromptLoom.Proofs.Graph.Layers
import PromptLoom.Proofs.Prompt.Causes
import PromptLoom.Proofs.Prompt.Completeness

/-!
# Errors of a resolution that the check of references tells

After the first four phases a full resolution may still fail over a name that its bodies write: a
placeholder without an import, a chunk that is not declared, a placeholder of a chunk that nothing
stands ready for. Where a body of the chain writes the name as it stands, the check of references
has told the error already, whatever else is wrong, unless it takes a name for known that the merged
prompt has lost.
-/

namespace PromptLoom

open Workspace Resolver

set_option autoImplicit false

variable {workspace : Workspace}

/-- A chunk that a config declares registers a name by nothing but a declaration that is superseded
between its parent and the chunk. -/
def ChunkSuperseded (workspace : Workspace) (graph : Graph) (config : ResolvedConfig)
    (chunkName name : String) : Prop :=
  ∃ decl document chunk warnings, config.chunks.get? chunkName = some decl ∧
    workspace.target decl.reference decl.origin (Config.chunkField chunkName) = .ok document ∧
    chunkOutlook workspace document = .ok (chunk, warnings) ∧
    Superseded ((graph.chunkLayers document.location).map ChunkConfig.imports) chunk.imports name

namespace Graph

def declared (graph : Graph) (start : Location) : Declared :=
  Declared.ofChain graph (graph.chain start)

/-- A body of a document on the chain of another. -/
def BodyOnChain (graph : Graph) (start : Location) (path : Path) (field body : String) : Prop :=
  ∃ location ∈ graph.chain start, ∃ config, graph.config? location = some config ∧
    path = .ofLocation location ∧ (field, body) ∈ config.bodies

/-- Why the check takes a name for known that the merged prompt does not know: the import that
registers it is declared anew on the chain, it belongs to a chunk that no merged body mentions, or
the import that registers it is declared anew by a chunk over its parent. -/
inductive Stale (workspace : Workspace) (graph : Graph) (start : Location)
    (config : ResolvedConfig) : String → Prop where
  | redeclared (name : String)
      (superseded : Superseded ((graph.chainConfigs (graph.chain start)).map Config.imports)
        config.imports name) : Stale workspace graph start config name
  | unmentioned (chunkName imported : String) (outline : ChunkOutline)
      (known : (graph.declared start).chunks.get? chunkName = some (some outline))
      (registers : imported ∈ outline.imports) (absent : chunkName ∉ config.mentioned) :
      Stale workspace graph start config (chunkName ++ "." ++ imported)
  | redeclaredByChunk (chunkName imported : String)
      (superseded : ChunkSuperseded workspace graph config chunkName imported) :
      Stale workspace graph start config (chunkName ++ "." ++ imported)

/-- What the check of references has told about an error of a full resolution. A name counts as
written where it stands in a body of the chain as it is; the braces of a mention are no
placeholder. -/
structure Tells (workspace : Workspace) (graph : Graph) (start : Location)
    (config : ResolvedConfig) (error : DocumentError) : Prop where
  placeholder : ∀ path field body, graph.BodyOnChain start path field body →
    ∀ found ∈ LocatedPlaceholder.ofText body,
      (∀ mention ∈ LocatedMention.ofText body, mention.start + 1 ≠ found.start) →
      error.cause = .unknownPlaceholder found.placeholder.name →
      .fault path field error.cause ∈ graph.referenceFindings ∨
        Stale workspace graph start config found.placeholder.name
  chunk : ∀ path field body, graph.BodyOnChain start path field body →
    ∀ mention ∈ LocatedMention.ofText body, ∀ ref, mention.parsed = .ok ref →
      error.cause = .unknownChunk ref.name →
      .fault path field error.cause ∈ graph.referenceFindings
  unfilled : ∀ path field body, graph.BodyOnChain start path field body →
    ∀ mention ∈ LocatedMention.ofText body, ∀ ref, mention.parsed = .ok ref →
      ∀ name, (∀ binding ∈ ref.bindings, binding.1 ≠ name) →
      error.cause = .unfilledPlaceholder name ref.name →
      .ofError error ∈ graph.referenceFindings ∨
        ChunkSuperseded workspace graph config ref.name name

variable {graph : Graph}

theorem of_chain_ordered (chain : List Location) :
    (Declared.ofChain graph chain).chunks.Ordered := by
  induction chain with
  | nil => exact NameMap.empty_ordered
  | cons place rest ih =>
      rw [of_chain_cons, Declared.add]
      split
      · exact ih
      · exact List.foldlRecOn _ _ ih fun _ before _ _ => NameMap.insert_ordered before _ _

theorem mem_reference_findings {entry : Document} {layer : Layer} {generation : Generation}
    {path : Path} {field body : String} {finding : Finding} (present : graph.entry = some entry)
    (prompt : graph.entryConfig? = some (.prompt layer generation))
    (written : graph.BodyOnChain entry.location path field body)
    (member : finding ∈ (graph.declared entry.location).bodyFindings path field body) :
    finding ∈ graph.referenceFindings := by
  obtain ⟨location, above, config, known, rfl, inside⟩ := written
  unfold referenceFindings
  rw [present, prompt]
  refine List.mem_flatMap.mpr ⟨location, above, ?_⟩
  unfold Declared.documentFindings
  rw [known]
  exact List.mem_flatMap.mpr ⟨(field, body), inside, member⟩

theorem mention_told {entry : Document} {layer : Layer} {generation : Generation} {path : Path}
    {field body : String} {mention : LocatedMention} {finding : Finding}
    (present : graph.entry = some entry)
    (prompt : graph.entryConfig? = some (.prompt layer generation))
    (on : graph.BodyOnChain entry.location path field body)
    (written : mention ∈ LocatedMention.ofText body)
    (member : finding ∈ (graph.declared entry.location).mentionFindings path field mention) :
    finding ∈ graph.referenceFindings :=
  mem_reference_findings present prompt on
    (List.mem_append_left _ (List.mem_flatMap.mpr ⟨mention, written, member⟩))

theorem Tells.of_other {start : Location} {config : ResolvedConfig} {error : DocumentError}
    (noPlaceholder : ∀ name, error.cause ≠ .unknownPlaceholder name)
    (noChunk : ∀ name, error.cause ≠ .unknownChunk name)
    (noUnfilled : ∀ name chunkName, error.cause ≠ .unfilledPlaceholder name chunkName) :
    graph.Tells workspace start config error where
  placeholder := fun _ _ _ _ _ _ _ same => absurd same (noPlaceholder _)
  chunk := fun _ _ _ _ _ _ _ _ same => absurd same (noChunk _)
  unfilled := fun _ _ _ _ _ _ _ _ _ _ same => absurd same (noUnfilled _ _)

section Cleared

variable {entry : Document} {entryConfig : Config} {config : ResolvedConfig} {own : List Finding}
  (clear : graph.Cleared workspace) (reads : graph.Reads workspace entry entryConfig)
  (merged : Merged workspace entry config own)

include clear reads merged

theorem declared_chunk_opens {chunkName : String} {outline : ChunkOutline}
    (known : (graph.declared entry.location).chunks.get? chunkName = some (some outline)) :
    ∃ decl document chunk warnings own, config.chunks.get? chunkName = some decl ∧
      workspace.target decl.reference decl.origin (Config.chunkField chunkName) = .ok document ∧
      document.location ∈ graph.locations ∧
      chunkOutlook workspace document = .ok (chunk, warnings) ∧
      (Scope.resolve workspace chunk.imports .empty).1 = .ok own ∧
      graph.outline? document.location = some outline := by
  have listed : (graph.declared entry.location).chunks.contains chunkName = true :=
    NameMap.contains_eq_true_iff.mpr ⟨_, known⟩
  obtain ⟨decl, declares⟩ := NameMap.contains_eq_true_iff.mp
    (clear.charts.chain_chunk_known merged reads.held reads.inside listed)
  obtain ⟨document, documentConfig, leads, documentReads⟩ :=
    clear.chunk_target reads merged (NameMap.mem_of_get? declares)
  have covers := clear.charts.chain_covers merged reads.held reads.inside
  obtain ⟨inside, outlined⟩ := covers.outline_of clear.charts declares leads
  have same : graph.outline? document.location = some outline :=
    (Option.some.inj (known.symm.trans outlined)).symm
  -- only a chunk has an outline
  have read := clear.charts.config_read documentReads
  cases documentConfig with
  | template | prompt | variations =>
      simp only [outline?, chunk?, read, Option.map_none] at same
      cases same
  | chunk child =>
      obtain ⟨chunk, warnings, resolves, clean⟩ := clear.chunk_resolves documentReads
      obtain ⟨own, resolved⟩ := Scope.resolve_clean .same clean
      exact ⟨decl, document, chunk, warnings, own, declares, leads, inside, resolves, resolved,
        same⟩

/-- A name that the check takes for known is known to the merged prompt or stale. -/
theorem known_or_stale {cache : Cache} {scope : Scope} {name : String}
    (resolved : (Scope.resolve workspace config.imports cache).1 = .ok scope)
    (known : name ∈ (graph.declared entry.location).scope)
    (absent : (Expansion.liftChunks workspace config scope config.mentioned).get? name = none) :
    Stale workspace graph entry.location config name := by
  obtain ⟨unlifted, unknown⟩ := Expansion.get?_lift_none absent
  rcases List.mem_append.mp known with registered | inChunk
  · rcases clear.charts.chain_import_known merged reads.held reads.inside registered
      with ⟨decl, declares, registers⟩ | superseded
    · obtain ⟨set, found⟩ := NameMap.contains_eq_true_iff.mp
        (Scope.resolve_registers resolved decl declares name registers)
      cases unknown.symm.trans found
    · exact .redeclared name superseded
  · obtain ⟨⟨chunkName, outlined⟩, declares, inside⟩ := List.mem_flatMap.mp inChunk
    have outlines := NameMap.get?_of_mem (of_chain_ordered _) declares
    cases outlined with
    | none => cases inside
    | some outline =>
        obtain ⟨imported, registers, rfl⟩ := List.mem_map.mp inside
        by_cases mentioned : chunkName ∈ config.mentioned
        · obtain ⟨decl, document, chunk, warnings, own, declared, leads, place, resolves, ownScope,
            same⟩ := declared_chunk_opens clear reads merged outlines
          rcases clear.charts.chunk_import_known (target_holds leads) place resolves same registers
            with ⟨kept, declares, registers⟩ | superseded
          · obtain ⟨set, found⟩ := NameMap.contains_eq_true_iff.mp
              (Scope.resolve_registers ownScope kept declares imported registers)
            have opens :=
              ChunkDecl.outlook_opens.mpr ⟨document, warnings, leads, resolves, ownScope⟩
            refine absurd ⟨imported, rfl, ?_⟩ (unlifted chunkName mentioned set)
            simp only [ResolvedConfig.ownImports, declared, opens]
            exact found
          · exact .redeclaredByChunk chunkName imported
              ⟨decl, document, chunk, warnings, declared, leads, resolves, superseded⟩
        · exact .unmentioned chunkName imported outline outlines registers mentioned

/-- A mention that does not bind what a chunk is left without is told about it. -/
theorem unfilled_or_superseded {decl : ChunkDecl} {chunk : ResolvedChunk} {scope : Scope}
    {ref written : ChunkRef} {found : Placeholder}
    (declares : config.chunks.get? ref.name = some decl)
    (opens : decl.outlook workspace ref.name = .ok (chunk, scope))
    (inside : found ∈ placeholders chunk.body) (unready : Chunk.Unready chunk ref scope found)
    (same : written.name = ref.name)
    (unbound : ∀ binding ∈ written.bindings, binding.1 ≠ found.name) :
    (∃ outline, (graph.declared entry.location).chunks.get? written.name = some (some outline) ∧
      .ofError ⟨chunk.source, some "template", .unfilledPlaceholder found.name ref.name⟩ ∈
        outline.findings written) ∨
      ChunkSuperseded workspace graph config ref.name found.name := by
  obtain ⟨document, warnings, leads, resolves, resolved⟩ := ChunkDecl.outlook_opens.mp opens
  have covers := clear.charts.chain_covers merged reads.held reads.inside
  obtain ⟨place, outlined⟩ := covers.outline_of clear.charts declares leads
  have held := target_holds leads
  obtain ⟨outline, known, tells⟩ := clear.charts.outline_of held place resolves
  by_cases imported : found.name ∈ outline.imports
  · rcases clear.charts.chunk_import_known held place resolves known imported
      with ⟨kept, declared, registers⟩ | superseded
    · have own := Scope.resolve_registers resolved kept declared found.name registers
      cases own.symm.trans unready.notImported
    · exact .inr ⟨decl, document, chunk, warnings, declares, leads, resolves, superseded⟩
  · have unfilled : found.name ∉ outline.filled := by
      intro filled
      rcases clear.charts.chunk_filled_known held place resolves known filled
        with overridden | defaulted
      · cases overridden.symm.trans unready.notOverridden
      · cases defaulted.symm.trans unready.notDefaulted
    have source : outline.source = chunk.source :=
      (outline_layers known).1.trans (chunk_outlook_source resolves).symm
    refine .inl ⟨outline, same ▸ known ▸ outlined, ?_⟩
    rw [ChunkOutline.findings, ← source, ← same]
    refine List.mem_map.mpr ⟨found, List.mem_filter.mpr ⟨tells.body ▸ inside, ?_⟩, rfl⟩
    simp only [unready.free, List.contains_eq_mem, unfilled, imported, decide_false, Bool.or_false,
      Bool.not_eq_true', List.any_eq_false, beq_iff_eq]
    exact unbound

theorem closed_chunk_stray {name : String} {decl : ChunkDecl} {errors : List DocumentError}
    (declares : config.chunks.get? name = some decl)
    (fails : decl.outlook workspace name = .error errors) :
    ∀ error ∈ errors, ∃ kind, error.cause = .notChunk kind := by
  obtain ⟨document, documentConfig, leads, documentReads⟩ :=
    clear.chunk_target reads merged (NameMap.mem_of_get? declares)
  by_cases isChunk : documentConfig.kind = .chunk
  · cases documentConfig with
    | template | prompt | variations => cases isChunk
    | chunk child =>
        obtain ⟨chunk, warnings, resolves, clean⟩ := clear.chunk_resolves documentReads
        obtain ⟨own, resolved⟩ := Scope.resolve_clean .same clean
        have opens := ChunkDecl.outlook_opens.mpr ⟨document, warnings, leads, resolves, resolved⟩
        cases fails.symm.trans opens
  · have stray : chunkOutlook workspace document = _ :=
      chunk_outlook_stray documentReads.read isChunk
    simp only [ChunkDecl.outlook, leads, stray] at fails
    intro error member
    rw [← Except.error.inj fails] at member
    rw [List.mem_singleton.mp member]
    exact ⟨_, rfl⟩

theorem undeclared_told {path : Path} {field : String} {mention : LocatedMention} {ref : ChunkRef}
    (unknown : config.chunks.get? ref.name = none) (parsed : mention.parsed = .ok ref) :
    .fault path field (.unknownChunk ref.name) ∈
      (graph.declared entry.location).mentionFindings path field mention := by
  have none : (graph.declared entry.location).chunks.get? ref.name = none := by
    rcases known : (graph.declared entry.location).chunks.get? ref.name with _ | outline
    · rfl
    · have declares := clear.charts.chain_chunk_known merged reads.held reads.inside
        (NameMap.contains_eq_true_iff.mpr ⟨_, known⟩)
      obtain ⟨decl, found⟩ := NameMap.contains_eq_true_iff.mp declares
      cases unknown.symm.trans found
  simp only [Declared.mentionFindings, parsed, none]
  exact List.mem_singleton_self _

section Entry

variable {layer : Layer} {generation : Generation} (present : graph.entry = some entry)
  (prompt : graph.entryConfig? = some (.prompt layer generation))

include present prompt

theorem filling_told {field : String} {ref : ChunkRef} {error : DocumentError}
    (fault : Expanded.RefFault workspace config field ref error) :
    graph.Tells workspace entry.location config error := by
  cases fault with
  | undeclared unknown =>
      refine ⟨?_, ?_, ?_⟩
      · intro path field body on found written apart same
        cases same
      · intro path field body on mention written other parsed same
        have names : ref.name = other.name := Cause.unknownChunk.inj same
        rw [same]
        exact mention_told present prompt on written
          (undeclared_told clear reads merged (names ▸ unknown) parsed)
      · intro path field body on mention written other parsed name unbound same
        cases same
  | closed decl errors error declares fails member =>
      obtain ⟨kind, stray⟩ := closed_chunk_stray clear reads merged declares fails error member
      apply Tells.of_other
      all_goals simp [stray]
  | filling decl chunk own error declares opens fault =>
      cases fault with
      | reserved name | valueImport field reference name | valueKey field reference key name =>
          apply Tells.of_other
          all_goals simp
      | unfilled found inside unready =>
          refine ⟨?_, ?_, ?_⟩
          · intro path field body on found written apart same
            cases same
          · intro path field body on mention written other parsed same
            cases same
          · intro path field body on mention written other parsed name unbound same
            obtain ⟨sameName, names⟩ := Cause.unfilledPlaceholder.inj same
            rw [← sameName] at unbound ⊢
            rw [← names]
            rcases unfilled_or_superseded clear reads merged declares opens inside unready
              names.symm unbound with ⟨outline, known, member⟩ | superseded
            · refine .inl (mention_told present prompt on written ?_)
              simp only [Declared.mentionFindings, parsed, known]
              exact member
            · exact .inr superseded

theorem fault_told {cache : Cache} {scope : Scope} {error : DocumentError}
    (resolved : (Scope.resolve workspace config.imports cache).1 = .ok scope)
    (fault : PrepareFault workspace config scope error) :
    graph.Tells workspace entry.location config error := by
  cases fault with
  | positive fault | negative fault =>
      cases fault with
      | malformed problem =>
          apply Tells.of_other
          all_goals simp
      | mention source ref error written fault =>
          exact filling_told clear reads merged present prompt fault
  | conflict name first second same =>
      apply Tells.of_other
      all_goals simp [same]
  | slot slotEntry free fault =>
      obtain ⟨file, field, cause⟩ := error
      cases fault with
      | selector text problem | empty | nothing selector =>
          apply Tells.of_other
          all_goals simp
      | unknown absent =>
          refine ⟨?_, ?_, ?_⟩
          · intro path field body on found written apart same
            have names : slotEntry.name = found.placeholder.name :=
              Cause.unknownPlaceholder.inj same
            rw [names] at absent free
            by_cases known : found.placeholder.name ∈ (graph.declared entry.location).scope
            · exact .inr (known_or_stale clear reads merged resolved known absent)
            · refine .inl (mem_reference_findings present prompt on (List.mem_append_right _ ?_))
              refine List.mem_map.mpr ⟨found, List.mem_filter.mpr ⟨written, ?_⟩, by rw [same]⟩
              have stray : ((LocatedMention.ofText body).any fun mention =>
                  mention.start + 1 == found.start) = false :=
                List.any_eq_false.mpr fun mention member => by simpa using apart mention member
              simp [stray, Declared.isKnown, free, known]
          · intro path field body on mention written other parsed same
            cases same
          · intro path field body on mention written other parsed name unbound same
            cases same

end Entry

end Cleared

end Graph

/-- When the first four phases find no error, the check of references tells the errors of a full
resolution that are about names in the bodies, each by itself and whatever the other errors are. -/
theorem reference_errors_told (named : workspace.tree.WellNamed) {path : Path} {separator : String}
    {cache second third fourth : Cache} {draws : Draws} (shown : workspace.Grown .empty cache)
    (secondShown : workspace.Grown .empty second) (thirdShown : workspace.Grown .empty third)
    (fourthShown : workspace.Grown .empty fourth)
    (structural :
      (Graph.ofEntry workspace path cache).1.structureFindings.any Finding.isError = false)
    (paths : (Graph.ofEntry workspace path cache).1.pathFindings.any Finding.isError = false)
    (inheritance : ((Graph.ofEntry workspace path cache).1.inheritanceFindings workspace
      second).1.any Finding.isError = false)
    (imports : (Graph.importFindings workspace third
      (Graph.ofEntry workspace path cache).1.nodes).1.any Finding.isError = false) :
    ∃ entry config, (Graph.ofEntry workspace path cache).1.entry = some entry ∧
      (Resolver.resolve workspace entry (.start fourth)).1 = .ok config ∧
      ∀ errors,
        (resolvePrompt workspace separator entry fourth draws).result = .error errors →
        ∀ error ∈ errors, (Graph.ofEntry workspace path cache).1.Tells workspace entry.location
          config error := by
  obtain ⟨clear, entry, entryConfig, config, own, present, reads, merged⟩ :=
    Graph.cleared_entry named shown secondShown thirdShown structural paths inheritance imports
  obtain ⟨_, _, kind⟩ := Graph.structure_findings_clean structural
  obtain ⟨read, isPrompt⟩ := Graph.entry_prompt clear.charts present reads kind
  obtain ⟨resolved, -⟩ := merged.resolves named reads.held (.start fourthShown)
  refine ⟨entry, config, present, resolved, ?_⟩
  intro errors failed error member
  obtain ⟨resolver, scope, sound, ⟨earlier, inScope⟩, prepared⟩ :=
    resolve_prompt_prepares named clear reads merged fourthShown failed
  have fault := prepare_fault named sound prepared member
  cases entryConfig with
  | template | chunk | variations => cases isPrompt
  | prompt layer generation =>
      exact Graph.fault_told clear reads merged present read inScope fault

def ResolutionRun.causes (run : ResolutionRun) : List Cause :=
  match run.result with
  | .error errors => errors.map DocumentError.cause
  | .ok _ => []

def strangers : Workspace where
  tree := ⟨[(["b"], .file "template: \"fine, \x7bprompt\x7d\"\n".toUTF8),
    (["c"], .file "type: x\ntemplate: \"\x7bEyes\x7d\"\n".toUTF8),
    (["p"], .file ("implements: b\ngeneration: \x7b\x7d\nchunks:\n  Part: c\n" ++
      "prompt: \"\x7bGhost\x7d @Nobody @Part\"\n").toUTF8)]⟩
  directory := []

theorem strangers_told :
    ∃ entry config errors,
      (resolvePrompt strangers "," entry .empty (.seeded 0)).result = .error errors ∧
        errors.map DocumentError.cause =
          [.unknownChunk "Nobody", .unfilledPlaceholder "Eyes" "Part",
            .unknownPlaceholder "Ghost"] ∧
        ∀ error ∈ errors, (Graph.ofEntry strangers ⟨"p"⟩ .empty).1.Tells strangers entry.location
          config error := by
  have checked : (Graph.ofEntryWithin strangers 5 ⟨"p"⟩).any (fun graph =>
      graph.startsClean strangers &&
      graph.entry.any fun entry =>
        (resolvePrompt strangers "," entry .empty (.seeded 0)).causes ==
          [.unknownChunk "Nobody", .unfilledPlaceholder "Eyes" "Part",
            .unknownPlaceholder "Ghost"]) = true := by
    decide +kernel
  simp only [Option.any_eq_true, Bool.and_eq_true, Graph.starts_clean_iff, beq_iff_eq,
    ResolutionRun.causes] at checked
  obtain ⟨graph, explored, ⟨structural, paths, inheritance, imports⟩, document, present,
    failed⟩ := checked
  obtain rfl := Graph.of_entry_within explored
  obtain ⟨entry, config, found, _, told⟩ := reference_errors_told (by decide +kernel) .same .same
    .same .same structural paths inheritance imports
  obtain rfl := Option.some.inj (present.symm.trans found)
  rcases resolved : (resolvePrompt strangers "," document .empty (.seeded 0)).result
    with errors | resolution
  · rw [resolved] at failed
    exact ⟨document, config, errors, resolved, failed, told errors resolved⟩
  · rw [resolved] at failed
    cases failed

/-- A prompt with names that its chain registers and that it has lost, and with a placeholder that
is put together from two bodies. -/
def lostNames : Workspace where
  tree := ⟨[
    (["b"], .file ("template: \"\x7bGh\x7bprompt\x7d\"\n" ++
      "imports:\n  Hair:\n    Red: v.yaml\n").toUTF8),
    (["c"], .file ("type: x\nimplements: f\nimports:\n  Eyes: v.yaml\n" ++
      "template: \"\x7bEyes.Left\x7d\"\n").toUTF8),
    (["d"], .file "type: x\nimports:\n  Eyes: v.yaml\ntemplate: face\n".toUTF8),
    (["f"], .file ("type: x\nimports:\n  Eyes:\n    Left: v.yaml\n" ++
      "template: frame\n").toUTF8),
    (["p"], .file ("implements: b\ngeneration: \x7b\x7d\nimports:\n  Hair: v.yaml\n" ++
      "chunks:\n  Body: c\n  Face: d\n" ++
      "prompt: \"ost\x7d \x7bHair.Red\x7d \x7bFace.Eyes\x7d @Body\"\n").toUTF8),
    (["v.yaml"], .file "k: v\n".toUTF8)]⟩
  directory := []

/-- The check of references does keep silent about such names. -/
theorem lost_names_untold :
    ∃ graph entry, (Graph.ofEntry lostNames ⟨"p"⟩ .empty).1 = graph ∧ graph.entry = some entry ∧
      graph.structureFindings.any Finding.isError = false ∧
      graph.pathFindings.any Finding.isError = false ∧
      (graph.inheritanceFindings lostNames .empty).1.any Finding.isError = false ∧
      (Graph.importFindings lostNames .empty graph.nodes).1.any Finding.isError = false ∧
      (resolvePrompt lostNames "," entry .empty (.seeded 0)).causes =
        [.unfilledPlaceholder "Eyes.Left" "Body", .unknownPlaceholder "Ghost",
          .unknownPlaceholder "Hair.Red", .unknownPlaceholder "Face.Eyes"] ∧
      graph.referenceFindings = [] := by
  have checked : (Graph.ofEntryWithin lostNames 12 ⟨"p"⟩).any (fun graph =>
      graph.startsClean lostNames &&
      (graph.entry.any fun entry =>
        (resolvePrompt lostNames "," entry .empty (.seeded 0)).causes ==
          [.unfilledPlaceholder "Eyes.Left" "Body", .unknownPlaceholder "Ghost",
            .unknownPlaceholder "Hair.Red", .unknownPlaceholder "Face.Eyes"]) &&
      graph.referenceFindings == []) = true := by
    decide +kernel
  simp only [Option.any_eq_true, Bool.and_eq_true, Graph.starts_clean_iff, beq_iff_eq] at checked
  obtain ⟨graph, explored, ⟨⟨structural, paths, inheritance, imports⟩, entry, present, failed⟩,
    silent⟩ := checked
  exact ⟨graph, entry, by rw [Graph.of_entry_within explored], present, structural, paths,
    inheritance, imports, failed, silent⟩

end PromptLoom
