import PromptLoom.Proofs.Graph.Coverage
import PromptLoom.Proofs.Inheritance.Origins
import PromptLoom.Proofs.Scope.Faults
import PromptLoom.Proofs.Validation.Clean
import PromptLoom.Proofs.Validation.Links

/-!
# What the first four phases rule out

A graph is cleared when the phases of structure, paths, inheritance and imports find no error in it.
Then every reference of every document leads to a document that can be read, the entry resolves, and
so do all imports and all chunks, whatever document declares them.
-/

namespace PromptLoom.Graph

open Relation Workspace Resolver

set_option autoImplicit false

variable {workspace : Workspace}

/-- A graph without an error of the first four phases. -/
structure Cleared (workspace : Workspace) (graph : Graph) : Prop where
  charts : graph.Charts workspace []
  opened : graph.openErrors = []
  readable : graph.readErrors = []
  links : graph.linkFindings.any Finding.isError = false
  imports : ∀ document config, graph.Reads workspace document config →
    ∀ entry ∈ config.imports.entries, specErrors workspace document.path entry.1 entry.2 = []

/-! ### Structure and paths -/

theorem of_error_findings {errors : List DocumentError}
    (clean : (errors.map Finding.ofError).any Finding.isError = false) : errors = [] := by
  cases errors with
  | nil => rfl
  | cons error rest => simp [Finding.of_error_is_error] at clean

theorem no_open_errors {graph : Graph} {queue : List Document}
    (charts : graph.Charts workspace queue)
    (structural : (graph.openFindings .structural).any Finding.isError = false)
    (paths : graph.pathFindings.any Finding.isError = false) : graph.openErrors = [] := by
  have noStructural := of_error_findings structural
  have noPath := of_error_findings paths
  apply List.eq_nil_iff_forall_not_mem.mpr
  intro error member
  rcases charts.faults error member with category | category
  · exact List.filter_eq_nil_iff.mp noStructural error member (beq_iff_eq.mpr category)
  · exact List.filter_eq_nil_iff.mp noPath error member (beq_iff_eq.mpr category)

theorem structure_findings_clean {graph : Graph}
    (clean : graph.structureFindings.any Finding.isError = false) :
    (graph.openFindings .structural).any Finding.isError = false ∧ graph.readErrors = [] ∧
      graph.entryFindings.any Finding.isError = false := by
  simp only [structureFindings, List.any_append, Bool.or_eq_false_iff] at clean
  exact ⟨clean.1.1, of_error_findings clean.1.2, clean.2⟩

theorem entry_reads {path : Path} {cache : Cache} (shown : workspace.Grown .empty cache)
    (opened : (ofEntry workspace path cache).1.openErrors = [])
    (readable : (ofEntry workspace path cache).1.readErrors = []) :
    ∃ entry config, (ofEntry workspace path cache).1.entry = some entry ∧
      (ofEntry workspace path cache).1.Reads workspace entry config := by
  have charts := of_entry_charts path shown
  rcases found : workspace.openEntry path cache with ⟨failure | entry, later⟩
  · rw [of_entry_failed found] at opened
    cases opened
  · have present := of_entry_entry found
    obtain ⟨held, met⟩ := charts.entry entry present
    have inside := Charts.met_inside met
    rcases read : entry.read with faults | config
    · exact absurd readable (charts.unread entry faults held inside read)
    · exact ⟨entry, config, present, held, inside, read⟩

/-! ### Inheritance -/

theorem inheritance_findings_clean {graph : Graph} {cache : Cache}
    (clean : (graph.inheritanceFindings workspace cache).1.any Finding.isError = false) :
    graph.linkFindings.any Finding.isError = false ∧
      (graph.mergeFindings workspace cache).1.any Finding.isError = false := by
  simp only [inheritanceFindings] at clean
  split at clean
  · next found => exact absurd clean (by simp [found])
  · next none =>
      simp only [List.any_append, Bool.or_eq_false_iff] at clean
      exact ⟨clean.1.1, clean.2⟩

theorem entry_prompt {graph : Graph} {entry : Document} {config : Config}
    (charts : graph.Charts workspace []) (present : graph.entry = some entry)
    (reads : graph.Reads workspace entry config)
    (prompt : graph.entryFindings.any Finding.isError = false) :
    graph.entryConfig? = some config ∧ config.kind = .prompt := by
  have read : graph.entryConfig? = some config := by
    rw [entryConfig?, present]
    exact charts.config_read reads
  refine ⟨read, ?_⟩
  apply Decidable.byContradiction
  intro other
  simp [entryFindings, present, read, other, Finding.of_error_is_error] at prompt

theorem entry_merged {graph : Graph} {cache : Cache} {entry : Document} {config : Config}
    (named : workspace.tree.WellNamed) (shown : workspace.Grown .empty cache)
    (charts : graph.Charts workspace []) (present : graph.entry = some entry)
    (reads : graph.Reads workspace entry config)
    (prompt : graph.entryFindings.any Finding.isError = false)
    (merged : (graph.mergeFindings workspace cache).1.any Finding.isError = false) :
    ∃ resolved own, Merged workspace entry resolved own := by
  obtain ⟨read, kind⟩ := entry_prompt charts present reads prompt
  cases config with
  | template | chunk | variations => cases kind
  | prompt layer settings =>
      have climb := resolve_climb named reads.held (Sound.start shown).shown
      have answered := (climb.sound named reads.held (.start shown)).2
      rcases resolved : (resolve workspace entry (.start cache)).1 with failure | config
      · simp [mergeFindings, present, read, resolved, Finding.of_error_is_error] at merged
      · obtain ⟨own, found⟩ := answered config resolved
        exact ⟨config, own, found⟩

/-! ### Imports -/

theorem import_findings_clean {cache : Cache} {nodes : List Node}
    (shown : workspace.Grown .empty cache)
    (clean : (importFindings workspace cache nodes).1.any Finding.isError = false) :
    ∀ node ∈ nodes, ∃ earlier, workspace.Grown .empty earlier ∧
      (documentImportFindings workspace node earlier).1.any Finding.isError = false := by
  induction nodes generalizing cache with
  | nil =>
      intro node member
      cases member
  | cons first rest ih =>
      simp only [importFindings, List.any_append, Bool.or_eq_false_iff] at clean
      have grown := document_import_findings_grown workspace first cache
      intro node member
      rcases List.mem_cons.mp member with rfl | later
      · exact ⟨cache, shown, clean.1⟩
      · exact ih (shown.trans grown) clean.2 node later

/-- Imports of a document whose references can all be read have no errors when the check of that
document finds none: no error is passed over. -/
theorem document_imports_clean {node : Node} {config : Config} {cache : Cache}
    (shown : workspace.Grown .empty cache) (known : node.config = some config)
    (reads : ∀ entry ∈ config.imports.entries, ∀ reference ∈ entry.2.documentRefs,
      ReadsFrom workspace node.path reference)
    (clean : (documentImportFindings workspace node cache).1.any Finding.isError = false) :
    ∀ entry ∈ config.imports.entries, specErrors workspace node.path entry.1 entry.2 = [] := by
  have all := ScopeRun.resolve_decls_errors shown (ImportDecl.declare node.path config.imports)
  have each : ∀ entry ∈ config.imports.entries, ∀ error ∈ specErrors workspace node.path entry.1
      entry.2, error ∈ (ScopeRun.resolveDecls (ScopeRun.openSet workspace)
        (ImportDecl.declare node.path config.imports) cache).errors := by
    intro entry declared error member
    rw [all]
    exact List.mem_flatMap.mpr ⟨(entry.1, ⟨entry.2, node.path⟩),
      List.mem_map.mpr ⟨entry, declared, rfl⟩, member⟩
  intro entry declared
  apply List.eq_nil_iff_forall_not_mem.mpr
  intro error member
  obtain ⟨file, category⟩ := spec_errors_stand (reads entry declared) error member
  have listed : importFinding error ∈ (documentImportFindings workspace node cache).1 := by
    simp only [documentImportFindings, known]
    exact List.mem_map_of_mem
      (List.mem_filter.mpr ⟨each entry declared error member, by simp [file, category]⟩)
  have grave := List.any_eq_false.mp clean _ listed
  exact grave rfl

theorem imports_clean {graph : Graph} {cache : Cache} (shown : workspace.Grown .empty cache)
    (charts : graph.Charts workspace []) (opened : graph.openErrors = [])
    (readable : graph.readErrors = [])
    (clean : (importFindings workspace cache graph.nodes).1.any Finding.isError = false)
    {document : Document} {config : Config} (reads : graph.Reads workspace document config) :
    ∀ entry ∈ config.imports.entries, specErrors workspace document.path entry.1 entry.2 = [] := by
  obtain ⟨node, member, place⟩ := List.mem_map.mp reads.inside
  obtain ⟨other, otherHeld, otherPlace, known⟩ := charts.nodes node member
  obtain rfl := otherHeld.eq_of_location reads.held (otherPlace.trans place)
  rw [reads.read] at known
  have path : node.path = other.path := by rw [Node.path, place, Document.path]
  obtain ⟨earlier, earlierShown, own⟩ := import_findings_clean shown clean node member
  rw [← path]
  refine document_imports_clean earlierShown known ?_ own
  intro entry declared reference inside
  rw [path]
  obtain ⟨target, targetConfig, leads, targetReads⟩ :=
    charts.reads_target opened readable reads (Config.import_reference declared inside)
  exact ⟨target, targetConfig, target_any_field leads, targetReads.read⟩

/-- The first four phases without an error clear a graph, and its entry resolves. -/
theorem cleared_entry {path : Path} {cache second third : Cache} (named : workspace.tree.WellNamed)
    (shown : workspace.Grown .empty cache) (secondShown : workspace.Grown .empty second)
    (thirdShown : workspace.Grown .empty third)
    (structural : (ofEntry workspace path cache).1.structureFindings.any Finding.isError = false)
    (paths : (ofEntry workspace path cache).1.pathFindings.any Finding.isError = false)
    (inheritance : ((ofEntry workspace path cache).1.inheritanceFindings workspace second).1.any
      Finding.isError = false)
    (imports : (importFindings workspace third (ofEntry workspace path cache).1.nodes).1.any
      Finding.isError = false) :
    (ofEntry workspace path cache).1.Cleared workspace ∧
      ∃ entry config resolved own, (ofEntry workspace path cache).1.entry = some entry ∧
        (ofEntry workspace path cache).1.Reads workspace entry config ∧
        Merged workspace entry resolved own := by
  have charts := of_entry_charts path shown
  obtain ⟨openClean, readable, prompt⟩ := structure_findings_clean structural
  have opened := no_open_errors charts openClean paths
  obtain ⟨links, merging⟩ := inheritance_findings_clean inheritance
  obtain ⟨entry, config, present, reads⟩ := entry_reads shown opened readable
  obtain ⟨resolved, own, merged⟩ :=
    entry_merged named secondShown charts present reads prompt merging
  refine ⟨⟨charts, opened, readable, links, ?_⟩, entry, config, resolved, own, present, reads,
    merged⟩
  intro document documentConfig documentReads
  exact imports_clean thirdShown charts opened readable imports documentReads

/-! ### What a cleared graph gives -/

namespace Cleared

variable {graph : Graph}

theorem follows_reads (clear : graph.Cleared workspace) {document parent : Document}
    {config : Config} (reads : graph.Reads workspace document config)
    (follows : Follows workspace document parent) :
    ∃ parentConfig, graph.Reads workspace parent parentConfig := by
  obtain ⟨layer, bodyField, generation, alone⟩ := follows
  obtain ⟨own, reference, read, layered, implemented, leads⟩ := outlook_follows_read alone
  obtain rfl := Except.ok.inj (reads.read.symm.trans read)
  have member := Config.parent_reference.mpr ((layer_parts layered).1.trans implemented)
  obtain ⟨target, targetConfig, led, targetReads⟩ :=
    clear.charts.reads_target clear.opened clear.readable reads member
  obtain rfl := Except.ok.inj (leads.symm.trans led)
  exact ⟨targetConfig, targetReads⟩

theorem above_reads (clear : graph.Cleared workspace) {document ancestor : Document}
    {config : Config} (reads : graph.Reads workspace document config)
    (above : ReflTransGen (Follows workspace) document ancestor) :
    ∃ ancestorConfig, graph.Reads workspace ancestor ancestorConfig := by
  induction above with
  | refl => exact ⟨config, reads⟩
  | tail way follows ih =>
      obtain ⟨_, lower⟩ := ih
      exact clear.follows_reads lower follows

theorem ancestor_reads (clear : graph.Cleared workspace) {document ancestor : Document}
    {config ancestorConfig : Config} {layer : Layer}
    (reads : graph.Reads workspace document config)
    (found : Ancestor workspace document ancestor ancestorConfig layer) :
    graph.Reads workspace ancestor ancestorConfig := by
  obtain ⟨read, ancestorReads⟩ := clear.above_reads reads found.above
  obtain rfl := Except.ok.inj (ancestorReads.read.symm.trans found.read)
  exact ancestorReads

theorem merged_imports (clear : graph.Cleared workspace) {document : Document} {config : Config}
    {resolved : ResolvedConfig} {own : List Finding}
    (reads : graph.Reads workspace document config)
    (merged : Merged workspace document resolved own) :
    ∀ entry ∈ resolved.imports.entries,
      specErrors workspace entry.2.origin entry.1 entry.2.spec = [] := by
  rintro ⟨name, decl⟩ member
  obtain ⟨ancestor, ancestorConfig, layer, found, declared, origin⟩ := merged.import_declared member
  rw [origin]
  exact clear.imports ancestor ancestorConfig (clear.ancestor_reads reads found) _ declared

theorem chunk_target (clear : graph.Cleared workspace) {document : Document} {config : Config}
    {resolved : ResolvedConfig} {own : List Finding} {name : String} {decl : ChunkDecl}
    (reads : graph.Reads workspace document config)
    (merged : Merged workspace document resolved own)
    (member : (name, decl) ∈ resolved.chunks.entries) :
    ∃ target targetConfig,
      workspace.target decl.reference decl.origin (Config.chunkField name) = .ok target ∧
        graph.Reads workspace target targetConfig := by
  obtain ⟨ancestor, ancestorConfig, layer, found, declared, origin⟩ := merged.chunk_declared member
  rw [origin]
  exact clear.charts.reads_target clear.opened clear.readable (clear.ancestor_reads reads found)
    (Config.chunk_reference.mpr declared)

theorem parent_fits (clear : graph.Cleared workspace) {document parent : Document}
    {child : ChunkConfig} {parentConfig : Config} {reference : String}
    (reads : graph.Reads workspace document (.chunk child))
    (implemented : child.implements = some reference)
    (leads : workspace.target reference document.path "implements" = .ok parent)
    (parentReads : graph.Reads workspace parent parentConfig) :
    ∃ base, parentConfig = .chunk base ∧ ResolvedChunk.extendFault? base child = none := by
  have linked : Linked workspace graph document parent
      ⟨document.path, .chunk child, reference, parent.path, parentConfig⟩ :=
    ⟨reads, rfl, implemented, leads, parentReads, rfl⟩
  have listed : ∀ finding ∈ Link.findings
      ⟨document.path, .chunk child, reference, parent.path, parentConfig⟩,
      finding.isError = false := by
    intro finding inside
    apply Bool.eq_false_iff.mpr
    exact List.any_eq_false.mp clear.links finding
      (List.mem_flatMap.mpr ⟨_, clear.charts.link_listed linked, inside⟩)
  cases parentConfig with
  | template | prompt | variations =>
      cases listed _ (List.mem_singleton_self _)
  | chunk base => exact ⟨base, rfl, link_fits listed⟩

theorem chunk_resolves (clear : graph.Cleared workspace) {document : Document}
    {child : ChunkConfig} (reads : graph.Reads workspace document (.chunk child)) :
    ∃ chunk warnings, chunkOutlook workspace document = .ok (chunk, warnings) ∧
      ∀ entry ∈ chunk.imports.entries,
        specErrors workspace entry.2.origin entry.1 entry.2.spec = [] := by
  have declared : ∀ other config, graph.Reads workspace other (.chunk config) →
      ∀ entry ∈ (ImportDecl.declare config.source config.imports).entries,
        specErrors workspace entry.2.origin entry.1 entry.2.spec = [] := by
    intro other config otherReads entry member
    obtain ⟨written, inside, rfl⟩ := List.mem_map.mp member
    rw [(Config.read_chunk otherReads.read).source]
    exact clear.imports other (.chunk config) otherReads written inside
  rcases implemented : child.implements with _ | reference
  · refine ⟨.root child, [], ?_, declared document child reads⟩
    simp only [chunkOutlook, reads.read, implemented]
  · obtain ⟨parent, parentConfig, leads, parentReads⟩ :=
      clear.charts.reads_target clear.opened clear.readable reads
        (Config.parent_reference.mpr implemented)
    obtain ⟨base, rfl, fits⟩ := clear.parent_fits reads implemented leads parentReads
    refine ⟨.extend base child, ResolvedChunk.extendWarnings base child, ?_, ?_⟩
    · simp only [chunkOutlook, reads.read, implemented, leads, parentReads.read, fits]
    · intro entry member
      rcases NameMap.mem_merge member with earlier | new
      · exact declared parent base parentReads entry earlier
      · exact declared document child reads entry new

end Cleared

/-- No error in the first four phases, each of which begins with an empty cache. -/
def startsClean (workspace : Workspace) (graph : Graph) : Bool :=
  !graph.structureFindings.any Finding.isError && !graph.pathFindings.any Finding.isError &&
    !(graph.inheritanceFindings workspace .empty).1.any Finding.isError &&
    !(importFindings workspace .empty graph.nodes).1.any Finding.isError

theorem starts_clean_iff {graph : Graph} :
    graph.startsClean workspace = true ↔
      graph.structureFindings.any Finding.isError = false ∧
      graph.pathFindings.any Finding.isError = false ∧
      (graph.inheritanceFindings workspace .empty).1.any Finding.isError = false ∧
      (importFindings workspace .empty graph.nodes).1.any Finding.isError = false := by
  simp only [startsClean, Bool.and_eq_true, Bool.not_eq_true', and_assoc]

end PromptLoom.Graph
