import PromptLoom.Proofs.Graph.Cycles
import PromptLoom.Proofs.Inheritance.Calls
import PromptLoom.Proofs.Validation.Phases

/-!
# The checks of inheritance and the resolver

The checks look at one link at a time and at the cycles of a graph; the resolver climbs from one
document and stops at the first problem. In a graph without errors of opening and reading they
agree: a chunk has a finding of an error on its link exactly when it does not resolve, and a prompt
resolves exactly when no link of its chain is a mismatch of kinds and no cycle is part of the chain.
-/

namespace PromptLoom.Graph

open Relation Workspace Resolver

set_option autoImplicit false

variable {workspace : Workspace} {graph : Graph}

/-! ### Chunks -/

theorem Charts.finding_on (charts : graph.Charts workspace []) (named : workspace.tree.WellNamed)
    {document parent : Document} {link : Link}
    (linked : Linked workspace graph document parent link) {finding : Finding} :
    finding ∈ graph.linkFindings ∧ finding.file = document.path ↔ finding ∈ link.findings := by
  constructor
  · rintro ⟨listed, file⟩
    obtain ⟨other, made, inside⟩ := List.mem_flatMap.mp listed
    obtain ⟨otherDocument, otherParent, otherLinked⟩ := charts.listed_link made
    have same : link.path = other.path := by
      rw [linked.path, ← file, link_finding_file inside]
    rwa [(linked.unique named otherLinked same).2]
  · intro inside
    refine ⟨List.mem_flatMap.mpr ⟨link, charts.link_listed linked, inside⟩, ?_⟩
    rw [link_finding_file inside, linked.path]

theorem Charts.chunk_link_agrees (charts : graph.Charts workspace [])
    (named : workspace.tree.WellNamed) (opened : graph.openErrors = [])
    (readable : graph.readErrors = []) {document : Document} {child : ChunkConfig}
    {reference : String} (reads : graph.Reads workspace document (.chunk child))
    (implemented : child.implements = some reference) :
    (∃ finding ∈ graph.linkFindings, finding.isError = true ∧ finding.file = document.path) ↔
      ∃ error, chunkOutlook workspace document = .error error := by
  obtain ⟨parent, parentConfig, linked⟩ := charts.link_of opened readable reads implemented
  have own : (∃ finding ∈ graph.linkFindings, finding.isError = true ∧
      finding.file = document.path) ↔ ∃ finding ∈ Link.findings
        ⟨document.path, .chunk child, reference, parent.path, parentConfig⟩,
          finding.isError = true := by
    constructor
    · rintro ⟨finding, listed, grave, file⟩
      exact ⟨finding, (charts.finding_on named linked).mp ⟨listed, file⟩, grave⟩
    · rintro ⟨finding, inside, grave⟩
      obtain ⟨listed, file⟩ := (charts.finding_on named linked).mpr inside
      exact ⟨finding, listed, grave, file⟩
  rw [own]
  have leads := linked.leads
  have parentRead := linked.parentReads.read
  simp only [chunkOutlook, reads.read, implemented]
  rw [leads]
  simp only [parentRead]
  cases parentConfig with
  | template | prompt | variations =>
      exact ⟨fun _ => ⟨_, rfl⟩, fun _ => ⟨_, List.mem_singleton_self _, rfl⟩⟩
  | chunk base =>
      rcases fault : ResolvedChunk.extendFault? base child with _ | error
      · simp only [fault]
        constructor
        · rintro ⟨finding, inside, grave⟩
          rw [link_fits_silent fault finding inside] at grave
          cases grave
        · rintro ⟨error, wrong⟩
          cases wrong
      · simp only [fault]
        exact ⟨fun _ => ⟨error, rfl⟩, fun _ => link_misfits fault⟩

/-! ### Chains -/

/-- The check of kinds reports the link of the document at a location. -/
def ReportsMismatch (graph : Graph) (location : Location) : Prop :=
  ∃ reference kind,
    (∃ own, Finding.fault (.ofLocation location) "implements"
      (.parentNotTemplate reference kind own) ∈ graph.linkFindings) ∨
    Finding.fault (.ofLocation location) "implements" (.parentNotChunk reference kind) ∈
      graph.linkFindings

/-- What the checks report about the documents from a location upwards: a link whose kinds do not
fit, or a cycle. -/
def ReportsChain (graph : Graph) (start : Location) : Prop :=
  ∃ location, ReflTransGen graph.Up start location ∧
    (graph.ReportsMismatch location ∨ ∃ members ∈ graph.cycles, location ∈ members)

theorem ReportsChain.head {child parent : Location} (up : graph.Up child parent)
    (reported : graph.ReportsChain parent) : graph.ReportsChain child := by
  obtain ⟨location, above, problem⟩ := reported
  exact ⟨location, .head up above, problem⟩

theorem Charts.merged_above (charts : graph.Charts workspace []) {document : Document}
    {location : Location} {config : ResolvedConfig} {own : List Finding}
    (inside : document.location ∈ graph.locations) (held : workspace.Holds document)
    (merged : Merged workspace document config own)
    (above : ReflTransGen graph.Up document.location location) :
    ∃ ancestor resolved warnings, ancestor.location = location ∧ workspace.Holds ancestor ∧
      location ∈ graph.locations ∧ Merged workspace ancestor resolved warnings ∧
      ReflTransGen (Follows workspace) document ancestor := by
  induction above with
  | refl => exact ⟨document, config, own, rfl, held, inside, merged, .refl⟩
  | tail way up ih =>
      obtain ⟨ancestor, resolved, warnings, rfl, ancestorHeld, ancestorInside, ancestorMerged,
        follows⟩ := ih
      cases ancestorMerged with
      | starts alone =>
          cases (charts.no_parent ancestorHeld ancestorInside alone).symm.trans up
      | follows alone next =>
          obtain ⟨parentInside, parentUp⟩ := charts.parent_of ancestorHeld ancestorInside alone
          obtain rfl := Option.some.inj (parentUp.symm.trans up)
          exact ⟨_, _, _, rfl, outlook_parent_held alone, parentInside, next,
            follows.tail ⟨_, _, _, alone⟩⟩

theorem outlook_follows_template {document parent : Document} {layer : Layer} {bodyField : String}
    {generation : Option Generation} {config : Config}
    (alone : outlook workspace document = .follows parent layer bodyField generation)
    (read : parent.read = .ok config) : config.kind = .template := by
  obtain ⟨own, reference, ownRead, layered, implemented, leads⟩ := outlook_follows_read alone
  have seen : Kind.classify? parent.value = some config.kind := Config.read_kind read
  apply Decidable.byContradiction
  intro other
  have misfit : (Kind.classify? parent.value).filter (· ≠ Kind.template) = some config.kind := by
    rw [seen, Option.filter_some, if_pos (decide_eq_true other)]
  simp only [outlook, ownRead, layered, implemented, leads, misfit] at alone
  cases alone

theorem Charts.merged_fits (charts : graph.Charts workspace []) (named : workspace.tree.WellNamed)
    {document : Document} {config : ResolvedConfig} {own : List Finding}
    (inside : document.location ∈ graph.locations) (held : workspace.Holds document)
    (merged : Merged workspace document config own) :
    ¬ graph.ReportsMismatch document.location := by
  have silent : ∀ finding ∈ graph.linkFindings, finding.file ≠ document.path := by
    intro finding listed file
    obtain ⟨link, made, among⟩ := List.mem_flatMap.mp listed
    obtain ⟨other, parent, linked⟩ := charts.listed_link made
    have path : other.path = document.path := by
      rw [← linked.path, ← link_finding_file among, file]
    obtain rfl := linked.reads.held.eq_of_path named held path
    obtain ⟨linkPath, child, reference, parentPath, parentConfig⟩ := link
    cases merged with
    | starts alone =>
        obtain ⟨layer, read, orphan, _⟩ := outlook_starts_read alone
        obtain rfl := Except.ok.inj (linked.reads.read.symm.trans read)
        cases orphan.symm.trans linked.implemented
    | follows alone above =>
        obtain ⟨_, written, read, layered, implemented, leads⟩ := outlook_follows_read alone
        obtain rfl := Except.ok.inj (linked.reads.read.symm.trans read)
        have same := (layer_parts layered).1.trans implemented
        obtain rfl := Option.some.inj (linked.implemented.symm.trans same)
        obtain rfl := Except.ok.inj (linked.leads.symm.trans leads)
        have template := outlook_follows_template alone linked.parentReads.read
        cases parentConfig with
        | prompt | chunk | variations => cases template
        | template base =>
            cases child with
            | template | prompt => cases among
            | chunk | variations => cases layered
  rintro ⟨reference, kind, ⟨own, listed⟩ | listed⟩
  · exact silent _ listed rfl
  · exact silent _ listed rfl

theorem Charts.merged_chain (charts : graph.Charts workspace []) (named : workspace.tree.WellNamed)
    {document : Document} {config : ResolvedConfig} {own : List Finding}
    (inside : document.location ∈ graph.locations) (held : workspace.Holds document)
    (merged : Merged workspace document config own) : ¬ graph.ReportsChain document.location := by
  rintro ⟨location, above, problem⟩
  obtain ⟨ancestor, resolved, warnings, rfl, ancestorHeld, ancestorInside, ancestorMerged, _⟩ :=
    charts.merged_above inside held merged above
  rcases problem with mismatch | ⟨members, listed, member⟩
  · exact charts.merged_fits named ancestorInside ancestorHeld ancestorMerged mismatch
  · obtain ⟨next, up, back⟩ :=
      TransGen.head'_iff.mp (cycles_returning graph members listed _ member)
    have cyclic := ancestorMerged.acyclic
    cases ancestorMerged with
    | starts alone => cases (charts.no_parent ancestorHeld ancestorInside alone).symm.trans up
    | follows alone parentMerged =>
        obtain ⟨parentInside, parentUp⟩ := charts.parent_of ancestorHeld ancestorInside alone
        obtain rfl := Option.some.inj (parentUp.symm.trans up)
        obtain ⟨again, _, _, place, againHeld, _, _, way⟩ :=
          charts.merged_above parentInside (outlook_parent_held alone) parentMerged back
        rw [againHeld.eq_of_location ancestorHeld place] at way
        exact cyclic (TransGen.head' ⟨_, _, _, alone⟩ way)

/-- The documents passed on a way up, each once, with the document it has led to. -/
structure Trail (graph : Graph) (passed : List Document) (document : Document) : Prop where
  way : List.IsChain graph.Up ((passed ++ [document]).map Document.location)
  once : (passed.map Document.location).Nodup
  inside : ∀ other ∈ passed, other.location ∈ graph.locations

/-- A document that is a template, or a prompt with a parent. -/
def Inheritable (config : Config) : Prop :=
  ∃ layer bodyField generation, layerOf? config = some (layer, bodyField, generation) ∧
    (layer.implements = none → config.kind = .template)

theorem Trail.listed {passed : List Document} {document : Document}
    (trail : graph.Trail passed document) (again : document ∈ passed) :
    ∃ members ∈ graph.cycles, document.location ∈ members := by
  obtain ⟨front, loop, rfl⟩ := List.append_of_mem again
  have way := trail.way
  have once := trail.once
  simp only [List.append_assoc, List.map_append, List.cons_append, List.map_cons, List.map_nil]
    at way once
  apply loop_listed (List.isChain_append.mp way).2.1 (List.nodup_append.mp once).2.1
  intro location member
  rw [← List.map_cons] at member
  obtain ⟨other, among, rfl⟩ := List.mem_map.mp member
  exact trail.inside other (List.mem_append_right _ among)

theorem Trail.up {passed : List Document} {document parent : Document}
    (trail : graph.Trail passed document) (up : graph.Up document.location parent.location)
    (fresh : document.location ∉ passed.map Document.location)
    (inside : document.location ∈ graph.locations) :
    graph.Trail (passed ++ [document]) parent where
  way := by
    rw [List.map_append]
    refine List.isChain_append.mpr ⟨trail.way, .singleton _, ?_⟩
    intro last ends next first
    simp only [List.map_append, List.map_cons, List.map_nil, List.getLast?_append,
      List.getLast?_singleton, Option.some_or, Option.mem_def, Option.some.injEq] at ends
    obtain rfl := Option.some.inj first
    rw [← ends]
    exact up
  once := by
    rw [List.map_append]
    refine List.nodup_append.mpr ⟨trail.once, by simp, ?_⟩
    rintro location member other last rfl
    exact fresh (List.mem_singleton.mp last ▸ member)
  inside := by
    intro other member
    rcases List.mem_append.mp member with earlier | last
    · exact trail.inside other earlier
    · rw [List.mem_singleton.mp last]
      exact inside

theorem Charts.failure_reported (charts : graph.Charts workspace [])
    (named : workspace.tree.WellNamed) (opened : graph.openErrors = [])
    (readable : graph.readErrors = []) {document : Document} {config : Config}
    {error : DocumentError} (reads : graph.Reads workspace document config)
    (inheritable : Inheritable config) (alone : outlook workspace document = .fails error) :
    graph.ReportsMismatch document.location := by
  obtain ⟨layer, bodyField, generation, layered, bare⟩ := inheritable
  rcases implemented : layer.implements with _ | reference
  · have template := bare implemented
    simp [outlook, reads.read, layered, implemented, template] at alone
  · have own := (layer_parts layered).1.trans implemented
    obtain ⟨parent, parentConfig, linked⟩ := charts.link_of opened readable reads own
    have leads := linked.leads
    have seen : Kind.classify? parent.value = some parentConfig.kind :=
      Config.read_kind linked.parentReads.read
    have other : parentConfig.kind ≠ .template := by
      intro template
      have fits : (Kind.classify? parent.value).filter (· ≠ Kind.template) = none := by
        rw [seen, template]
        rfl
      simp only [outlook, reads.read, layered, implemented] at alone
      rw [leads] at alone
      simp only [fits] at alone
      cases alone
    have misfit : Finding.fault document.path "implements"
        (.parentNotTemplate reference parentConfig.kind config.kind) ∈ Link.findings
          ⟨document.path, config, reference, parent.path, parentConfig⟩ := by
      cases config with
      | chunk | variations => cases layered
      | template | prompt =>
          cases parentConfig with
          | template => exact absurd rfl other
          | prompt | chunk | variations => exact List.mem_singleton_self _
    exact ⟨reference, parentConfig.kind, .inl ⟨config.kind,
      ((charts.finding_on named linked).mpr misfit).1⟩⟩

/-- When a climb fails, the checks report something about the chain. -/
theorem Charts.climb_reported (charts : graph.Charts workspace []) (opened : graph.openErrors = [])
    (readable : graph.readErrors = []) {passed : List Document} {paths : List Path}
    {document : Document} {resolver later : Resolver} {config : Config} {error : DocumentError}
    {result : Except DocumentError ResolvedConfig} (named : workspace.tree.WellNamed)
    (climb : Climb workspace paths document resolver result later)
    (failed : result = .error error) (same : paths = passed.map Document.path)
    (held : ∀ other ∈ passed, workspace.Holds other)
    (trail : graph.Trail passed document) (reads : graph.Reads workspace document config)
    (inheritable : Inheritable config) : graph.ReportsChain document.location := by
  -- the induction is on the climb, with the documents passed on the way
  induction climb generalizing passed config with
  | recalls | starts | merges => cases failed
  | revisits again =>
      rw [same] at again
      obtain ⟨other, member, path⟩ := List.mem_map.mp again
      obtain rfl := (held other member).eq_of_path named reads.held path
      exact ⟨other.location, .refl, .inr (trail.listed member)⟩
  | fails fresh unknown alone =>
      exact ⟨_, .refl, .inl (charts.failure_reported named opened readable reads inheritable alone)⟩
  | @stops paths document parent resolver later layer bodyField generation cache problem fresh
      unknown alone grown above ih =>
      obtain ⟨own, reference, read, layered, implemented, leads⟩ := outlook_follows_read alone
      obtain rfl := Except.ok.inj (reads.read.symm.trans read)
      have written := (layer_parts layered).1.trans implemented
      obtain ⟨target, parentConfig, linked⟩ := charts.link_of opened readable reads written
      obtain rfl := Except.ok.inj (leads.symm.trans linked.leads)
      have template := outlook_follows_template alone linked.parentReads.read
      have up := charts.up_of reads written leads
      have unpassed : document.location ∉ passed.map Document.location := by
        intro again
        obtain ⟨other, member, place⟩ := List.mem_map.mp again
        obtain rfl := (held other member).eq_of_location reads.held place
        exact fresh (same ▸ List.mem_map_of_mem member)
      refine .head up (ih failed ?_ ?_ (trail.up up unpassed reads.inside) linked.parentReads ?_)
      · rw [same, List.map_append, List.map_singleton]
      · intro other member
        rcases List.mem_append.mp member with earlier | last
        · exact held other earlier
        · rw [List.mem_singleton.mp last]
          exact reads.held
      · cases parentConfig with
        | template base => exact ⟨base, _, _, rfl, fun _ => rfl⟩
        | prompt | chunk | variations => cases template

/-! ### Agreement -/

theorem nested_chunk_fails {document parent : Document} {child base : ChunkConfig}
    {reference grandparent : String} (read : document.read = .ok (.chunk child))
    (implemented : child.implements = some reference)
    (leads : workspace.target reference document.path "implements" = .ok parent)
    (parentRead : parent.read = .ok (.chunk base)) (above : base.implements = some grandparent) :
    ∃ error, chunkOutlook workspace document = .error error := by
  have fault : ResolvedChunk.extendFault? base child =
      some ⟨child.source, some "implements", .nestedChunkParent base.source grandparent⟩ := by
    simp only [ResolvedChunk.extendFault?, above]
  simp only [chunkOutlook, read, implemented, leads, parentRead, fault]
  exact ⟨_, rfl⟩

/-- A prompt resolves exactly when the checks report nothing about its chain. -/
theorem Charts.chain_agrees (charts : graph.Charts workspace []) (named : workspace.tree.WellNamed)
    (opened : graph.openErrors = []) (readable : graph.readErrors = []) {entry : Document}
    {config : Config} {cache : Cache} (shown : workspace.Grown .empty cache)
    (reads : graph.Reads workspace entry config) (inheritable : Inheritable config) :
    graph.ReportsChain entry.location ↔
      ∃ error, (resolve workspace entry (.start cache)).1 = .error error := by
  have climb := resolve_climb named reads.held (Sound.start shown).shown
  constructor
  · intro reported
    rcases resolved : (resolve workspace entry (.start cache)).1 with error | config
    · exact ⟨error, rfl⟩
    · obtain ⟨own, merged⟩ := (climb.sound named reads.held (.start shown)).2 config resolved
      exact absurd reported (charts.merged_chain named reads.inside reads.held merged)
  · rintro ⟨error, failed⟩
    have nothing : ∀ passed ∈ ([] : List Document), workspace.Holds passed ∧
        passed.location ∈ graph.locations := by
      intro passed member
      cases member
    have standing : graph.Trail [] entry :=
      ⟨.singleton _, .nil, fun passed member => (nothing passed member).2⟩
    exact charts.climb_reported opened readable named climb failed rfl
      (fun passed member => (nothing passed member).1) standing reads inheritable

/-- In the graph of a prompt with a parent, when every document behind it can be opened and read,
the checks of inheritance and the resolver agree. A chunk with a parent has an error on its link
exactly when it does not resolve, which is always so when its parent has a parent; and a mismatch of
kinds or a cycle on the chain of the prompt is reported exactly when the prompt does not resolve. -/
theorem inheritance_checks_agree (named : workspace.tree.WellNamed) {path : Path}
    {cache other : Cache} (shown : workspace.Grown .empty cache)
    (otherShown : workspace.Grown .empty other) {entry : Document} {layer : Layer}
    {generation : Generation} {reference : String} :
    let graph := (ofEntry workspace path cache).1
    graph.openErrors = [] → graph.readErrors = [] → graph.entry = some entry →
    entry.read = .ok (.prompt layer generation) → layer.implements = some reference →
    (∀ document child written, graph.Reads workspace document (.chunk child) →
      child.implements = some written →
      ((∃ finding ∈ graph.linkFindings, finding.isError = true ∧ finding.file = document.path) ↔
        ∃ error, (resolveChunk workspace document (.start other)).1 = .error error) ∧
      ∀ parent base grandparent,
        workspace.target written document.path "implements" = .ok parent →
        parent.read = .ok (.chunk base) → base.implements = some grandparent →
        ∃ error, (resolveChunk workspace document (.start other)).1 = .error error) ∧
    (graph.ReportsChain entry.location ↔
      ∃ error, (resolve workspace entry (.start other)).1 = .error error) := by
  intro graph opened readable present read implemented
  have charts : graph.Charts workspace [] := of_entry_charts path shown
  obtain ⟨held, met⟩ := charts.entry entry present
  have reads : graph.Reads workspace entry (.prompt layer generation) :=
    ⟨held, Charts.met_inside met, read⟩
  have inheritable : Inheritable (.prompt layer generation) := by
    refine ⟨layer, _, _, rfl, fun bare => ?_⟩
    cases bare.symm.trans implemented
  refine ⟨?_, charts.chain_agrees named opened readable otherShown reads inheritable⟩
  intro document child written chunkReads chunkImplemented
  have step : ChunkStep workspace document (.start other) _ _ :=
    resolve_chunk_step (Sound.start otherShown).shown
  have answer : (∃ error, (resolveChunk workspace document (.start other)).1 = .error error) ↔
      ∃ error, chunkOutlook workspace document = .error error := by
    rw [step.answer named chunkReads.held (.start otherShown)]
    cases chunkOutlook workspace document with
    | error problem => exact ⟨fun _ => ⟨problem, rfl⟩, fun _ => ⟨problem, rfl⟩⟩
    | ok result =>
        constructor
        · rintro ⟨_, wrong⟩
          cases wrong
        · rintro ⟨_, wrong⟩
          cases wrong
  rw [answer]
  refine ⟨charts.chunk_link_agrees named opened readable chunkReads chunkImplemented, ?_⟩
  intro parent base grandparent leads parentRead above
  exact nested_chunk_fails chunkReads.read chunkImplemented leads parentRead above

def roundTemplates : Workspace where
  tree := ⟨[(["a"], .file "implements: b\ntemplate: x\n".toUTF8),
    (["b"], .file "implements: a\ntemplate: y\n".toUTF8),
    (["c"], .file "type: fox\nimplements: d\n".toUTF8),
    (["d"], .file "type: owl\ntemplate: z\n".toUTF8),
    (["p"], .file "implements: a\ngeneration: \x7b\x7d\nchunks:\n  C: c\nprompt: w\n".toUTF8)]⟩
  directory := []

theorem round_templates_reported :
    ∃ entry chunk, (ofEntry roundTemplates ⟨"p"⟩ .empty).1.ReportsChain entry.location ∧
      (∃ error, (resolve roundTemplates entry (.start .empty)).1 = .error error) ∧
      (∃ error, (resolveChunk roundTemplates chunk (.start .empty)).1 = .error error) ∧
      ∃ finding ∈ (ofEntry roundTemplates ⟨"p"⟩ .empty).1.linkFindings,
        finding.isError = true ∧ finding.file = chunk.path := by
  have named : roundTemplates.tree.WellNamed := by decide +kernel
  have checked : (ofEntryWithin roundTemplates 7 ⟨"p"⟩).any (fun graph =>
      decide (graph.openErrors = [] ∧ graph.readErrors = [] ∧ graph.parent? ["p"] = some ["a"] ∧
        graph.parent? ["a"] = some ["b"] ∧ graph.parent? ["b"] = some ["a"] ∧
        (∀ place ∈ [["a"], ["b"], ["c"]], place ∈ graph.locations)) &&
      graph.entry.any fun entry => decide (entry.location = ["p"]) &&
        entry.read.toOption.any fun config =>
          decide (config.kind = .prompt) && config.implements.isSome) = true := by
    decide +kernel
  have stands : (roundTemplates.read ["c"]).toOption.any (fun chunk =>
      decide (chunk.location = ["c"]) &&
      (chunk.read.toOption.any fun config =>
        decide (config.kind = .chunk) && config.implements.isSome) &&
      !(resolveChunk roundTemplates chunk (.start .empty)).1.isOk) = true := by
    decide +kernel
  simp only [Option.any_eq_true, Bool.and_eq_true, decide_eq_true_eq, Bool.not_eq_true'] at stands
  obtain ⟨chunk, standing, ⟨chunkPlace, chunkConfig, chunkRead, chunkKind, chunkImplements⟩,
    failed⟩ := stands
  have held : roundTemplates.Holds chunk := read_holds (to_option_some standing)
  simp only [Option.any_eq_true, Bool.and_eq_true, decide_eq_true_eq] at checked
  obtain ⟨graph, explored, ⟨opened, readable, promptUp, firstUp, secondUp, inside⟩, entry, present,
    place, config, read, kind, implements⟩ := checked
  rw [of_entry_within explored]
  cases config with
  | template | chunk | variations => cases kind
  | prompt layer generation =>
      obtain ⟨reference, implemented⟩ := Option.isSome_iff_exists.mp implements
      have agree := @inheritance_checks_agree roundTemplates named ⟨"p"⟩ .empty .empty .same .same
        entry layer generation reference
      rw [of_entry_within explored] at agree
      obtain ⟨chunks, chain⟩ := agree opened readable present (to_option_some read) implemented
      have way : List.IsChain graph.Up [["a"], ["b"], ["a"]] :=
        .cons_cons firstUp (.cons_cons secondUp (.singleton _))
      obtain ⟨members, listed, member⟩ := @loop_listed graph ["a"] [["b"]] way (by decide)
        fun location among => inside location (List.mem_append_left [["c"]] among)
      have reported : graph.ReportsChain entry.location := by
        rw [place]
        exact ⟨["a"], .single promptUp, .inr ⟨members, listed, member⟩⟩
      cases chunkConfig with
      | template | prompt | variations => cases chunkKind
      | chunk child =>
          obtain ⟨written, chunkImplemented⟩ := Option.isSome_iff_exists.mp chunkImplements
          have chunkReads : graph.Reads roundTemplates chunk (.chunk child) :=
            ⟨held, chunkPlace ▸ inside ["c"] (by simp), to_option_some chunkRead⟩
          obtain ⟨links, _⟩ := chunks chunk child written chunkReads chunkImplemented
          rcases answer : (resolveChunk roundTemplates chunk (.start .empty)).1
            with error | resolved
          · exact ⟨entry, chunk, reported, chain.mp reported, ⟨error, answer⟩,
              links.mpr ⟨error, answer⟩⟩
          · rw [answer] at failed
            cases failed

end PromptLoom.Graph
