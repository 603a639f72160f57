import PromptLoom.Graph.Chain
import PromptLoom.Proofs.Documents
import PromptLoom.Proofs.Graph.Exploration
import PromptLoom.Proofs.Reading

/-!
# What a graph covers

Exploring ends when no document waits any more. Then every reference of every document that could be
read either leads to a document that is itself a node, or has left an error; and every edge of the
graph comes from such a reference. A graph charts its documents in this sense.
-/

namespace PromptLoom

open Workspace

set_option autoImplicit false

namespace Config

theorem import_field_ne_parent (name : String) : importField name ≠ "implements" := by
  intro same
  have texts := congrArg String.toList same
  simp [importField, String.toList_append] at texts

theorem chunk_field_ne_parent (name : String) : chunkField name ≠ "implements" := by
  intro same
  have texts := congrArg String.toList same
  simp [chunkField, String.toList_append] at texts

theorem import_field_ne_chunk (name other : String) : importField name ≠ chunkField other := by
  intro same
  have texts := congrArg String.toList same
  simp [importField, chunkField, String.toList_append] at texts

theorem chunk_field_injective {name other : String} (same : chunkField name = chunkField other) :
    name = other := by
  have texts := congrArg String.toList same
  simpa [chunkField, String.toList_append, String.toList_inj] using texts

theorem parent_reference {config : Config} {reference : String} :
    ("implements", reference) ∈ config.references ↔ config.implements = some reference := by
  simp only [references, List.mem_append, List.mem_map, List.mem_flatMap, Option.mem_toList]
  simp [import_field_ne_parent, chunk_field_ne_parent]

theorem chunk_reference {config : Config} {name reference : String} :
    (chunkField name, reference) ∈ config.references ↔ (name, reference) ∈ config.chunks.entries := by
  simp only [references, List.mem_append, List.mem_map, List.mem_flatMap, Prod.mk.injEq]
  constructor
  · rintro ((⟨_, _, same, _⟩ | ⟨_, _, _, _, same, _⟩) | ⟨⟨other, kept⟩, member, same, rfl⟩)
    · exact absurd same.symm (chunk_field_ne_parent name)
    · exact absurd same (import_field_ne_chunk _ name)
    · rwa [← chunk_field_injective same]
  · intro member
    exact .inr ⟨(name, reference), member, rfl, rfl⟩

theorem import_reference {config : Config} {name reference : String} {spec : ImportSpec}
    (declared : (name, spec) ∈ config.imports.entries) (member : reference ∈ spec.documentRefs) :
    (importField name, reference) ∈ config.references := by
  simp only [references, List.mem_append, List.mem_flatMap, List.mem_map]
  exact .inl (.inr ⟨(name, spec), declared, reference, member, rfl⟩)

end Config

namespace Graph

variable {workspace : Workspace}

def Met (graph : Graph) (queue : List Document) (location : Location) : Prop :=
  location ∈ graph.locations ∨ ∃ waiting ∈ queue, waiting.location = location

/-- A document that is a node of a graph and that could be read. -/
structure Reads (workspace : Workspace) (graph : Graph) (document : Document) (config : Config) :
    Prop where
  held : workspace.Holds document
  inside : document.location ∈ graph.locations
  read : document.read = .ok config

/-- What a graph says about its documents while others wait in a queue. -/
structure Charts (workspace : Workspace) (graph : Graph) (queue : List Document) : Prop where
  entry : ∀ document, graph.entry = some document →
    workspace.Holds document ∧ graph.Met queue document.location
  queued : ∀ waiting ∈ queue, workspace.Holds waiting
  nodes : ∀ node ∈ graph.nodes, ∃ document, workspace.Holds document ∧
    document.location = node.location ∧ node.config = document.read.toOption
  opened : ∀ document config, graph.Reads workspace document config →
    ∀ field reference target, (field, reference) ∈ config.references →
      workspace.target reference document.path field = .ok target →
      graph.Met queue target.location ∧ ⟨document.location, field, target.location⟩ ∈ graph.edges
  failed : ∀ document config, graph.Reads workspace document config →
    ∀ field reference error, (field, reference) ∈ config.references →
      workspace.target reference document.path field = .error error → error ∈ graph.openErrors
  unread : ∀ document faults, workspace.Holds document → document.location ∈ graph.locations →
    document.read = .error faults → graph.readErrors ≠ []
  edges : ∀ edge ∈ graph.edges, ∃ document config reference target,
    graph.Reads workspace document config ∧ document.location = edge.source ∧
      (edge.field, reference) ∈ config.references ∧
      workspace.target reference document.path edge.field = .ok target ∧
      target.location = edge.target
  faults : ∀ error ∈ graph.openErrors, error.category = .structural ∨ error.category = .path

namespace Exploration

def edgeOf (workspace : Workspace) (source : Document) (reference : String × String) : List Edge :=
  match workspace.target reference.2 source.path reference.1 with
  | .ok target => [⟨source.location, reference.1, target.location⟩]
  | .error _ => []

def leadOf (workspace : Workspace) (source : Document) (reference : String × String) :
    List Document :=
  match workspace.target reference.2 source.path reference.1 with
  | .ok target => [target]
  | .error _ => []

def errorOf (workspace : Workspace) (source : Document) (reference : String × String) :
    List DocumentError :=
  match workspace.target reference.2 source.path reference.1 with
  | .ok _ => []
  | .error error => [error]

theorem mem_edge_of {source : Document} {reference : String × String} {edge : Edge} :
    edge ∈ edgeOf workspace source reference ↔
      ∃ target, workspace.target reference.2 source.path reference.1 = .ok target ∧
        edge = ⟨source.location, reference.1, target.location⟩ := by
  unfold edgeOf
  cases workspace.target reference.2 source.path reference.1 <;> simp

theorem mem_lead_of {source : Document} {reference : String × String} {target : Document} :
    target ∈ leadOf workspace source reference ↔
      workspace.target reference.2 source.path reference.1 = .ok target := by
  unfold leadOf
  cases workspace.target reference.2 source.path reference.1 <;> simp [eq_comm]

theorem mem_error_of {source : Document} {reference : String × String} {error : DocumentError} :
    error ∈ errorOf workspace source reference ↔
      workspace.target reference.2 source.path reference.1 = .error error := by
  unfold errorOf
  cases workspace.target reference.2 source.path reference.1 <;> simp [eq_comm]

theorem follow_step (source : Document) {state : Exploration}
    (shown : workspace.Grown .empty state.cache) (reference : String × String) :
    (follow workspace source state reference).graph =
        { state.graph with
          edges := state.graph.edges ++ edgeOf workspace source reference
          openErrors := state.graph.openErrors ++ errorOf workspace source reference } ∧
      (follow workspace source state reference).queue =
        state.queue ++ leadOf workspace source reference := by
  obtain ⟨field, text⟩ := reference
  rcases opened : workspace.openReference text source.path field state.cache
    with ⟨failure | document, cache⟩
  all_goals
    have leads := open_reference_target shown opened
    simp only [follow, opened, edgeOf, errorOf, leadOf, leads, List.append_nil, and_self]

theorem follow_all (source : Document) {state : Exploration}
    (shown : workspace.Grown .empty state.cache) (references : List (String × String)) :
    (references.foldl (follow workspace source) state).graph =
        { state.graph with
          edges := state.graph.edges ++ references.flatMap (edgeOf workspace source)
          openErrors := state.graph.openErrors ++ references.flatMap (errorOf workspace source) } ∧
      (references.foldl (follow workspace source) state).queue =
        state.queue ++ references.flatMap (leadOf workspace source) := by
  induction references generalizing state with
  | nil => simp
  | cons reference rest ih =>
      obtain ⟨graph, queue⟩ := follow_step source shown reference
      obtain ⟨graphs, queues⟩ := ih (shown.trans (follow_grown workspace source state reference))
      rw [List.foldl_cons, graphs, queues, graph, queue]
      simp [List.append_assoc]

def referencesOf (document : Document) : List (String × String) :=
  match document.read with
  | .ok config => config.references
  | .error _ => []

def faultsOf (document : Document) : List DocumentError :=
  match document.read with
  | .ok _ => []
  | .error faults => faults

def withVisit (workspace : Workspace) (graph : Graph) (document : Document) : Graph :=
  { graph with
    nodes := graph.nodes ++ [⟨document.location, document.read.toOption⟩]
    edges := graph.edges ++ (referencesOf document).flatMap (edgeOf workspace document)
    openErrors := graph.openErrors ++ (referencesOf document).flatMap (errorOf workspace document)
    readErrors := graph.readErrors ++ faultsOf document }

theorem visit_all (document : Document) (graph : Graph) {cache : Cache}
    (shown : workspace.Grown .empty cache) :
    (visit workspace document ⟨graph, [], cache⟩).graph = withVisit workspace graph document ∧
      (visit workspace document ⟨graph, [], cache⟩).queue =
        (referencesOf document).flatMap (leadOf workspace document) := by
  rcases read : document.read with faults | config
  · simp [visit, withVisit, read, addNode, referencesOf, faultsOf, Except.toOption]
  · have start : workspace.Grown .empty (Exploration.mk graph [] cache).cache := shown
    obtain ⟨followed, queue⟩ := follow_all document start config.references
    simp [visit, withVisit, read, addNode, referencesOf, faultsOf, Except.toOption, followed, queue]

end Exploration

/-! ### Visiting a document -/

open Exploration

theorem Met.moved {graph next : Graph} {document : Document} {rest queue : List Document}
    {location : Location} (met : graph.Met (document :: rest) location)
    (kept : ∀ place ∈ graph.locations, place ∈ next.locations)
    (visited : document.location ∈ next.locations) (waits : ∀ waiting ∈ rest, waiting ∈ queue) :
    next.Met queue location := by
  rcases met with inside | ⟨waiting, member, rfl⟩
  · exact .inl (kept location inside)
  · rcases List.mem_cons.mp member with rfl | further
    · exact .inl visited
    · exact .inr ⟨waiting, waits waiting further, rfl⟩

theorem Charts.skip {graph : Graph} {document : Document} {rest : List Document}
    (charts : graph.Charts workspace (document :: rest))
    (visited : document.location ∈ graph.locations) : graph.Charts workspace rest where
  entry := by
    intro entry present
    obtain ⟨held, met⟩ := charts.entry entry present
    exact ⟨held, met.moved (fun _ => id) visited fun _ => id⟩
  queued := fun waiting member => charts.queued waiting (List.mem_cons_of_mem _ member)
  nodes := charts.nodes
  opened := by
    intro source config reads field reference target member leads
    obtain ⟨met, edge⟩ := charts.opened source config reads field reference target member leads
    exact ⟨met.moved (fun _ => id) visited fun _ => id, edge⟩
  failed := charts.failed
  unread := charts.unread
  edges := charts.edges
  faults := charts.faults

theorem mem_visited {graph : Graph} {document : Document} {location : Location} :
    location ∈ (withVisit workspace graph document).locations ↔
      location ∈ graph.locations ∨ location = document.location := by
  simp [withVisit, locations]

theorem Reads.visited {graph : Graph} {document source : Document} {config : Config}
    (held : workspace.Holds document)
    (reads : (withVisit workspace graph document).Reads workspace source config) :
    graph.Reads workspace source config ∨ source = document := by
  rcases mem_visited.mp reads.inside with before | now
  · exact .inl ⟨reads.held, before, reads.read⟩
  · exact .inr (reads.held.eq_of_location held now)

theorem references_of_read {document : Document} {config : Config}
    (read : document.read = .ok config) : referencesOf document = config.references := by
  rw [referencesOf, read]

theorem Charts.visit {graph : Graph} {document : Document} {rest : List Document}
    (charts : graph.Charts workspace (document :: rest)) :
    (withVisit workspace graph document).Charts workspace
      (rest ++ (referencesOf document).flatMap (leadOf workspace document)) := by
  have held : workspace.Holds document := charts.queued document (List.mem_cons_self ..)
  have kept : ∀ place ∈ graph.locations,
      place ∈ (withVisit workspace graph document).locations :=
    fun _ inside => mem_visited.mpr (.inl inside)
  have visited : document.location ∈ (withVisit workspace graph document).locations :=
    mem_visited.mpr (.inr rfl)
  have older : ∀ source config, graph.Reads workspace source config →
      (withVisit workspace graph document).Reads workspace source config :=
    fun _ _ reads => ⟨reads.held, kept _ reads.inside, reads.read⟩
  have moved : ∀ location, graph.Met (document :: rest) location →
      (withVisit workspace graph document).Met
        (rest ++ (referencesOf document).flatMap (leadOf workspace document)) location :=
    fun _ met => met.moved kept visited fun _ => List.mem_append_left _
  constructor
  case entry =>
    intro entry present
    obtain ⟨entryHeld, met⟩ := charts.entry entry present
    exact ⟨entryHeld, moved _ met⟩
  case queued =>
    intro waiting member
    rcases List.mem_append.mp member with before | new
    · exact charts.queued waiting (List.mem_cons_of_mem _ before)
    · obtain ⟨reference, _, leads⟩ := List.mem_flatMap.mp new
      exact target_holds (mem_lead_of.mp leads)
  case nodes =>
    intro node member
    rcases List.mem_append.mp member with before | new
    · exact charts.nodes node before
    · rw [List.mem_singleton.mp new]
      exact ⟨document, held, rfl, rfl⟩
  case opened =>
    intro source config reads field reference target member leads
    rcases reads.visited held with before | rfl
    · obtain ⟨met, edge⟩ := charts.opened source config before field reference target member leads
      exact ⟨moved _ met, List.mem_append_left _ edge⟩
    · rw [← references_of_read reads.read] at member
      refine ⟨.inr ⟨target, List.mem_append_right _ ?_, rfl⟩, List.mem_append_right _ ?_⟩
      · exact List.mem_flatMap.mpr ⟨_, member, mem_lead_of.mpr leads⟩
      · exact List.mem_flatMap.mpr ⟨_, member, mem_edge_of.mpr ⟨target, leads, rfl⟩⟩
  case failed =>
    intro source config reads field reference error member leads
    rcases reads.visited held with before | rfl
    · exact List.mem_append_left _
        (charts.failed source config before field reference error member leads)
    · rw [← references_of_read reads.read] at member
      exact List.mem_append_right _ (List.mem_flatMap.mpr ⟨_, member, mem_error_of.mpr leads⟩)
  case unread =>
    intro source faults sourceHeld inside read none
    obtain ⟨before, new⟩ := List.append_eq_nil_iff.mp none
    rcases mem_visited.mp inside with old | now
    · exact charts.unread source faults sourceHeld old read before
    · obtain rfl := sourceHeld.eq_of_location held now
      rw [faultsOf, read] at new
      exact Config.read_faults_ne_nil read new
  case edges =>
    intro edge member
    rcases List.mem_append.mp member with before | new
    · obtain ⟨source, config, reference, target, reads, found⟩ := charts.edges edge before
      exact ⟨source, config, reference, target, older source config reads, found⟩
    · obtain ⟨⟨field, reference⟩, inside, added⟩ := List.mem_flatMap.mp new
      obtain ⟨target, leads, rfl⟩ := mem_edge_of.mp added
      rcases read : document.read with faults | config
      · simp [referencesOf, read] at inside
      · rw [references_of_read read] at inside
        exact ⟨document, config, reference, target, ⟨held, visited, read⟩, rfl, inside, leads, rfl⟩
  case faults =>
    intro error member
    rcases List.mem_append.mp member with before | new
    · exact charts.faults error before
    · obtain ⟨reference, _, failed⟩ := List.mem_flatMap.mp new
      exact target_category (mem_error_of.mp failed)

theorem explore_charts {unvisited : List Location} {graph : Graph} {cache : Cache}
    {queue : List Document} (charts : graph.Charts workspace queue)
    (shown : workspace.Grown .empty cache)
    (places : ∀ document, workspace.Holds document →
      document.location ∈ unvisited ∨ document.location ∈ graph.locations) :
    (explore workspace unvisited graph cache queue).1.Charts workspace [] := by
  fun_induction explore workspace unvisited graph cache queue with
  | case1 => exact charts
  | case2 unvisited graph cache document rest fresh shorter next ih =>
      have grown := Exploration.visit_grown workspace document ⟨graph, [], cache⟩
      obtain ⟨visited, queue⟩ := visit_all document graph shown
      refine ih ?_ (shown.trans grown) ?_
      · rw [visited, queue]
        exact charts.visit
      · intro source held
        rw [visited]
        by_cases same : source.location = document.location
        · exact .inr (mem_visited.mpr (.inr same))
        · rcases places source held with left | done
          · exact .inl (by simpa [without, same] using left)
          · exact .inr (mem_visited.mpr (.inl done))
  | case3 unvisited graph cache document rest seen ih =>
      have held := charts.queued document (List.mem_cons_self ..)
      exact ih (charts.skip ((places document held).resolve_left seen)) shown places

theorem charts_start {graph : Graph} {queue : List Document} (nodes : graph.nodes = [])
    (edges : graph.edges = []) (held : ∀ document ∈ queue, workspace.Holds document)
    (entry : ∀ document, graph.entry = some document → document ∈ queue)
    (faults : ∀ error ∈ graph.openErrors,
      error.category = .structural ∨ error.category = .path) :
    graph.Charts workspace queue := by
  have nowhere : ∀ location, location ∉ graph.locations := by
    intro location inside
    rw [locations, nodes] at inside
    cases inside
  constructor
  case entry =>
    intro document present
    exact ⟨held _ (entry document present), .inr ⟨document, entry document present, rfl⟩⟩
  case queued => exact held
  case nodes =>
    intro node member
    rw [nodes] at member
    cases member
  case opened =>
    intro source config reads
    exact absurd reads.inside (nowhere _)
  case failed =>
    intro source config reads
    exact absurd reads.inside (nowhere _)
  case unread =>
    intro source errors sourceHeld inside
    exact absurd inside (nowhere _)
  case edges =>
    intro edge member
    rw [edges] at member
    cases member
  case faults => exact faults

/-- The graph of an entry charts every document that references lead to from there. -/
theorem of_entry_charts (path : Path) {cache : Cache} (shown : workspace.Grown .empty cache) :
    (ofEntry workspace path cache).1.Charts workspace [] := by
  unfold ofEntry
  rcases opened : workspace.openEntry path cache with ⟨failure | document, later⟩
  · refine charts_start rfl rfl ?_ ?_ ?_
    · intro document member
      cases member
    · intro document present
      cases present
    · intro error member
      rw [List.mem_singleton.mp member]
      exact open_entry_category opened
  · have held : workspace.Holds document := open_entry_holds shown (congrArg Prod.fst opened)
    have grown := open_entry_grown workspace path cache
    rw [opened] at grown
    refine explore_charts ?_ (shown.trans grown) fun source sourceHeld => .inl sourceHeld.location_mem
    refine charts_start rfl rfl ?_ ?_ ?_
    · intro waiting member
      rw [List.mem_singleton.mp member]
      exact held
    · intro entry present
      rw [← Option.some.inj present]
      exact List.mem_singleton_self _
    · intro error member
      cases member

/-! ### Looking up in a graph -/

theorem Charts.met_inside {graph : Graph} {location : Location} (met : graph.Met [] location) :
    location ∈ graph.locations := by
  rcases met with inside | ⟨waiting, member, _⟩
  · exact inside
  · cases member

theorem Charts.config_of {graph : Graph} {queue : List Document} {document : Document}
    (charts : graph.Charts workspace queue) (held : workspace.Holds document)
    (inside : document.location ∈ graph.locations) :
    graph.config? document.location = document.read.toOption := by
  obtain ⟨node, member, place⟩ := List.mem_map.mp inside
  unfold config?
  rcases found : graph.nodes.find? (fun node => node.location == document.location) with _ | first
  · exact absurd (beq_iff_eq.mpr place) (List.find?_eq_none.mp found node member)
  · have same : first.location = document.location := by simpa using List.find?_some found
    obtain ⟨other, otherHeld, otherPlace, config⟩ :=
      charts.nodes first (List.mem_of_find?_eq_some found)
    obtain rfl := otherHeld.eq_of_location held (otherPlace.trans same)
    rw [found]
    exact config

theorem Charts.config_read {graph : Graph} {queue : List Document} {document : Document}
    {config : Config} (charts : graph.Charts workspace queue)
    (reads : graph.Reads workspace document config) :
    graph.config? document.location = some config := by
  rw [charts.config_of reads.held reads.inside, reads.read]
  rfl

theorem Charts.target_leads {graph : Graph} {queue : List Document} {document : Document}
    {config : Config} {field : String} {place : Location} (charts : graph.Charts workspace queue)
    (reads : graph.Reads workspace document config)
    (found : graph.target? document.location field = some place) :
    ∃ reference target, (field, reference) ∈ config.references ∧
      workspace.target reference document.path field = .ok target ∧ target.location = place := by
  obtain ⟨first, search, rfl⟩ := Option.map_eq_some_iff.mp found
  have fits := List.find?_some search
  simp only [Bool.and_eq_true, beq_iff_eq] at fits
  obtain ⟨source, sourceConfig, other, lead, sourceReads, origin, inside, led, arrived⟩ :=
    charts.edges first (List.mem_of_find?_eq_some search)
  obtain rfl := sourceReads.held.eq_of_location reads.held (origin.trans fits.1)
  obtain rfl := Except.ok.inj (reads.read.symm.trans sourceReads.read)
  rw [fits.2] at inside led
  exact ⟨other, lead, inside, led, arrived⟩

theorem Charts.target_of {graph : Graph} {queue : List Document} {document target : Document}
    {config : Config} {field reference : String} (charts : graph.Charts workspace queue)
    (reads : graph.Reads workspace document config)
    (member : (field, reference) ∈ config.references)
    (sole : ∀ other, (field, other) ∈ config.references → other = reference)
    (leads : workspace.target reference document.path field = .ok target) :
    graph.target? document.location field = some target.location := by
  obtain ⟨_, edge⟩ := charts.opened document config reads field reference target member leads
  rcases found : graph.target? document.location field with _ | place
  · have absent := List.find?_eq_none.mp (Option.map_eq_none_iff.mp found) _ edge
    simp at absent
  · obtain ⟨other, lead, inside, led, rfl⟩ := charts.target_leads reads found
    rw [sole other inside, leads] at led
    rw [Except.ok.inj led]

theorem Charts.target_sole {graph : Graph} {queue : List Document} {document : Document}
    {config : Config} {field : String} {written : Option String}
    (charts : graph.Charts workspace queue) (reads : graph.Reads workspace document config)
    (sole : ∀ reference, (field, reference) ∈ config.references ↔ written = some reference) :
    graph.target? document.location field = written.bind fun reference =>
      (workspace.target reference document.path field).toOption.map Document.location := by
  cases written with
  | none =>
      rcases found : graph.target? document.location field with _ | place
      · rfl
      · obtain ⟨other, _, member, _⟩ := charts.target_leads reads found
        cases (sole other).mp member
  | some reference =>
      have member := (sole reference).mpr rfl
      have alone : ∀ other, (field, other) ∈ config.references → other = reference :=
        fun other written => (Option.some.inj ((sole other).mp written)).symm
      rw [Option.bind_some]
      rcases leads : workspace.target reference document.path field with error | target
      · rcases found : graph.target? document.location field with _ | place
        · rfl
        · obtain ⟨other, target, written, led, _⟩ := charts.target_leads reads found
          rw [alone other written, leads] at led
          cases led
      · exact charts.target_of reads member alone leads

theorem Charts.parent_at {graph : Graph} {queue : List Document} {document : Document}
    {config : Config} (charts : graph.Charts workspace queue)
    (reads : graph.Reads workspace document config) :
    graph.parent? document.location = config.implements.bind fun reference =>
      (workspace.target reference document.path "implements").toOption.map Document.location :=
  charts.target_sole reads fun _ => Config.parent_reference

theorem Charts.up_of {graph : Graph} {queue : List Document} {document parent : Document}
    {config : Config} {reference : String} (charts : graph.Charts workspace queue)
    (reads : graph.Reads workspace document config)
    (implemented : config.implements = some reference)
    (leads : workspace.target reference document.path "implements" = .ok parent) :
    graph.parent? document.location = some parent.location := by
  rw [charts.parent_at reads, implemented, Option.bind_some, leads]
  rfl

theorem Charts.no_up {graph : Graph} {queue : List Document} {document : Document}
    {config : Config} (charts : graph.Charts workspace queue)
    (reads : graph.Reads workspace document config) (orphan : config.implements = none) :
    graph.parent? document.location = none := by
  rw [charts.parent_at reads, orphan, Option.bind_none]

theorem Charts.chunk_at {graph : Graph} {queue : List Document} {document : Document}
    {config : Config} (charts : graph.Charts workspace queue)
    (reads : graph.Reads workspace document config) (name : String) :
    graph.target? document.location (Config.chunkField name) =
      (config.chunks.get? name).bind fun reference =>
        (workspace.target reference document.path (Config.chunkField name)).toOption.map
          Document.location := by
  have ordered := Config.read_chunks_ordered reads.read
  refine charts.target_sole reads fun reference => ?_
  rw [Config.chunk_reference]
  exact ⟨NameMap.get?_of_mem ordered, NameMap.mem_of_get?⟩

/-- A graph without errors of opening and reading reads every document that a reference of one of
its documents leads to. -/
theorem Charts.reads_target {graph : Graph} {document : Document} {config : Config}
    {field reference : String} (charts : graph.Charts workspace [])
    (openClean : graph.openErrors = []) (readClean : graph.readErrors = [])
    (reads : graph.Reads workspace document config)
    (member : (field, reference) ∈ config.references) :
    ∃ target targetConfig, workspace.target reference document.path field = .ok target ∧
      graph.Reads workspace target targetConfig := by
  rcases leads : workspace.target reference document.path field with error | target
  · have listed := charts.failed document config reads field reference error member leads
    rw [openClean] at listed
    cases listed
  · obtain ⟨met, _⟩ := charts.opened document config reads field reference target member leads
    have inside := Charts.met_inside met
    rcases read : target.read with faults | targetConfig
    · exact absurd readClean (charts.unread target faults (target_holds leads) inside read)
    · exact ⟨target, targetConfig, rfl, target_holds leads, inside, read⟩

end Graph

end PromptLoom
