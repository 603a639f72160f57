import Mathlib.Logic.Relation
import PromptLoom.Proofs.Graph.Coverage

/-!
# A graph holds what its entry reaches

A document is marked as visited when its turn comes, not when it is put at the end of the queue, so
it may wait there many times, and references may lead round in circles. Before and after every turn
the documents visited and those that wait are all reached from the entry, and whatever a visited
document leads to is among them. A queue that is empty leaves exactly the reached documents visited,
each of them once, and one is always reached: a turn shortens the queue or visits a document of the
tree, which is finite.
-/

namespace PromptLoom

open Relation Workspace

set_option autoImplicit false

/-- A reference of the source that opens leads to the next document. -/
def Workspace.LeadsTo (workspace : Workspace) (source next : Document) : Prop :=
  ∃ config field reference, source.read = .ok config ∧ (field, reference) ∈ config.references ∧
    workspace.target reference source.path field = .ok next

namespace Graph

variable {workspace : Workspace}

/-- One turn of the loop over a queue: the first document is left out if it is a node already, and
visited otherwise. There is no turn without a document that waits. -/
def Exploration.turn? (workspace : Workspace) (state : Exploration) : Option Exploration :=
  match state.queue with
  | [] => none
  | document :: rest =>
      if state.graph.locations.contains document.location then some { state with queue := rest }
      else
        let next := visit workspace document ⟨state.graph, [], state.cache⟩
        some { next with queue := rest ++ next.queue }

def Turns (workspace : Workspace) : Exploration → Exploration → Prop :=
  ReflTransGen fun state next => state.turn? workspace = some next

def ofVisits (workspace : Workspace) (entry : Document) (visited : List Document) : Graph where
  entry := some entry
  nodes := visited.map fun document => ⟨document.location, document.read.toOption⟩
  edges := visited.flatMap fun document =>
    (Exploration.referencesOf document).flatMap (Exploration.edgeOf workspace document)
  openErrors := visited.flatMap fun document =>
    (Exploration.referencesOf document).flatMap (Exploration.errorOf workspace document)
  readErrors := visited.flatMap Exploration.faultsOf

theorem of_visits_snoc (entry document : Document) (visited : List Document) :
    ofVisits workspace entry (visited ++ [document]) =
      Exploration.withVisit workspace (ofVisits workspace entry visited) document := by
  simp [ofVisits, Exploration.withVisit]

theorem mem_of_visits {entry : Document} {visited : List Document} {location : Location} :
    location ∈ (ofVisits workspace entry visited).locations ↔
      ∃ document ∈ visited, document.location = location := by
  simp [ofVisits, locations]

theorem mem_leads {source next : Document} :
    next ∈ (Exploration.referencesOf source).flatMap (Exploration.leadOf workspace source) ↔
      workspace.LeadsTo source next := by
  rw [List.mem_flatMap]
  constructor
  · rintro ⟨⟨field, reference⟩, member, lead⟩
    have leads := Exploration.mem_lead_of.mp lead
    rcases read : source.read with faults | config
    · simp [Exploration.referencesOf, read] at member
    · rw [references_of_read read] at member
      exact ⟨config, field, reference, read, member, leads⟩
  · rintro ⟨config, field, reference, read, member, leads⟩
    refine ⟨(field, reference), ?_, Exploration.mem_lead_of.mpr leads⟩
    rw [references_of_read read]
    exact member

theorem reached_held {entry document : Document} (held : workspace.Holds entry)
    (reached : ReflTransGen workspace.LeadsTo entry document) : workspace.Holds document := by
  cases reached with
  | refl => exact held
  | tail _ leads =>
      obtain ⟨_, _, _, _, _, found⟩ := leads
      exact target_holds found

/-! ### One turn and many -/

/-- What holds between two turns, when some documents have been visited. -/
structure Surveys (workspace : Workspace) (entry : Document) (visited : List Document)
    (state : Exploration) : Prop where
  shown : workspace.Grown .empty state.cache
  visits : state.graph = ofVisits workspace entry visited
  once : (visited.map Document.location).Nodup
  started : entry ∈ visited ++ state.queue
  reached : ∀ document ∈ visited ++ state.queue, ReflTransGen workspace.LeadsTo entry document
  met : ∀ source ∈ visited, ∀ next, workspace.LeadsTo source next → next ∈ visited ++ state.queue

theorem surveys_start {entry : Document} {cache : Cache} (shown : workspace.Grown .empty cache) :
    Surveys workspace entry [] ⟨{ empty with entry := some entry }, [entry], cache⟩ where
  shown := shown
  visits := rfl
  once := List.nodup_nil
  started := List.mem_singleton_self entry
  reached := by
    intro document member
    rw [List.mem_singleton.mp member]
  met := fun source none => absurd none List.not_mem_nil

theorem Surveys.skip {entry document : Document} {visited rest : List Document}
    {state : Exploration} (held : workspace.Holds entry)
    (surveys : Surveys workspace entry visited state) (queue : state.queue = document :: rest)
    (seen : document.location ∈ state.graph.locations) :
    Surveys workspace entry visited { state with queue := rest } := by
  have waits : document ∈ visited ++ state.queue := by simp [queue]
  have known : document ∈ visited := by
    rw [surveys.visits] at seen
    obtain ⟨other, member, place⟩ := mem_of_visits.mp seen
    have otherHeld := reached_held held (surveys.reached other (List.mem_append_left _ member))
    have same := otherHeld.eq_of_location (reached_held held (surveys.reached document waits)) place
    exact same ▸ member
  have kept : ∀ other ∈ visited ++ state.queue, other ∈ visited ++ rest := by
    intro other member
    rw [queue] at member
    rcases List.mem_append.mp member with before | after
    · exact List.mem_append_left _ before
    · rcases List.mem_cons.mp after with rfl | later
      · exact List.mem_append_left _ known
      · exact List.mem_append_right _ later
  refine ⟨surveys.shown, surveys.visits, surveys.once, kept entry surveys.started, ?_, ?_⟩
  · intro other member
    apply surveys.reached
    rw [queue, List.mem_append, List.mem_cons]
    rcases List.mem_append.mp member with before | later
    · exact .inl before
    · exact .inr (.inr later)
  · intro source member next leads
    exact kept next (surveys.met source member next leads)

theorem Surveys.visit {entry document : Document} {visited rest : List Document}
    {state : Exploration} (surveys : Surveys workspace entry visited state)
    (queue : state.queue = document :: rest)
    (fresh : document.location ∉ state.graph.locations) :
    Surveys workspace entry (visited ++ [document])
      { Exploration.visit workspace document ⟨state.graph, [], state.cache⟩ with
        queue := rest ++
          (Exploration.visit workspace document ⟨state.graph, [], state.cache⟩).queue } := by
  obtain ⟨graphAfter, queueAfter⟩ := Exploration.visit_all document state.graph surveys.shown
  have grown := Exploration.visit_grown workspace document ⟨state.graph, [], state.cache⟩
  have kept : ∀ other ∈ visited ++ state.queue, ∀ leads : List Document,
      other ∈ visited ++ [document] ++ (rest ++ leads) := by
    intro other member leads
    rw [queue] at member
    simp only [List.mem_append, List.mem_cons, List.not_mem_nil, or_false] at member ⊢
    tauto
  have first := surveys.reached document (by simp [queue])
  constructor
  case shown => exact surveys.shown.trans grown
  case visits => rw [graphAfter, of_visits_snoc, surveys.visits]
  case once =>
    rw [surveys.visits, mem_of_visits] at fresh
    rw [List.map_append, List.map_singleton]
    refine List.nodup_append.mpr ⟨surveys.once, List.nodup_singleton _, ?_⟩
    rintro place before other last rfl
    obtain ⟨source, member, here⟩ := List.mem_map.mp before
    exact fresh ⟨source, member, here.trans (List.mem_singleton.mp last)⟩
  case started => exact kept entry surveys.started _
  case reached =>
    intro other member
    rw [queueAfter] at member
    rcases List.mem_append.mp member with before | waiting
    · rcases List.mem_append.mp before with earlier | now
      · exact surveys.reached other (List.mem_append_left _ earlier)
      · rw [List.mem_singleton.mp now]
        exact first
    · rcases List.mem_append.mp waiting with further | new
      · exact surveys.reached other (by simp [queue, further])
      · exact first.tail (mem_leads.mp new)
  case met =>
    intro source member next leads
    rcases List.mem_append.mp member with before | now
    · exact kept next (surveys.met source before next leads) _
    · rw [List.mem_singleton.mp now] at leads
      rw [queueAfter]
      exact List.mem_append_right _ (List.mem_append_right _ (mem_leads.mpr leads))

theorem Surveys.turn {entry : Document} {visited : List Document} {state next : Exploration}
    (held : workspace.Holds entry) (surveys : Surveys workspace entry visited state)
    (turned : state.turn? workspace = some next) :
    ∃ later, Surveys workspace entry later next := by
  unfold Exploration.turn? at turned
  split at turned
  · cases turned
  · next document rest queue =>
      split at turned
      · next seen =>
          rw [← Option.some.inj turned]
          exact ⟨visited, surveys.skip held queue (List.contains_iff_mem.mp seen)⟩
      · next fresh =>
          rw [← Option.some.inj turned]
          exact ⟨visited ++ [document], surveys.visit queue (mt List.contains_iff_mem.mpr fresh)⟩

theorem Surveys.turns {entry : Document} {visited : List Document} {state last : Exploration}
    (held : workspace.Holds entry) (surveys : Surveys workspace entry visited state)
    (turns : Turns workspace state last) : ∃ later, Surveys workspace entry later last := by
  induction turns with
  | refl => exact ⟨visited, surveys⟩
  | tail _ turned ih =>
      obtain ⟨later, between⟩ := ih
      exact between.turn held turned

/-- When no document waits any more, the visited ones are those that the entry reaches. -/
theorem Surveys.complete {entry : Document} {visited : List Document} {state : Exploration}
    (surveys : Surveys workspace entry visited state) (done : state.queue = [])
    (document : Document) :
    document ∈ visited ↔ ReflTransGen workspace.LeadsTo entry document := by
  have started := surveys.started
  have reached := surveys.reached
  have met := surveys.met
  rw [done, List.append_nil] at started reached met
  constructor
  · exact reached document
  · -- along the way from the entry, each document leads to one that was met, so visited
    intro way
    induction way with
    | refl => exact started
    | tail _ leads ih => exact met _ ih _ leads

/-- Exploring takes turns until no document waits. The places left out so far are those of the
documents that are no nodes yet. -/
theorem explore_turns {unvisited : List Location} {graph : Graph} {cache : Cache}
    {queue : List Document} (shown : workspace.Grown .empty cache)
    (held : ∀ waiting ∈ queue, workspace.Holds waiting)
    (places : ∀ document, workspace.Holds document →
      (document.location ∈ unvisited ↔ document.location ∉ graph.locations)) :
    Turns workspace ⟨graph, queue, cache⟩
      ⟨(explore workspace unvisited graph cache queue).1, [],
        (explore workspace unvisited graph cache queue).2⟩ := by
  fun_induction explore workspace unvisited graph cache queue with
  | case1 => exact .refl
  | case2 unvisited graph cache document rest fresh shorter next ih =>
      have here := held document (List.mem_cons_self ..)
      obtain ⟨visited, queue⟩ := Exploration.visit_all document graph shown
      refine .head ?_ (ih ?_ ?_ ?_)
      · simp only [Exploration.turn?]
        rw [if_neg (mt List.contains_iff_mem.mp ((places document here).mp fresh))]
      · exact shown.trans (Exploration.visit_grown workspace document ⟨graph, [], cache⟩)
      · intro waiting member
        rcases List.mem_append.mp member with before | new
        · exact held waiting (List.mem_cons_of_mem _ before)
        · rw [queue] at new
          obtain ⟨_, _, _, _, _, leads⟩ := mem_leads.mp new
          exact target_holds leads
      · intro other otherHeld
        rw [visited, mem_visited, not_or, without, List.mem_filter, decide_eq_true_eq,
          places other otherHeld]
  | case3 unvisited graph cache document rest seen ih =>
      have here := held document (List.mem_cons_self ..)
      have inside : document.location ∈ graph.locations :=
        Decidable.not_not.mp (mt (places document here).mpr seen)
      refine .head ?_
        (ih shown (fun waiting member => held waiting (List.mem_cons_of_mem _ member)) places)
      simp only [Exploration.turn?]
      rw [if_pos (List.contains_iff_mem.mpr inside)]

/-! ### The finished graph -/

/-- A graph that holds exactly what an entry reaches, each document once, and every reference of it
as an edge or an error. -/
structure Encloses (workspace : Workspace) (entry : Document) (visited : List Document)
    (graph : Graph) : Prop where
  visits : graph = ofVisits workspace entry visited
  reached : ∀ document, document ∈ visited ↔ ReflTransGen workspace.LeadsTo entry document
  once : graph.locations.Nodup
  apart : workspace.tree.WellNamed → (graph.nodes.map Node.path).Nodup
  indexed : ∀ document ∈ visited,
    graph.config? document.location = document.read.toOption
  followed : ∀ document ∈ visited, ∀ config, document.read = .ok config →
    ∀ field reference, (field, reference) ∈ config.references →
      (∃ target ∈ visited, workspace.target reference document.path field = .ok target) ∨
      ∃ error ∈ graph.openErrors,
        workspace.target reference document.path field = .error error
  parents : ∀ document ∈ visited, ∀ config, document.read = .ok config →
    graph.parent? document.location = config.implements.bind fun reference =>
      (workspace.target reference document.path "implements").toOption.map Document.location
  chunks : ∀ document ∈ visited, ∀ config, document.read = .ok config →
    ∀ name, graph.target? document.location (Config.chunkField name) =
      (config.chunks.get? name).bind fun reference =>
        (workspace.target reference document.path (Config.chunkField name)).toOption.map
          Document.location

theorem Surveys.encloses {entry : Document} {visited : List Document} {state : Exploration}
    (held : workspace.Holds entry) (surveys : Surveys workspace entry visited state)
    (done : state.queue = []) (charts : state.graph.Charts workspace []) :
    Encloses workspace entry visited state.graph := by
  have complete := surveys.complete done
  have heldAll : ∀ document ∈ visited, workspace.Holds document :=
    fun document member => reached_held held ((complete document).mp member)
  have places : state.graph.locations = visited.map Document.location := by
    rw [surveys.visits]
    simp [ofVisits, locations]
  have inside : ∀ document ∈ visited, document.location ∈ state.graph.locations :=
    fun document member => places ▸ List.mem_map_of_mem member
  have reads : ∀ document ∈ visited, ∀ config, document.read = .ok config →
      state.graph.Reads workspace document config :=
    fun document member config read => ⟨heldAll document member, inside document member, read⟩
  constructor
  case visits => exact surveys.visits
  case reached => exact complete
  case once => exact places ▸ surveys.once
  case apart =>
    intro named
    have paths : state.graph.nodes.map Node.path = visited.map Document.path := by
      rw [surveys.visits]
      simp [ofVisits, Node.path, Document.path]
    rw [paths]
    exact (List.Nodup.of_map Document.location surveys.once).map_on fun one oneIn two twoIn same =>
      (heldAll one oneIn).eq_of_path named (heldAll two twoIn) same
  case indexed =>
    intro document member
    exact charts.config_of (heldAll document member) (inside document member)
  case followed =>
    intro document member config read field reference written
    rcases leads : workspace.target reference document.path field with error | target
    · exact .inr ⟨error, charts.failed document config (reads document member config read) field
        reference error written leads, rfl⟩
    · refine .inl ⟨target, (complete target).mpr ?_, rfl⟩
      exact ((complete document).mp member).tail ⟨config, field, reference, read, written, leads⟩
  case parents =>
    intro document member config read
    exact charts.parent_at (reads document member config read)
  case chunks =>
    intro document member config read
    exact charts.chunk_at (reads document member config read)

/-- The graph of an entry is the closure of the entry under the references of the documents that are
read. Taking turns ends, with the documents visited that the entry reaches. An entry that is not
opened leaves its error alone. -/
theorem of_entry_closure (path : Path) {cache : Cache} (shown : workspace.Grown .empty cache) :
    (∀ failure later, workspace.openEntry path cache = (.error failure, later) →
      ofEntry workspace path cache = ({ empty with openErrors := [failure] }, later)) ∧
    ∀ entry later, workspace.openEntry path cache = (.ok entry, later) →
      Turns workspace ⟨{ empty with entry := some entry }, [entry], later⟩
        ⟨(ofEntry workspace path cache).1, [], (ofEntry workspace path cache).2⟩ ∧
      ∃ visited, Encloses workspace entry visited (ofEntry workspace path cache).1 := by
  constructor
  · intro failure later opened
    rw [ofEntry, opened]
  · intro entry later opened
    have held : workspace.Holds entry := open_entry_holds shown (congrArg Prod.fst opened)
    have grown := open_entry_grown workspace path cache
    rw [opened] at grown
    have turns : Turns workspace ⟨{ empty with entry := some entry }, [entry], later⟩
        ⟨(ofEntry workspace path cache).1, [], (ofEntry workspace path cache).2⟩ := by
      rw [ofEntry, opened]
      refine explore_turns (shown.trans grown) ?_ ?_
      · intro waiting member
        rw [List.mem_singleton.mp member]
        exact held
      · intro document documentHeld
        exact iff_of_true documentHeld.location_mem List.not_mem_nil
    obtain ⟨visited, surveys⟩ := (surveys_start (shown.trans grown)).turns held turns
    exact ⟨turns, visited, surveys.encloses held rfl (of_entry_charts path shown)⟩

/-- A prompt whose parent leads back to it. Its chunk waits three times, once for itself, and a
fourth reference leads nowhere. -/
def ring : Workspace where
  tree := ⟨[(["b"], .file "implements: p\ntemplate: \"\x7bprompt\x7d\"\n".toUTF8),
    (["c"], .file "type: x\nimplements: c\ntemplate: face\n".toUTF8),
    (["p"], .file ("implements: b\ngeneration: \x7b\x7d\nprompt: fine\n" ++
      "chunks:\n  Gone: d\n  Left: c\n  Right: c\n").toUTF8)]⟩
  directory := []

theorem ring_closed :
    ∃ entry later visited, ring.openEntry ⟨"p"⟩ .empty = (.ok entry, later) ∧
      (ofEntry ring ⟨"p"⟩ .empty).1.locations = [["p"], ["b"], ["c"]] ∧
      (ofEntry ring ⟨"p"⟩ .empty).1.openErrors.length = 1 ∧
      Turns ring ⟨{ empty with entry := some entry }, [entry], later⟩
        ⟨(ofEntry ring ⟨"p"⟩ .empty).1, [], (ofEntry ring ⟨"p"⟩ .empty).2⟩ ∧
      Encloses ring entry visited (ofEntry ring ⟨"p"⟩ .empty).1 := by
  have checked : (ofEntryWithin ring 9 ⟨"p"⟩).any (fun graph =>
      graph.locations == [["p"], ["b"], ["c"]] && graph.openErrors.length == 1 &&
      (ring.openEntry ⟨"p"⟩ .empty).1.isOk) = true := by
    decide +kernel
  simp only [Option.any_eq_true, Bool.and_eq_true, beq_iff_eq] at checked
  obtain ⟨graph, explored, ⟨places, failures⟩, standing⟩ := checked
  rw [← of_entry_within explored] at places failures
  rcases opened : ring.openEntry ⟨"p"⟩ .empty with ⟨failure | entry, later⟩
  · rw [opened] at standing
    cases standing
  · obtain ⟨turns, visited, encloses⟩ := (of_entry_closure ⟨"p"⟩ .same).2 entry later opened
    exact ⟨entry, later, visited, rfl, places, failures, turns, encloses⟩

end Graph

end PromptLoom
