import PromptLoom.Graph.Basic
import PromptLoom.Proofs.Opening

/-!
# Exploring a graph

Exploring opens the documents that references lead to, one after the other. It grows the cache, and
the entry that it started from stays.
-/

namespace PromptLoom.Graph

open Workspace

set_option autoImplicit false

namespace Exploration

theorem follow_grown (workspace : Workspace) (source : Document) (state : Exploration)
    (reference : String × String) :
    workspace.Grown state.cache (follow workspace source state reference).cache := by
  obtain ⟨field, target⟩ := reference
  rcases opened : workspace.openReference target source.path field state.cache
    with ⟨failure | document, cache⟩
  all_goals
    simp only [follow, opened]
    exact open_reference_grown opened

theorem follow_entry (workspace : Workspace) (source : Document) (state : Exploration)
    (reference : String × String) :
    (follow workspace source state reference).graph.entry = state.graph.entry := by
  obtain ⟨field, target⟩ := reference
  rcases opened : workspace.openReference target source.path field state.cache
    with ⟨failure | document, cache⟩
  all_goals simp only [follow, opened]

theorem visit_grown (workspace : Workspace) (document : Document) (state : Exploration) :
    workspace.Grown state.cache (visit workspace document state).cache := by
  unfold visit
  split
  · next config _ =>
      change workspace.Grown state.cache
        (config.references.foldl (follow workspace document) state).cache
      exact foldl_grown (follow workspace document) Exploration.cache
        (follow_grown workspace document) config.references state
  · exact .same

theorem visit_entry (workspace : Workspace) (document : Document) (state : Exploration) :
    (visit workspace document state).graph.entry = state.graph.entry := by
  unfold visit
  split
  · next config _ =>
      change (config.references.foldl (follow workspace document) state).graph.entry = _
      induction config.references generalizing state with
      | nil => rfl
      | cons reference rest ih =>
          rw [List.foldl_cons, ih, follow_entry]
  · rfl

end Exploration

theorem explore_grown (workspace : Workspace) (unvisited : List Location) (graph : Graph)
    (cache : Cache) (queue : List Document) :
    workspace.Grown cache (explore workspace unvisited graph cache queue).2 := by
  fun_induction explore workspace unvisited graph cache queue with
  | case1 => exact .same
  | case2 _ graph cache document _ _ _ _ ih =>
      exact (Exploration.visit_grown workspace document ⟨graph, [], cache⟩).trans ih
  | case3 _ _ _ _ _ _ ih => exact ih

theorem explore_entry (workspace : Workspace) (unvisited : List Location) (graph : Graph)
    (cache : Cache) (queue : List Document) :
    (explore workspace unvisited graph cache queue).1.entry = graph.entry := by
  fun_induction explore workspace unvisited graph cache queue with
  | case1 => rfl
  | case2 _ graph cache document _ _ _ _ ih =>
      exact ih.trans (Exploration.visit_entry workspace document ⟨graph, [], cache⟩)
  | case3 _ _ _ _ _ _ ih => exact ih

theorem of_entry_grown (workspace : Workspace) (path : Path) (cache : Cache) :
    workspace.Grown cache (ofEntry workspace path cache).2 := by
  have first := open_entry_grown workspace path cache
  unfold ofEntry
  split
  · next opened =>
      rw [opened] at first
      exact first
  · next opened =>
      rw [opened] at first
      exact first.trans (explore_grown workspace _ _ _ _)

theorem of_entry_entry {workspace : Workspace} {path : Path} {cache later : Cache}
    {document : Document} (opened : workspace.openEntry path cache = (.ok document, later)) :
    (ofEntry workspace path cache).1.entry = some document := by
  unfold ofEntry
  rw [opened]
  exact explore_entry workspace _ _ _ _

theorem of_entry_failed {workspace : Workspace} {path : Path} {cache later : Cache}
    {failure : DocumentError} (opened : workspace.openEntry path cache = (.error failure, later)) :
    (ofEntry workspace path cache).1.openErrors = [failure] := by
  unfold ofEntry
  rw [opened]

/-! ### Exploring a bounded number of steps -/

def exploreWithin (workspace : Workspace) :
    Nat → List Location → Graph → Cache → List Document → Option (Graph × Cache)
  | 0, _, _, _, _ => none
  | _ + 1, _, graph, cache, [] => some (graph, cache)
  | bound + 1, unvisited, graph, cache, document :: rest =>
      if unvisited.contains document.location then
        let next := Exploration.visit workspace document ⟨graph, [], cache⟩
        exploreWithin workspace bound (without document.location unvisited) next.graph next.cache
          (rest ++ next.queue)
      else exploreWithin workspace bound unvisited graph cache rest

theorem explore_within {workspace : Workspace} {bound : Nat} {unvisited : List Location}
    {graph : Graph} {cache : Cache} {queue : List Document} {result : Graph × Cache}
    (ended : exploreWithin workspace bound unvisited graph cache queue = some result) :
    explore workspace unvisited graph cache queue = result := by
  induction bound generalizing unvisited graph cache queue with
  | zero => cases ended
  | succ bound ih =>
      cases queue with
      | nil =>
          rw [explore]
          exact Option.some.inj ended
      | cons document rest =>
          rw [explore]
          simp only [exploreWithin] at ended
          split at ended
          · next fresh =>
              rw [dif_pos (List.contains_iff_mem.mp fresh)]
              exact ih ended
          · next seen =>
              rw [dif_neg (mt List.contains_iff_mem.mpr seen)]
              exact ih ended

def ofEntryWithin (workspace : Workspace) (bound : Nat) (path : Path) : Option Graph :=
  match workspace.openEntry path .empty with
  | (.error _, _) => none
  | (.ok document, cache) =>
      (exploreWithin workspace bound workspace.tree.locations { empty with entry := some document }
        cache [document]).map Prod.fst

theorem of_entry_within {workspace : Workspace} {bound : Nat} {path : Path} {graph : Graph}
    (ended : ofEntryWithin workspace bound path = some graph) :
    (ofEntry workspace path .empty).1 = graph := by
  unfold ofEntryWithin at ended
  rcases opened : workspace.openEntry path .empty with ⟨failure | document, cache⟩
  · rw [opened] at ended
    cases ended
  · rw [opened] at ended
    obtain ⟨result, explored, rfl⟩ := Option.map_eq_some_iff.mp ended
    simp only [ofEntry, opened, explore_within explored]

end PromptLoom.Graph
