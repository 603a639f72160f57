import PromptLoom.Proofs.Validation.Clean

/-!
# Validating over alike caches

Every phase of validation looks at the cache only to open documents. Two caches that show the same
documents lead to the same graph, the same findings in every phase, and so to the same report.
-/

namespace PromptLoom

open Workspace

set_option autoImplicit false

namespace Graph

namespace Exploration

def withCache (state : Exploration) (cache : Cache) : Exploration := { state with cache }

theorem follow_alike {workspace : Workspace} {source : Document} {state : Exploration}
    {other : Cache} (reference : String × String) (alike : workspace.Alike state.cache other) :
    ∃ cache, workspace.Alike (follow workspace source state reference).cache cache ∧
      follow workspace source (state.withCache other) reference =
        (follow workspace source state reference).withCache cache := by
  obtain ⟨field, target⟩ := reference
  rcases opened : workspace.openReference target source.path field state.cache
    with ⟨failure | document, cache⟩
  all_goals
    obtain ⟨second, again, follows⟩ := alike.open_reference opened
    simp only [follow, withCache, opened, again]
    exact ⟨second, follows, rfl⟩

theorem visit_alike {workspace : Workspace} {state : Exploration} {other : Cache}
    (document : Document) (alike : workspace.Alike state.cache other) :
    ∃ cache, workspace.Alike (visit workspace document state).cache cache ∧
      visit workspace document (state.withCache other) =
        (visit workspace document state).withCache cache := by
  unfold visit
  cases document.read with
  | error faults => exact ⟨other, alike, rfl⟩
  | ok config =>
      obtain ⟨second, follows, again⟩ := foldl_alike (follow workspace document)
        Exploration.cache withCache (fun reference like => follow_alike reference like)
        config.references state alike
      refine ⟨second, follows, ?_⟩
      simp only [again]
      rfl

end Exploration

theorem explore_alike {workspace : Workspace} {left right : Cache} (unvisited : List Location)
    (graph : Graph) (queue : List Document) (alike : workspace.Alike left right) :
    (explore workspace unvisited graph left queue).1 =
      (explore workspace unvisited graph right queue).1 := by
  fun_induction explore workspace unvisited graph left queue generalizing right with
  | case1 => simp only [explore]
  | case2 unvisited graph left document rest fresh _ visited =>
      rename_i ih
      obtain ⟨second, follows, again⟩ :=
        @Exploration.visit_alike workspace ⟨graph, [], left⟩ right document alike
      have revisited : Exploration.visit workspace document ⟨graph, [], right⟩ =
          visited.withCache second := again
      rw [ih follows]
      conv_rhs => rw [explore, dif_pos fresh, revisited]
      rfl
  | case3 unvisited graph left document rest seen ih =>
      rw [ih alike]
      conv_rhs => rw [explore, dif_neg seen]

theorem of_entry_alike {workspace : Workspace} {left right : Cache} (path : Path)
    (alike : workspace.Alike left right) :
    (ofEntry workspace path left).1 = (ofEntry workspace path right).1 := by
  unfold ofEntry
  rcases opened : workspace.openEntry path left with ⟨failure | document, later⟩
  all_goals
    obtain ⟨second, again, follows⟩ := alike.open_entry opened
    simp only [again]
  exact explore_alike _ _ _ follows

theorem merge_findings_alike {workspace : Workspace} {left right : Cache} (graph : Graph)
    (alike : workspace.Alike left right) :
    (graph.mergeFindings workspace left).1 = (graph.mergeFindings workspace right).1 := by
  unfold mergeFindings
  split
  · next entry _ _ _ _ =>
      have started : workspace.Alike (Resolver.start left).cache right := alike
      rcases inherited : Resolver.resolve workspace entry (.start left) with ⟨result, resolver⟩
      obtain ⟨second, _, again⟩ := Resolver.resolve_from_alike started inherited
      have restart : Resolver.resolve workspace entry (.start right) = _ := again
      simp only [restart]
      rfl
  · rfl

theorem inheritance_findings_alike {workspace : Workspace} {left right : Cache} (graph : Graph)
    (alike : workspace.Alike left right) :
    (graph.inheritanceFindings workspace left).1 =
      (graph.inheritanceFindings workspace right).1 := by
  simp only [inheritanceFindings]
  split
  · rfl
  · rw [merge_findings_alike graph alike]

theorem document_import_findings_alike {workspace : Workspace} {left right : Cache} (node : Node)
    (alike : workspace.Alike left right) :
    (documentImportFindings workspace node left).1 =
      (documentImportFindings workspace node right).1 := by
  unfold documentImportFindings
  split
  · rfl
  · next config _ =>
      obtain ⟨second, _, again⟩ :=
        ScopeRun.resolve_decls_alike alike (ImportDecl.declare node.path config.imports)
      simp only [again]
      rfl

theorem import_findings_alike {workspace : Workspace} {left right : Cache} (nodes : List Node)
    (alike : workspace.Alike left right) :
    (importFindings workspace left nodes).1 = (importFindings workspace right nodes).1 := by
  induction nodes generalizing left right with
  | nil => rfl
  | cons node rest ih =>
      have later := alike.grown (document_import_findings_grown workspace node left)
        (document_import_findings_grown workspace node right)
      simp only [importFindings, document_import_findings_alike node alike, ih later]

theorem static_findings_alike {workspace : Workspace} {left right : Cache} (graph : Graph)
    (alike : workspace.Alike left right) :
    (graph.staticFindings workspace left).1 = (graph.staticFindings workspace right).1 := by
  have later := alike.grown (inheritance_findings_grown workspace graph left)
    (inheritance_findings_grown workspace graph right)
  simp only [staticFindings, inheritance_findings_alike graph alike,
    import_findings_alike graph.nodes later]

theorem resolution_findings_alike {workspace : Workspace} {left right : Cache} (separator : String)
    (graph : Graph) (alike : workspace.Alike left right) :
    (graph.resolutionFindings workspace separator left).1 =
      (graph.resolutionFindings workspace separator right).1 := by
  unfold resolutionFindings
  split
  · rfl
  · next entry _ =>
      have agrees := resolve_prompt_agrees alike separator entry (.seeded 0) (.seeded 0)
      generalize resolvePrompt workspace separator entry left (.seeded 0) = first at agrees
      generalize resolvePrompt workspace separator entry right (.seeded 0) = second at agrees
      obtain ⟨firstResult, _, _⟩ := first
      obtain ⟨secondResult, _, _⟩ := second
      cases agrees with
      | error failure => rfl
      | ok same => exact same.warnings

end Graph

theorem validate_alike {workspace : Workspace} {left right : Cache} (separator : String)
    (entry : Path) (alike : workspace.Alike left right) :
    (validate workspace separator entry left).1 = (validate workspace separator entry right).1 := by
  have graphs := Graph.of_entry_alike entry alike
  have explored := alike.grown (Graph.of_entry_grown workspace entry left)
    (Graph.of_entry_grown workspace entry right)
  simp only [validate, graphs]
  generalize (Graph.ofEntry workspace entry right).1 = graph
  have checked := explored.grown (Graph.static_findings_grown workspace graph _)
    (Graph.static_findings_grown workspace graph _)
  rw [Graph.static_findings_alike graph explored]
  split
  · rfl
  · simp only [Graph.resolution_findings_alike separator graph checked]

theorem validate_static_clean {workspace : Workspace} {separator : String} {entry : Path}
    {cache : Cache} (clean : (validate workspace separator entry cache).1.hasErrors = false) :
    ((Graph.ofEntry workspace entry cache).1.staticFindings workspace
      (Graph.ofEntry workspace entry cache).2).1.any Finding.isError = false := by
  simp only [validate] at clean
  split at clean
  · next found => simp [found] at clean
  · next noneYet =>
      rw [Report.has_errors_extend, Bool.not_eq_true, Bool.or_eq_false_iff] at noneYet
      exact noneYet.2

/-- Where the static checks and the resolution find no error with an empty cache, the report has
none. -/
theorem validate_passes {workspace : Workspace} {separator : String} {entry : Path} {graph : Graph}
    (explored : (Graph.ofEntry workspace entry .empty).1 = graph)
    (static : (graph.staticFindings workspace .empty).1.any Finding.isError = false)
    (resolution : (graph.resolutionFindings workspace separator .empty).1.any
      Finding.isError = false) :
    (validate workspace separator entry .empty).1.hasErrors = false := by
  have grown := Graph.of_entry_grown workspace entry .empty
  have checked := grown.trans (Graph.static_findings_grown workspace graph _)
  rw [Graph.static_findings_alike graph grown.alike] at static
  rw [Graph.resolution_findings_alike separator graph checked.alike] at resolution
  have quiet : (Report.empty.extend (graph.staticFindings workspace
      (Graph.ofEntry workspace entry .empty).2).1).hasErrors = false := by
    rw [Report.has_errors_extend, static]
    rfl
  simp only [validate, explored]
  rw [if_neg (Bool.eq_false_iff.mp quiet), Report.has_errors_extend, quiet, resolution]
  rfl

end PromptLoom
