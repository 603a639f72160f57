import PromptLoom.Proofs.Documents
import PromptLoom.Proofs.Graph.Exploration
import PromptLoom.Proofs.Prompt.Agreement
import PromptLoom.Validation.Entry

/-!
# What a clean report says

A report without errors comes only from a run that opened the entry and resolved it in full. And
however the run ends, the cache that it leaves shows what it showed before.
-/

namespace PromptLoom

open Workspace

set_option autoImplicit false

namespace Report

theorem agrees_is_error {a b : Finding} (agrees : a.agrees b = true) : a.isError = b.isError := by
  simp only [Finding.agrees, Bool.and_eq_true, beq_iff_eq] at agrees
  simp only [Finding.isError, agrees.1.1.1.1]

/-- A finding that is already listed adds nothing, but then an error is listed already. -/
theorem has_errors_push (report : Report) (finding : Finding) :
    (report.push finding).hasErrors = (report.hasErrors || finding.isError) := by
  unfold push
  split
  · next listed =>
      obtain ⟨other, member, agrees⟩ := List.any_eq_true.mp listed
      cases grave : finding.isError with
      | false => simp
      | true =>
          have known : report.hasErrors = true :=
            List.any_eq_true.mpr ⟨other, member, (agrees_is_error agrees).symm.trans grave⟩
          rw [known]
          rfl
  · simp [hasErrors]

theorem has_errors_extend (report : Report) (findings : List Finding) :
    (report.extend findings).hasErrors = (report.hasErrors || findings.any Finding.isError) := by
  unfold extend
  induction findings generalizing report with
  | nil => simp
  | cons finding rest ih =>
      rw [List.foldl_cons, ih, has_errors_push, List.any_cons, Bool.or_assoc]

end Report

theorem Finding.of_error_is_error (error : DocumentError) :
    (Finding.ofError error).isError = true :=
  rfl

namespace Graph

theorem merge_findings_grown (workspace : Workspace) (graph : Graph) (cache : Cache) :
    workspace.Grown cache (graph.mergeFindings workspace cache).2 := by
  unfold mergeFindings
  split
  · next entry _ _ _ _ =>
      exact Resolver.resolve_from_grown workspace workspace.tree.locations [] entry (.start cache)
  · exact .same

theorem inheritance_findings_grown (workspace : Workspace) (graph : Graph) (cache : Cache) :
    workspace.Grown cache (graph.inheritanceFindings workspace cache).2 := by
  simp only [inheritanceFindings]
  split
  · exact .same
  · exact merge_findings_grown workspace graph cache

theorem document_import_findings_grown (workspace : Workspace) (node : Node) (cache : Cache) :
    workspace.Grown cache (documentImportFindings workspace node cache).2 := by
  unfold documentImportFindings
  split
  · exact .same
  · exact ScopeRun.resolve_decls_grown workspace _ cache

theorem import_findings_grown (workspace : Workspace) (cache : Cache) (nodes : List Node) :
    workspace.Grown cache (importFindings workspace cache nodes).2 := by
  induction nodes generalizing cache with
  | nil => exact .same
  | cons node rest ih =>
      exact (document_import_findings_grown workspace node cache).trans (ih _)

theorem static_findings_grown (workspace : Workspace) (graph : Graph) (cache : Cache) :
    workspace.Grown cache (graph.staticFindings workspace cache).2 :=
  (inheritance_findings_grown workspace graph cache).trans
    (import_findings_grown workspace _ graph.nodes)

theorem resolution_findings_grown (workspace : Workspace) (separator : String) (graph : Graph)
    (cache : Cache) :
    workspace.Grown cache (graph.resolutionFindings workspace separator cache).2 := by
  unfold resolutionFindings
  split
  · exact .same
  · next entry _ =>
      have grown := resolve_prompt_grown workspace separator entry cache (.seeded 0)
      dsimp only
      split <;> exact grown

theorem static_findings_without_entry {workspace : Workspace} {path : Path} {cache later : Cache}
    {failure : DocumentError}
    (opened : workspace.openEntry path cache = (.error failure, later)) (start : Cache) :
    ((ofEntry workspace path cache).1.staticFindings workspace start).1.any
      Finding.isError = true := by
  have recorded := of_entry_failed opened
  refine List.any_eq_true.mpr ⟨.ofError failure, ?_, rfl⟩
  simp only [staticFindings, structureFindings, pathFindings, openFindings, recorded,
    List.mem_append]
  rcases open_entry_category opened with structural | path
  · simp [structural]
  · simp [path]

end Graph

theorem validate_grown (workspace : Workspace) (separator : String) (entry : Path) (cache : Cache) :
    workspace.Grown cache (validate workspace separator entry cache).2 := by
  have explored := Graph.of_entry_grown workspace entry cache
  have checked := Graph.static_findings_grown workspace (Graph.ofEntry workspace entry cache).1
    (Graph.ofEntry workspace entry cache).2
  have resolved := Graph.resolution_findings_grown workspace separator
    (Graph.ofEntry workspace entry cache).1
    ((Graph.ofEntry workspace entry cache).1.staticFindings workspace
      (Graph.ofEntry workspace entry cache).2).2
  simp only [validate]
  split
  · exact explored.trans checked
  · exact (explored.trans checked).trans resolved

/-- Behind a report without errors there is a full resolution of the entry. -/
theorem validate_clean {workspace : Workspace} {separator : String} {entry : Path} {cache : Cache}
    (clean : (validate workspace separator entry cache).1.hasErrors = false) :
    ∃ document opened between resolution,
      workspace.openEntry entry cache = (.ok document, opened) ∧
        workspace.Alike cache between ∧
        (resolvePrompt workspace separator document between (.seeded 0)).result =
          .ok resolution := by
  have explored := Graph.of_entry_grown workspace entry cache
  have checked := Graph.static_findings_grown workspace (Graph.ofEntry workspace entry cache).1
    (Graph.ofEntry workspace entry cache).2
  simp only [validate] at clean
  split at clean
  · next found => simp [found] at clean
  next noneYet =>
  rw [Report.has_errors_extend, Bool.or_eq_false_iff] at clean
  rcases opened : workspace.openEntry entry cache with ⟨failure | document, later⟩
  · exfalso
    apply noneYet
    rw [Report.has_errors_extend, Graph.static_findings_without_entry opened, Bool.or_true]
  have present := Graph.of_entry_entry opened
  have quiet := clean.2
  simp only [Graph.resolutionFindings, present] at quiet
  cases resolved : (resolvePrompt workspace separator document
      ((Graph.ofEntry workspace entry cache).1.staticFindings workspace
        (Graph.ofEntry workspace entry cache).2).2 (.seeded 0)).result with
  | ok resolution =>
      exact ⟨document, later, _, resolution, rfl, (explored.trans checked).alike, resolved⟩
  | error errors =>
      simp only [resolved] at quiet
      cases errors with
      | nil => exact absurd rfl (resolve_prompt_errors_ne_nil resolved)
      | cons error rest => simp [Finding.of_error_is_error] at quiet

end PromptLoom
