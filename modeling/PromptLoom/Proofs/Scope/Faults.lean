import PromptLoom.Proofs.Documents
import PromptLoom.Proofs.Scope.Agreement

/-!
# Why imports fail

The errors of an import depend on its declaration and the tree alone, not on what was resolved
before it. When every document that it refers to can be read, they all stand in the document that
declares it, and none of them is about a path.
-/

namespace PromptLoom

open Workspace

set_option autoImplicit false

variable {workspace : Workspace}

def specErrors (workspace : Workspace) (origin : Path) (name : String) (spec : ImportSpec) :
    List DocumentError :=
  (ScopeRun.resolveSpec (ScopeRun.openSet workspace) origin name ⟨.empty, .empty, []⟩ spec).errors

def memberErrors (workspace : Workspace) (origin : Path) (name : String)
    (members : List (String × ImportSpec)) : List DocumentError :=
  (ScopeRun.resolveMembers (ScopeRun.openSet workspace) origin name ⟨.empty, .empty, []⟩
    members).errors

/-- A reference of a document leads to a document that can be read. -/
def ReadsFrom (workspace : Workspace) (origin : Path) (reference : String) : Prop :=
  ∃ document config, (∀ field, workspace.target reference origin field = .ok document) ∧
    document.read = .ok config

/-- An error in a document that is not about a path. -/
def DocumentError.StandsIn (error : DocumentError) (origin : Path) : Prop :=
  error.file = origin ∧ error.category ≠ .path

namespace Workspace

/-- The field of a reference only counts when it leads nowhere. -/
theorem target_any_field {reference field : String} {source : Path} {document : Document}
    (leads : workspace.target reference source field = .ok document) (other : String) :
    workspace.target reference source other = .ok document := by
  unfold target locate at leads ⊢
  dsimp only at leads ⊢
  split at leads
  · cases leads
  next some =>
  rw [if_neg some]
  split at leads
  · cases leads
  next relative =>
  rw [if_neg relative]
  split at leads
  · exact leads
  · cases leads

end Workspace

namespace ScopeRun

mutual

theorem resolve_spec_errors (origin : Path) (name : String) {run : ScopeRun Cache}
    (shown : workspace.Grown .empty run.cache) : ∀ spec,
    (resolveSpec (openSet workspace) origin name run spec).errors =
      run.errors ++ specErrors workspace origin name spec
  | .document reference => by
      unfold specErrors resolveSpec
      rcases opened : openSet workspace reference origin (Config.importField name) run.cache
        with ⟨failure | ⟨source, set⟩, cache⟩
      all_goals
        obtain ⟨second, _, again⟩ := open_set_alike shown.alike.symm opened
        simp only [again, List.append_nil, List.nil_append]
  | .list entries => by
      unfold specErrors resolveSpec
      obtain ⟨second, again, _⟩ := merge_entries_parallel open_set_agrees name origin
        (Config.importField name) entries [] ⟨run.cache, .empty, [], false, []⟩ shown.alike.symm
      simp only [ListMerge.withCache] at again
      simp only [again, List.nil_append]
  | .group members => by
      unfold specErrors resolveSpec
      exact resolve_members_errors origin name shown members

theorem resolve_members_errors (origin : Path) (name : String) {run : ScopeRun Cache}
    (shown : workspace.Grown .empty run.cache) : ∀ members,
    (resolveMembers (openSet workspace) origin name run members).errors =
      run.errors ++ memberErrors workspace origin name members
  | [] => by
      unfold memberErrors resolveMembers
      exact (List.append_nil _).symm
  | (member, spec) :: rest => by
      unfold memberErrors resolveMembers
      have start : workspace.Grown .empty (ScopeRun.mk .empty .empty []).cache := .same
      have first := resolve_spec_grown workspace origin (name ++ "." ++ member) run spec
      have anew := resolve_spec_grown workspace origin (name ++ "." ++ member)
        ⟨.empty, .empty, []⟩ spec
      rw [resolve_members_errors origin name (shown.trans first) rest,
        resolve_members_errors origin name (start.trans anew) rest,
        resolve_spec_errors origin _ shown spec, resolve_spec_errors origin _ start spec,
        List.nil_append, List.append_assoc]

end

theorem resolve_decls_errors {cache : Cache} (shown : workspace.Grown .empty cache)
    (decls : NameMap ImportDecl) :
    (resolveDecls (openSet workspace) decls cache).errors =
      decls.entries.flatMap fun (name, decl) =>
        specErrors workspace decl.origin name decl.spec := by
  obtain ⟨entries⟩ := decls
  suffices run : ∀ run : ScopeRun Cache, workspace.Grown .empty run.cache →
      (entries.foldl
        (fun run (name, decl) => resolveSpec (openSet workspace) decl.origin name run decl.spec)
          run).errors =
      run.errors ++ entries.flatMap fun (name, decl) =>
        specErrors workspace decl.origin name decl.spec by
    exact run ⟨cache, .empty, []⟩ shown
  induction entries with
  | nil =>
      intro run _
      exact (List.append_nil _).symm
  | cons entry rest ih =>
      intro run before
      have grown := resolve_spec_grown workspace entry.2.origin entry.1 run entry.2.spec
      rw [List.foldl_cons, ih _ (before.trans grown), resolve_spec_errors _ _ before,
        List.flatMap_cons, List.append_assoc]

/-! ### Errors that stand in the declaring document -/

theorem open_set_fault {reference field : String} {origin : Path} {cache later : Cache}
    {error : DocumentError} (shown : workspace.Grown .empty cache)
    (reads : ReadsFrom workspace origin reference)
    (failed : openSet workspace reference origin field cache = (.error error, later)) :
    error.StandsIn origin := by
  obtain ⟨document, config, leads, read⟩ := reads
  have opened := open_reference_result shown reference origin field
  rw [leads field] at opened
  unfold openSet at failed
  rcases found : workspace.openReference reference origin field cache with ⟨result, middle⟩
  rw [found] at opened
  obtain rfl : result = .ok document := opened
  cases config with
  | variations set =>
      simp only [found, read] at failed
      cases failed
  | template | prompt | chunk =>
      simp only [found, read] at failed
      obtain ⟨same, -⟩ := Prod.mk.inj failed
      rw [← Except.error.inj same]
      exact ⟨rfl, by simp [DocumentError.category, Cause.category]⟩

theorem merge_variation_faults {name : String} {origin source : Path} {state : ListMerge Cache}
    (before : ∀ error ∈ state.errors, error.StandsIn origin) (variation : Variation) :
    ∀ error ∈ (mergeVariation name origin source state variation).errors,
      error.StandsIn origin := by
  unfold mergeVariation
  split
  · intro error member
    rcases List.mem_append.mp member with old | new
    · exact before error old
    · rw [List.mem_singleton.mp new]
      exact ⟨rfl, by simp [DocumentError.category, Cause.category]⟩
  · exact before

theorem merge_variations_faults {name : String} {origin source : Path}
    (variations : List Variation) {state : ListMerge Cache}
    (before : ∀ error ∈ state.errors, error.StandsIn origin) :
    ∀ error ∈ (variations.foldl (mergeVariation name origin source) state).errors,
      error.StandsIn origin := by
  induction variations generalizing state with
  | nil => exact before
  | cons variation rest ih => exact ih (merge_variation_faults before variation)

theorem merge_entry_faults {name field entry : String} {origin : Path} {state : ListMerge Cache}
    (shown : workspace.Grown .empty state.cache)
    (reads : ∀ reference, (ImportEntry.classify entry).reference? = some reference →
      ReadsFrom workspace origin reference)
    (before : ∀ error ∈ state.errors, error.StandsIn origin) :
    ∀ error ∈ (mergeEntry (openSet workspace) name origin field state entry).errors,
      error.StandsIn origin := by
  unfold mergeEntry
  cases classified : ImportEntry.classify entry with
  | literal text => exact before
  | document reference =>
      have leads : ReadsFrom workspace origin reference := by
        apply reads
        rw [classified]
        rfl
      rcases opened : openSet workspace reference origin field state.cache
        with ⟨failure | ⟨source, set⟩, cache⟩
      · simp only [opened]
        intro error member
        rcases List.mem_append.mp member with old | new
        · exact before error old
        · rw [List.mem_singleton.mp new]
          exact open_set_fault shown leads opened
      · simp only [opened]
        exact merge_variations_faults set.entries before

theorem merge_entries_faults {name field : String} {origin : Path} {entries : List String}
    {state : ListMerge Cache} (shown : workspace.Grown .empty state.cache)
    (reads : ∀ reference ∈ entries.filterMap fun entry => (ImportEntry.classify entry).reference?,
      ReadsFrom workspace origin reference)
    (before : ∀ error ∈ state.errors, error.StandsIn origin) :
    ∀ error ∈ (entries.foldl (mergeEntry (openSet workspace) name origin field) state).errors,
      error.StandsIn origin := by
  induction entries generalizing state with
  | nil => exact before
  | cons entry rest ih =>
      have grown := merge_entry_grown workspace name origin field state entry
      refine ih (shown.trans grown) ?_ (merge_entry_faults shown ?_ before)
      · intro reference member
        obtain ⟨other, inside, classified⟩ := List.mem_filterMap.mp member
        exact reads reference
          (List.mem_filterMap.mpr ⟨other, List.mem_cons_of_mem _ inside, classified⟩)
      · intro reference classified
        exact reads reference
          (List.mem_filterMap.mpr ⟨entry, List.mem_cons_self .., classified⟩)

mutual

theorem resolve_spec_faults (origin : Path) (name : String) {run : ScopeRun Cache}
    (shown : workspace.Grown .empty run.cache)
    (before : ∀ error ∈ run.errors, error.StandsIn origin) : ∀ spec : ImportSpec,
    (∀ reference ∈ spec.documentRefs, ReadsFrom workspace origin reference) →
    ∀ error ∈ (resolveSpec (openSet workspace) origin name run spec).errors, error.StandsIn origin
  | .document reference => by
      intro reads error member
      have leads : ReadsFrom workspace origin reference := by
        apply reads
        simp [ImportSpec.documentRefs]
      unfold resolveSpec at member
      rcases opened : openSet workspace reference origin (Config.importField name) run.cache
        with ⟨failure | ⟨source, set⟩, cache⟩
      · simp only [opened] at member
        rcases List.mem_append.mp member with old | new
        · exact before error old
        · rw [List.mem_singleton.mp new]
          exact open_set_fault shown leads opened
      · simp only [opened] at member
        exact before error member
  | .list entries => by
      intro reads error member
      unfold resolveSpec at member
      rcases List.mem_append.mp member with old | new
      · exact before error old
      · refine merge_entries_faults shown ?_ ?_ error new
        · simpa [ImportSpec.documentRefs] using reads
        · intro error impossible
          cases impossible
  | .group members => by
      intro reads
      unfold resolveSpec
      exact resolve_members_faults origin name shown before members
        (by simpa [ImportSpec.documentRefs] using reads)

theorem resolve_members_faults (origin : Path) (name : String) {run : ScopeRun Cache}
    (shown : workspace.Grown .empty run.cache)
    (before : ∀ error ∈ run.errors, error.StandsIn origin) :
    ∀ members : List (String × ImportSpec),
    (∀ reference ∈ ImportSpec.memberRefs members, ReadsFrom workspace origin reference) →
    ∀ error ∈ (resolveMembers (openSet workspace) origin name run members).errors,
      error.StandsIn origin
  | [] => by
      intro reads
      unfold resolveMembers
      exact before
  | (member, spec) :: rest => by
      intro reads
      unfold resolveMembers
      have grown := resolve_spec_grown workspace origin (name ++ "." ++ member) run spec
      refine resolve_members_faults origin name (shown.trans grown)
        (resolve_spec_faults origin _ shown before spec ?_) rest ?_
      · intro reference inside
        apply reads
        simp [ImportSpec.memberRefs, inside]
      · intro reference inside
        apply reads
        simp [ImportSpec.memberRefs, inside]

end

end ScopeRun

/-- The errors of an import whose documents can be read all stand in the declaring document. -/
theorem spec_errors_stand {origin : Path} {name : String} {spec : ImportSpec}
    (reads : ∀ reference ∈ spec.documentRefs, ReadsFrom workspace origin reference) :
    ∀ error ∈ specErrors workspace origin name spec, error.StandsIn origin := by
  have shown : workspace.Grown .empty (ScopeRun.mk .empty .empty []).cache := .same
  apply ScopeRun.resolve_spec_faults origin name shown _ spec reads
  intro error impossible
  cases impossible

theorem Scope.resolve_clean {decls : NameMap ImportDecl} {cache : Cache}
    (shown : workspace.Grown .empty cache)
    (clean : ∀ entry ∈ decls.entries,
      specErrors workspace entry.2.origin entry.1 entry.2.spec = []) :
    ∃ scope, (Scope.resolve workspace decls cache).1 = .ok scope := by
  have none : (ScopeRun.resolveDecls (ScopeRun.openSet workspace) decls cache).errors = [] := by
    rw [ScopeRun.resolve_decls_errors shown, List.flatMap_eq_nil_iff]
    exact clean
  simp only [Scope.resolve, none]
  exact ⟨_, rfl⟩

end PromptLoom
