import PromptLoom.Proofs.Opening
import PromptLoom.Scope

/-!
# Imports over parallel openers

Resolving imports uses what an opener keeps only to open documents. So two openers that answer alike
lead to the same sets under the same names and to the same errors, and a relation between what they
keep that every opening respects still holds afterwards. With one opener over two caches this says
that alike caches lead to the same scope, and that a cache only grows.
-/

namespace PromptLoom

open Workspace

set_option autoImplicit false

def ListMerge.withCache {Kept Other : Type} (state : ListMerge Kept) (cache : Other) :
    ListMerge Other :=
  { state with cache }

def ScopeRun.withCache {Kept Other : Type} (run : ScopeRun Kept) (cache : Other) : ScopeRun Other :=
  { run with cache }

/-- Two ways of opening give the same results, and what they keep stays related. The relation may go
by the references opened so far. -/
def Opener.Parallel {Left Right : Type} (left : Opener Left) (right : Opener Right)
    (related : List String → Left → Right → Prop) : Prop :=
  ∀ (log : List String) (one : Left) (other : Right) (reference : String) (origin : Path)
    (field : String), related log one other →
    ∃ later, right reference origin field other = ((left reference origin field one).1, later) ∧
      related (log ++ [reference]) (left reference origin field one).2 later

namespace ScopeRun

theorem open_set_grown {workspace : Workspace} {reference field : String} {origin : Path}
    {cache later : Cache} {result : Except DocumentError (Path × VariationSet)}
    (opened : openSet workspace reference origin field cache = (result, later)) :
    workspace.Grown cache later := by
  unfold openSet at opened
  split at opened
  · next found =>
      obtain ⟨-, rfl⟩ := Prod.mk.inj opened
      exact open_reference_grown found
  · next found =>
      have grown := open_reference_grown found
      split at opened
      all_goals
        obtain ⟨-, rfl⟩ := Prod.mk.inj opened
        exact grown

theorem open_set_alike {workspace : Workspace} {reference field : String} {origin : Path}
    {left right later : Cache} {result : Except DocumentError (Path × VariationSet)}
    (alike : workspace.Alike left right)
    (opened : openSet workspace reference origin field left = (result, later)) :
    ∃ cache, workspace.Alike later cache ∧
      openSet workspace reference origin field right = (result, cache) := by
  unfold openSet at opened ⊢
  rcases found : workspace.openReference reference origin field left
    with ⟨failure | document, cache⟩
  all_goals
    obtain ⟨second, again, follows⟩ := alike.open_reference found
    simp only [found, again] at opened ⊢
  · obtain ⟨rfl, rfl⟩ := Prod.mk.inj opened
    exact ⟨second, follows, rfl⟩
  · rcases read : document.read with faults | config
    · simp only [read] at opened ⊢
      obtain ⟨rfl, rfl⟩ := Prod.mk.inj opened
      exact ⟨second, follows, rfl⟩
    · cases config with
      | variations | template | prompt | chunk =>
          simp only [read] at opened ⊢
          obtain ⟨rfl, rfl⟩ := Prod.mk.inj opened
          exact ⟨second, follows, rfl⟩

theorem merge_variations_with_cache {Kept Other : Type} (name : String) (origin source : Path)
    (variations : List Variation) (state : ListMerge Kept) (cache : Other) :
    variations.foldl (mergeVariation name origin source) (state.withCache cache) =
      (variations.foldl (mergeVariation name origin source) state).withCache cache := by
  induction variations generalizing state with
  | nil => rfl
  | cons variation rest ih =>
      have step : mergeVariation name origin source (state.withCache cache) variation =
          (mergeVariation name origin source state variation).withCache cache := by
        unfold mergeVariation ListMerge.withCache
        cases state.owners.lookup variation.key <;> rfl
      rw [List.foldl_cons, step, ih, List.foldl_cons]

theorem merge_variations_cache {Kept : Type} (name : String) (origin source : Path)
    (variations : List Variation) (state : ListMerge Kept) :
    (variations.foldl (mergeVariation name origin source) state).cache = state.cache := by
  have moved := merge_variations_with_cache name origin source variations state state.cache
  change variations.foldl (mergeVariation name origin source) state = _ at moved
  rw [moved]
  rfl

/-! ### Resolving over two openers side by side -/

section Parallel

variable {Left Right : Type} {left : Opener Left} {right : Opener Right}
  {related : List String → Left → Right → Prop}

theorem merge_entry_parallel (parallel : left.Parallel right related) (name : String)
    (origin : Path) (field : String) (log : List String) (merge : ListMerge Left) {other : Right}
    (before : related log merge.cache other) (entry : String) :
    ∃ later,
      mergeEntry right name origin field (merge.withCache other) entry =
        (mergeEntry left name origin field merge entry).withCache later ∧
      related (log ++ (ImportEntry.classify entry).reference?.toList)
        (mergeEntry left name origin field merge entry).cache later := by
  unfold mergeEntry
  cases ImportEntry.classify entry with
  | literal text =>
      refine ⟨other, rfl, ?_⟩
      simpa only [ImportEntry.reference?, Option.toList_none, List.append_nil] using before
  | document reference =>
      obtain ⟨later, again, after⟩ := parallel log merge.cache other reference origin field before
      rcases opened : left reference origin field merge.cache with ⟨failure | ⟨source, set⟩, cache⟩
      all_goals
        rw [opened] at again after
        simp only [ListMerge.withCache, opened, again, ImportEntry.reference?, Option.toList_some]
      · exact ⟨later, rfl, after⟩
      · refine ⟨later, ?_, ?_⟩
        · exact merge_variations_with_cache name origin source set.entries { merge with cache }
            later
        · rw [merge_variations_cache]
          exact after

theorem merge_entries_parallel (parallel : left.Parallel right related) (name : String)
    (origin : Path) (field : String) (entries : List String) (log : List String)
    (merge : ListMerge Left) {other : Right} (before : related log merge.cache other) :
    ∃ later,
      entries.foldl (mergeEntry right name origin field) (merge.withCache other) =
        (entries.foldl (mergeEntry left name origin field) merge).withCache later ∧
      related (log ++ (ImportSpec.list entries).documentRefs)
        (entries.foldl (mergeEntry left name origin field) merge).cache later := by
  unfold ImportSpec.documentRefs
  induction entries generalizing log merge other with
  | nil => exact ⟨other, rfl, by simpa using before⟩
  | cons entry rest ih =>
      obtain ⟨next, again, after⟩ := merge_entry_parallel parallel name origin field log merge before
        entry
      obtain ⟨later, done, last⟩ := ih _ _ after
      rw [List.foldl_cons, again, List.foldl_cons]
      refine ⟨later, done, ?_⟩
      rw [List.filterMap_cons]
      cases named : (ImportEntry.classify entry).reference? with
      | none => simpa [named] using last
      | some reference => simpa [named] using last

mutual

/-- Over parallel openers a declaration registers the same sets and meets the same errors, and what
the openers keep is related after its references. -/
theorem resolve_spec_parallel (parallel : left.Parallel right related) (origin : Path)
    (name : String) (log : List String) (run : ScopeRun Left) {other : Right}
    (before : related log run.cache other) : ∀ spec,
    ∃ later,
      resolveSpec right origin name (run.withCache other) spec =
        (resolveSpec left origin name run spec).withCache later ∧
      related (log ++ spec.documentRefs) (resolveSpec left origin name run spec).cache later
  | .document reference => by
      unfold resolveSpec ImportSpec.documentRefs
      obtain ⟨later, again, after⟩ :=
        parallel log run.cache other reference origin (Config.importField name) before
      rcases opened : left reference origin (Config.importField name) run.cache
        with ⟨failure | ⟨source, set⟩, cache⟩
      all_goals
        rw [opened] at again after
        simp only [withCache, again]
        exact ⟨later, rfl, after⟩
  | .list entries => by
      unfold resolveSpec
      obtain ⟨later, again, after⟩ := merge_entries_parallel parallel name origin
        (Config.importField name) entries log ⟨run.cache, .empty, [], false, []⟩ before
      simp only [ListMerge.withCache] at again
      simp only [withCache, again]
      exact ⟨later, rfl, after⟩
  | .group members => by
      unfold resolveSpec ImportSpec.documentRefs
      exact resolve_members_parallel parallel origin name log run before members

theorem resolve_members_parallel (parallel : left.Parallel right related) (origin : Path)
    (name : String) (log : List String) (run : ScopeRun Left) {other : Right}
    (before : related log run.cache other) : ∀ members,
    ∃ later,
      resolveMembers right origin name (run.withCache other) members =
        (resolveMembers left origin name run members).withCache later ∧
      related (log ++ ImportSpec.memberRefs members)
        (resolveMembers left origin name run members).cache later
  | [] => by
      unfold resolveMembers ImportSpec.memberRefs
      exact ⟨other, rfl, by simpa using before⟩
  | (member, spec) :: rest => by
      unfold resolveMembers ImportSpec.memberRefs
      obtain ⟨next, again, after⟩ :=
        resolve_spec_parallel parallel origin (name ++ "." ++ member) log run before spec
      rw [again, ← List.append_assoc]
      exact resolve_members_parallel parallel origin name _ _ after rest

end

theorem resolve_each_parallel (parallel : left.Parallel right related)
    (entries : List (String × ImportDecl)) (log : List String) (run : ScopeRun Left)
    {other : Right} (before : related log run.cache other) :
    ∃ later,
      entries.foldl
          (fun run entry => resolveSpec right entry.2.origin entry.1 run entry.2.spec)
          (run.withCache other) =
        (entries.foldl
          (fun run entry => resolveSpec left entry.2.origin entry.1 run entry.2.spec)
          run).withCache later ∧
      related (log ++ entries.flatMap fun entry => entry.2.spec.documentRefs)
        (entries.foldl
          (fun run entry => resolveSpec left entry.2.origin entry.1 run entry.2.spec)
          run).cache later := by
  induction entries generalizing log run other with
  | nil => exact ⟨other, rfl, by simpa using before⟩
  | cons entry rest ih =>
      obtain ⟨next, again, after⟩ :=
        resolve_spec_parallel parallel entry.2.origin entry.1 log run before entry.2.spec
      rw [List.foldl_cons, List.foldl_cons, again, List.flatMap_cons, ← List.append_assoc]
      exact ih _ _ after

end Parallel

/-! ### Caches -/

variable {workspace : Workspace}

theorem open_set_grows (start : Cache) :
    Opener.Parallel (openSet workspace) (openSet workspace)
      fun _ one other => one = other ∧ workspace.Grown start one := by
  rintro log one _ reference origin field ⟨rfl, grown⟩
  rcases opened : openSet workspace reference origin field one with ⟨result, later⟩
  exact ⟨later, rfl, rfl, grown.trans (open_set_grown opened)⟩

theorem open_set_agrees :
    Opener.Parallel (openSet workspace) (openSet workspace) fun _ => workspace.Alike := by
  intro log one other reference origin field alike
  obtain ⟨later, follows, again⟩ := open_set_alike alike (Prod.eta _).symm
  exact ⟨later, again, follows⟩

theorem merge_entry_grown (workspace : Workspace) (name : String) (origin : Path) (field : String)
    (state : ListMerge Cache) (entry : String) :
    workspace.Grown state.cache
      (mergeEntry (openSet workspace) name origin field state entry).cache := by
  obtain ⟨_, -, -, grown⟩ := merge_entry_parallel (open_set_grows state.cache) name origin field
    [] state ⟨rfl, .same⟩ entry
  exact grown

theorem resolve_spec_grown (workspace : Workspace) (origin : Path) (name : String)
    (run : ScopeRun Cache) (spec : ImportSpec) :
    workspace.Grown run.cache (resolveSpec (openSet workspace) origin name run spec).cache := by
  obtain ⟨_, -, -, grown⟩ := resolve_spec_parallel (open_set_grows run.cache) origin name
    [] run ⟨rfl, .same⟩ spec
  exact grown

theorem resolve_decls_grown (workspace : Workspace) (decls : NameMap ImportDecl) (cache : Cache) :
    workspace.Grown cache (resolveDecls (openSet workspace) decls cache).cache := by
  obtain ⟨_, -, -, grown⟩ := resolve_each_parallel (open_set_grows cache) decls.entries
    [] ⟨cache, .empty, []⟩ ⟨rfl, .same⟩
  exact grown

theorem resolve_decls_alike {left right : Cache} (alike : workspace.Alike left right)
    (decls : NameMap ImportDecl) :
    ∃ cache, workspace.Alike (resolveDecls (openSet workspace) decls left).cache cache ∧
      resolveDecls (openSet workspace) decls right =
        (resolveDecls (openSet workspace) decls left).withCache cache := by
  obtain ⟨cache, again, follows⟩ := resolve_each_parallel open_set_agrees decls.entries
    [] ⟨left, .empty, []⟩ alike
  exact ⟨cache, follows, again⟩

end ScopeRun

theorem Scope.resolve_grown (workspace : Workspace) (decls : NameMap ImportDecl) (cache : Cache) :
    workspace.Grown cache (Scope.resolve workspace decls cache).2 :=
  ScopeRun.resolve_decls_grown workspace decls cache

theorem Scope.resolve_alike {workspace : Workspace} {left right later : Cache}
    {decls : NameMap ImportDecl} {result : Except (List DocumentError) Scope}
    (alike : workspace.Alike left right)
    (ran : Scope.resolve workspace decls left = (result, later)) :
    ∃ cache, workspace.Alike later cache ∧
      Scope.resolve workspace decls right = (result, cache) := by
  obtain ⟨second, follows, again⟩ := ScopeRun.resolve_decls_alike alike decls
  unfold Scope.resolve at ran ⊢
  obtain ⟨rfl, rfl⟩ := Prod.mk.inj ran
  rw [again]
  exact ⟨second, follows, rfl⟩

theorem Scope.resolve_errors_ne_nil {workspace : Workspace} {decls : NameMap ImportDecl}
    {cache : Cache} {errors : List DocumentError}
    (failed : (Scope.resolve workspace decls cache).1 = .error errors) : errors ≠ [] := by
  simp only [Scope.resolve] at failed
  split at failed
  · simp at failed
  · next some =>
      obtain rfl := Except.error.inj failed
      exact fun none => some (List.isEmpty_iff.mpr none)

end PromptLoom
