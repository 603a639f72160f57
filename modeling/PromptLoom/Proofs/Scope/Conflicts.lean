import PromptLoom.Proofs.Documents
import PromptLoom.Proofs.Reading
import PromptLoom.Proofs.Scope.Agreement
import PromptLoom.Proofs.VariationSets

/-!
# Conflicts in a list import

The documents of a list import are merged one after the other, and merging goes on after a failure,
so that one run finds everything that is wrong. A document conflicts with the first one before it
that holds the same key; literal texts and documents that did not load own no key. The import is
registered when nothing was wrong, and otherwise the scope stays as it was.
-/

namespace PromptLoom

open Workspace

set_option autoImplicit false

/-- What an entry of a list import brings along: a literal text, the variations of a document, or
the error of a document that does not load. -/
inductive Supply where
  | literal (text : String)
  | loaded (source : Path) (set : VariationSet)
  | failed (error : DocumentError)

namespace Workspace

variable {workspace : Workspace}

theorem open_reference_error {reference field : String} {source : Path} {cache : Cache}
    {error : DocumentError}
    (failed : (workspace.openReference reference source field cache).1 = .error error) :
    workspace.target reference source field = .error error := by
  unfold openReference at failed
  unfold target
  cases located : workspace.locate reference source field with
  | error problem =>
      rw [located] at failed
      exact failed
  | ok location =>
      simp only [located, openAt] at failed
      split at failed
      · cases failed
      · split at failed
        · cases failed
        · next unread => exact unread.trans failed

end Workspace

namespace ScopeRun

theorem open_set_category {workspace : Workspace} {reference field : String} {origin : Path}
    {cache : Cache} {error : DocumentError}
    (failed : (openSet workspace reference origin field cache).1 = .error error) :
    error.category = .structural ∨ error.category = .path := by
  unfold openSet at failed
  split at failed
  · next unopened =>
      obtain rfl := Except.error.inj failed
      exact target_category (open_reference_error (congrArg Prod.fst unopened))
  · next document _ _ =>
      split at failed
      · cases failed
      · rw [← Except.error.inj failed]
        exact .inl rfl
      · next faults unread =>
          have structural := Config.read_faults_structural unread
          rw [← Except.error.inj failed]
          cases faults with
          | nil => exact .inl rfl
          | cons fault rest => exact .inl (structural fault (List.mem_cons_self ..))

end ScopeRun

namespace Supply

def of (workspace : Workspace) (cache : Cache) (origin : Path) (field entry : String) : Supply :=
  match ImportEntry.classify entry with
  | .literal text => .literal text
  | .document reference =>
      match (ScopeRun.openSet workspace reference origin field cache).1 with
      | .ok (source, set) => .loaded source set
      | .error error => .failed error

def owner? (key : String) : List Supply → Option Path
  | [] => none
  | .loaded source set :: rest => if key ∈ set.keys then some source else owner? key rest
  | .literal _ :: rest => owner? key rest
  | .failed _ :: rest => owner? key rest

def keyConflicts (name : String) (origin source : Path) (owner : String → Option Path)
    (keys : List String) : List DocumentError :=
  keys.filterMap fun key => (owner key).map fun first =>
    ⟨origin, some (Config.importField name), .keyConflict name key first source⟩

/-- The conflicts of a supply with those before it: for each of its keys that one of them holds, the
first document that does. -/
def conflicts (name : String) (origin : Path) (earlier : List Supply) : Supply → List DocumentError
  | .loaded source set => keyConflicts name origin source (fun key => owner? key earlier) set.keys
  | .literal _ => []
  | .failed _ => []

def failure : Supply → List DocumentError
  | .failed error => [error]
  | .literal _ => []
  | .loaded _ _ => []

def allConflicts (name : String) (origin : Path) (supplies : List Supply) : List DocumentError :=
  supplies.zipIdx.flatMap fun (supply, place) =>
    supply.conflicts name origin (supplies.take place)

def allErrors (name : String) (origin : Path) (supplies : List Supply) : List DocumentError :=
  supplies.zipIdx.flatMap fun (supply, place) =>
    supply.failure ++ supply.conflicts name origin (supplies.take place)

theorem owner_append (key : String) (first second : List Supply) :
    owner? key (first ++ second) = (owner? key first).or (owner? key second) := by
  induction first with
  | nil => rfl
  | cons supply rest ih =>
      cases supply with
      | literal text => exact ih
      | failed error => exact ih
      | loaded source set =>
          by_cases held : key ∈ set.keys
          · simp [owner?, held]
          · simpa [owner?, held] using ih

theorem all_errors_snoc (name : String) (origin : Path) (earlier : List Supply) (supply : Supply) :
    allErrors name origin (earlier ++ [supply]) =
      allErrors name origin earlier ++ (supply.failure ++ supply.conflicts name origin earlier) :=
  zip_idx_snoc (fun before (item : Supply) => item.failure ++ item.conflicts name origin before)
    earlier supply

/-! ### Conflicts and failures apart -/

def conflictsOf (errors : List DocumentError) : List DocumentError :=
  errors.filter fun error => error.category == .imports

def failuresOf (errors : List DocumentError) : List DocumentError :=
  errors.filter fun error => error.category != .imports

theorem conflict_category {name : String} {origin : Path} {earlier : List Supply} {supply : Supply}
    {error : DocumentError} (member : error ∈ supply.conflicts name origin earlier) :
    error.category = .imports := by
  cases supply with
  | literal text => cases member
  | failed error => cases member
  | loaded source set =>
      obtain ⟨key, _, found⟩ := List.mem_filterMap.mp member
      obtain ⟨first, _, rfl⟩ := Option.map_eq_some_iff.mp found
      rfl

theorem of_failed_category {workspace : Workspace} {cache : Cache} {origin : Path}
    {field entry : String} {error : DocumentError}
    (failed : of workspace cache origin field entry = .failed error) :
    error.category ≠ .imports := by
  unfold of at failed
  split at failed
  · cases failed
  · split at failed
    · cases failed
    · next reference _ _ unopened =>
        rcases ScopeRun.open_set_category unopened with category | category
        · rw [← Supply.failed.inj failed, category]
          decide
        · rw [← Supply.failed.inj failed, category]
          decide

/-- What is wrong with an entry is either that it fails or that it conflicts. -/
theorem errors_apart {supply : Supply} (name : String) (origin : Path) (earlier : List Supply)
    (sound : ∀ error, supply = .failed error → error.category ≠ .imports) :
    let errors := supply.failure ++ supply.conflicts name origin earlier
    conflictsOf errors = supply.conflicts name origin earlier ∧
      failuresOf errors = supply.failure := by
  have conflicting : ∀ error ∈ supply.conflicts name origin earlier, error.category = .imports :=
    fun _ => conflict_category
  have failing : ∀ error ∈ supply.failure, error.category ≠ .imports := by
    intro error member
    cases supply with
    | literal text => cases member
    | loaded source set => cases member
    | failed problem => exact sound error (congrArg failed (List.mem_singleton.mp member).symm)
  simp only [conflictsOf, failuresOf, List.filter_append]
  constructor
  · rw [List.filter_eq_nil_iff.mpr (by simpa using failing),
      List.filter_eq_self.mpr (by simpa using conflicting), List.nil_append]
  · rw [List.filter_eq_self.mpr (by simpa using failing),
      List.filter_eq_nil_iff.mpr (by simpa using conflicting), List.append_nil]

theorem all_errors_apart (workspace : Workspace) (cache : Cache) (origin : Path)
    (name field : String) (entries : List String) :
    let supplies := entries.map (of workspace cache origin field)
    conflictsOf (allErrors name origin supplies) = allConflicts name origin supplies ∧
      failuresOf (allErrors name origin supplies) = supplies.flatMap failure := by
  intro supplies
  have apart : ∀ place ∈ supplies.zipIdx,
      let errors := place.1.failure ++ place.1.conflicts name origin (supplies.take place.2)
      conflictsOf errors = place.1.conflicts name origin (supplies.take place.2) ∧
        failuresOf errors = place.1.failure := by
    intro place member
    obtain ⟨entry, _, supplied⟩ := List.mem_map.mp (List.fst_mem_of_mem_zipIdx member)
    apply errors_apart
    intro error failed
    exact of_failed_category (supplied.trans failed)
  unfold conflictsOf failuresOf at apart ⊢
  unfold allErrors allConflicts
  rw [List.filter_flatMap, List.filter_flatMap]
  constructor
  · exact List.flatMap_congr fun place member => (apart place member).1
  · rw [List.flatMap_congr fun place member => (apart place member).2, ← List.flatMap_map,
      List.zipIdx_map_fst]

end Supply

namespace ScopeRun

variable {workspace : Workspace} {origin source : Path} {name field : String}

structure Merging (workspace : Workspace) (name : String) (origin : Path) (start : Cache)
    (past : List Supply) (state : ListMerge Cache) : Prop where
  grown : workspace.Grown start state.cache
  errors : state.errors = Supply.allErrors name origin past
  failed : state.failed = true ↔ state.errors ≠ []
  owners : ∀ key, state.owners.lookup key = Supply.owner? key past

/-- Merging the variations of a document, whose keys are distinct, leaves a conflict for each key
that has an owner and makes the document the owner of the others. -/
theorem merge_variations_conflicts (name : String) (origin source : Path)
    (variations : List Variation) (state : ListMerge Cache)
    (distinct : (variations.map Variation.key).Nodup) :
    let keys := variations.map Variation.key
    let merged := variations.foldl (mergeVariation name origin source) state
    let conflicts :=
      Supply.keyConflicts name origin source (fun key => state.owners.lookup key) keys
    merged.errors = state.errors ++ conflicts ∧
      (merged.failed = true ↔ state.failed = true ∨ conflicts ≠ []) ∧
      ∀ key, merged.owners.lookup key =
        (state.owners.lookup key).or (if key ∈ keys then some source else none) := by
  induction variations generalizing state with
  | nil => simp [Supply.keyConflicts]
  | cons variation rest ih =>
      obtain ⟨new, apart⟩ := List.nodup_cons.mp distinct
      obtain ⟨errors, failed, owners⟩ :=
        ih (mergeVariation name origin source state variation) apart
      simp only [List.foldl_cons, List.map_cons, Supply.keyConflicts, List.filterMap_cons]
      rcases owned : state.owners.lookup variation.key with _ | first
      · have step : mergeVariation name origin source state variation =
            { state with
              merged := state.merged.insert variation.key variation.value
              owners := (variation.key, source) :: state.owners } := by
          simp only [mergeVariation, owned]
        have others : ∀ key ∈ rest.map Variation.key,
            ((variation.key, source) :: state.owners).lookup key = state.owners.lookup key := by
          intro key member
          have differ : key ≠ variation.key := fun same => new (same ▸ member)
          rw [List.lookup_cons, beq_eq_false_iff_ne.mpr differ]
        rw [step] at errors failed owners ⊢
        simp only [Supply.keyConflicts] at errors failed
        rw [List.filterMap_congr fun key member => by rw [others key member]] at errors failed
        refine ⟨errors, failed, ?_⟩
        intro key
        rw [owners, lookup_entry]
        by_cases same : key = variation.key
        · simp [same, owned]
        · simp [same]
      · have step : mergeVariation name origin source state variation =
            { state with
              failed := true
              errors := state.errors ++
                [⟨origin, some (Config.importField name),
                  .keyConflict name variation.key first source⟩] } := by
          simp only [mergeVariation, owned]
        rw [step] at errors failed owners ⊢
        refine ⟨by simpa [Supply.keyConflicts] using errors, by simp [failed], ?_⟩
        intro key
        rw [owners]
        by_cases same : key = variation.key
        · simp [same, owned]
        · simp [same]

theorem open_set_distinct {reference : String} {cache later : Cache} {set : VariationSet}
    (opened : openSet workspace reference origin field cache = (.ok (source, set), later)) :
    set.keys.Nodup := by
  unfold openSet at opened
  split at opened
  · cases opened
  · split at opened
    · next read =>
        obtain ⟨same, -⟩ := Prod.mk.inj opened
        obtain ⟨-, rfl⟩ := Prod.mk.inj (Except.ok.inj same)
        exact Config.read_variations read
    · cases opened
    · cases opened

theorem supply_distinct {cache : Cache} {entry : String} {set : VariationSet}
    (brought : Supply.of workspace cache origin field entry = .loaded source set) :
    set.keys.Nodup := by
  unfold Supply.of at brought
  split at brought
  · cases brought
  · split at brought
    · next opened =>
        obtain ⟨rfl, rfl⟩ := Supply.loaded.inj brought
        exact open_set_distinct (Prod.ext opened rfl)
    · cases brought

/-- What an entry brings along does not depend on what was opened for the entries before it. -/
theorem supply_opened {start cache later : Cache} {reference : String}
    {result : Except DocumentError (Path × VariationSet)} (grown : workspace.Grown start cache)
    (opened : openSet workspace reference origin field cache = (result, later)) :
    (openSet workspace reference origin field start).1 = result := by
  obtain ⟨_, _, again⟩ := open_set_alike grown.alike.symm opened
  rw [again]

theorem Merging.snoc {start : Cache} {past : List Supply} {state next : ListMerge Cache}
    {supply : Supply}
    (merging : Merging workspace name origin start past state)
    (grown : workspace.Grown state.cache next.cache)
    (errors : next.errors =
      state.errors ++ (supply.failure ++ supply.conflicts name origin past))
    (failed : next.failed = true ↔
      state.failed = true ∨ supply.failure ++ supply.conflicts name origin past ≠ [])
    (owners : ∀ key, next.owners.lookup key =
      (state.owners.lookup key).or (Supply.owner? key [supply])) :
    Merging workspace name origin start (past ++ [supply]) next where
  grown := merging.grown.trans grown
  errors := by rw [errors, merging.errors, Supply.all_errors_snoc]
  failed := by
    rw [failed, merging.failed, errors, ← not_and_or, ← List.append_eq_nil_iff]
  owners := by
    intro key
    rw [owners, merging.owners, Supply.owner_append]

theorem merging_step {start : Cache} {past : List Supply} {state : ListMerge Cache}
    (merging : Merging workspace name origin start past state) (entry : String) :
    Merging workspace name origin start
      (past ++ [.of workspace start origin (Config.importField name) entry])
      (mergeEntry (openSet workspace) name origin (Config.importField name) state entry) := by
  unfold mergeEntry Supply.of
  cases ImportEntry.classify entry with
  | literal text =>
      exact merging.snoc .same (by simp [Supply.failure, Supply.conflicts])
        (by simp [Supply.failure, Supply.conflicts]) (by simp [Supply.owner?])
  | document reference =>
      rcases opened : openSet workspace reference origin (Config.importField name) state.cache
        with ⟨failure | ⟨source, set⟩, cache⟩
      · simp only [opened, supply_opened merging.grown opened]
        exact merging.snoc (open_set_grown opened) (by simp [Supply.failure, Supply.conflicts])
          (by simp [Supply.failure, Supply.conflicts]) (by simp [Supply.owner?])
      · obtain ⟨errors, failed, owners⟩ := merge_variations_conflicts name origin source
          set.entries { state with cache } (open_set_distinct opened)
        simp only [merging.owners] at errors failed
        simp only [opened, supply_opened merging.grown opened]
        refine merging.snoc ?_ ?_ ?_ ?_
        · rw [merge_variations_cache]
          exact open_set_grown opened
        · exact errors
        · exact failed
        · intro key
          rw [owners]
          simp [Supply.owner?, VariationSet.keys]

theorem merging_run {start : Cache} {past : List Supply} {state : ListMerge Cache}
    (merging : Merging workspace name origin start past state) (entries : List String) :
    Merging workspace name origin start
      (past ++ entries.map (Supply.of workspace start origin (Config.importField name)))
      (entries.foldl (mergeEntry (openSet workspace) name origin (Config.importField name))
        state) := by
  induction entries generalizing past state with
  | nil => rwa [List.map_nil, List.append_nil]
  | cons entry rest ih =>
      rw [List.map_cons, List.append_cons]
      exact ih (merging_step merging entry)

/-! ### Failures and the other declarations -/

def after {Kept : Type} (earlier : List DocumentError) (run : ScopeRun Kept) : ScopeRun Kept :=
  { run with errors := earlier ++ run.errors }

mutual

theorem resolve_spec_after {Kept : Type} (opener : Opener Kept) (origin : Path) (name : String)
    (earlier : List DocumentError) (run : ScopeRun Kept) : ∀ spec,
    resolveSpec opener origin name (run.after earlier) spec =
      (resolveSpec opener origin name run spec).after earlier
  | .document reference => by
      unfold resolveSpec
      simp only [after]
      split
      · rfl
      · simp
  | .list entries => by
      unfold resolveSpec
      simp only [after, List.append_assoc]
      rfl
  | .group members => by
      unfold resolveSpec
      exact resolve_members_after opener origin name earlier run members

theorem resolve_members_after {Kept : Type} (opener : Opener Kept) (origin : Path) (name : String)
    (earlier : List DocumentError) (run : ScopeRun Kept) : ∀ members,
    resolveMembers opener origin name (run.after earlier) members =
      (resolveMembers opener origin name run members).after earlier
  | [] => by
      unfold resolveMembers
      rfl
  | (member, spec) :: rest => by
      unfold resolveMembers
      rw [resolve_spec_after opener origin _ earlier run spec,
        resolve_members_after opener origin name earlier _ rest]

end

def resolveEach (workspace : Workspace) (run : ScopeRun Cache)
    (decls : List (String × ImportDecl)) : ScopeRun Cache :=
  decls.foldl
    (fun run (name, decl) => resolveSpec (openSet workspace) decl.origin name run decl.spec) run

theorem resolve_each_after (workspace : Workspace) (earlier : List DocumentError)
    (run : ScopeRun Cache) (decls : List (String × ImportDecl)) :
    resolveEach workspace (run.after earlier) decls =
      (resolveEach workspace run decls).after earlier := by
  induction decls generalizing run with
  | nil => rfl
  | cons decl rest ih =>
      simp only [resolveEach, List.foldl_cons, resolve_spec_after] at ih ⊢
      exact ih _

/-- A declaration that opened documents and met errors, but registered nothing, is not noticed by
the declarations after it. -/
theorem resolve_each_past {workspace : Workspace} {run failed : ScopeRun Cache}
    (grown : workspace.Grown run.cache failed.cache) (scope : failed.scope = run.scope)
    (decls : List (String × ImportDecl)) :
    (resolveEach workspace failed decls).scope = (resolveEach workspace run decls).scope ∧
      ∃ added, (resolveEach workspace failed decls).errors = failed.errors ++ added ∧
        (resolveEach workspace run decls).errors = run.errors ++ added := by
  let bare : ScopeRun Cache := ⟨run.cache, run.scope, []⟩
  obtain ⟨cache, again, -⟩ := resolve_each_parallel open_set_agrees decls [] bare grown.alike
  change resolveEach workspace (bare.withCache failed.cache) decls =
    (resolveEach workspace bare decls).withCache cache at again
  have first : run = bare.after run.errors := by simp [bare, after]
  have second : failed = (bare.withCache failed.cache).after failed.errors := by
    simp [bare, after, withCache, ← scope]
  have ran := resolve_each_after workspace run.errors bare decls
  have passed := resolve_each_after workspace failed.errors (bare.withCache failed.cache) decls
  rw [← first] at ran
  rw [← second, again] at passed
  rw [ran, passed]
  exact ⟨rfl, _, rfl, rfl⟩

theorem resolve_list_reports (workspace : Workspace) (origin : Path) (name : String)
    (run : ScopeRun Cache) (entries : List String) :
    let supplies := entries.map (.of workspace run.cache origin (Config.importField name))
    let added := Supply.allErrors name origin supplies
    let result := resolveSpec (openSet workspace) origin name run (.list entries)
    workspace.Grown run.cache result.cache ∧ result.errors = run.errors ++ added ∧
      (added = [] → ∃ set, result.scope = run.scope.insert name set) ∧
      (added ≠ [] → result.scope = run.scope) := by
  intro supplies added result
  have start : Merging workspace name origin run.cache [] ⟨run.cache, .empty, [], false, []⟩ :=
    ⟨.same, rfl, by simp, fun _ => rfl⟩
  have merging := merging_run start entries
  rw [List.nil_append] at merging
  unfold result
  unfold resolveSpec
  dsimp only
  refine ⟨merging.grown, ?_, ?_, ?_⟩
  · rw [merging.errors]
  · intro clean
    rw [if_neg (by rw [merging.failed, merging.errors]; exact fun wrong => wrong clean)]
    exact ⟨_, rfl⟩
  · intro wrong
    rw [if_pos (by rw [merging.failed, merging.errors]; exact wrong)]

/-- The conflicts that a list import reports are, in order, one for each entry that loads and each
of its keys that an entry before it holds, with the first such entry as the owner; its other errors
are those of the entries that do not load. The import is registered when there is neither, and
otherwise nothing is registered and the declarations after it go on as if it had not been there. -/
theorem list_conflicts_reported (workspace : Workspace) (origin : Path) (name : String)
    (run : ScopeRun Cache) (entries : List String) (others : List (String × ImportDecl)) :
    let supplies := entries.map (.of workspace run.cache origin (Config.importField name))
    let result := resolveSpec (openSet workspace) origin name run (.list entries)
    (∃ added, result.errors = run.errors ++ added ∧
      Supply.conflictsOf added = Supply.allConflicts name origin supplies ∧
      Supply.failuresOf added = supplies.flatMap Supply.failure ∧
      (added = [] → ∃ set, result.scope = run.scope.insert name set) ∧
      (added ≠ [] → result.scope = run.scope ∧
        (resolveEach workspace result others).scope = (resolveEach workspace run others).scope ∧
        ∃ later, (resolveEach workspace result others).errors = result.errors ++ later ∧
          (resolveEach workspace run others).errors = run.errors ++ later)) ∧
      ∀ source set, .loaded source set ∈ supplies → set.keys.Nodup := by
  intro supplies result
  obtain ⟨grown, errors, registered, unchanged⟩ :=
    resolve_list_reports workspace origin name run entries
  obtain ⟨conflicts, failures⟩ := Supply.all_errors_apart workspace run.cache origin name
    (Config.importField name) entries
  refine ⟨⟨_, errors, conflicts, failures, registered, ?_⟩, ?_⟩
  · intro wrong
    exact ⟨unchanged wrong, resolve_each_past grown (unchanged wrong) others⟩
  · intro source set supplied
    obtain ⟨entry, _, brought⟩ := List.mem_map.mp supplied
    exact supply_distinct brought

end ScopeRun

end PromptLoom
