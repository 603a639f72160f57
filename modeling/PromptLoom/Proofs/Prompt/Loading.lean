import PromptLoom.Proofs.Prompt.Faults
import PromptLoom.Proofs.Scope.Conflicts

/-!
# What keeps chunks and imports from loading

A chunk does not open over a path, the structure of a document or its parent, and imports do not
resolve over a path, the structure of a document or a key of two documents. Whatever was opened
before, none of these errors is about what a body says.
-/

namespace PromptLoom

open Workspace

set_option autoImplicit false

/-- No error is about placeholders, mentions, selectors or values. -/
def NoneTemplate (errors : List DocumentError) : Prop :=
  ∀ error ∈ errors, error.category ≠ .template

theorem none_template_nil : NoneTemplate [] := by
  intro error member
  cases member

theorem NoneTemplate.snoc {errors : List DocumentError} {error : DocumentError}
    (before : NoneTemplate errors) (last : error.category ≠ .template) :
    NoneTemplate (errors ++ [error]) := by
  intro other member
  rcases List.mem_append.mp member with earlier | new
  · exact before other earlier
  · rw [List.mem_singleton.mp new]
    exact last

theorem not_template {error : DocumentError}
    (category : error.category = .structural ∨ error.category = .path) :
    error.category ≠ .template := by
  rcases category with category | category
  · rw [category]
    decide
  · rw [category]
    decide

theorem Document.first_fault_structural {document : Document} {path : Path}
    {faults : List DocumentError} (unread : document.read = .error faults) :
    (Document.firstFault path faults).category = .structural := by
  have structural := Config.read_faults_structural unread
  cases faults with
  | nil => rfl
  | cons first rest => exact structural first (.head _)

variable {workspace : Workspace}

namespace Resolver

theorem extend_fault_category {parent child : ChunkConfig} {error : DocumentError}
    (failed : ResolvedChunk.extendFault? parent child = some error) :
    error.category = .inheritance := by
  unfold ResolvedChunk.extendFault? at failed
  split at failed
  · rw [← Option.some.inj failed]
    rfl
  · split at failed
    · split at failed
      · cases failed
      · rw [← Option.some.inj failed]
        rfl
    · cases failed

theorem extend_chunk_category {child : ChunkConfig} {path : Path} {reference : String}
    {resolver : Resolver} {error : DocumentError}
    (failed : (extendChunk workspace child path reference resolver).1 = .error error) :
    error.category ≠ .template := by
  unfold extendChunk at failed
  split at failed
  · next unopened =>
      obtain rfl := Except.error.inj failed
      exact not_template (target_category (open_reference_error (congrArg Prod.fst unopened)))
  · dsimp only at failed
    split at failed
    · next unread =>
        rw [← Except.error.inj failed, Document.first_fault_structural unread]
        decide
    · split at failed
      · next misfit =>
          rw [← Except.error.inj failed, extend_fault_category misfit]
          decide
      · cases failed
    · rw [← Except.error.inj failed]
      simp [DocumentError.category, Cause.category]

theorem resolve_chunk_category {document : Document} {resolver : Resolver} {error : DocumentError}
    (failed : (resolveChunk workspace document resolver).1 = .error error) :
    error.category ≠ .template := by
  unfold resolveChunk at failed
  dsimp only at failed
  split at failed
  · cases failed
  split at failed
  · next unread =>
      rw [← Except.error.inj failed, Document.first_fault_structural unread]
      decide
  · split at failed
    · cases failed
    · exact extend_chunk_category failed
  · rw [← Except.error.inj failed]
    simp [DocumentError.category, Cause.category]

end Resolver

namespace ScopeRun

theorem merge_variation_loads {name : String} {origin source : Path} {state : ListMerge Cache}
    (before : NoneTemplate state.errors) (variation : Variation) :
    NoneTemplate (mergeVariation name origin source state variation).errors := by
  unfold mergeVariation
  split
  · exact before.snoc (by simp [DocumentError.category, Cause.category])
  · exact before

theorem merge_entry_loads {name field : String} {origin : Path} {state : ListMerge Cache}
    (before : NoneTemplate state.errors) (entry : String) :
    NoneTemplate (mergeEntry (openSet workspace) name origin field state entry).errors := by
  unfold mergeEntry
  split
  · exact before
  · split
    · next unopened =>
        exact before.snoc (not_template (open_set_category (congrArg Prod.fst unopened)))
    · next set _ _ =>
        exact List.foldlRecOn (motive := fun state : ListMerge Cache => NoneTemplate state.errors)
          set.entries _ before fun _ known variation _ => merge_variation_loads known variation

mutual

theorem resolve_spec_loads (origin : Path) (name : String) {run : ScopeRun Cache}
    (before : NoneTemplate run.errors) :
    ∀ spec, NoneTemplate (resolveSpec (openSet workspace) origin name run spec).errors
  | .document reference => by
      unfold resolveSpec
      split
      · exact before
      · next unopened =>
          exact before.snoc (not_template (open_set_category (congrArg Prod.fst unopened)))
  | .list entries => by
      unfold resolveSpec
      have merged : NoneTemplate (entries.foldl
          (mergeEntry (openSet workspace) name origin (Config.importField name))
          ⟨run.cache, .empty, [], false, []⟩).errors :=
        List.foldlRecOn (motive := fun state : ListMerge Cache => NoneTemplate state.errors)
          entries _ none_template_nil fun _ known entry _ => merge_entry_loads known entry
      intro error member
      rcases List.mem_append.mp member with old | new
      · exact before error old
      · exact merged error new
  | .group members => by
      unfold resolveSpec
      exact resolve_members_loads origin name before members

theorem resolve_members_loads (origin : Path) (name : String) {run : ScopeRun Cache}
    (before : NoneTemplate run.errors) :
    ∀ members, NoneTemplate (resolveMembers (openSet workspace) origin name run members).errors
  | [] => by
      unfold resolveMembers
      exact before
  | (member, spec) :: rest => by
      unfold resolveMembers
      exact resolve_members_loads origin name (resolve_spec_loads origin _ before spec) rest

end

end ScopeRun

theorem Scope.resolve_loads {decls : NameMap ImportDecl} {cache : Cache}
    {errors : List DocumentError}
    (failed : (Scope.resolve workspace decls cache).1 = .error errors) : NoneTemplate errors := by
  rw [← reported failed]
  exact List.foldlRecOn (motive := fun run : ScopeRun Cache => NoneTemplate run.errors)
    decls.entries _ none_template_nil fun _ known entry _ =>
      ScopeRun.resolve_spec_loads entry.2.origin entry.1 known entry.2.spec

theorem Expansion.open_chunk_category {name : String} {decl : ChunkDecl} {resolver : Resolver}
    {error : DocumentError} (failed : (openChunk workspace name decl resolver).1 = .error error) :
    error.category ≠ .template := by
  unfold openChunk at failed
  split at failed
  · next unopened =>
      obtain rfl := Except.error.inj failed
      exact not_template (target_category (open_reference_error (congrArg Prod.fst unopened)))
  · exact Resolver.resolve_chunk_category failed

end PromptLoom
