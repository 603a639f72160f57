import PromptLoom.Prompt.Resolution
import PromptLoom.Proofs.Inheritance.Agreement
import PromptLoom.Proofs.Scope.Agreement

/-!
# Expanding mentions over alike caches

Expanding the mentions of a body opens the documents of chunks and of their imports. Alike caches
lead to the same text, the same scope, the same errors and the same warnings. What has been reported
before an expansion stays reported.
-/

namespace PromptLoom.Expansion

open Workspace

set_option autoImplicit false

def withCache (state : Expansion) (cache : Cache) : Expansion :=
  { state with resolver := state.resolver.withCache cache }

theorem open_chunk_grown (workspace : Workspace) (name : String) (decl : ChunkDecl)
    (resolver : Resolver) :
    workspace.Grown resolver.cache (openChunk workspace name decl resolver).2.cache := by
  unfold openChunk
  split
  · next opened => exact open_reference_grown opened
  · next document cache opened =>
      exact (open_reference_grown opened).trans
        (Resolver.resolve_chunk_grown workspace document { resolver with cache })

theorem open_chunk_alike {workspace : Workspace} {name : String} {decl : ChunkDecl}
    {resolver later : Resolver} {other : Cache} {result : Except DocumentError ResolvedChunk}
    (alike : workspace.Alike resolver.cache other)
    (ran : openChunk workspace name decl resolver = (result, later)) :
    ∃ cache, workspace.Alike later.cache cache ∧
      openChunk workspace name decl (resolver.withCache other) =
        (result, later.withCache cache) := by
  unfold openChunk at ran ⊢
  simp only [Resolver.withCache]
  rcases opened : workspace.openReference decl.reference decl.origin (Config.chunkField name)
    resolver.cache with ⟨failure | document, cache⟩
  · obtain ⟨second, again, follows⟩ := alike.open_reference opened
    simp only [opened, again] at ran ⊢
    obtain ⟨rfl, rfl⟩ := Prod.mk.inj ran
    exact ⟨second, follows, rfl⟩
  · obtain ⟨second, again, follows⟩ := alike.open_reference opened
    simp only [opened, again] at ran ⊢
    obtain ⟨third, stays, anew⟩ := Resolver.resolve_chunk_alike (by exact follows) ran
    exact ⟨third, stays, anew⟩

theorem expand_ref_grown (workspace : Workspace) (config : ResolvedConfig) (field : String)
    (state : Expansion) (ref : ChunkRef) :
    workspace.Grown state.resolver.cache
      (expandRef workspace config field state ref).2.resolver.cache := by
  unfold expandRef
  split
  · exact .same
  · next decl _ =>
      have first := open_chunk_grown workspace ref.name decl state.resolver
      split
      · next opened =>
          rw [opened] at first
          exact first
      · next chunk resolver opened =>
          rw [opened] at first
          have second := Scope.resolve_grown workspace chunk.imports resolver.cache
          split
          · next resolved =>
              rw [resolved] at second
              exact first.trans second
          · next resolved =>
              rw [resolved] at second
              exact first.trans second

theorem expand_ref_alike {workspace : Workspace} {config : ResolvedConfig} {field : String}
    {state later : Expansion} {ref : ChunkRef} {other : Cache} {text : String}
    (alike : workspace.Alike state.resolver.cache other)
    (ran : expandRef workspace config field state ref = (text, later)) :
    ∃ cache, workspace.Alike later.resolver.cache cache ∧
      expandRef workspace config field (state.withCache other) ref =
        (text, later.withCache cache) := by
  unfold expandRef at ran ⊢
  rcases declared : config.chunks.get? ref.name with _ | decl
  · simp only [declared] at ran ⊢
    obtain ⟨rfl, rfl⟩ := Prod.mk.inj ran
    exact ⟨other, alike, rfl⟩
  rcases opened : openChunk workspace ref.name decl state.resolver with ⟨failure | chunk, resolver⟩
  · obtain ⟨second, follows, again⟩ := open_chunk_alike alike opened
    simp only [declared, opened, withCache, again] at ran ⊢
    obtain ⟨rfl, rfl⟩ := Prod.mk.inj ran
    exact ⟨second, follows, rfl⟩
  obtain ⟨second, follows, again⟩ := open_chunk_alike alike opened
  rcases resolved : Scope.resolve workspace chunk.imports resolver.cache
    with ⟨failures | own, cache⟩
  all_goals
    obtain ⟨third, stays, anew⟩ := Scope.resolve_alike follows resolved
    simp only [Resolver.withCache] at again
    simp only [declared, opened, resolved, withCache, Resolver.withCache, again, anew] at ran ⊢
    obtain ⟨rfl, rfl⟩ := Prod.mk.inj ran
    exact ⟨third, stays, rfl⟩

/-- What every mention keeps, well formed or not, the expansion of a body keeps. -/
theorem expand_parts_keeps {workspace : Workspace} {config : ResolvedConfig} {field : String}
    (holds : Expansion → Prop)
    (malformed : ∀ state problem, holds state →
      holds (state.fail ⟨config.source, some field, .malformedMention problem⟩))
    (mentioned : ∀ state ref, holds state → holds (expandRef workspace config field state ref).2)
    (parts : List BodyPart) {state : Expansion} (before : holds state) :
    holds (expandParts workspace config field state parts).2 := by
  induction parts generalizing state with
  | nil => exact before
  | cons part rest ih =>
      cases part with
      | char c => exact ih before
      | mention source parsed =>
          cases parsed with
          | error problem => exact ih (malformed state problem before)
          | ok ref => exact ih (mentioned state ref before)

theorem expand_parts_grown (workspace : Workspace) (config : ResolvedConfig) (field : String)
    (state : Expansion) (parts : List BodyPart) :
    workspace.Grown state.resolver.cache
      (expandParts workspace config field state parts).2.resolver.cache := by
  refine expand_parts_keeps
    (fun later => workspace.Grown state.resolver.cache later.resolver.cache) ?_ ?_ parts .same
  · intro later problem grown
    exact grown
  · intro later ref grown
    exact grown.trans (expand_ref_grown workspace config field later ref)

theorem expand_parts_alike {workspace : Workspace} {config : ResolvedConfig} {field : String}
    {state later : Expansion} {other : Cache} {text : List Char} (parts : List BodyPart)
    (alike : workspace.Alike state.resolver.cache other)
    (ran : expandParts workspace config field state parts = (text, later)) :
    ∃ cache, workspace.Alike later.resolver.cache cache ∧
      expandParts workspace config field (state.withCache other) parts =
        (text, later.withCache cache) := by
  induction parts generalizing state later other text with
  | nil =>
      obtain ⟨rfl, rfl⟩ := Prod.mk.inj ran
      exact ⟨other, alike, rfl⟩
  | cons part rest ih =>
      cases part with
      | char c =>
          obtain ⟨rfl, rfl⟩ := Prod.mk.inj ran
          obtain ⟨second, follows, again⟩ := ih alike rfl
          exact ⟨second, follows, by simp only [expandParts, again]⟩
      | mention source parsed =>
          cases parsed with
          | error problem =>
              obtain ⟨rfl, rfl⟩ := Prod.mk.inj ran
              have moved (error : DocumentError) :
                  (state.withCache other).fail error = (state.fail error).withCache other := rfl
              have failed (error : DocumentError) :
                  workspace.Alike (state.fail error).resolver.cache other := alike
              obtain ⟨second, follows, again⟩ := ih (failed _) rfl
              exact ⟨second, follows, by simp only [expandParts, moved, again]⟩
          | ok ref =>
              obtain ⟨rfl, rfl⟩ := Prod.mk.inj ran
              obtain ⟨second, follows, again⟩ := expand_ref_alike alike
                (Eq.refl (expandRef workspace config field state ref))
              obtain ⟨third, stays, anew⟩ := ih follows rfl
              exact ⟨third, stays, by simp only [expandParts, again, anew]⟩

theorem expand_body_grown (workspace : Workspace) (config : ResolvedConfig) (field body : String)
    (state : Expansion) :
    workspace.Grown state.resolver.cache
      (expandBody workspace config field body state).2.resolver.cache :=
  expand_parts_grown workspace config field state (BodyPart.ofText body)

theorem expand_body_alike {workspace : Workspace} {config : ResolvedConfig} {field body : String}
    {state later : Expansion} {other : Cache} {text : String}
    (alike : workspace.Alike state.resolver.cache other)
    (ran : expandBody workspace config field body state = (text, later)) :
    ∃ cache, workspace.Alike later.resolver.cache cache ∧
      expandBody workspace config field body (state.withCache other) =
        (text, later.withCache cache) := by
  obtain ⟨rfl, rfl⟩ := Prod.mk.inj ran
  obtain ⟨second, follows, again⟩ := expand_parts_alike (BodyPart.ofText body) alike
    (Eq.refl (expandParts workspace config field state (BodyPart.ofText body)))
  exact ⟨second, follows, by simp only [expandBody, again]⟩

/-! ### Errors met on the way -/

theorem expand_ref_errors (workspace : Workspace) (config : ResolvedConfig) (field : String)
    (state : Expansion) (ref : ChunkRef) :
    state.errors <+: (expandRef workspace config field state ref).2.errors := by
  unfold expandRef
  split
  · exact List.prefix_append ..
  · split
    · exact List.prefix_append ..
    · split
      · exact List.prefix_append ..
      · exact List.prefix_append ..

theorem expand_parts_errors (workspace : Workspace) (config : ResolvedConfig) (field : String)
    (state : Expansion) (parts : List BodyPart) :
    state.errors <+: (expandParts workspace config field state parts).2.errors := by
  refine expand_parts_keeps (fun later => state.errors <+: later.errors) ?_ ?_ parts
    (List.prefix_refl _)
  · intro later problem kept
    exact kept.trans (List.prefix_append ..)
  · intro later ref kept
    exact kept.trans (expand_ref_errors workspace config field later ref)

end PromptLoom.Expansion
