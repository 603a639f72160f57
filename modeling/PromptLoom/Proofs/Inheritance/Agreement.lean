import PromptLoom.Inheritance.Resolver
import PromptLoom.Proofs.Opening

/-!
# Resolving over alike caches

A resolver uses its cache only to open documents. Put on a cache that shows the same documents, it
gives the same results, remembers the same and warns the same.
-/

namespace PromptLoom.Resolver

open Workspace

set_option autoImplicit false

theorem resolve_from_grown (workspace : Workspace) (open_ : List Location) (passed : List Path)
    (document : Document) (resolver : Resolver) :
    workspace.Grown resolver.cache
      (resolveFrom workspace open_ passed document resolver).2.cache := by
  fun_induction resolveFrom workspace open_ passed document resolver with
  | case1 | case2 | case3 | case4 | case5 | case10 => exact .same
  | case6 _ _ _ _ _ _ _ _ _ _ _ _ _ _ _ _ _ opened => exact open_reference_grown opened
  | case7 _ _ _ _ _ _ _ _ _ _ _ _ _ _ _ _ _ opened => exact open_reference_grown opened
  | case8 _ _ _ _ _ _ _ _ _ _ _ _ _ _ _ _ _ opened _ _ _ _ failed ih =>
      rw [failed] at ih
      exact (open_reference_grown opened).trans ih
  | case9 _ _ _ _ _ _ _ _ _ _ _ _ _ _ _ _ _ opened _ _ _ _ resolved ih =>
      rw [resolved] at ih
      exact (open_reference_grown opened).trans ih

theorem extend_chunk_grown (workspace : Workspace) (child : ChunkConfig) (path : Path)
    (reference : String) (resolver : Resolver) :
    workspace.Grown resolver.cache
      (extendChunk workspace child path reference resolver).2.cache := by
  unfold extendChunk
  split
  · next opened => exact open_reference_grown opened
  · next opened =>
      have grown := open_reference_grown opened
      split
      · exact grown
      · split
        · exact grown
        · exact grown
      · exact grown

theorem resolve_chunk_grown (workspace : Workspace) (document : Document) (resolver : Resolver) :
    workspace.Grown resolver.cache (resolveChunk workspace document resolver).2.cache := by
  fun_cases resolveChunk workspace document resolver with
  | case4 => exact extend_chunk_grown workspace _ _ _ resolver
  | _ => exact .same

def withCache (resolver : Resolver) (cache : Cache) : Resolver := { resolver with cache }

theorem resolve_from_alike {workspace : Workspace} {open_ : List Location} {passed : List Path}
    {document : Document} {resolver later : Resolver} {other : Cache}
    {result : Except DocumentError ResolvedConfig}
    (alike : workspace.Alike resolver.cache other)
    (ran : resolveFrom workspace open_ passed document resolver = (result, later)) :
    ∃ cache, workspace.Alike later.cache cache ∧
      resolveFrom workspace open_ passed document (resolver.withCache other) =
        (result, later.withCache cache) := by
  -- the induction is on the way up. Of everything on the way, only the opening of a parent looks at
  -- the cache
  induction size : open_.length using Nat.strongRecOn
    generalizing open_ passed document resolver later other result with
  | ind bound ih =>
      rw [resolveFrom] at ran ⊢
      simp only [withCache]
      by_cases fresh : document.location ∈ open_
      rotate_left
      · rw [dif_neg fresh] at ran ⊢
        obtain ⟨rfl, rfl⟩ := Prod.mk.inj ran
        exact ⟨other, alike, rfl⟩
      rw [dif_pos fresh] at ran ⊢
      rcases known : resolver.configs.lookup document.path with _ | resolved
      rotate_left
      · simp only [known] at ran ⊢
        obtain ⟨rfl, rfl⟩ := Prod.mk.inj ran
        exact ⟨other, alike, rfl⟩
      rcases read : document.read with faults | config
      · simp only [known, read] at ran ⊢
        obtain ⟨rfl, rfl⟩ := Prod.mk.inj ran
        exact ⟨other, alike, rfl⟩
      rcases layered : layerOf? config with _ | ⟨layer, bodyField, generation⟩
      · simp only [known, read, layered] at ran ⊢
        obtain ⟨rfl, rfl⟩ := Prod.mk.inj ran
        exact ⟨other, alike, rfl⟩
      rcases implemented : layer.implements with _ | reference
      · simp only [known, read, layered, implemented] at ran ⊢
        split at ran <;> obtain ⟨rfl, rfl⟩ := Prod.mk.inj ran
        · next lonely => exact ⟨other, alike, if_pos lonely⟩
        · next free => exact ⟨other, alike, if_neg free⟩
      rcases opened : workspace.openReference reference document.path "implements" resolver.cache
        with ⟨failure | parent, cache⟩
      · obtain ⟨second, reopened, follows⟩ := alike.open_reference opened
        simp only [known, read, layered, implemented, opened, reopened] at ran ⊢
        obtain ⟨rfl, rfl⟩ := Prod.mk.inj ran
        exact ⟨second, follows, rfl⟩
      obtain ⟨second, reopened, follows⟩ := alike.open_reference opened
      rcases fit : (Kind.classify? parent.value).filter (· ≠ Kind.template) with _ | kind
      rotate_left
      · simp only [known, read, layered, implemented, opened, reopened, fit] at ran ⊢
        obtain ⟨rfl, rfl⟩ := Prod.mk.inj ran
        exact ⟨second, follows, rfl⟩
      simp only [known, read, layered, implemented, opened, reopened, fit] at ran ⊢
      have shorter := without_length_lt fresh
      rcases upward : resolveFrom workspace (without document.location open_)
        (passed ++ [document.path]) parent { resolver with cache } with ⟨failure | base, above⟩
      · obtain ⟨third, stays, again⟩ := ih _ (size ▸ shorter) follows upward rfl
        simp only [withCache] at again
        rw [upward] at ran
        obtain ⟨rfl, rfl⟩ := Prod.mk.inj ran
        exact ⟨third, stays, by rw [again]⟩
      · obtain ⟨third, stays, again⟩ := ih _ (size ▸ shorter) follows upward rfl
        simp only [withCache] at again
        rw [upward] at ran
        obtain ⟨rfl, rfl⟩ := Prod.mk.inj ran
        exact ⟨third, stays, by rw [again]; rfl⟩

theorem extend_chunk_alike {workspace : Workspace} {child : ChunkConfig} {path : Path}
    {reference : String} {resolver later : Resolver} {other : Cache}
    {result : Except DocumentError ResolvedChunk}
    (alike : workspace.Alike resolver.cache other)
    (ran : extendChunk workspace child path reference resolver = (result, later)) :
    ∃ cache, workspace.Alike later.cache cache ∧
      extendChunk workspace child path reference (resolver.withCache other) =
        (result, later.withCache cache) := by
  unfold extendChunk at ran ⊢
  simp only [withCache]
  rcases opened : workspace.openReference reference path "implements" resolver.cache
    with ⟨failure | document, cache⟩
  · obtain ⟨second, reopened, follows⟩ := alike.open_reference opened
    simp only [opened, reopened] at ran ⊢
    obtain ⟨rfl, rfl⟩ := Prod.mk.inj ran
    exact ⟨second, follows, rfl⟩
  obtain ⟨second, reopened, follows⟩ := alike.open_reference opened
  simp only [opened, reopened] at ran ⊢
  rcases read : document.read with faults | config
  · simp only [read] at ran ⊢
    obtain ⟨rfl, rfl⟩ := Prod.mk.inj ran
    exact ⟨second, follows, rfl⟩
  cases config with
  | chunk parent =>
      rcases fault : ResolvedChunk.extendFault? parent child with _ | fault
      all_goals
        simp only [read, fault] at ran ⊢
        obtain ⟨rfl, rfl⟩ := Prod.mk.inj ran
        exact ⟨second, follows, rfl⟩
  | template | prompt | variations =>
      simp only [read] at ran ⊢
      obtain ⟨rfl, rfl⟩ := Prod.mk.inj ran
      exact ⟨second, follows, rfl⟩

theorem resolve_chunk_alike {workspace : Workspace} {document : Document}
    {resolver later : Resolver} {other : Cache} {result : Except DocumentError ResolvedChunk}
    (alike : workspace.Alike resolver.cache other)
    (ran : resolveChunk workspace document resolver = (result, later)) :
    ∃ cache, workspace.Alike later.cache cache ∧
      resolveChunk workspace document (resolver.withCache other) =
        (result, later.withCache cache) := by
  unfold resolveChunk at ran ⊢
  simp only [withCache]
  rcases known : resolver.chunks.lookup document.path with _ | resolved
  rotate_left
  · simp only [known] at ran ⊢
    obtain ⟨rfl, rfl⟩ := Prod.mk.inj ran
    exact ⟨other, alike, rfl⟩
  rcases read : document.read with faults | config
  · simp only [known, read] at ran ⊢
    obtain ⟨rfl, rfl⟩ := Prod.mk.inj ran
    exact ⟨other, alike, rfl⟩
  cases config with
  | chunk child =>
      rcases implemented : child.implements with _ | reference
      · simp only [known, read, implemented] at ran ⊢
        obtain ⟨rfl, rfl⟩ := Prod.mk.inj ran
        exact ⟨other, alike, rfl⟩
      · simp only [known, read, implemented] at ran ⊢
        exact extend_chunk_alike alike ran
  | template | prompt | variations =>
      simp only [known, read] at ran ⊢
      obtain ⟨rfl, rfl⟩ := Prod.mk.inj ran
      exact ⟨other, alike, rfl⟩

end PromptLoom.Resolver
