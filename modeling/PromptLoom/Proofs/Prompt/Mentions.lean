import PromptLoom.Proofs.Inheritance.ChunkStep
import PromptLoom.Proofs.Prompt.Expansion

/-!
# Expanding mentions without a cache

What a mention expands to is settled by the declarations, the tree and the scope that it meets: the
documents opened before and the chunks remembered make no difference. `Expanded` is the outcome of
an expansion without the resolver, and the outcome of a body is put together from those of its
parts.
-/

namespace PromptLoom

open Workspace Resolver

set_option autoImplicit false

variable {workspace : Workspace}

/-- What a declaration of a chunk leads to by itself: the chunk and the sets of its own imports. -/
def ChunkDecl.outlook (workspace : Workspace) (name : String) (decl : ChunkDecl) :
    Except (List DocumentError) (ResolvedChunk × Scope) :=
  match workspace.target decl.reference decl.origin (Config.chunkField name) with
  | .error error => .error [error]
  | .ok document =>
      match chunkOutlook workspace document with
      | .error error => .error [error]
      | .ok (chunk, _) =>
          match (Scope.resolve workspace chunk.imports .empty).1 with
          | .error errors => .error errors
          | .ok own => .ok (chunk, own)

theorem ChunkDecl.outlook_opens {name : String} {decl : ChunkDecl} {chunk : ResolvedChunk}
    {own : Scope} : decl.outlook workspace name = .ok (chunk, own) ↔
      ∃ document warnings,
        workspace.target decl.reference decl.origin (Config.chunkField name) = .ok document ∧
        chunkOutlook workspace document = .ok (chunk, warnings) ∧
        (Scope.resolve workspace chunk.imports .empty).1 = .ok own := by
  unfold ChunkDecl.outlook
  constructor
  · intro opens
    split at opens
    · cases opens
    next document leads =>
    split at opens
    · cases opens
    next found warnings merged =>
    split at opens
    · cases opens
    next resolved =>
    obtain ⟨rfl, rfl⟩ := Prod.mk.inj (Except.ok.inj opens)
    exact ⟨document, warnings, leads, merged, resolved⟩
  · rintro ⟨document, warnings, leads, merged, resolved⟩
    simp only [leads, merged, resolved]

/-- What an expansion leads to, apart from what the resolver learns on the way. -/
structure Expanded where
  text : List Char
  scope : Scope
  errors : List DocumentError
  warnings : List Finding

namespace Expanded

def ofRef (workspace : Workspace) (config : ResolvedConfig) (field : String) (scope : Scope)
    (ref : ChunkRef) : Expanded :=
  match config.chunks.get? ref.name with
  | none => ⟨[], scope, [⟨config.source, some field, .unknownChunk ref.name⟩], []⟩
  | some decl =>
      match decl.outlook workspace ref.name with
      | .error errors => ⟨[], scope, errors, []⟩
      | .ok (chunk, own) =>
          let lifted := Expansion.liftImports ref.name own scope
          let filled := Chunk.fill chunk ref own lifted
          ⟨filled.1.toList, lifted, filled.2,
            Expansion.unusedBindings config.source field ref chunk.body⟩

def ofPart (workspace : Workspace) (config : ResolvedConfig) (field : String) (scope : Scope) :
    BodyPart → Expanded
  | .char c => ⟨[c], scope, [], []⟩
  | .mention _ (.ok ref) => ofRef workspace config field scope ref
  | .mention source (.error problem) =>
      ⟨source, scope, [⟨config.source, some field, .malformedMention problem⟩], []⟩

def ofParts (workspace : Workspace) (config : ResolvedConfig) (field : String) (scope : Scope) :
    List BodyPart → Expanded
  | [] => ⟨[], scope, [], []⟩
  | part :: rest =>
      let first := ofPart workspace config field scope part
      let others := ofParts workspace config field first.scope rest
      ⟨first.text ++ others.text, others.scope, first.errors ++ others.errors,
        first.warnings ++ others.warnings⟩

def after (expanded : Expanded) (state : Expansion) (resolver : Resolver) : Expansion where
  resolver := resolver
  scope := expanded.scope
  errors := state.errors ++ expanded.errors
  warnings := state.warnings ++ expanded.warnings

end Expanded

namespace Expansion

theorem open_chunk_nowhere {name : String} {decl : ChunkDecl} {resolver : Resolver}
    {error : DocumentError} (sound : resolver.Sound workspace)
    (leads :
      workspace.target decl.reference decl.origin (Config.chunkField name) = .error error) :
    (openChunk workspace name decl resolver).1 = .error error ∧
      (openChunk workspace name decl resolver).2.Sound workspace := by
  rcases opened : workspace.openReference decl.reference decl.origin (Config.chunkField name)
    resolver.cache with ⟨result, cache⟩
  obtain rfl : .error error = result := leads.symm.trans (open_reference_target sound.shown opened)
  simp only [openChunk, opened, true_and]
  exact sound.with_cache (open_reference_grown opened)

theorem open_chunk_answer {name : String} {decl : ChunkDecl} {resolver : Resolver}
    {document : Document} (named : workspace.tree.WellNamed) (sound : resolver.Sound workspace)
    (leads :
      workspace.target decl.reference decl.origin (Config.chunkField name) = .ok document) :
    (openChunk workspace name decl resolver).1 =
        (chunkOutlook workspace document).map Prod.fst ∧
      (openChunk workspace name decl resolver).2.Sound workspace := by
  rcases opened : workspace.openReference decl.reference decl.origin (Config.chunkField name)
    resolver.cache with ⟨result, cache⟩
  obtain rfl : .ok document = result := leads.symm.trans (open_reference_target sound.shown opened)
  have held := target_holds leads
  have before : (resolver.withCache cache).Sound workspace :=
    sound.with_cache (open_reference_grown opened)
  have step : ChunkStep workspace document (resolver.withCache cache) _ _ :=
    resolve_chunk_step before.shown
  simp only [openChunk, opened]
  exact ⟨step.answer named held before, step.sound held before⟩

theorem resolve_scope_anew {cache : Cache} (shown : workspace.Grown .empty cache)
    (decls : NameMap ImportDecl) :
    (Scope.resolve workspace decls cache).1 = (Scope.resolve workspace decls .empty).1 := by
  rcases ran : Scope.resolve workspace decls .empty with ⟨result, later⟩
  obtain ⟨_, _, again⟩ := Scope.resolve_alike shown.alike ran
  rw [again]

/-- A mention expands over any sound resolver to what it expands to by itself. -/
theorem expand_ref_anew (named : workspace.tree.WellNamed) (config : ResolvedConfig)
    (field : String) {state : Expansion} (sound : state.resolver.Sound workspace) (ref : ChunkRef) :
    let alone := Expanded.ofRef workspace config field state.scope ref
    ∃ resolver, resolver.Sound workspace ∧
      expandRef workspace config field state ref =
        (String.ofList alone.text, alone.after state resolver) := by
  unfold expandRef Expanded.ofRef
  rcases config.chunks.get? ref.name with _ | decl
  · refine ⟨state.resolver, sound, ?_⟩
    simp [Expanded.after, fail]
  rcases leads : workspace.target decl.reference decl.origin (Config.chunkField ref.name)
    with error | document
  · obtain ⟨answer, after⟩ := open_chunk_nowhere sound leads
    rcases opened : openChunk workspace ref.name decl state.resolver with ⟨result, resolver⟩
    rw [opened] at answer after
    obtain rfl : result = .error error := answer
    refine ⟨resolver, after, ?_⟩
    simp [ChunkDecl.outlook, leads, opened, Expanded.after, fail]
  obtain ⟨answer, after⟩ := open_chunk_answer named sound leads
  rcases opened : openChunk workspace ref.name decl state.resolver with ⟨result, resolver⟩
  rw [opened] at answer after
  rcases merged : chunkOutlook workspace document with error | ⟨chunk, own⟩
  · rw [merged] at answer
    obtain rfl : result = .error error := answer
    refine ⟨resolver, after, ?_⟩
    simp [ChunkDecl.outlook, leads, merged, opened, Expanded.after, fail]
  rw [merged] at answer
  obtain rfl : result = .ok chunk := answer
  have grown := Scope.resolve_grown workspace chunk.imports resolver.cache
  have anew := resolve_scope_anew after.shown chunk.imports
  rcases resolved : Scope.resolve workspace chunk.imports resolver.cache with ⟨outcome, cache⟩
  rw [resolved] at grown anew
  refine ⟨resolver.withCache cache, after.with_cache grown, ?_⟩
  cases outcome with
  | error errors =>
      simp [ChunkDecl.outlook, leads, merged, opened, resolved, ← anew, Expanded.after,
        Resolver.withCache]
  | ok own =>
      simp [ChunkDecl.outlook, leads, merged, opened, resolved, ← anew, Expanded.after,
        Resolver.withCache]

theorem expand_parts_anew (named : workspace.tree.WellNamed) (config : ResolvedConfig)
    (field : String) (state : Expansion) (sound : state.resolver.Sound workspace)
    (parts : List BodyPart) :
    let alone := Expanded.ofParts workspace config field state.scope parts
    ∃ resolver, resolver.Sound workspace ∧
      expandParts workspace config field state parts =
        (alone.text, alone.after state resolver) := by
  induction parts generalizing state with
  | nil =>
      refine ⟨state.resolver, sound, ?_⟩
      simp [expandParts, Expanded.ofParts, Expanded.after]
  | cons part rest ih =>
      cases part with
      | char c =>
          obtain ⟨resolver, later, ran⟩ := ih state sound
          refine ⟨resolver, later, ?_⟩
          simp [expandParts, Expanded.ofParts, Expanded.ofPart, Expanded.after, ran]
      | mention source parsed =>
          cases parsed with
          | error problem =>
              obtain ⟨resolver, later, ran⟩ := ih (state.fail
                ⟨config.source, some field, .malformedMention problem⟩) sound
              refine ⟨resolver, later, ?_⟩
              simp only [expandParts, ran]
              simp [Expanded.ofParts, Expanded.ofPart, Expanded.after, fail]
          | ok ref =>
              obtain ⟨middle, next, first⟩ := expand_ref_anew named config field sound ref
              obtain ⟨resolver, later, ran⟩ := ih ((Expanded.ofRef workspace config field
                state.scope ref).after state middle) next
              refine ⟨resolver, later, ?_⟩
              simp only [expandParts, first, ran]
              simp [Expanded.ofParts, Expanded.ofPart, Expanded.after]

/-- Both bodies expand to what they expand to by themselves, the negative one in the scope that the
positive one leaves. -/
theorem expand_bodies_anew (named : workspace.tree.WellNamed) (config : ResolvedConfig)
    (scope : Scope) {resolver : Resolver} (sound : resolver.Sound workspace) :
    let positive := Expanded.ofParts workspace config "prompt" scope
      (BodyPart.ofText config.positive)
    let negative := Expanded.ofParts workspace config "negative-prompt" positive.scope
      (BodyPart.ofText config.negative)
    let first := expandBody workspace config "prompt" config.positive ⟨resolver, scope, [], []⟩
    let second := expandBody workspace config "negative-prompt" config.negative first.2
    first.1 = String.ofList positive.text ∧ second.1 = String.ofList negative.text ∧
      second.2.scope = negative.scope ∧
      second.2.errors = positive.errors ++ negative.errors := by
  intro positive negative first second
  obtain ⟨middle, next, ran⟩ := expand_parts_anew named config "prompt"
    ⟨resolver, scope, [], []⟩ sound (BodyPart.ofText config.positive)
  obtain ⟨last, _, again⟩ := expand_parts_anew named config "negative-prompt"
    (positive.after ⟨resolver, scope, [], []⟩ middle) next (BodyPart.ofText config.negative)
  have firstRan : first =
      (String.ofList positive.text, positive.after ⟨resolver, scope, [], []⟩ middle) := by
    simp only [first, expandBody, ran, positive]
  have secondRan : second = (String.ofList negative.text,
      negative.after (positive.after ⟨resolver, scope, [], []⟩ middle) last) := by
    have after : (positive.after ⟨resolver, scope, [], []⟩ middle).scope = positive.scope := rfl
    rw [after] at again
    simp only [second, firstRan, expandBody, again, negative]
  rw [firstRan, secondRan]
  exact ⟨rfl, rfl, rfl, rfl⟩

end Expansion

/-! ### Names of mentioned chunks -/

namespace BodyPart

theorem checked_name_ident {name : List Char} {problem : MentionError} {ref : ChunkRef}
    {bindings : Except MentionError (List (String × String))}
    (checked : (if Text.isIdent name then
        bindings.map fun bindings => ChunkRef.mk (String.ofList name) bindings
      else .error problem) = .ok ref) : Text.isIdent ref.name.toList = true := by
  split at checked
  · next ident =>
      cases bindings with
      | error problem => cases checked
      | ok bindings =>
          rw [← Except.ok.inj checked, String.toList_ofList]
          exact ident
  · cases checked

theorem chunk_name_ident {inside : List Char} {ref : ChunkRef}
    (parsed : ChunkRef.parse inside = .ok ref) : Text.isIdent ref.name.toList = true := by
  unfold ChunkRef.parse at parsed
  dsimp only at parsed
  split at parsed
  · exact checked_name_ident parsed
  · exact checked_name_ident parsed

theorem mention_name_ident {text source after : List Char} {inWord : Bool} {ref : ChunkRef}
    (found : mention? text = some (.mention source (.ok ref), inWord, after)) :
    Text.isIdent ref.name.toList = true := by
  unfold mention? at found
  split at found
  · split at found
    · cases found
    · next inner rest closed =>
        simp only [Option.some.injEq, Prod.mk.injEq, mention.injEq] at found
        exact chunk_name_ident found.1.2
  · obtain ⟨⟨name, rest⟩, named, equal⟩ := Option.map_eq_some_iff.mp found
    simp only [Prod.mk.injEq, mention.injEq, Except.ok.injEq] at equal
    rw [← equal.1.2, String.toList_ofList]
    exact Text.take_ident_is_ident named
  · cases found

theorem scan_name_ident {afterWord : Bool} {text source : List Char} {ref : ChunkRef}
    (member : .mention source (.ok ref) ∈ scan afterWord text) :
    Text.isIdent ref.name.toList = true := by
  induction size : text.length using Nat.strongRecOn generalizing afterWord text with
  | ind bound ih =>
      cases text with
      | nil =>
          unfold scan at member
          cases member
      | cons c rest =>
          unfold scan at member
          split at member
          · next part inWord after found =>
              split at found
              · cases found
              · rcases List.mem_cons.mp member with rfl | later
                · exact mention_name_ident found
                · exact ih _ (size ▸ (mention?_append found).2) later rfl
          · rcases List.mem_cons.mp member with same | later
            · cases same
            · exact ih rest.length (by simp [← size]) later rfl

end BodyPart

end PromptLoom
