import PromptLoom.Chunk.Fill
import PromptLoom.Inheritance.Resolver
import PromptLoom.Prompt.Slots

/-!
# From a document to a prepared prompt

Resolving a prompt follows its parents, resolves the imports that it ends up with, expands the
chunks mentioned in its bodies, and cuts the bodies into slots. Expanding a chunk makes its own
imports known to the caller under dotted names.
-/

namespace PromptLoom

open Text

set_option autoImplicit false

structure Expansion where
  resolver : Resolver
  scope : Scope
  errors : List DocumentError
  warnings : List Finding

namespace Expansion

def fail (state : Expansion) (error : DocumentError) : Expansion :=
  { state with errors := state.errors ++ [error] }

/-- Makes the imports of a chunk known under its name. -/
def liftImports (chunkName : String) (own scope : Scope) : Scope :=
  own.entries.foldl (fun scope (name, set) => scope.insert (chunkName ++ "." ++ name) set) scope

/-- The warnings about values bound to names that the body of a chunk does not have. -/
def unusedBindings (file : Path) (field : String) (ref : ChunkRef) (body : String) :
    List Finding :=
  let names := (placeholders body).map Placeholder.name
  (ref.bindings.filter fun (param, _) => !names.contains param).map fun (param, _) =>
    (Notice.bindingNotUsed param ref.name).finding file field

def openChunk (workspace : Workspace) (name : String) (decl : ChunkDecl) (resolver : Resolver) :
    Except DocumentError ResolvedChunk × Resolver :=
  match workspace.openReference decl.reference decl.origin (Config.chunkField name)
      resolver.cache with
  | (.error error, cache) => (.error error, { resolver with cache })
  | (.ok document, cache) => Resolver.resolveChunk workspace document { resolver with cache }

def expandRef (workspace : Workspace) (config : ResolvedConfig) (field : String)
    (state : Expansion) (ref : ChunkRef) : String × Expansion :=
  match config.chunks.get? ref.name with
  | none => ("", state.fail ⟨config.source, some field, .unknownChunk ref.name⟩)
  | some decl =>
      match openChunk workspace ref.name decl state.resolver with
      | (.error error, resolver) => ("", { state with resolver }.fail error)
      | (.ok chunk, resolver) =>
          match Scope.resolve workspace chunk.imports resolver.cache with
          | (.error errors, cache) =>
              ("", { state with
                resolver := { resolver with cache }
                errors := state.errors ++ errors })
          | (.ok own, cache) =>
              -- The scope stays extended for the mentions behind this one.
              let scope := liftImports ref.name own state.scope
              let (text, errors) := Chunk.fill chunk ref own scope
              (text,
                { resolver := { resolver with cache }
                  scope
                  errors := state.errors ++ errors
                  warnings := state.warnings ++
                    unusedBindings config.source field ref chunk.body })

/-- The text of the parts of a body with every mention expanded. A malformed mention stays as it is
written. -/
def expandParts (workspace : Workspace) (config : ResolvedConfig) (field : String)
    (state : Expansion) : List BodyPart → List Char × Expansion
  | [] => ([], state)
  | .char c :: rest =>
      let (text, state) := expandParts workspace config field state rest
      (c :: text, state)
  | .mention source parsed :: rest =>
      let (text, state) : List Char × Expansion := match parsed with
        | .ok ref =>
            let (text, state) := expandRef workspace config field state ref
            (text.toList, state)
        | .error problem =>
            (source, state.fail ⟨config.source, some field, .malformedMention problem⟩)
      let (others, state) := expandParts workspace config field state rest
      (text ++ others, state)

def expandBody (workspace : Workspace) (config : ResolvedConfig) (field body : String)
    (state : Expansion) : String × Expansion :=
  let (text, state) := expandParts workspace config field state (BodyPart.ofText body)
  (String.ofList text, state)

end Expansion

structure Preparation where
  result : Except (List DocumentError) Prepared
  resolver : Resolver
  warnings : List Finding
  draws : Draws

def lorasWarning (config : ResolvedConfig) : List Finding :=
  if !config.loras.isEmpty && !Text.contains (config.positive ++ config.negative) lorasMarker then
    [Notice.lorasNotRendered.finding config.source "loras"] else []

def prepare (workspace : Workspace) (separator : String) (config : ResolvedConfig) (scope : Scope)
    (resolver : Resolver) (draws : Draws) : Preparation :=
  let (positiveText, state) :=
    Expansion.expandBody workspace config "prompt" config.positive ⟨resolver, scope, [], []⟩
  let (negativeText, state) :=
    Expansion.expandBody workspace config "negative-prompt" config.negative state
  let loras := (renderLoras config.loras separator).toList
  let positive := Cut.ofPieces config.source "prompt" loras [] [] (Piece.ofText positiveText)
  -- Names of the prompt keep their numbers and selectors in the negative prompt.
  let negative := Cut.ofPieces config.source "negative-prompt" loras positive.table []
    (Piece.ofText negativeText)
  let (slots, slotErrors, draws) :=
    SlotTable.slots config.source state.scope negative.table draws
  let errors := state.errors ++ positive.errors ++ negative.errors ++ slotErrors
  { result :=
      if errors.isEmpty then
        .ok ⟨positive.segments, negative.segments, slots, positiveText, negativeText⟩
      else .error errors
    resolver := state.resolver
    warnings := state.warnings ++ lorasWarning config
    draws }

structure Resolution where
  config : ResolvedConfig
  prepared : Prepared
  warnings : List Finding

structure ResolutionRun where
  result : Except (List DocumentError) Resolution
  cache : Cache
  draws : Draws

def resolvePrompt (workspace : Workspace) (separator : String) (entry : Document) (cache : Cache)
    (draws : Draws) : ResolutionRun :=
  match Resolver.resolve workspace entry (.start cache) with
  | (.error error, resolver) => ⟨.error [error], resolver.cache, draws⟩
  | (.ok config, resolver) =>
      match Scope.resolve workspace config.imports resolver.cache with
      | (.error errors, cache) => ⟨.error errors, cache, draws⟩
      | (.ok scope, cache) =>
          let done := prepare workspace separator config scope { resolver with cache } draws
          ⟨done.result.map fun prepared =>
              ⟨config, prepared, done.resolver.warnings ++ done.warnings⟩,
            done.resolver.cache, done.draws⟩

end PromptLoom
