import PromptLoom.Inheritance.Config
import PromptLoom.Workspace

/-!
# Following parents

A template or prompt is resolved by resolving its parent first. Resolved documents are remembered,
so an ancestor of several documents is merged once and warns once. The documents that may still be
met on the way up are those of the tree without the ones already passed; a document that is not
among them closes a cycle, and since their number shrinks at every step the way up ends.
-/

namespace PromptLoom

set_option autoImplicit false

structure Resolver where
  cache : Cache
  configs : List (Path × ResolvedConfig)
  chunks : List (Path × ResolvedChunk)
  warnings : List Finding
  resolutions : Nat

def without (location : Location) (locations : List Location) : List Location :=
  locations.filter fun other => other ≠ location

theorem without_length_lt {location : Location} {locations : List Location}
    (member : location ∈ locations) : (without location locations).length < locations.length := by
  unfold without
  exact List.length_filter_lt_length_iff_exists.mpr ⟨location, member, by simp⟩

namespace Resolver

def start (cache : Cache) : Resolver := ⟨cache, [], [], [], 0⟩

def takeWarnings (resolver : Resolver) : List Finding × Resolver :=
  (resolver.warnings, { resolver with warnings := [] })

def keepConfig (resolver : Resolver) (path : Path) (config : ResolvedConfig)
    (warnings : List Finding) : Except DocumentError ResolvedConfig × Resolver :=
  (.ok config,
    { resolver with
      configs := (path, config) :: resolver.configs
      warnings := resolver.warnings ++ warnings
      resolutions := resolver.resolutions + 1 })

def keepChunk (resolver : Resolver) (path : Path) (chunk : ResolvedChunk)
    (warnings : List Finding) : Except DocumentError ResolvedChunk × Resolver :=
  (.ok chunk,
    { resolver with
      chunks := (path, chunk) :: resolver.chunks
      warnings := resolver.warnings ++ warnings
      resolutions := resolver.resolutions + 1 })

def cycleNames (paths : List Path) : List String := paths.map fun path => path.fileName?.getD ""

def layerOf? : Config → Option (Layer × String × Option Generation)
  | .template layer => some (layer, "template", none)
  | .prompt layer generation => some (layer, "prompt", some generation)
  | .chunk _ => none
  | .variations _ => none

/-- Resolves a template or prompt. `open_` are the locations not passed yet, `passed` the paths of
the descendants on the way here. -/
def resolveFrom (workspace : Workspace) (open_ : List Location) (passed : List Path)
    (document : Document) (resolver : Resolver) :
    Except DocumentError ResolvedConfig × Resolver :=
  let path := document.path
  if fresh : document.location ∈ open_ then
    match resolver.configs.lookup path with
    | some resolved => (.ok resolved, resolver)
    | none =>
        match document.read with
        | .error faults => (.error (Document.firstFault path faults), resolver)
        | .ok config =>
            match layerOf? config with
            | none => (.error ⟨path, none, .notInheritable config.kind⟩, resolver)
            | some (layer, bodyField, generation) =>
                match layer.implements with
                | none =>
                    if config.kind = .prompt then
                      (.error ⟨path, some "implements", .parentRequired⟩, resolver)
                    else resolver.keepConfig path (.root layer generation) []
                | some reference =>
                    match workspace.openReference reference path "implements" resolver.cache with
                    | (.error error, cache) => (.error error, { resolver with cache })
                    | (.ok parent, cache) =>
                        -- A parent of no kind passes here and is refused where it is read.
                        match (Kind.classify? parent.value).filter (· ≠ Kind.template) with
                        | some kind =>
                            (.error ⟨path, some "implements",
                              .parentNotTemplate reference kind config.kind⟩,
                              { resolver with cache })
                        | none =>
                            have := without_length_lt fresh
                            match resolveFrom workspace (without document.location open_)
                                (passed ++ [path]) parent { resolver with cache } with
                            | (.error error, resolver) => (.error error, resolver)
                            | (.ok base, resolver) =>
                                resolver.keepConfig path (base.extend layer generation)
                                  (base.extendWarnings layer bodyField)
  else
    (.error ⟨path, some "implements", .inheritanceCycle (cycleNames (passed ++ [path]))⟩, resolver)
termination_by open_.length

def resolve (workspace : Workspace) (document : Document) (resolver : Resolver) :
    Except DocumentError ResolvedConfig × Resolver :=
  resolveFrom workspace workspace.tree.locations [] document resolver

def extendChunk (workspace : Workspace) (child : ChunkConfig) (path : Path) (reference : String)
    (resolver : Resolver) : Except DocumentError ResolvedChunk × Resolver :=
  match workspace.openReference reference path "implements" resolver.cache with
  | (.error error, cache) => (.error error, { resolver with cache })
  | (.ok document, cache) =>
      let resolver := { resolver with cache }
      match document.read with
      | .error faults => (.error (Document.firstFault document.path faults), resolver)
      -- The parent is read, not resolved: chunks inherit over one level only.
      | .ok (.chunk parent) =>
          match ResolvedChunk.extendFault? parent child with
          | some fault => (.error fault, resolver)
          | none =>
              resolver.keepChunk path (.extend parent child)
                (ResolvedChunk.extendWarnings parent child)
      | .ok other =>
          (.error ⟨path, some "implements", .parentNotChunk reference other.kind⟩, resolver)

def resolveChunk (workspace : Workspace) (document : Document) (resolver : Resolver) :
    Except DocumentError ResolvedChunk × Resolver :=
  let path := document.path
  match resolver.chunks.lookup path with
  | some resolved => (.ok resolved, resolver)
  | none =>
      match document.read with
      | .error faults => (.error (Document.firstFault path faults), resolver)
      | .ok (.chunk child) =>
          match child.implements with
          | none => resolver.keepChunk path (.root child) []
          | some reference => extendChunk workspace child path reference resolver
      | .ok other => (.error ⟨path, none, .notChunk other.kind⟩, resolver)

end Resolver

end PromptLoom
