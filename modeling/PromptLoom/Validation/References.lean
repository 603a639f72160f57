import PromptLoom.Graph.Outline
import PromptLoom.Validation.Links

/-!
# Checking what bodies refer to

The placeholders and chunk mentions of the documents on the chain of a prompt are looked up in what
these documents declare. Nothing is resolved, so a missing file elsewhere does not hide an unknown
name.
-/

namespace PromptLoom

set_option autoImplicit false

/-- What the documents on a chain declare: the names that imports register, and the chunks with
their outlines. A chunk whose document is not there or is no chunk has no outline. -/
structure Declared where
  imports : List String
  chunks : NameMap (Option ChunkOutline)

namespace Declared

def add (graph : Graph) (declared : Declared) (location : Location) : Declared :=
  match graph.config? location with
  | none => declared
  | some config =>
      { imports := declared.imports ++ Config.registeredNames config.imports
        chunks := config.chunks.names.foldl
          (fun chunks name =>
            chunks.insert name
              ((graph.target? location (Config.chunkField name)).bind graph.outline?))
          declared.chunks }

/-- What the documents of a chain declare. Descendants come last and win. -/
def ofChain (graph : Graph) (chain : List Location) : Declared :=
  chain.reverse.foldl (add graph) ⟨[], .empty⟩

def liftedNames (declared : Declared) : List String :=
  declared.chunks.entries.flatMap fun (name, outline) =>
    match outline with
    | some outline => outline.imports.map fun imported => name ++ "." ++ imported
    | none => []

def scope (declared : Declared) : List String := declared.imports ++ declared.liftedNames

end Declared

def ChunkOutline.findings (outline : ChunkOutline) (ref : ChunkRef) : List Finding :=
  let unfilled := (placeholders outline.body).filter fun found =>
    !((ref.bindings.any fun (param, _) => param == found.name) ||
      Placeholder.isReserved found.name || outline.filled.contains found.name ||
      outline.imports.contains found.name)
  unfilled.map fun found =>
    .fault outline.source "template" (.unfilledPlaceholder found.name ref.name)

namespace Declared

def mentionFindings (declared : Declared) (path : Path) (field : String)
    (mention : LocatedMention) : List Finding :=
  match mention.parsed with
  | .error problem => [.fault path field (.malformedMention problem)]
  | .ok ref =>
      match declared.chunks.get? ref.name with
      | none => [.fault path field (.unknownChunk ref.name)]
      | some none => []
      | some (some outline) => outline.findings ref

def isKnown (declared : Declared) (name : String) : Bool :=
  Placeholder.isReserved name || declared.scope.contains name

/-- The findings about one body. The braces of a mention are no placeholder. -/
def bodyFindings (declared : Declared) (path : Path) (field body : String) : List Finding :=
  let mentions := LocatedMention.ofText body
  let unknown := (LocatedPlaceholder.ofText body).filter fun found =>
    !((mentions.any fun mention => mention.start + 1 == found.start) ||
      declared.isKnown found.placeholder.name)
  mentions.flatMap (declared.mentionFindings path field) ++
    unknown.map fun found =>
      .fault path field (.unknownPlaceholder found.placeholder.name)

def documentFindings (declared : Declared) (graph : Graph) (location : Location) : List Finding :=
  match graph.config? location with
  | none => []
  | some config =>
      config.bodies.flatMap fun (field, body) =>
        declared.bodyFindings (.ofLocation location) field body

end Declared

def Graph.referenceFindings (graph : Graph) : List Finding :=
  match graph.entry, graph.entryConfig? with
  | some entry, some (.prompt _ _) =>
      let chain := graph.chain entry.location
      let declared := Declared.ofChain graph chain
      chain.flatMap (declared.documentFindings graph)
  | _, _ => []

end PromptLoom
