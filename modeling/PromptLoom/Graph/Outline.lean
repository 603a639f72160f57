import PromptLoom.Graph.Chain
import PromptLoom.Inheritance.Config

/-!
# Outlines of chunks

What the body of a chunk can draw on is known from its declarations and those of its parent, before
any import is resolved: the names that the imports register and the names that have an override or
a default.
-/

namespace PromptLoom

set_option autoImplicit false

/-- The body of a chunk and the names that something stands ready for. -/
structure ChunkOutline where
  source : Path
  body : String
  imports : List String
  filled : List String
  deriving Repr, Inhabited

namespace ChunkOutline

def filledNames (chunk : ChunkConfig) : List String :=
  chunk.overrides.names ++ chunk.defaults.names

def bodyOn (parent : Option ChunkConfig) (child : ChunkConfig) : String :=
  match parent with
  | some base => (inject (base.body.getD "") child.body positiveMarker).text
  | none => child.body.getD ""

def ofChunk (source : Path) (parent : Option ChunkConfig) (child : ChunkConfig) : ChunkOutline :=
  let layers := parent.toList ++ [child]
  { source
    body := bodyOn parent child
    imports := layers.flatMap fun layer => Config.registeredNames layer.imports
    filled := layers.flatMap filledNames }

end ChunkOutline

namespace Graph

def chunk? (graph : Graph) (location : Location) : Option ChunkConfig :=
  match graph.config? location with
  | some (.chunk chunk) => some chunk
  | _ => none

def outline? (graph : Graph) (location : Location) : Option ChunkOutline :=
  (graph.chunk? location).map fun child =>
    .ofChunk (.ofLocation location) ((graph.parent? location).bind graph.chunk?) child

end Graph

end PromptLoom
