import PromptLoom.Graph.Basic
import PromptLoom.Placeholder
import PromptLoom.Validation.Links

/-!
# Checking bodies one by one

The body of a template needs the marker for the bodies put into it, that of a chunk may hold no
reserved placeholder, and every selector anywhere must be well formed.
-/

namespace PromptLoom.Config

set_option autoImplicit false

def markerFindings (path : Path) (layer : Layer) : List Finding :=
  match layer.positive with
  | some body =>
      if Text.contains body positiveMarker then []
      else [.fault path "template" .markerMissing]
  | none => []

def reservedFindings (path : Path) (chunk : ChunkConfig) : List Finding :=
  ((placeholders (chunk.body.getD "")).filter fun found =>
    Placeholder.isReserved found.name).map fun found =>
      .fault path "template" (.reservedInChunk found.name)

def selectorFinding? (path : Path) (field : String) (found : Placeholder) : Option Finding :=
  match found.selector with
  | none => none
  | some selector =>
      match Selector.parse selector with
      | .ok _ => none
      | .error problem =>
          some (.fault path field (.malformedSelector found.name selector problem))

def selectorFindings (path : Path) (config : Config) : List Finding :=
  config.bodies.flatMap fun (field, body) =>
    (placeholders body).filterMap (selectorFinding? path field)

def bodyFindings (path : Path) (config : Config) : List Finding :=
  (match config with
    | .template layer => markerFindings path layer
    | .chunk body => reservedFindings path body
    | .prompt _ _ => []
    | .variations _ => []) ++ selectorFindings path config

end PromptLoom.Config

namespace PromptLoom.Graph

set_option autoImplicit false

def bodyFindings (graph : Graph) : List Finding :=
  graph.nodes.flatMap fun node =>
    match node.config with
    | some config => config.bodyFindings node.path
    | none => []

end PromptLoom.Graph
