import PromptLoom.Graph.Chain
import PromptLoom.Inheritance.Config

/-!
# Checking links to parents

A template or prompt may implement a template only, and a chunk another chunk that has no parent of
its own and no other type. These checks look at one link at a time; cycles concern whole chains.
-/

namespace PromptLoom

set_option autoImplicit false

def Finding.fault (file : Path) (field : String) (cause : Cause) : Finding :=
  .ofError ⟨file, some field, cause⟩

structure Link where
  path : Path
  child : Config
  reference : String
  parentPath : Path
  parent : Config

namespace Link

def nestedFindings (path parentPath : Path) (parent : ChunkConfig) : List Finding :=
  parent.implements.toList.map fun grandparent =>
    .fault path "implements" (.nestedChunkParent parentPath grandparent)

def typeFindings (path parentPath : Path) (parent child : ChunkConfig) : List Finding :=
  match child.chunkType, parent.chunkType with
  | some own, some inherited =>
      if own = inherited then [] else [.fault path "type" (.chunkTypeMismatch own inherited)]
  | some own, none => [(Notice.untypedParent parentPath own).finding path "type"]
  | none, _ => []

def layerFindings (link : Link) : List Finding :=
  match link.parent with
  | .template _ => []
  | other =>
      [.fault link.path "implements"
        (.parentNotTemplate link.reference other.kind link.child.kind)]

def findings (link : Link) : List Finding :=
  match link.child with
  | .template _ => link.layerFindings
  | .prompt _ _ => link.layerFindings
  | .chunk child =>
      match link.parent with
      | .chunk parent =>
          nestedFindings link.path link.parentPath parent ++
            typeFindings link.path link.parentPath parent child
      | other => [.fault link.path "implements" (.parentNotChunk link.reference other.kind)]
  | .variations _ => []

end Link

namespace Graph

def link? (graph : Graph) (node : Node) : Option Link := do
  let child ← node.config
  let reference ← child.implements
  let parentLocation ← graph.parent? node.location
  let parent ← graph.config? parentLocation
  pure ⟨node.path, child, reference, .ofLocation parentLocation, parent⟩

def linkFindings (graph : Graph) : List Finding :=
  (graph.nodes.filterMap graph.link?).flatMap Link.findings

def cycleFindings (graph : Graph) : List Finding :=
  graph.cycles.map fun members => .ofError (cycleError members)

end Graph

end PromptLoom
