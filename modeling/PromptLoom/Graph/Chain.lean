import PromptLoom.Graph.Basic

/-!
# Chains of parents

Every document has at most one parent, so its ancestors form a chain that ends at a document without
a parent or comes back to one of its own members. In the second case the documents from that member
on are a cycle, and every cycle is listed once, from the first of its members that was visited.
-/

namespace PromptLoom.Graph

set_option autoImplicit false

/-- A document and its ancestors, as far as they are among some locations. -/
def chainWithin (graph : Graph) (open_ : List Location) (start : Location) : List Location :=
  match graph.parent? start with
  | none => [start]
  | some parent =>
      if fresh : parent ∈ open_ then
        have := without_length_lt fresh
        start :: chainWithin graph (without parent open_) parent
      else [start]
termination_by open_.length

def locations (graph : Graph) : List Location := graph.nodes.map Node.location

/-- A document followed by its ancestors, each once. -/
def chain (graph : Graph) (start : Location) : List Location :=
  graph.chainWithin (without start graph.locations) start

/-- The cycle that a document is part of, beginning with it. -/
def cycleThrough? (graph : Graph) (start : Location) : Option (List Location) :=
  let members := graph.chain start
  if (members.getLast?.bind graph.parent?) = some start then some members else none

/-- Adds the cycle of a document unless one of its members was met before. -/
def addCycle (graph : Graph) (cycles : List (List Location)) (start : Location) :
    List (List Location) :=
  match graph.cycleThrough? start with
  | some members =>
      if cycles.any fun known => known.contains start then cycles else cycles ++ [members]
  | none => cycles

/-- Every cycle once, in the order in which members of them were visited. -/
def cycles (graph : Graph) : List (List Location) := graph.locations.foldl graph.addCycle []

/-- The error of a cycle, on the member that it begins with. -/
def cycleError (members : List Location) : DocumentError :=
  let paths := members.map Path.ofLocation
  let first := paths.headD default
  ⟨first, some "implements", .inheritanceCycle (Resolver.cycleNames (paths ++ [first]))⟩

end PromptLoom.Graph
