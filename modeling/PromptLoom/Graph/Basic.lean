import PromptLoom.Inheritance.Resolver

/-!
# Graphs of documents

The graph of an entry document holds every document that references lead to, each once. Documents
are visited in the order in which references to them are met, level by level. A document that cannot
be read as one of the four kinds is a node without references; a reference that cannot be opened is
an error on the document that holds it. The documents not visited yet are locations of the tree, and
their number shrinks with every visit.
-/

namespace PromptLoom

set_option autoImplicit false

structure Node where
  location : Location
  config : Option Config
  deriving Inhabited

def Node.path (node : Node) : Path := .ofLocation node.location

/-- A reference that was opened: the document that holds it, its field, and where it leads. -/
structure Edge where
  source : Location
  field : String
  target : Location
  deriving Repr, DecidableEq, Inhabited

/-- The documents behind an entry, with the errors met on the way. -/
structure Graph where
  entry : Option Document
  nodes : List Node
  edges : List Edge
  openErrors : List DocumentError
  readErrors : List DocumentError

namespace Graph

def empty : Graph := ⟨none, [], [], [], []⟩

def config? (graph : Graph) (location : Location) : Option Config :=
  (graph.nodes.find? fun node => node.location == location).bind Node.config

def target? (graph : Graph) (source : Location) (field : String) : Option Location :=
  (graph.edges.find? fun edge => edge.source == source && edge.field == field).map Edge.target

def parent? (graph : Graph) (location : Location) : Option Location :=
  graph.target? location "implements"

def entryConfig? (graph : Graph) : Option Config :=
  graph.entry.bind fun entry => graph.config? entry.location

/-- A graph while it grows: the documents still to visit, in order, and the cache. -/
structure Exploration where
  graph : Graph
  queue : List Document
  cache : Cache

namespace Exploration

/-- Opens one reference of a document and puts where it leads at the end of the queue. -/
def follow (workspace : Workspace) (source : Document) (state : Exploration)
    (reference : String × String) : Exploration :=
  let (field, target) := reference
  match workspace.openReference target source.path field state.cache with
  | (.ok document, cache) =>
      { graph :=
          { state.graph with
            edges := state.graph.edges ++ [⟨source.location, field, document.location⟩] }
        queue := state.queue ++ [document]
        cache }
  | (.error error, cache) =>
      { state with
        graph := { state.graph with openErrors := state.graph.openErrors ++ [error] }
        cache }

def addNode (state : Exploration) (node : Node) : Exploration :=
  { state with graph := { state.graph with nodes := state.graph.nodes ++ [node] } }

def visit (workspace : Workspace) (document : Document) (state : Exploration) : Exploration :=
  match document.read with
  | .ok config =>
      (config.references.foldl (follow workspace document) state).addNode
        ⟨document.location, some config⟩
  | .error faults =>
      { state with
        graph := { state.graph with readErrors := state.graph.readErrors ++ faults } }.addNode
          ⟨document.location, none⟩

end Exploration

/-- Visits the documents of a queue that are still unvisited, and those that they lead to. -/
def explore (workspace : Workspace) (unvisited : List Location) (graph : Graph) (cache : Cache) :
    List Document → Graph × Cache
  | [] => (graph, cache)
  | document :: rest =>
      if fresh : document.location ∈ unvisited then
        have := without_length_lt fresh
        let next := Exploration.visit workspace document ⟨graph, [], cache⟩
        explore workspace (without document.location unvisited) next.graph next.cache
          (rest ++ next.queue)
      else explore workspace unvisited graph cache rest
termination_by queue => (unvisited.length, queue.length)

def ofEntry (workspace : Workspace) (path : Path) (cache : Cache) : Graph × Cache :=
  match workspace.openEntry path cache with
  | (.error error, cache) => ({ empty with openErrors := [error] }, cache)
  | (.ok document, cache) =>
      explore workspace workspace.tree.locations { empty with entry := some document } cache
        [document]

end Graph

end PromptLoom
