import PromptLoom.Prompt.Resolution
import PromptLoom.Validation.Bodies
import PromptLoom.Validation.References

/-!
# Validating an entry document

Validation loads the graph of a prompt once and looks at it in five phases: the structure of the
documents, their paths, inheritance, imports, and bodies. Every phase runs whatever the earlier ones
found, so one report holds everything that is wrong. Only when nothing is wrong is the prompt
resolved in full, and what that finds is added.
-/

namespace PromptLoom

set_option autoImplicit false

namespace Graph

def openFindings (graph : Graph) (category : Category) : List Finding :=
  (graph.openErrors.filter fun error => error.category == category).map .ofError

def entryFindings (graph : Graph) : List Finding :=
  match graph.entry, graph.entryConfig? with
  | some entry, some config =>
      if config.kind = .prompt then []
      else [.ofError ⟨entry.path, none, .entryNotPrompt config.kind⟩]
  | _, _ => []

def structureFindings (graph : Graph) : List Finding :=
  graph.openFindings .structural ++ graph.readErrors.map .ofError ++ graph.entryFindings

def pathFindings (graph : Graph) : List Finding := graph.openFindings .path

/-- The findings of following the parents of an entry for real: bodies that replace others. -/
def mergeFindings (workspace : Workspace) (graph : Graph) (cache : Cache) :
    List Finding × Cache :=
  match graph.entry, graph.entryConfig? with
  | some entry, some (.prompt _ _) =>
      let (result, resolver) := Resolver.resolve workspace entry (.start cache)
      let failed := match result with
        | .error error => [Finding.ofError error]
        | .ok _ => []
      (failed ++ resolver.warnings, resolver.cache)
  | _, _ => ([], cache)

/-- Inheritance: links between documents that do not fit, cycles, and, where there are none, the
warnings of a merge. -/
def inheritanceFindings (workspace : Workspace) (graph : Graph) (cache : Cache) :
    List Finding × Cache :=
  let static := graph.linkFindings ++ graph.cycleFindings
  -- A merge would meet the same links again and stop at the first one at fault.
  if static.any Finding.isError then (static, cache)
  else
    let (merged, cache) := graph.mergeFindings workspace cache
    (static ++ merged, cache)

def importFinding (error : DocumentError) : Finding :=
  { Finding.ofError error with category := .imports }

/-- The findings about the imports of one document. Files that cannot be opened or read belong to
the earlier phases. -/
def documentImportFindings (workspace : Workspace) (node : Node) (cache : Cache) :
    List Finding × Cache :=
  match node.config with
  | none => ([], cache)
  | some config =>
      let run := ScopeRun.resolveDecls (ScopeRun.openSet workspace)
        (ImportDecl.declare node.path config.imports) cache
      let own := run.errors.filter fun error =>
        error.category != .path && error.file == node.path
      (own.map importFinding, run.cache)

def importFindings (workspace : Workspace) (cache : Cache) : List Node → List Finding × Cache
  | [] => ([], cache)
  | node :: rest =>
      let (own, cache) := documentImportFindings workspace node cache
      let (others, cache) := importFindings workspace cache rest
      (own ++ others, cache)

/-- The findings of the first four phases and of the checks of bodies, in order. -/
def staticFindings (workspace : Workspace) (graph : Graph) (cache : Cache) :
    List Finding × Cache :=
  let (inheritance, cache) := graph.inheritanceFindings workspace cache
  let (imports, cache) := importFindings workspace cache graph.nodes
  (graph.structureFindings ++ graph.pathFindings ++ inheritance ++ imports ++
    graph.bodyFindings ++ graph.referenceFindings, cache)

/-- The findings of resolving the entry in full, with draws that do not matter. -/
def resolutionFindings (workspace : Workspace) (separator : String) (graph : Graph)
    (cache : Cache) : List Finding × Cache :=
  match graph.entry with
  | none => ([], cache)
  | some entry =>
      let run := resolvePrompt workspace separator entry cache (.seeded 0)
      match run.result with
      | .ok resolution => (resolution.warnings, run.cache)
      | .error errors => (errors.map .ofError, run.cache)

end Graph

def validate (workspace : Workspace) (separator : String) (entry : Path) (cache : Cache) :
    Report × Cache :=
  let (graph, cache) := Graph.ofEntry workspace entry cache
  let (findings, cache) := graph.staticFindings workspace cache
  let report := Report.empty.extend findings
  if report.hasErrors then (report, cache)
  else
    let (more, cache) := graph.resolutionFindings workspace separator cache
    (report.extend more, cache)

end PromptLoom
