import PromptLoom.Generate.Combinations
import PromptLoom.Validation.Entry

/-!
# Compiled prompts

Compiling validates an entry document and resolves it. A compiled prompt holds everything that its
outputs are made from, and its draws, so that every run over it gives the same outputs.
-/

namespace PromptLoom

set_option autoImplicit false

structure CompiledPrompt where
  name : String
  source : Path
  parameters : NameMap Yaml.Value
  loras : NameMap Decimal.Binary64
  generation : Generation
  warnings : List Finding
  prepared : Prepared
  draws : Draws
  defaults : Defaults

namespace CompiledPrompt

def nesting (compiled : CompiledPrompt) : List String :=
  (Slot.nestingOrder compiled.prepared.slots).filterMap fun index =>
    (compiled.prepared.slots[index]?).map Slot.name

def spaceSize (compiled : CompiledPrompt) : Nat :=
  match compiled.generation.mode with
  | .combinatorial => Slot.combinatorialSpace compiled.prepared.slots
  | .random => Slot.randomSpace compiled.prepared.slots

def combinations (compiled : CompiledPrompt) : Combinations :=
  .start compiled.prepared compiled.generation compiled.defaults compiled.draws

def ofResolution (resolution : Resolution) (report : Report) (defaults : Defaults)
    (draws : Draws) : CompiledPrompt where
  name := resolution.config.name
  source := resolution.config.source
  parameters := resolution.config.parameters
  loras := resolution.config.loras
  generation := resolution.config.generation.getD .default
  warnings := report.findings.filter fun finding => !finding.isError
  prepared := resolution.prepared
  draws
  defaults

end CompiledPrompt

/-- What compiling leads to: the prompt or a report with errors, the cache, and the draws left. -/
structure Compilation where
  result : Except Report CompiledPrompt
  cache : Cache
  draws : Draws

def compile (workspace : Workspace) (defaults : Defaults) (entry : Path) (cache : Cache)
    (draws : Draws) : Compilation :=
  let (report, cache) := validate workspace defaults.separator entry cache
  if report.hasErrors then ⟨.error report, cache, draws⟩
  else match workspace.openEntry entry cache with
    | (.error error, cache) => ⟨.error (report.error error), cache, draws⟩
    | (.ok document, cache) =>
        let run := resolvePrompt workspace defaults.separator document cache draws
        match run.result with
        | .error errors => ⟨.error (report.errors errors), run.cache, run.draws⟩
        | .ok resolution =>
            -- One word is drawn to start the draws of the outputs.
            let (seed, later) := run.draws.below Seeds.wordCount
            ⟨.ok (.ofResolution resolution report defaults (.seeded seed)), run.cache, later⟩

end PromptLoom
