import PromptLoom.Command.Arguments
import PromptLoom.Command.Listing
import PromptLoom.Discovery
import PromptLoom.SettingsFile

/-!
# Running the command

Running maps arguments and a tree of files to what is printed, what is written, and an exit code.
Outputs of generation are not computed in advance: they are pulled from a run that belongs to the
outcome.
-/

namespace PromptLoom.Command

set_option autoImplicit false

/-- What surrounds a run: the files, the directory for settings of the user, and a number to seed
draws with when nothing else is said. -/
structure Surroundings where
  workspace : Workspace
  settingsDirectory : Option Path
  entropy : Nat

structure Printing where
  combinations : Combinations
  left : Nat
  format : Format

namespace Printing

def next? (printing : Printing) : Option (List String × Printing) :=
  match printing.left with
  | 0 => none
  | left + 1 =>
      match printing.combinations.pull with
      | (none, _) => none
      | (some combination, combinations) =>
          let lines := match printing.format with
            | .text => combinationLines combination
            | .json => [(combinationJson combination).compact]
          some (lines, { printing with combinations, left })

end Printing

/-- What a run comes to. The lines are printed first, then the outputs. -/
structure Outcome where
  exitCode : Nat
  lines : List String
  errors : List String
  outputs : Option Printing
  written : Option (Location × String)

namespace Outcome

def plain (exitCode : Nat) (lines errors : List String) : Outcome :=
  ⟨exitCode, lines, errors, none, none⟩

def failed (lines : List String) (message : String) : Outcome :=
  plain 1 lines ["Error: " ++ message]

def refused : Outcome := plain 2 [] []

def after (warnings : List String) (outcome : Outcome) : Outcome :=
  { outcome with errors := warnings ++ outcome.errors }

end Outcome

def versionLine : String := "pm 0.1.0"

def helpLines : List String :=
  ["Compile layered prompt documents into image-generation requests", "",
    "Usage: pm [OPTIONS] <COMMAND>", "",
    "Commands: validate <PATH>..., inspect <PROMPT>, generate <PROMPT>"]

def isLogLevel (text : String) : Bool :=
  ["error", "warn", "info", "debug", "trace"].contains text.toLower ||
    (readCount? text).any fun level => 1 ≤ level && level ≤ 5

/-! ### Validating -/

def countsText (report : Report) : String :=
  s!"{report.errorCount} error(s), {report.warningCount} warning(s)"

def promptsOf (workspace : Workspace) (paths : List String) : List Path :=
  paths.flatMap fun text =>
    let path : Path := ⟨text⟩
    match workspace.tree.reach workspace.directory path with
    | .ok location =>
        if workspace.tree.isDirectory location then workspace.discover path else [path]
    | .error _ => [path]

def validatedLines (path : Path) (report : Report) : List String :=
  ((if report.hasErrors then "FAIL " else "ok ") ++ path.text) ::
    report.findings.map fun finding => "  " ++ finding.display

def validateAll (workspace : Workspace) (separator : String) (combined : Report) (cache : Cache) :
    List Path → List String × Report
  | [] => ([], combined)
  | path :: rest =>
      let (report, cache) := validate workspace separator path cache
      let (lines, combined) :=
        validateAll workspace separator (combined.extend report.findings) cache rest
      (validatedLines path report ++ lines, combined)

/-- Where a file can be written: over a file, or under a new name in a directory. -/
def writable? (workspace : Workspace) (path : Path) : Option Location :=
  match workspace.tree.reach workspace.directory path with
  | .ok location => if workspace.tree.isFile location then some location else none
  | .error .notFound =>
      match path.steps.getLast?, path.fileName? with
      | some last, some name =>
          if last != name then none
          else
            let above : Path := if path.directory.text.isEmpty then ⟨"."⟩ else path.directory
            match workspace.tree.resolve workspace.directory above with
            | .ok directory =>
                match workspace.tree.walk directory [name] with
                | .error .notFound => some (directory ++ [name])
                | _ => none
            | .error _ => none
      | _, _ => none
  | .error _ => none

def runValidate (workspace : Workspace) (defaults : Defaults) (paths : List String)
    (report : Option String) : Outcome :=
  let prompts := promptsOf workspace paths
  let (shown, combined) := validateAll workspace defaults.separator .empty .empty prompts
  let lines := (if prompts.isEmpty then ["No prompt documents found"] else []) ++ shown ++
    [s!"{prompts.length} prompt(s), " ++ countsText combined]
  let exitCode := if combined.hasErrors then 1 else 0
  match report with
  | none => .plain exitCode lines []
  | some path =>
      match writable? workspace ⟨path⟩ with
      | some location =>
          ⟨exitCode, lines, [], none, some (location, (reportJson combined).pretty)⟩
      | none => .failed lines ("Failed to write report to " ++ path)

/-! ### Showing and generating -/

def failureLines (report : Report) : List String :=
  report.findings.map Finding.display ++ ["Validation failed: " ++ countsText report]

def withCompiled (workspace : Workspace) (defaults : Defaults) (prompt : String) (draws : Draws)
    (next : CompiledPrompt → Outcome) : Outcome :=
  match (compile workspace defaults ⟨prompt⟩ .empty draws).result with
  | .error report => .plain 1 [] (failureLines report)
  | .ok compiled => (next compiled).after (compiled.warnings.map Finding.display)

def showOverview (format : Format) (compiled : CompiledPrompt) : Outcome :=
  match format with
  | .json =>
      match overviewJson compiled with
      | .ok overview => .plain 0 [overview.pretty] []
      | .error fault => .failed [] fault.message
  | .text =>
      let overview := overviewLines compiled
      match overview.fault with
      | none => .plain 0 overview.shown []
      | some fault => .failed overview.shown fault.message

def printOutputs (limit : Option Nat) (format : Format) (compiled : CompiledPrompt) : Outcome :=
  ⟨0, [], [], some ⟨compiled.combinations, limit.getD Text.maxWord64, format⟩, none⟩

def runTask (workspace : Workspace) (defaults : Defaults) (draws : Draws) : Task → Outcome
  | .validate paths report => runValidate workspace defaults paths report
  | .inspect prompt format =>
      withCompiled workspace defaults prompt draws (showOverview format)
  | .generate prompt limit format =>
      withCompiled workspace defaults prompt draws (printOutputs limit format)

/-! ### Running -/

def settingsCandidates (surroundings : Surroundings) : List Path :=
  ⟨".promptmill.yml"⟩ :: surroundings.settingsDirectory.toList.map fun directory =>
    (directory.join ⟨"promptmill"⟩).join ⟨"promptmill.yml"⟩

def runWith (surroundings : Surroundings) (globals : Globals) (task : Task) : Outcome :=
  let workspace := surroundings.workspace
  match SettingsFile.find workspace (globals.config.map Path.mk)
      (settingsCandidates surroundings) with
  | .error _ => .failed [] "Failed to load configuration"
  | .ok settings =>
      if settings.fault?.isSome then .failed [] "Invalid configuration"
      else if !isLogLevel ((globals.logLevel.or settings.logLevel).getD "info") then
        .failed [] "Failed to setup logging"
      else
        let seed := (globals.rngSeed.or settings.defaults.rngSeed).getD surroundings.entropy
        runTask workspace settings.defaults (.seeded seed) task

def run (surroundings : Surroundings) (arguments : List String) : Outcome :=
  match readArguments arguments with
  | none => .refused
  | some .version => .plain 0 [versionLine] []
  | some .help => .plain 0 helpLines []
  | some (.run globals task) => runWith surroundings globals task

end PromptLoom.Command
