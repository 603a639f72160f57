import PromptLoom.Command.Run

/-!
# The command on real files

The files that a run can look at are read first: those that the arguments and the settings name, and
those that documents refer to. Everything else is decided without looking at the disk, and what comes
out is printed and written at the end.
-/

namespace PromptLoom.Command

set_option autoImplicit false

def absoluteLocation (text : String) : Location :=
  (Path.mk text).steps.filter fun step => step != ""

def diskEntry? (location : Location) : IO (Option Entry) := do
  let place := System.mkFilePath [(Path.ofLocation location).text]
  if ← place.isDir then return some .directory
  else if ← place.pathExists then return some (.file (← IO.FS.readBinFile place))
  else return none

def referencedPaths (location : Location) (content : ByteArray) : List Path :=
  let path := Path.ofLocation location
  match (String.fromUTF8? content).map Yaml.Value.ofText with
  | some (.ok value) =>
      match Config.read path value with
      | .ok config => config.references.map fun (_, reference) =>
          path.directory.join ⟨Text.trimmed reference⟩
      | .error _ => []
  | _ => []

mutual

partial def takePath (tree : Tree) (directory : Location) (path : Path) : IO Tree :=
  takeSteps tree (if path.isAbsolute then [] else directory) path.steps

partial def takeSteps (tree : Tree) (location : Location) : List String → IO Tree
  | [] => return tree
  | step :: rest => do
      if step == "" || step == "." then takeSteps tree location rest
      else if step == ".." then takeSteps tree location.dropLast rest
      else
        let place := location ++ [step]
        let next ← takeEntry tree place
        if next.has place then takeSteps next place rest else return next

partial def takeEntry (tree : Tree) (location : Location) : IO Tree := do
  if tree.has location then return tree
  match ← diskEntry? location with
  | none => return tree
  | some .directory => return tree.put location .directory
  | some (.file content) =>
      (referencedPaths location content).foldlM
        (fun tree path => takePath tree location.dropLast path) (tree.put location (.file content))

end

partial def takeBelow (tree : Tree) (directory : Location) (path : Path) : IO Tree := do
  let tree ← takePath tree directory path
  match tree.resolve directory path with
  | .error _ => return tree
  | .ok location =>
      if !tree.isDirectory location then return tree
      let entries ← (System.mkFilePath [(Path.ofLocation location).text]).readDir
      entries.toList.foldlM
        (fun tree entry => do
          if Workspace.hasYamlName ⟨entry.fileName⟩ || (← entry.path.isDir) then
            takeBelow tree location ⟨entry.fileName⟩
          else return tree) tree

def takeTask (tree : Tree) (directory : Location) : Task → IO Tree
  | .validate paths report => do
      let tree ← paths.foldlM (fun tree path => takeBelow tree directory ⟨path⟩) tree
      report.toList.foldlM (fun tree path => takePath tree directory ⟨path⟩) tree
  | .inspect prompt _ => takePath tree directory ⟨prompt⟩
  | .generate prompt _ _ => takePath tree directory ⟨prompt⟩

def userSettings : IO (Option Path) := do
  match ← IO.getEnv "XDG_CONFIG_HOME" with
  | some directory => if (Path.mk directory).isAbsolute then return some ⟨directory⟩
  | none => pure ()
  match ← IO.getEnv "HOME" with
  | some home => return some ((Path.mk home).join ⟨".config"⟩)
  | none => return none

def readSurroundings (arguments : List String) : IO Surroundings := do
  let directory := absoluteLocation (← IO.currentDir).toString
  let settingsDirectory ← userSettings
  let bytes ← IO.getRandomBytes 8
  let entropy := bytes.toList.foldl (fun number byte => number * 256 + byte.toNat) 0
  let start := Tree.empty.makeDirectories directory
  let bare : Surroundings := ⟨⟨start, directory⟩, settingsDirectory, entropy⟩
  match readArguments arguments with
  | some (.run globals task) =>
      let settings := (globals.config.map Path.mk).toList ++ settingsCandidates bare
      let tree ← settings.foldlM (fun tree path => takePath tree directory path) start
      let tree ← takeTask tree directory task
      return { bare with workspace := ⟨tree, directory⟩ }
  | _ => return bare

partial def printAll (printing : Printing) : IO Unit := do
  match printing.next? with
  | none => return
  | some (lines, later) =>
      for line in lines do IO.println line
      printAll later

end PromptLoom.Command

open PromptLoom.Command in
def main (arguments : List String) : IO UInt32 := do
  let outcome := run (← readSurroundings arguments) arguments
  for line in outcome.lines do IO.println line
  for line in outcome.errors do IO.eprintln line
  match outcome.outputs with
  | some printing => printAll printing
  | none => pure ()
  match outcome.written with
  | some (location, content) =>
      IO.FS.writeFile (PromptLoom.Path.ofLocation location).text content
  | none => pure ()
  return outcome.exitCode.toUInt32
