import PromptLoom.Settings
import PromptLoom.Workspace

/-!
# Files of settings

Settings come from a file that is named, else from the first file that exists among some well-known
places, else they are the standard ones. A file that exists but cannot be read is an error and never
passed over.
-/

namespace PromptLoom.SettingsFile

set_option autoImplicit false

inductive Failure where
  | unreadable (path : Path)
  | malformed (path : Path)
  deriving Repr, DecidableEq

def Failure.message : Failure → String
  | unreadable path => "Failed to read " ++ path.text
  | malformed path => "Failed to parse " ++ path.text

def load (workspace : Workspace) (path : Path) : Except Failure Settings :=
  match (workspace.tree.reach workspace.directory path).bind workspace.tree.readText with
  | .error _ => .error (.unreadable path)
  | .ok content =>
      match Settings.ofText content with
      | some settings => .ok settings
      | none => .error (.malformed path)

def exists? (workspace : Workspace) (path : Path) : Bool :=
  match workspace.tree.reach workspace.directory path with
  | .ok location => workspace.tree.isFile location
  | .error _ => false

/-- The settings of a named file, else of the first candidate that exists, else the standard
ones. -/
def find (workspace : Workspace) (named : Option Path) (candidates : List Path) :
    Except Failure Settings :=
  match named.or (candidates.find? (exists? workspace)) with
  | some path => load workspace path
  | none => .ok .standard

end PromptLoom.SettingsFile
