import PromptLoom.Workspace

/-!
# Finding prompts

The prompts below a directory are the files with a YAML extension whose content has the shape of a
prompt. They come in the order of a walk through the tree: names in order, and a directory before
what is in it.
-/

namespace PromptLoom

set_option autoImplicit false

namespace Workspace

def hasYamlName (path : Path) : Bool :=
  path.extension? == some "yaml" || path.extension? == some "yml"

def holdsPrompt (workspace : Workspace) (location : Location) : Bool :=
  match workspace.read location with
  | .ok document => Kind.classify? document.value == some .prompt
  | .error _ => false

/-- The order of a walk: by the first names that differ, and a place before what is below it. -/
def precedes : Location → Location → Bool
  | [], _ => true
  | _ :: _, [] => false
  | first :: firsts, second :: seconds =>
      if first = second then precedes firsts seconds else decide (first < second)

def filesBelow (workspace : Workspace) (location : Location) : List Location :=
  ((workspace.tree.locations.filter workspace.tree.isFile).filter fun place =>
    location.isPrefixOf place).mergeSort precedes

def continued (path : Path) (above place : Location) : Path :=
  (place.drop above.length).foldl (fun path name => path.join ⟨name⟩) path

def discover (workspace : Workspace) (path : Path) : List Path :=
  match workspace.tree.reach workspace.directory path with
  | .error _ => []
  | .ok location =>
      ((workspace.filesBelow location).filter fun place =>
        let found := continued path location place
        hasYamlName found && (workspace.tree.reach workspace.directory found).isOk &&
          workspace.holdsPrompt place).map (continued path location)

end Workspace

end PromptLoom
