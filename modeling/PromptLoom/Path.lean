import PromptLoom.Text.Split

/-!
# Paths

A path is a text of names between slashes. Two paths denote the same place as written when their
components agree: repeated slashes, a slash at the end, and single dots inside do not count, while a
leading single dot and double dots do.
-/

namespace PromptLoom

open Text

set_option autoImplicit false

structure Path where
  text : String
  deriving Repr, DecidableEq, Inhabited

abbrev Location := List String

namespace Path

/-- The parts of a path between its slashes. -/
def steps (path : Path) : List String := (splitAtChar '/' path.text.toList).map String.ofList

def isAbsolute (path : Path) : Bool := path.text.toList.head? == some '/'

/-- The parts that count when paths are compared: the root, a leading single dot, and names. -/
def components (path : Path) : List String :=
  let names := path.steps.filter fun step => step != "" && step != "."
  if path.isAbsolute then "/" :: names
  else match path.steps with
    | "." :: _ => "." :: names
    | _ => names

def agrees (a b : Path) : Bool := a.components == b.components

def fileName? (path : Path) : Option String :=
  path.components.getLast?.filter fun name => name != ".." && name != "." && name != "/"

/-- Whether a part adds nothing at the end of a path. -/
def isIdle (step : String) : Bool := step == "" || step == "."

/-- The path without its last component. The root and the empty path have nothing above them. -/
def parent? (path : Path) : Option Path :=
  match path.components with
  | [] => none
  | ["/"] => none
  | first :: others =>
      let kept := ((path.steps.reverse.dropWhile isIdle).drop 1).dropWhile isIdle
      let text := "/".intercalate kept.reverse
      let startsBare := !others.isEmpty && (first == "/" || first == ".")
      some ⟨if text.isEmpty && startsBare then first else text⟩

/-- The path that what stands beside a path is relative to. -/
def directory (path : Path) : Path := path.parent?.getD ⟨"."⟩

def join (base path : Path) : Path :=
  if base.text.isEmpty || base.text.toList.getLast? == some '/' then ⟨base.text ++ path.text⟩
  else ⟨base.text ++ "/" ++ path.text⟩

def ofLocation (location : Location) : Path := ⟨"/" ++ "/".intercalate location⟩

/-- What stands behind the last dot of a file name that does not begin with it. -/
def extension? (path : Path) : Option String :=
  path.fileName?.bind fun name =>
    (cutAtLastChar '.' name.toList).bind fun (before, after) =>
      if before.isEmpty then none else some (String.ofList after)

end Path

end PromptLoom
