import PromptLoom.Path

/-!
# Trees of files

A tree lists its files and directories by their location. Paths are followed step by step: every
step needs a directory to start from, a single dot stays, a double dot climbs, and a name must
exist. There are no links, so a place has exactly one location.
-/

namespace PromptLoom

set_option autoImplicit false

inductive Entry where
  | file (content : ByteArray)
  | directory

inductive AccessError where
  | notFound
  | notDirectory
  | isDirectory
  | nameTooLong
  | zeroByte
  | notText
  deriving Repr, DecidableEq

def AccessError.message : AccessError → String
  | notFound => "No such file or directory (os error 2)"
  | notDirectory => "Not a directory (os error 20)"
  | isDirectory => "Is a directory (os error 21)"
  | nameTooLong => "File name too long (os error 36)"
  | zeroByte => "file name contained an unexpected NUL byte"
  | notText => "stream did not contain valid UTF-8"

/-- The files and directories below the root, which is always a directory. -/
structure Tree where
  entries : List (Location × Entry)

namespace Tree

def empty : Tree := ⟨[]⟩

def lookup (tree : Tree) (location : Location) : Option Entry :=
  match location with
  | [] => some .directory
  | _ => tree.entries.lookup location

def has (tree : Tree) (location : Location) : Bool := (tree.lookup location).isSome

def isDirectory (tree : Tree) (location : Location) : Bool :=
  match tree.lookup location with
  | some .directory => true
  | _ => false

def isFile (tree : Tree) (location : Location) : Bool :=
  match tree.lookup location with
  | some (.file _) => true
  | _ => false

def locations (tree : Tree) : List Location := [] :: tree.entries.map Prod.fst

def greatestNameSize : Nat := 255

def walk (tree : Tree) (location : Location) : List String → Except AccessError Location
  | [] => .ok location
  | step :: rest =>
      if !tree.isDirectory location then .error .notDirectory
      else if step = "" ∨ step = "." then walk tree location rest
      else if step = ".." then walk tree location.dropLast rest
      else if greatestNameSize < step.utf8ByteSize then .error .nameTooLong
      else if tree.has (location ++ [step]) then walk tree (location ++ [step]) rest
      else .error .notFound

def resolve (tree : Tree) (directory : Location) (path : Path) : Except AccessError Location :=
  if path.text.isEmpty then .error .notFound
  else if path.text.toList.contains '\x00' then .error .zeroByte
  else tree.walk (if path.isAbsolute then [] else directory) path.steps

/-- The greatest number of bytes of a path that is used as it is written. -/
def greatestPathSize : Nat := 4095

/-- Follows a path that is used as it is written, so that its size is bounded. A path that is only
followed to find a location has no bound but that on its names. -/
def reach (tree : Tree) (directory : Location) (path : Path) : Except AccessError Location :=
  if greatestPathSize < path.text.utf8ByteSize then .error .nameTooLong
  else tree.resolve directory path

def readText (tree : Tree) (location : Location) : Except AccessError String :=
  match tree.lookup location with
  | none => .error .notFound
  | some .directory => .error .isDirectory
  | some (.file content) =>
      match String.fromUTF8? content with
      | some text => .ok text
      | none => .error .notText

/-- Puts an entry at a location, in place of what stands there. -/
def put (tree : Tree) (location : Location) (entry : Entry) : Tree :=
  ⟨(location, entry) :: tree.entries.filter fun (other, _) => other != location⟩

def makeDirectories (tree : Tree) (location : Location) : Tree :=
  ((List.range location.length).map fun count => location.take (count + 1)).foldl
    (fun tree place => if tree.has place then tree else tree.put place .directory) tree

def write (tree : Tree) (location : Location) (content : ByteArray) : Tree :=
  (tree.makeDirectories location.dropLast).put location (.file content)

def remove (tree : Tree) (location : Location) : Tree :=
  ⟨tree.entries.filter fun (other, _) => other != location⟩

theorem lookup_mem {tree : Tree} {location : Location} (found : tree.has location = true) :
    location ∈ tree.locations := by
  cases location with
  | nil => simp [locations]
  | cons name rest =>
      simp only [has, lookup, Option.isSome_iff_exists] at found
      obtain ⟨entry, at_⟩ := found
      have : ((name :: rest), entry) ∈ tree.entries := by
        obtain ⟨before, after, split, _⟩ := List.lookup_eq_some_iff.mp at_
        rw [split]
        simp
      simp only [locations, List.mem_cons, List.mem_map]
      exact Or.inr ⟨_, this, rfl⟩

end Tree

end PromptLoom
