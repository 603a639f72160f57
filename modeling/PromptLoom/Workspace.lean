import PromptLoom.Document.Reading

/-!
# Opening documents

Documents are found in a tree of files and kept in a cache under their location: once a document is
in the cache it is never read again. References are relative to the directory of the document that
holds them, so a tree of documents means the same wherever it stands.
-/

namespace PromptLoom

set_option autoImplicit false

/-- A tree of files and the directory that relative entry paths start from. -/
structure Workspace where
  tree : Tree
  directory : Location

structure Document where
  location : Location
  value : Yaml.Value

namespace Document

def path (document : Document) : Path := .ofLocation document.location

def read (document : Document) : Except (List DocumentError) Config :=
  Config.read document.path document.value

def firstFault (path : Path) (faults : List DocumentError) : DocumentError :=
  faults.headD (Config.wholeFault path .unreadable)

end Document

/-- The documents opened so far, latest first. -/
structure Cache where
  documents : List Document

namespace Cache

def empty : Cache := ⟨[]⟩

def find? (cache : Cache) (location : Location) : Option Document :=
  cache.documents.find? fun document => document.location == location

def size (cache : Cache) : Nat := cache.documents.length

end Cache

namespace Workspace

def read (workspace : Workspace) (location : Location) : Except DocumentError Document :=
  match workspace.tree.readText location with
  | .error problem => .error ⟨.ofLocation location, none, .cannotRead problem⟩
  | .ok text =>
      match Yaml.Value.ofText text with
      | .error problem => .error ⟨.ofLocation location, none, .invalidYaml problem⟩
      | .ok value => .ok ⟨location, value⟩

/-- Opens the document at a location, from the cache if it is there. -/
def openAt (workspace : Workspace) (location : Location) (cache : Cache) :
    Except DocumentError Document × Cache :=
  match cache.find? location with
  | some document => (.ok document, cache)
  | none =>
      match workspace.read location with
      | .ok document => (.ok document, ⟨document :: cache.documents⟩)
      | .error error => (.error error, cache)

/-- Opens an entry document, whose path may be absolute. -/
def openEntry (workspace : Workspace) (path : Path) (cache : Cache) :
    Except DocumentError Document × Cache :=
  match workspace.tree.resolve workspace.directory path with
  | .ok location => workspace.openAt location cache
  | .error problem => (.error ⟨path, none, .cannotOpen problem⟩, cache)

def locate (workspace : Workspace) (reference : String) (source : Path) (field : String) :
    Except DocumentError Location :=
  let trimmed : Path := ⟨Text.trimmed reference⟩
  if trimmed.text.isEmpty then .error ⟨source, some field, .emptyReference⟩
  else if trimmed.isAbsolute then .error ⟨source, some field, .absoluteReference trimmed.text⟩
  else
    let joined := source.directory.join trimmed
    match workspace.tree.resolve workspace.directory joined with
    | .ok location => .ok location
    | .error _ => .error ⟨source, some field, .missingReference trimmed.text joined⟩

def openReference (workspace : Workspace) (reference : String) (source : Path) (field : String)
    (cache : Cache) : Except DocumentError Document × Cache :=
  match workspace.locate reference source field with
  | .ok location => workspace.openAt location cache
  | .error error => (.error error, cache)

end Workspace

end PromptLoom
