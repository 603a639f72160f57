import PromptLoom.Document.Import
import PromptLoom.Yaml.Value

/-!
# Reading imports

Declarations have one shape wherever they are written: no value in them may have a tag, and the
names in a group are texts. A table is a text of its own that holds nothing but declarations. There
names may be written as any scalar, and of several declarations under one name the last counts.
-/

namespace PromptLoom

open Yaml (Node Value)

set_option autoImplicit false

namespace Typed

mutual

/-- An import: a text, a list of texts, or a mapping of imports. -/
def importSpec : Value → Option ImportSpec
  | .text reference => some (.document reference)
  | .list items => (importEntries items).map .list
  | .map entries => (importMembers entries).map fun members => .group (NameMap.ofList members).entries
  | _ => none

def importEntries : List Value → Option (List String)
  | [] => some []
  | .text entry :: rest => (importEntries rest).map (entry :: ·)
  | _ :: _ => none

def importMembers : List (Value × Value) → Option (List (String × ImportSpec))
  | [] => some []
  | (.text name, value) :: rest => do
      let spec ← importSpec value
      let others ← importMembers rest
      pure ((name, spec) :: others)
  | _ :: _ => none

end

end Typed

namespace ImportTable

/-- The name and the value of an entry, where the name is a scalar. One level of nesting belongs to
the table. -/
def readEntry (document : Yaml.Document) (entry : Node × Node) :
    Value.Reading (Option String × Value) := do
  let key ← Value.follow document entry.1
  let value ← Value.ofNode document (Value.greatestDepth - 1) entry.2
  return (key.text?, value)

/-- The declarations of a document; an empty one declares nothing. -/
def ofDocument (document : Yaml.Document) : Option (NameMap ImportSpec) := do
  let entries ← match document.root with
    | none => some []
    | some root => root.entries?
  let (read, _) ← ((entries.mapM (readEntry document)).run 0).toOption
  let declared ← read.mapM fun (name, value) => do
    pure (← name, ← Typed.importSpec value)
  pure (.ofList declared)

def ofText (source : String) : Option (NameMap ImportSpec) :=
  (Yaml.Document.ofText source).toOption.bind ofDocument

end ImportTable

end PromptLoom
