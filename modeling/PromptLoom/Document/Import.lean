import PromptLoom.NameMap
import PromptLoom.Text.Blank
import PromptLoom.Text.Split

/-!
# Import declarations

An import names one document, lists documents and literal texts, or groups further imports under its
name. `documentRefs` and `registeredNames` say, without loading anything, which documents a
declaration refers to and under which names its variations become known.
-/

namespace PromptLoom

open Text

set_option autoImplicit false

/-- An import as it is declared. Groups hold their members in the order of their names. -/
inductive ImportSpec where
  | document (reference : String)
  | list (entries : List String)
  | group (members : List (String × ImportSpec))
  deriving Repr, Inhabited

inductive ImportEntry where
  | document (reference : String)
  | literal (text : String)
  deriving Repr, DecidableEq, Inhabited

/-- An entry whose trimmed text ends like the name of a document refers to one. -/
def ImportEntry.classify (entry : String) : ImportEntry :=
  let trimmed := trim entry.toList
  if ".yaml".toList.isSuffixOf trimmed || ".yml".toList.isSuffixOf trimmed then
    .document (String.ofList trimmed)
  else .literal entry

def ImportEntry.reference? : ImportEntry → Option String
  | document reference => some reference
  | literal _ => none

namespace ImportSpec

mutual

def documentRefs : ImportSpec → List String
  | document reference => [reference]
  | list entries => entries.filterMap fun entry => (ImportEntry.classify entry).reference?
  | group members => memberRefs members

def memberRefs : List (String × ImportSpec) → List String
  | [] => []
  | (_, spec) :: rest => documentRefs spec ++ memberRefs rest

end

mutual

def registeredNames (name : String) : ImportSpec → List String
  | document _ => [name]
  | list _ => [name]
  | group members => memberNames name members

def memberNames (name : String) : List (String × ImportSpec) → List String
  | [] => []
  | (member, spec) :: rest =>
      registeredNames (name ++ "." ++ member) spec ++ memberNames name rest

end

end ImportSpec

end PromptLoom
