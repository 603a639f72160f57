import PromptLoom.Chunk.Mention
import PromptLoom.Document.Config
import PromptLoom.Selector
import PromptLoom.Tree
import PromptLoom.Yaml.Cursor

/-!
# What can be wrong with documents

Every fault is a cause in a file and, where it applies, in a field of that file. A cause belongs to
one category, and its wording is given in one place.
-/

namespace PromptLoom

set_option autoImplicit false

inductive Category where
  | structural
  | path
  | inheritance
  | imports
  | template
  deriving Repr, DecidableEq, Inhabited

def Category.label : Category → String
  | structural => "structural"
  | path => "path"
  | inheritance => "inheritance"
  | imports => "import"
  | template => "template"

inductive Cause where
  | invalidYaml (problem : Yaml.Problem)
  | rootNotMapping
  | fieldNameNotText
  | unknownField (name : String) (kind : Kind)
  | bodyUnderPrompt (kind : Kind)
  | bodyUnderTemplate
  | bodyRequired (kind : Kind)
  | parentRequired
  | promptRequired
  | generationNotMapping
  | chunkTypeNotText
  | fieldNotText (field : String)
  | invalidShape
  | unreadable
  | notVariationSet (reference : String) (kind : Kind)
  | notChunk (kind : Kind)
  | entryNotPrompt (kind : Kind)
  | emptyReference
  | absoluteReference (reference : String)
  | missingReference (reference : String) (joined : Path)
  | cannotOpen (problem : AccessError)
  | cannotRead (problem : AccessError)
  | inheritanceCycle (names : List String)
  | parentNotTemplate (reference : String) (parent child : Kind)
  | parentNotChunk (reference : String) (kind : Kind)
  | nestedChunkParent (parent : Path) (grandparent : String)
  | chunkTypeMismatch (child parent : String)
  | notInheritable (kind : Kind)
  | keyConflict (name key : String) (first second : Path)
  | malformedMention (problem : MentionError)
  | unknownChunk (name : String)
  | unknownPlaceholder (name : String)
  | malformedSelector (name selector : String) (problem : SelectorError)
  | conflictingSelectors (name first second : String)
  | emptyImport (name : String)
  | nothingSelected (selector name : String)
  | reservedInChunk (name : String)
  | unfilledPlaceholder (name chunk : String)
  | unknownValueImport (reference name : String)
  | unknownValueKey (reference key name : String)
  | markerMissing
  deriving Repr, DecidableEq

namespace Cause

def category : Cause → Category
  | invalidYaml _ | rootNotMapping | fieldNameNotText | unknownField _ _ | bodyUnderPrompt _
  | bodyUnderTemplate | bodyRequired _ | parentRequired | promptRequired | generationNotMapping
  | chunkTypeNotText | fieldNotText _ | invalidShape | unreadable | notVariationSet _ _
  | notChunk _ | entryNotPrompt _ => .structural
  | emptyReference | absoluteReference _ | missingReference _ _ | cannotOpen _ | cannotRead _ =>
      .path
  | inheritanceCycle _ | parentNotTemplate _ _ _ | parentNotChunk _ _ | nestedChunkParent _ _
  | chunkTypeMismatch _ _ | notInheritable _ => .inheritance
  | keyConflict _ _ _ _ => .imports
  | malformedMention _ | unknownChunk _ | unknownPlaceholder _ | malformedSelector _ _ _
  | conflictingSelectors _ _ _ | emptyImport _ | nothingSelected _ _ | reservedInChunk _
  | unfilledPlaceholder _ _ | unknownValueImport _ _ | unknownValueKey _ _ _ | markerMissing =>
      .template

def braced (name : String) : String := "\x7b" ++ name ++ "\x7d"

def bracketed (name selector : String) : String := braced (name ++ "[" ++ selector ++ "]")

def message : Cause → String
  | invalidYaml problem => "invalid YAML: " ++ problem.message
  | rootNotMapping => "document root must be a mapping"
  | fieldNameNotText => "field names must be strings"
  | unknownField name kind => s!"unknown field `{name}` for a " ++ kind.label
  | bodyUnderPrompt kind => kind.label ++ "s carry their body in `template`, not `prompt`"
  | bodyUnderTemplate => "prompts carry their body in `prompt`, not `template`"
  | bodyRequired kind =>
      kind.label ++ " body is required for a " ++ kind.label ++ " without a parent"
  | parentRequired => "a prompt must implement a template"
  | promptRequired => "prompt body is required"
  | generationNotMapping => "generation must be a mapping"
  | chunkTypeNotText => "chunk type must be a string or empty"
  | fieldNotText field => s!"`{field}` must be text"
  | invalidShape => "invalid shape: a field has a value of the wrong type"
  | unreadable => "document could not be parsed"
  | notVariationSet reference kind =>
      s!"`{reference}` is a " ++ kind.label ++ "; imports must be variation sets"
  | notChunk kind => "expected a chunk, found a " ++ kind.label
  | entryNotPrompt kind => "entry document must be a prompt, found a " ++ kind.label
  | emptyReference => "empty document reference"
  | absoluteReference reference =>
      s!"absolute reference `{reference}` is not allowed; use a path relative to this document"
  | missingReference reference joined =>
      s!"`{reference}` does not exist (looked for " ++ joined.text ++ ")"
  | cannotOpen problem => "cannot open entry document: " ++ problem.message
  | cannotRead problem => "cannot read document: " ++ problem.message
  | inheritanceCycle names => "inheritance cycle: " ++ " -> ".intercalate names
  | parentNotTemplate reference parent child =>
      s!"`{reference}` is a " ++ parent.label ++ "; a " ++ child.label ++
        " can only implement a template"
  | parentNotChunk reference kind =>
      s!"`{reference}` is a " ++ kind.label ++ "; a chunk can only implement another chunk"
  | nestedChunkParent parent grandparent =>
      parent.text ++ s!" already implements `{grandparent}`" ++
        "; chunk inheritance is limited to one level"
  | chunkTypeMismatch child parent =>
      s!"chunk type `{child}` does not match parent type `{parent}`"
  | notInheritable kind => "a " ++ kind.label ++ " cannot be resolved as a template or prompt"
  | keyConflict name key first second =>
      s!"import `{name}` defines key `{key}` in both " ++ first.text ++ " and " ++ second.text
  | malformedMention problem => problem.message
  | unknownChunk name => s!"unknown chunk `@{name}`"
  | unknownPlaceholder name => "unknown placeholder `" ++ braced name ++ "`"
  | malformedSelector name selector problem =>
      "`" ++ bracketed name selector ++ "`: " ++ problem.message
  | conflictingSelectors name first second =>
      "`" ++ braced name ++ s!"` is used with conflicting selectors `[{first}]` and `[{second}]`"
  | emptyImport name => s!"import `{name}` has no variations"
  | nothingSelected selector name =>
      s!"selector `[{selector}]` on `" ++ braced name ++ "` selects no variation"
  | reservedInChunk name =>
      "reserved placeholder `" ++ braced name ++ "` is not allowed in a chunk"
  | unfilledPlaceholder name chunk =>
      "placeholder `" ++ braced name ++ s!"` of chunk `{chunk}`" ++
        " is not bound, defaulted, overridden or imported"
  | unknownValueImport reference name => s!"`{reference}` refers to unknown import `{name}`"
  | unknownValueKey reference key name =>
      s!"`{reference}` refers to unknown key `{key}` of import `{name}`"
  | markerMissing => "template body must contain the " ++ braced "prompt" ++ " marker"

end Cause

structure DocumentError where
  file : Path
  field : Option String
  cause : Cause
  deriving Repr, DecidableEq

namespace DocumentError

def category (error : DocumentError) : Category := error.cause.category

def message (error : DocumentError) : String := error.cause.message

def display (error : DocumentError) : String := error.file.text ++ ": " ++ error.message

end DocumentError

end PromptLoom
