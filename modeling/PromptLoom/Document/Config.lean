import PromptLoom.Decimal.Binary64
import PromptLoom.Document.Import
import PromptLoom.Path
import PromptLoom.Variation
import PromptLoom.Yaml.Value

/-!
# Documents of the four kinds

Templates and prompts contribute the same fields to what is inherited, a layer; a prompt adds the
settings of its generation. Chunks have fields of their own, and variation sets are plain lists of
variations.
-/

namespace PromptLoom

set_option autoImplicit false

inductive Kind where
  | template
  | chunk
  | prompt
  | variationSet
  deriving Repr, DecidableEq, Inhabited

def Kind.label : Kind → String
  | template => "template"
  | chunk => "chunk"
  | prompt => "prompt"
  | variationSet => "variation set"

inductive GenerationMode where
  | combinatorial
  | random
  deriving Repr, DecidableEq, Inhabited

inductive SeedMode where
  | fixed
  | progressive
  | random
  deriving Repr, DecidableEq, Inhabited

structure Generation where
  mode : GenerationMode
  seed : Option Int
  seedMode : SeedMode
  maxImages : Option Nat
  deriving Repr, DecidableEq, Inhabited

def Generation.default : Generation := ⟨.combinatorial, none, .progressive, none⟩

/-- What a template or a prompt contributes to its descendants and itself. -/
structure Layer where
  source : Path
  name : String
  implements : Option String
  parameters : NameMap Yaml.Value
  imports : NameMap ImportSpec
  chunks : NameMap String
  loras : NameMap Decimal.Binary64
  positive : Option String
  negative : Option String
  deriving Repr, Inhabited

structure ChunkConfig where
  source : Path
  chunkType : Option String
  name : String
  implements : Option String
  imports : NameMap ImportSpec
  defaults : NameMap String
  overrides : NameMap String
  body : Option String
  deriving Repr, Inhabited

inductive Config where
  | template (layer : Layer)
  | chunk (chunk : ChunkConfig)
  | prompt (layer : Layer) (generation : Generation)
  | variations (set : VariationSet)
  deriving Repr, Inhabited

namespace Config

def kind : Config → Kind
  | template _ => .template
  | chunk _ => .chunk
  | prompt _ _ => .prompt
  | variations _ => .variationSet

def implements : Config → Option String
  | template layer => layer.implements
  | chunk c => c.implements
  | prompt layer _ => layer.implements
  | variations _ => none

def imports : Config → NameMap ImportSpec
  | template layer => layer.imports
  | chunk c => c.imports
  | prompt layer _ => layer.imports
  | variations _ => .empty

def chunks : Config → NameMap String
  | template layer => layer.chunks
  | chunk _ => .empty
  | prompt layer _ => layer.chunks
  | variations _ => .empty

def importField (name : String) : String := "imports." ++ name

def chunkField (name : String) : String := "chunks." ++ name

/-- Every reference of a document with its field: the parent, the imports and the chunks, each in
the order of their names. -/
def references (config : Config) : List (String × String) :=
  (config.implements.toList.map fun parent => ("implements", parent)) ++
  (config.imports.entries.flatMap fun (name, spec) =>
    spec.documentRefs.map fun reference => (importField name, reference)) ++
  (config.chunks.entries.map fun (name, reference) => (chunkField name, reference))

def registeredNames (imports : NameMap ImportSpec) : List String :=
  imports.entries.flatMap fun (name, spec) => spec.registeredNames name

def bodies : Config → List (String × String)
  | template layer => written "template" layer.positive ++ written "negative-prompt" layer.negative
  | chunk c => written "template" c.body
  | prompt layer _ =>
      written "prompt" layer.positive ++ written "negative-prompt" layer.negative
  | variations _ => []
where
  /-- A body if it is written. -/
  written (field : String) (body : Option String) : List (String × String) :=
    body.toList.map fun text => (field, text)

end Config

end PromptLoom
