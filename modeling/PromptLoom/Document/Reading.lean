import PromptLoom.Document.ImportTable
import PromptLoom.Error

/-!
# Reading documents

The kind of a document follows from its shape alone: a field `type` makes a chunk, a field
`generation` a prompt, a flat mapping of scalars without a field `template` a variation set, and any
other mapping a template. Reading a document reports all structural faults it finds and succeeds
only without any.
-/

namespace PromptLoom

open Yaml (Value)

set_option autoImplicit false

namespace Yaml.Value

def untagged : Value → Value
  | tagged _ value => untagged value
  | value => value

def entries? (value : Value) : Option (List (Value × Value)) :=
  match value.untagged with
  | map entries => some entries
  | _ => none

def text? (value : Value) : Option String :=
  match value.untagged with
  | text content => some content
  | _ => none

def hasField (entries : List (Value × Value)) (name : String) : Bool :=
  (field? entries name).isSome

def isFlat (entries : List (Value × Value)) : Bool :=
  entries.all fun (key, value) => key.scalarText?.isSome && value.scalarText?.isSome

mutual

/-- A value with one more mark taken off the name of every tag inside. -/
def unmarked : Value → Value
  | list items => list (unmarkedItems items)
  | map entries => map (unmarkedEntries entries)
  | tagged tag value => tagged (Yaml.Tag.unmarked tag) (unmarked value)
  | value => value

def unmarkedItems : List Value → List Value
  | [] => []
  | item :: rest => unmarked item :: unmarkedItems rest

def unmarkedEntries : List (Value × Value) → List (Value × Value)
  | [] => []
  | (key, value) :: rest => (unmarked key, unmarked value) :: unmarkedEntries rest

end

end Yaml.Value

namespace Kind

def ofEntries (entries : List (Value × Value)) : Kind :=
  if Value.hasField entries "type" then .chunk
  else if Value.hasField entries "generation" then .prompt
  else if Value.isFlat entries && !Value.hasField entries "template" then .variationSet
  else .template

def classify? (value : Value) : Option Kind := value.entries?.map ofEntries

def fields : Kind → List String
  | template => ["name", "version", "implements", "parameters", "imports", "chunks", "loras",
      "template", "negative-prompt"]
  | prompt => ["name", "version", "implements", "generation", "parameters", "imports", "chunks",
      "loras", "prompt", "negative-prompt"]
  | chunk => ["type", "name", "version", "implements", "imports", "defaults", "overrides",
      "template"]
  | variationSet => []

end Kind

/-! ### Typed fields

A typed reader gives nothing when the value has another shape. A local tag is looked through, except
on imports, where no value may have one. -/

namespace Typed

abbrev Reader (α : Type) := Value → Option α

def text : Reader String := Value.text?

/-- A value of any shape. Fields are read a second time, so the names of its tags lose one more mark;
keys that agree without it are a fault. -/
def anyValue : Reader Value := fun value => some value.unmarked |>.filter Value.hasDistinctKeys

def optional {α : Type} (reader : Reader α) : Reader (Option α)
  | .null => some none
  | value => (reader value).map some

def intBetween (least greatest : Int) : Reader Int := fun value =>
  match value.untagged with
  | .int n => if least ≤ n ∧ n ≤ greatest then some n else none
  | _ => none

def int64 : Reader Int := intBetween (-(Text.leastAmount64 : Int)) ((Text.leastAmount64 : Int) - 1)

def nat64 : Reader Nat := fun value => (intBetween 0 (Text.maxWord64 : Int) value).map Int.toNat

/-- A double-precision number; a whole one is rounded to the nearest. -/
def float : Reader Decimal.Binary64 := fun value =>
  match value.untagged with
  | .float x => some x
  | .int n => some (.ofInt n)
  | _ => none

/-- A word for one of some choices, as a text or as a tag on nothing. -/
def choice {α : Type} (choices : List (String × α)) : Reader α
  | .text word => choices.lookup word
  | .tagged word .null => choices.lookup word
  | _ => none

/-- Entries with text keys; of several under one name the last counts. -/
def namedEntries {α : Type} (reader : Reader α) :
    List (Value × Value) → Option (List (String × α))
  | [] => some []
  | (key, value) :: rest => do
      let name ← key.text?
      let content ← reader value
      let others ← namedEntries reader rest
      pure ((name, content) :: others)

/-- A map from names; null is an empty one. -/
def nameMap {α : Type} (reader : Reader α) : Reader (NameMap α) := fun value =>
  match value.untagged with
  | .null => some .empty
  | .map entries => (namedEntries reader entries).map .ofList
  | _ => none

/-- The fields of a record: text keys, of those in a list each at most once. -/
def recordFields (known : List String) (entries : List (Value × Value)) :
    Option (List (String × Value)) :=
  (namedEntries some entries).filter fun fields =>
    -- Fields outside the list are passed over, so they may repeat.
    let names := (fields.map Prod.fst).filter known.contains
    names.eraseDups.length == names.length

def fieldOr {α : Type} (fields : List (String × Value)) (name : String) (fallback : α)
    (reader : Reader α) : Option α :=
  match fields.lookup name with
  | none => some fallback
  | some value => reader value

/-- The generation settings: a mapping, whose unknown fields do not count. -/
def generation (value : Value) : Option Generation := do
  let entries ← match value.untagged with
    | .null => some []
    | .map entries => some entries
    | _ => none
  let fields ← recordFields ["mode", "seed", "seed-mode", "max-images"] entries
  let mode ← fieldOr fields "mode" .combinatorial
    (choice [("combinatorial", GenerationMode.combinatorial), ("random", .random)])
  let seed ← fieldOr fields "seed" none (optional int64)
  let seedMode ← fieldOr fields "seed-mode" .progressive
    (choice [("fixed", SeedMode.fixed), ("progressive", .progressive), ("random", .random)])
  let maxImages ← fieldOr fields "max-images" none (optional nat64)
  pure ⟨mode, seed, seedMode, maxImages⟩

/-- The layer of a template or a prompt, whose body stands under a given field. `others` are the
fields that are no part of the layer but may not be repeated either. -/
def layer (source : Path) (bodyField : String) (others : List String)
    (entries : List (Value × Value)) : Option Layer := do
  let fields ← recordFields
    (["name", "implements", "parameters", "imports", "chunks", "loras", bodyField,
      "negative-prompt"] ++ others) entries
  let name ← fieldOr fields "name" "" text
  let implements ← fieldOr fields "implements" none (optional text)
  let parameters ← fieldOr fields "parameters" .empty (nameMap anyValue)
  let imports ← fieldOr fields "imports" .empty (nameMap importSpec)
  let chunks ← fieldOr fields "chunks" .empty (nameMap text)
  let loras ← fieldOr fields "loras" .empty (nameMap float)
  let positive ← fieldOr fields bodyField none (optional text)
  let negative ← fieldOr fields "negative-prompt" none (optional text)
  pure { source, name, implements, parameters, imports, chunks, loras, positive, negative }

def template (source : Path) (entries : List (Value × Value)) : Option Config :=
  (layer source "template" [] entries).map .template

/-- A prompt, which needs its generation settings. -/
def prompt (source : Path) (entries : List (Value × Value)) : Option Config := do
  let shared ← layer source "prompt" ["generation"] entries
  let fields ← recordFields [] entries
  let settings ← generation (← fields.lookup "generation")
  pure (.prompt shared settings)

/-- A chunk; a blank type is none. -/
def chunk (source : Path) (entries : List (Value × Value)) : Option Config := do
  let fields ← recordFields
    ["type", "name", "implements", "imports", "defaults", "overrides", "template"] entries
  let chunkType ← fieldOr fields "type" none (optional text)
  let name ← fieldOr fields "name" "" text
  let implements ← fieldOr fields "implements" none (optional text)
  let imports ← fieldOr fields "imports" .empty (nameMap importSpec)
  let defaults ← fieldOr fields "defaults" .empty (nameMap text)
  let overrides ← fieldOr fields "overrides" .empty (nameMap text)
  let body ← fieldOr fields "template" none (optional text)
  let shown := chunkType.filter fun word => !Text.isAllBlank word.toList
  pure (.chunk { source, chunkType := shown, name, implements, imports, defaults, overrides, body })

end Typed

namespace Config

def fault (source : Path) (field : String) (cause : Cause) : DocumentError :=
  ⟨source, some field, cause⟩

def wholeFault (source : Path) (cause : Cause) : DocumentError := ⟨source, none, cause⟩

def faultIf (condition : Bool) (source : Path) (field : String) (cause : Cause) :
    List DocumentError :=
  if condition then [fault source field cause] else []

/-- The fault of one key: no text, or a name that the kind does not have. Bodies under the wrong
name have faults of their own. -/
def keyFault (source : Path) (kind : Kind) (key : Value) : List DocumentError :=
  match key.text? with
  | none => [wholeFault source .fieldNameNotText]
  | some name =>
      if name = "prompt" ∨ name = "template" ∨ kind.fields.contains name then []
      else [fault source name (.unknownField name kind)]

def textFault (source : Path) (entries : List (Value × Value)) (field : String) :
    List DocumentError :=
  faultIf ((Value.field? entries field).any fun value => value.text?.isNone) source field
    (.fieldNotText field)

def shapeFaults (source : Path) (kind : Kind) (entries : List (Value × Value)) :
    List DocumentError :=
  let has := Value.hasField entries
  match kind with
  | .variationSet => []
  | .template =>
      faultIf (has "prompt") source "prompt" (.bodyUnderPrompt .template) ++
      faultIf (!has "template" && !has "implements") source "template" (.bodyRequired .template) ++
      textFault source entries "template" ++ textFault source entries "negative-prompt"
  | .prompt =>
      faultIf (has "template") source "template" .bodyUnderTemplate ++
      faultIf (!has "implements") source "implements" .parentRequired ++
      faultIf (!has "prompt") source "prompt" .promptRequired ++
      faultIf (!(Value.field? entries "generation").any fun value => value.entries?.isSome)
        source "generation" .generationNotMapping ++
      textFault source entries "prompt" ++ textFault source entries "negative-prompt"
  | .chunk =>
      faultIf (has "prompt") source "prompt" (.bodyUnderPrompt .chunk) ++
      faultIf (!has "template" && !has "implements") source "template" (.bodyRequired .chunk) ++
      (match Value.field? entries "type" with
        | some (.text _) => []
        | some .null => []
        | _ => [fault source "type" .chunkTypeNotText]) ++
      textFault source entries "template"

def variationsOf (entries : List (Value × Value)) : VariationSet :=
  .ofList (entries.filterMap fun (key, value) =>
    match key.scalarText?, value.scalarText? with
    | some k, some v => some (k, v)
    | _, _ => none)

def typed? (source : Path) (kind : Kind) (entries : List (Value × Value)) : Option Config :=
  match kind with
  | .variationSet => some (.variations (variationsOf entries))
  | .template => Typed.template source entries
  | .prompt => Typed.prompt source entries
  | .chunk => Typed.chunk source entries

/-- Reads a document: first the faults of its keys, then those of its shape, then its fields. -/
def read (source : Path) (value : Value) : Except (List DocumentError) Config :=
  match value.entries? with
  | none => .error [wholeFault source .rootNotMapping]
  | some entries =>
      let kind := Kind.ofEntries entries
      let keyFaults := match kind with
        | .variationSet => []
        | _ => entries.flatMap fun (key, _) => keyFault source kind key
      let faults := keyFaults ++ shapeFaults source kind entries
      match typed? source kind entries with
      -- That no record can be read is told behind the faults of single fields.
      | none => .error (faults ++ [wholeFault source .invalidShape])
      | some config => if faults.isEmpty then .ok config else .error faults

end Config

end PromptLoom
