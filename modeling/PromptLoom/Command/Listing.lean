import PromptLoom.Json.Printer
import PromptLoom.Prompt.Compiled

/-!
# What the command shows

Findings, overviews of compiled prompts and outputs, as JSON and as lines for readers.
-/

namespace PromptLoom.Command

set_option autoImplicit false

/-- A finding as JSON. A finding without a field has no such member. -/
def findingJson (finding : Finding) : Json.Value :=
  .object (
    [("severity", .text finding.severity.label), ("category", .text finding.category.label),
      ("file", .text finding.file.text)] ++
    (finding.field.toList.map fun field => ("field", .text field)) ++
    [("message", .text finding.message)])

def reportJson (report : Report) : Json.Value :=
  .object [("findings", .list (report.findings.map findingJson))]

def modeWord : GenerationMode → String
  | .combinatorial => "combinatorial"
  | .random => "random"

def modeTitle : GenerationMode → String
  | .combinatorial => "Combinatorial"
  | .random => "Random"

def slotJson (slot : Slot) : Json.Value :=
  .object [("name", .text slot.name), ("selector", .text slot.selector.display),
    ("weight", .int slot.weight), ("pool", .int slot.pool.length)]

def parametersJson (parameters : NameMap Yaml.Value) :
    Except Json.KeyFault (List (String × Json.Value)) :=
  parameters.entries.mapM fun (name, value) =>
    (Json.Value.ofYaml value).map fun content => (name, content)

/-- The overview of a compiled prompt as JSON. The size of the space is a text, since it may exceed
what JSON numbers hold. -/
def overviewJson (compiled : CompiledPrompt) : Except Json.KeyFault Json.Value :=
  (parametersJson compiled.parameters).map fun parameters =>
    .object [("name", .text compiled.name), ("source", .text compiled.source.text),
      ("mode", .text (modeWord compiled.generation.mode)), ("parameters", .object parameters),
      ("positive", .text compiled.prepared.positiveText),
      ("negative", .text compiled.prepared.negativeText),
      ("slots", .list (compiled.prepared.slots.map slotJson)),
      ("nesting", .list (compiled.nesting.map .text)),
      ("space-size", .text (toString compiled.spaceSize)),
      ("warnings", .list (compiled.warnings.map findingJson))]

def padded (width : Nat) (text : String) : String :=
  text ++ String.ofList (List.replicate (width - text.length) ' ')

def indentedTo (width : Nat) (text : String) : String :=
  String.ofList (List.replicate (width - text.length) ' ') ++ text

structure Lines where
  shown : List String
  fault : Option Json.KeyFault

/-- The lines of parameters up to the first that has no JSON form. -/
def parameterLines : List (String × Yaml.Value) → Lines
  | [] => ⟨[], none⟩
  | (name, value) :: rest =>
      match Json.Value.ofYaml value with
      | .error fault => ⟨[], some fault⟩
      | .ok content =>
          let later := parameterLines rest
          { later with
            shown := ("  " ++ padded 20 name ++ " " ++ content.compact) :: later.shown }

def slotLine (slot : Slot) : String :=
  let selector := slot.selector.display
  "  " ++ padded 24 slot.name ++ " " ++ indentedTo 4 (toString slot.pool.length) ++
    s!" variation(s)  weight {slot.weight}  " ++
    (if selector.isEmpty then "" else "[" ++ selector ++ "]")

def bodyLines (compiled : CompiledPrompt) : List String :=
  ["", "Positive: " ++ compiled.prepared.positiveText,
    "Negative: " ++ compiled.prepared.negativeText, "", "Placeholders:"] ++
  compiled.prepared.slots.map slotLine ++
  ["Nesting (outermost first): " ++ " > ".intercalate compiled.nesting,
    "Space size: " ++ toString compiled.spaceSize]

def overviewLines (compiled : CompiledPrompt) : Lines :=
  let head := [compiled.name ++ " (" ++ compiled.source.text ++ ")",
    "Mode: " ++ modeTitle compiled.generation.mode, "", "Parameters:"]
  let parameters := parameterLines compiled.parameters.entries
  { shown := head ++ parameters.shown ++
      (if parameters.fault.isNone then bodyLines compiled else [])
    fault := parameters.fault }

def combinationJson (combination : Combination) : Json.Value :=
  .object [("index", .int combination.index), ("positive", .text combination.positive),
    ("negative", .text combination.negative), ("seed", .int combination.seed),
    ("variations", .object (combination.variations.entries.map fun (name, variation) =>
      (name, .object [("key", .text variation.key), ("value", .text variation.value)])))]

/-- An output for readers. An empty negative text is not shown. -/
def combinationLines (combination : Combination) : List String :=
  [s!"#{combination.index} seed={combination.seed}", "  + " ++ combination.positive] ++
  (if combination.negative.isEmpty then [] else ["  - " ++ combination.negative])

end PromptLoom.Command
