import PromptLoom.Yaml.Value

/-!
# JSON values

What is written as JSON: numbers keep whether they are whole, and the members of an object keep
their order. Every YAML value becomes a JSON value, except that the keys of a mapping must be scalars
that can be told apart from each other as texts.
-/

namespace PromptLoom.Json

open Decimal (Binary64)

set_option autoImplicit false

inductive Value where
  | null
  | bool (value : Bool)
  | int (value : Int)
  | float (value : Binary64)
  | text (value : String)
  | list (items : List Value)
  | object (members : List (String × Value))
  deriving Inhabited, Repr

inductive KeyFault where
  | notText
  | notFinite
  deriving Repr, DecidableEq

def KeyFault.message : KeyFault → String
  | notText => "key must be a string"
  | notFinite => "float key must be finite (got NaN or +/-inf)"

namespace Value

/-- Numbers are written with the fewest digits that read back, positionally from 10^-5 up to 10^16,
and a whole one keeps a point; other exponents have a sign. JSON has no other numbers. -/
def numberStyle : Decimal.Style := ⟨some (-5), some 15, true, true, "null", "null"⟩

def keyText : Yaml.Value → Except KeyFault String
  | .text key => .ok key
  | .bool key => .ok (if key then "true" else "false")
  | .int key => .ok (toString key)
  | .float key => if key.isFinite then .ok (numberStyle.write key) else .error .notFinite
  | _ => .error .notText

mutual

/-- The JSON form of a value. A local tag is an object with the tag as its only key. -/
def ofYaml : Yaml.Value → Except KeyFault Value
  | .null => .ok .null
  | .bool value => .ok (.bool value)
  | .int value => .ok (.int value)
  | .float value => .ok (.float value)
  | .text value => .ok (.text value)
  | .list items => (ofItems items).map .list
  | .map entries => (ofEntries entries).map .object
  | .tagged tag value => (ofYaml value).map fun content => .object [("!" ++ tag, content)]

def ofItems : List Yaml.Value → Except KeyFault (List Value)
  | [] => .ok []
  | item :: rest => do
      let first ← ofYaml item
      let others ← ofItems rest
      pure (first :: others)

def ofEntries : List (Yaml.Value × Yaml.Value) → Except KeyFault (List (String × Value))
  | [] => .ok []
  | (key, value) :: rest => do
      let name ← keyText key
      let content ← ofYaml value
      let others ← ofEntries rest
      pure ((name, content) :: others)

end

end Value

end PromptLoom.Json
