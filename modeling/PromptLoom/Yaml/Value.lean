import PromptLoom.Decimal.Style
import PromptLoom.Text.Split
import PromptLoom.Yaml.Node

/-!
# YAML values

What a document means: null, truth values, numbers, texts, lists, mappings in written order, and
values under a local tag. Plain scalars are read by the core rules of the format. A node may be a
mapping that holds a key twice; the value of a whole text may not.
-/

namespace PromptLoom.Yaml

open PromptLoom.Decimal PromptLoom.Text

set_option autoImplicit false

/-- A value. Numbers keep whether they are whole; a tag is held by its name without the exclamation
mark. -/
inductive Value where
  | null
  | bool (value : Bool)
  | int (value : Int)
  | float (value : Binary64)
  | text (value : String)
  | list (items : List Value)
  | map (entries : List (Value × Value))
  | tagged (tag : String) (value : Value)
  deriving Inhabited, Repr

namespace Value

mutual

/-- Whether two values are the same key. The order of the entries of a mapping does not count. -/
def same : Value → Value → Bool
  | null, null => true
  | bool a, bool b => a == b
  | int a, int b => a == b
  | float a, float b => a.sameValue b
  | text a, text b => a == b
  | list as, list bs => sameList as bs
  | map as, map bs => as.length == bs.length && within as bs
  | tagged s a, tagged t b => s == t && same a b
  | _, _ => false

def sameList : List Value → List Value → Bool
  | [], [] => true
  | a :: as, b :: bs => same a b && sameList as bs
  | _, _ => false

def within : List (Value × Value) → List (Value × Value) → Bool
  | [], _ => true
  | (key, value) :: rest, others =>
      others.any (fun (k, v) => same key k && same value v) && within rest others

end

mutual

def hasDistinctKeys : Value → Bool
  | list items => itemsHaveDistinctKeys items
  | map entries => entriesHaveDistinctKeys entries
  | tagged _ value => hasDistinctKeys value
  | _ => true

def itemsHaveDistinctKeys : List Value → Bool
  | [] => true
  | item :: rest => hasDistinctKeys item && itemsHaveDistinctKeys rest

def entriesHaveDistinctKeys : List (Value × Value) → Bool
  | [] => true
  | (key, value) :: rest =>
      hasDistinctKeys key && hasDistinctKeys value &&
        !rest.any (fun (other, _) => same key other) && entriesHaveDistinctKeys rest

end

def field? (entries : List (Value × Value)) (name : String) : Option Value :=
  (entries.find? fun (key, _) => match key with
    | text k => k == name
    | _ => false).map Prod.snd

/-- Numbers are written with the fewest digits that read back, positionally from 10^-5 up to 10^16,
and a whole one keeps a point. -/
def numberStyle : Decimal.Style := ⟨some (-5), some 15, true, false, ".inf", ".nan"⟩

/-- The text of a scalar; null and collections have none. -/
def scalarText? : Value → Option String
  | text value => some value
  | bool value => some (if value then "true" else "false")
  | int value => some (toString value)
  | float value => some (numberStyle.write value)
  | _ => none

end Value

namespace Plain

/-- Digits behind a leading zero: text, not a number. -/
def hasLeadingZero (text : List Char) : Bool :=
  let digits := match text with
    | '-' :: rest => rest
    | '+' :: rest => rest
    | _ => text
  match digits with
  | '0' :: second :: rest => (second :: rest).all Char.isDigit
  | _ => false

def withoutPlus (text : List Char) : List Char :=
  match text with
  | '+' :: rest => rest
  | _ => text

def radixMarks : List (List Char × Nat) :=
  [(['0', 'x'], 16), (['0', 'o'], 8), (['0', 'b'], 2)]

def readMarked? (text : List Char) : Option Nat :=
  radixMarks.findSome? fun (mark, base) => (dropWord mark text).bind (readRadix? base)

def unsigned? (text : List Char) : Option Nat :=
  (readMarked? (withoutPlus text)).or
    (if hasLeadingZero text then none else readRadix? 10 (withoutPlus text))

def negated? (text : List Char) : Option Nat :=
  match text with
  | '-' :: rest =>
      (readMarked? rest).or (if hasLeadingZero text then none else readRadix? 10 rest)
  | _ => none

/-- A whole number. One beyond 64 bits is a fault, one beyond 128 bits is no whole number. -/
def int? (text : List Char) : Except Problem (Option Int) :=
  match unsigned? text, negated? text with
  | some n, _ =>
      if n ≤ maxWord64 then .ok (some n)
      else if n ≤ maxWord128 then .error .numberOutOfRange
      else .ok none
  | none, some n =>
      if n ≤ leastAmount64 then .ok (some (-(n : Int)))
      else if n ≤ leastAmount128 then .error .numberOutOfRange
      else .ok none
  | none, none => .ok none

def float? (text : List Char) : Option Binary64 :=
  let unsigned := withoutPlus text
  let positive := [".inf", ".Inf", ".INF"].map String.toList
  let negative := ["-.inf", "-.Inf", "-.INF"].map String.toList
  let undefined := [".nan", ".NaN", ".NAN"].map String.toList
  if text.head? == some '+' && unsigned.head?.any fun c => c == '+' || c == '-' then none
  else if positive.contains unsigned then some (.infinite false)
  else if negative.contains text then some (.infinite true)
  else if undefined.contains text then some .nan
  else (Binary64.readDecimal? unsigned).filter Binary64.isFinite

def bool? (text : String) : Option Bool :=
  if ["true", "True", "TRUE"].contains text then some true
  else if ["false", "False", "FALSE"].contains text then some false
  else none

def isNull (text : String) : Bool := ["null", "Null", "NULL", "~"].contains text

def value (text : String) : Except Problem Value :=
  if text.isEmpty || isNull text then .ok .null
  else match bool? text with
    | some b => .ok (.bool b)
    | none => (int? text.toList).map fun whole =>
        match whole with
        | some n => .int n
        | none =>
            if hasLeadingZero text.toList then .text text
            else match float? text.toList with
              | some x => .float x
              | none => .text text

end Plain

namespace Value

/-- The value of a scalar, its name as a local tag left aside. Core tags force a reading, any other
tag makes a text unless the tag is local and the scalar plain. -/
def ofScalar (tag : Option Tag) (style : ScalarStyle) (content : String) :
    Except Problem Value :=
  match tag with
  | none => if style = .plain then Plain.value content else .ok (.text content)
  | some tag =>
      if tag = .core "bool" then
        match Plain.bool? content with
        | some b => .ok (.bool b)
        | none => .error .wrongTag
      else if tag = .core "int" then
        (Plain.int? content.toList).bind fun whole =>
          match whole with
          | some n => .ok (.int n)
          | none => .error .wrongTag
      else if tag = .core "float" then
        match Plain.float? content.toList with
        | some x => .ok (.float x)
        | none => .error .wrongTag
      else if tag = .core "null" then
        if Plain.isNull content then .ok .null else .error .wrongTag
      else if tag.isLocal && style == .plain then Plain.value content
      else .ok (.text content)

/-- A value under a local tag, or by itself when there is none. -/
def underTag (tag : Option Tag) (value : Value) : Value :=
  match tag.bind Tag.localName? with
  | some name => .tagged name value
  | none => value

/-- Reading values off nodes, with the number of aliases followed so far. -/
abbrev Reading := StateT Nat (Except Problem)

/-- A node, or the one that an alias stands for. The aliases followed are bounded by the size of the
document. -/
def follow (document : Document) : Node → Reading Node
  | .alias anchor => do
      let followed := (← get) + 1
      if document.size * 100 < followed then throw .tooManyRepetitions
      set followed
      match document.target? anchor with
      | some node => return node
      | none => throw .unknownAnchor
  | node => return node

/-- The value of a node that is no alias, by a reader for what it holds. Collections need room
below the greatest depth. -/
def ofContent (room : Bool) (child : Node → Reading Value) : Node → Reading Value
  | .alias _ => throw .unknownAnchor
  | .scalar tag style content => do
      return underTag tag (← (ofScalar tag style content : Except Problem Value))
  | .sequence tag items => do
      if !room then throw .tooDeep
      return underTag tag (.list (← items.mapM child))
  | .mapping tag entries => do
      if !room then throw .tooDeep
      let read ← entries.mapM fun (key, value) => do
        let k ← child key
        return (k, ← child value)
      return underTag tag (.map read)

/-- The value of a node with room for collections nested to a depth. Mappings may hold a key more
than once. -/
def ofNode (document : Document) : Nat → Node → Reading Value
  | 0, node => do ofContent false (fun _ => throw .tooDeep) (← follow document node)
  | depth + 1, node => do ofContent true (ofNode document depth) (← follow document node)

def greatestDepth : Nat := 128

def ofText (source : String) : Except Problem Value := do
  let document ← Document.ofText source
  match document.root with
  | none => return .null
  | some root =>
      let (value, _) ← (ofNode document greatestDepth root).run 0
      if value.hasDistinctKeys then return value else throw .repeatedKey

end Value

end PromptLoom.Yaml
