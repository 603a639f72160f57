import PromptLoom.Json.Value

/-!
# Writing JSON

A value is written on one line without blanks, or with every item and member on a line of its own,
indented by two blanks for each level. Texts escape quotation marks, backslashes and control
characters only.
-/

namespace PromptLoom.Json

set_option autoImplicit false

inductive Layout where
  | line
  | indented (depth : Nat)
  deriving Repr, DecidableEq

namespace Layout

def deeper : Layout → Layout
  | line => line
  | indented depth => indented (depth + 1)

def lead : Layout → String
  | line => ""
  | indented depth => String.ofList ('\n' :: List.replicate (2 * depth) ' ')

def colon : Layout → String
  | line => ":"
  | indented _ => ": "

def enclose (layout : Layout) (opening closing : String) (parts : List String) : String :=
  if parts.isEmpty then opening ++ closing
  else
    opening ++ ",".intercalate (parts.map (layout.deeper.lead ++ ·)) ++ layout.lead ++ closing

end Layout

def hexPair (code : Nat) : List Char :=
  [Nat.digitChar (code / 16), Nat.digitChar (code % 16)]

def escaped (c : Char) : List Char :=
  if c = '\x22' then ['\x5c', '\x22']
  else if c = '\x5c' then ['\x5c', '\x5c']
  else if c = '\n' then ['\x5c', 'n']
  else if c = '\r' then ['\x5c', 'r']
  else if c = '\t' then ['\x5c', 't']
  else if c = '\x08' then ['\x5c', 'b']
  else if c = '\x0c' then ['\x5c', 'f']
  else if c.toNat < 32 then '\x5c' :: 'u' :: '0' :: '0' :: hexPair c.toNat
  else [c]

def quoted (text : String) : String :=
  String.ofList ('\x22' :: (text.toList.flatMap escaped ++ ['\x22']))

namespace Value

mutual

def write (layout : Layout) : Value → String
  | null => "null"
  | bool value => if value then "true" else "false"
  | int value => toString value
  | float value => numberStyle.write value |> fun text => if value.isFinite then text else "null"
  | text value => quoted value
  | list items => layout.enclose "[" "]" (writeItems layout.deeper items)
  | object members => layout.enclose "\x7b" "\x7d" (writeMembers layout.deeper members)

def writeItems (layout : Layout) : List Value → List String
  | [] => []
  | item :: rest => write layout item :: writeItems layout rest

def writeMembers (layout : Layout) : List (String × Value) → List String
  | [] => []
  | (name, value) :: rest =>
      (quoted name ++ layout.colon ++ write layout value) :: writeMembers layout rest

end

def compact (value : Value) : String := value.write .line

def pretty (value : Value) : String := value.write (.indented 0)

end Value

end PromptLoom.Json
