import PromptLoom.Text.Number
import PromptLoom.Text.Utf8

/-!
# Tags

A tag is held in bytes, since percent escapes may spell bytes that are no text. A tag that begins
with an exclamation mark is local, and its name is what follows; the name of the mark alone is the
mark. Names are compared and shown without a further mark in front.
-/

namespace PromptLoom.Yaml

set_option autoImplicit false

structure Tag where
  bytes : List UInt8
  deriving Repr, DecidableEq, Inhabited

namespace Tag

def ofText (text : String) : Tag := ⟨Text.bytes text.toList⟩

def core (name : String) : Tag := ofText ("tag:yaml.org,2002:" ++ name)

def mark : UInt8 := 0x21

def isLocal (tag : Tag) : Bool := tag.bytes.head? == some mark

/-- A name without one exclamation mark in front, unless it is the whole name. -/
def unmarked (name : String) : String :=
  match name.toList with
  | '!' :: second :: rest => String.ofList (second :: rest)
  | _ => name

def localName? (tag : Tag) : Option String :=
  if tag.isLocal then
    let named := if tag.bytes.length = 1 then tag.bytes else tag.bytes.tail
    (String.fromUTF8? (ByteArray.mk named.toArray)).map unmarked
  else none

/-! ### Percent escapes -/

def escapedByte? : List Char → Option (UInt8 × List Char)
  | '%' :: high :: low :: rest => do
      let h ← Text.radixDigitValue? 16 high
      let l ← Text.radixDigitValue? 16 low
      some ((h * 16 + l).toUInt8, rest)
  | _ => none

/-- Reads as many escaped bytes that continue a character as are still missing. -/
def continuation? : Nat → List Char → Option (List UInt8 × List Char)
  | 0, text => some ([], text)
  | missing + 1, text => do
      let (byte, rest) ← escapedByte? text
      if !Text.isContinuation byte then none
      let (others, last) ← continuation? missing rest
      some (byte :: others, last)

/-- The bytes that a text spells: escapes stand for all bytes of a character, one escape for each,
and other characters for themselves. -/
def spelled? (fuel : Nat) (text : List Char) : Option (List UInt8) :=
  match fuel, text with
  | more + 1, '%' :: rest => do
      let (lead, afterLead) ← escapedByte? ('%' :: rest)
      let count ← Text.byteCount? lead
      let (others, last) ← continuation? (count - 1) afterLead
      (spelled? more last).map fun later => lead :: others ++ later
  | more + 1, c :: rest => (spelled? more rest).map (String.utf8EncodeChar c ++ ·)
  | _, _ => some []

/-- The part of a tag that a text spells. It ends before a zero byte. -/
def part? (text : List Char) : Option (List UInt8) :=
  (spelled? text.length text).map fun bytes => bytes.takeWhile (· != 0)

end Tag

end PromptLoom.Yaml
