/-!
# Sizes in UTF-8

Offsets, names and keys are bounded and reported in bytes of UTF-8. Texts stay lists of characters;
the number of bytes is a function on them, and the first byte of an encoded character says how many
there are.
-/

namespace PromptLoom.Text

set_option autoImplicit false

def byteLength : List Char → Nat
  | [] => 0
  | c :: rest => c.utf8Size + byteLength rest

def bytes (text : List Char) : List UInt8 := text.flatMap String.utf8EncodeChar

/-- The number of bytes of a character by its first one; a byte that only continues has none. -/
def byteCount? (lead : UInt8) : Option Nat :=
  if lead &&& 0x80 == 0 then some 1
  else if lead &&& 0xE0 == 0xC0 then some 2
  else if lead &&& 0xF0 == 0xE0 then some 3
  else if lead &&& 0xF8 == 0xF0 then some 4
  else none

def isContinuation (byte : UInt8) : Bool := byte &&& 0xC0 == 0x80

theorem byte_length_append (text rest : List Char) :
    byteLength (text ++ rest) = byteLength text + byteLength rest := by
  induction text with
  | nil => simp [byteLength]
  | cons c others ih => simp [byteLength, ih, Nat.add_assoc]

end PromptLoom.Text
