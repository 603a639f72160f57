/-!
# Blank characters

The Unicode property `White_Space`, and the trimming built on it. Every place where this library
ignores space at the edges of a text uses this one notion of blank.
-/

namespace PromptLoom.Text

set_option autoImplicit false

/-- The Unicode property `White_Space`. -/
def isBlank (c : Char) : Bool :=
  let code := c.toNat
  (9 ≤ code && code ≤ 13) || code == 32 || code == 133 || code == 160 || code == 5760 ||
    (8192 ≤ code && code ≤ 8202) || code == 8232 || code == 8233 || code == 8239 ||
    code == 8287 || code == 12288

def trimStart (text : List Char) : List Char := text.dropWhile isBlank

def trimEnd (text : List Char) : List Char := (text.reverse.dropWhile isBlank).reverse

def trim (text : List Char) : List Char := trimEnd (trimStart text)

/-- A text without blanks at its ends; `trim` on a packed text. -/
def trimmed (text : String) : String := String.ofList (trim text.toList)

def isAllBlank (text : List Char) : Bool := text.all isBlank

theorem trim_start_length_le (text : List Char) : (trimStart text).length ≤ text.length :=
  (List.dropWhile_sublist isBlank).length_le

theorem trim_length_le (text : List Char) : (trim text).length ≤ text.length := by
  have back : (trimEnd (trimStart text)).length ≤ (trimStart text).length := by
    simpa [trimEnd] using (List.dropWhile_sublist isBlank (l := (trimStart text).reverse)).length_le
  exact Nat.le_trans back (trim_start_length_le text)

end PromptLoom.Text
