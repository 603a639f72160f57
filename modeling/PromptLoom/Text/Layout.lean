import PromptLoom.Text.Blank
import PromptLoom.Text.Split

/-!
# The layout of a finished text

Variations may be empty and markers may vanish, which leaves doubled separators and blank lines in
a rendered body. `normalize` brings a text into its documented layout without reordering anything:

* no line has blanks at its edges;
* two pieces of content are parted by at most one separator, which is followed by one space, and
  no separator stands before the first piece or after the last one;
* no two blank lines follow each other, and no blank line stands at either end.

A text is cut into tokens, surplus separators are dropped from the token list, and the rest is set
line by line.
-/

namespace PromptLoom.Text.Layout

set_option autoImplicit false

inductive Token where
  | content (text : List Char)
  | separator
  | newline
  deriving Repr, DecidableEq

/-- A piece of a line is content when anything is left of it after trimming. -/
def ofPiece (piece : List Char) : List Token :=
  match trim piece with
  | [] => []
  | text => [.content text]

def parted (mark : Token) : List (List Token) → List Token
  | [] => []
  | [tokens] => tokens
  | tokens :: next :: more => tokens ++ mark :: parted mark (next :: more)

/-- The tokens of one line. With an empty separator the whole line is one piece. -/
def ofLine (separator line : List Char) : List Token :=
  match separator with
  | [] => ofPiece line
  | first :: others => parted .separator ((splitAtWord first others line).map ofPiece)

def tokens (separator text : List Char) : List Token :=
  parted .newline ((splitAtChar '\n' text).map (ofLine separator))

def Token.isContent : Token → Bool
  | .content _ => true
  | _ => false

/-- Drops every separator that does not part two pieces of content. `afterContent` tells whether
the last token kept, line breaks aside, is content. -/
def dropSurplus : Bool → List Token → List Token
  | _, [] => []
  | _, .content text :: rest => .content text :: dropSurplus true rest
  | afterContent, .newline :: rest => .newline :: dropSurplus afterContent rest
  | afterContent, .separator :: rest =>
      if afterContent && rest.any Token.isContent then .separator :: dropSurplus false rest
      else dropSurplus afterContent rest

def inFront (text : List Char) : List (List Char) → List (List Char)
  | [] => [text]
  | line :: lines => (text ++ line) :: lines

/-- Sets tokens as lines. A separator is followed by a space when content follows it. -/
def setLines (separator : List Char) : List Token → List (List Char)
  | [] => [[]]
  | .newline :: rest => [] :: setLines separator rest
  | .content text :: rest => inFront text (setLines separator rest)
  | .separator :: rest =>
      match rest with
      | .content _ :: _ => inFront (separator ++ [' ']) (setLines separator rest)
      | _ => inFront separator (setLines separator rest)

/-- A line that holds nothing but a separator parts nothing and counts as blank. -/
def cleanLine (separator line : List Char) : List Char :=
  let text := trim line
  if text = separator then [] else text

/-- Drops each blank line that follows a blank line. `afterBlank` tells whether the line before was
blank. -/
def dropRepeatedBlanks : Bool → List (List Char) → List (List Char)
  | _, [] => []
  | afterBlank, line :: lines =>
      if line.isEmpty then
        if afterBlank then dropRepeatedBlanks true lines else line :: dropRepeatedBlanks true lines
      else line :: dropRepeatedBlanks false lines

def dropLastBlanks (lines : List (List Char)) : List (List Char) :=
  (lines.reverse.dropWhile List.isEmpty).reverse

def layoutLines (separator text : List Char) : List (List Char) :=
  let mark := trim separator
  let unified := replaceWord ['\r', '\n'] ['\n'] text
  let kept := dropSurplus false (tokens mark unified)
  let cleaned := (setLines mark kept).map (cleanLine mark)
  -- Blank lines at the start are dropped as if a blank line stood before them.
  dropLastBlanks (dropRepeatedBlanks true cleaned)

def normalizeChars (separator text : List Char) : List Char :=
  join ['\n'] (layoutLines separator text)

def normalize (text separator : String) : String :=
  String.ofList (normalizeChars separator.toList text.toList)

end PromptLoom.Text.Layout
