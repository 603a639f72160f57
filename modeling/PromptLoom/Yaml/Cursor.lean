import PromptLoom.Text.Utf8

/-!
# A place in a YAML text

A cursor holds the text that is left to read and where it stands: the number of bytes before it, its
line and its column, which counts characters. The character classes of the format stand here too.
-/

namespace PromptLoom.Yaml

set_option autoImplicit false

inductive Problem where
  | forbiddenCharacter
  | unknownDirective
  | malformedDirective
  | malformedAnchor
  | malformedTag
  | unknownTagHandle
  | malformedEscape
  | malformedBlockHeader
  | tabInIndentation
  | unterminatedQuote
  | missingColon
  | misplacedIndicator
  | unexpectedToken
  | unknownAnchor
  | repeatedKey
  | tooDeep
  | tooManyRepetitions
  | numberOutOfRange
  | wrongTag
  | severalDocuments
  | unfinished
  deriving Repr, DecidableEq

def Problem.message : Problem → String
  | forbiddenCharacter => "control characters are not allowed"
  | unknownDirective => "unknown directive"
  | malformedDirective => "malformed directive"
  | malformedAnchor => "malformed anchor or alias"
  | malformedTag => "malformed tag"
  | unknownTagHandle => "undefined tag handle"
  | malformedEscape => "malformed escape sequence"
  | malformedBlockHeader => "malformed header of a block scalar"
  | tabInIndentation => "a tab where indentation is expected"
  | unterminatedQuote => "unterminated quoted scalar"
  | missingColon => "could not find expected colon"
  | misplacedIndicator => "an indicator that is not allowed in this context"
  | unexpectedToken => "did not find expected node content"
  | unknownAnchor => "unknown anchor"
  | repeatedKey => "duplicate entry in a mapping"
  | tooDeep => "recursion limit exceeded"
  | tooManyRepetitions => "repetition limit exceeded"
  | numberOutOfRange => "integer out of range"
  | wrongTag => "a value that does not fit its tag"
  | severalDocuments => "more than one document"
  | unfinished => "unexpected end of text"

def isBreak (c : Char) : Bool :=
  c == '\n' || c == '\r' || c == '\x85' || c == '\u2028' || c == '\u2029'

def isSpace (c : Char) : Bool := c == ' ' || c == '\t'

def isNameChar (c : Char) : Bool :=
  ('0' ≤ c && c ≤ '9') || ('A' ≤ c && c ≤ 'Z') || ('a' ≤ c && c ≤ 'z') || c == '_' || c == '-'

def isAllowed (c : Char) : Bool :=
  let code := c.toNat
  code == 9 || code == 10 || code == 13 || (32 ≤ code && code ≤ 126) || code == 133 ||
    (160 ≤ code && code ≤ 55295) || (57344 ≤ code && code ≤ 65533) || 65536 ≤ code

def isGap : Option Char → Bool
  | none => true
  | some c => isSpace c || isBreak c

def isLineEnd : Option Char → Bool
  | none => true
  | some c => isBreak c

structure Cursor where
  rest : List Char
  index : Nat
  line : Nat
  column : Nat
  deriving Repr

namespace Cursor

def start (text : List Char) : Cursor := ⟨text, 0, 0, 0⟩

def peek (cursor : Cursor) (offset : Nat) : Option Char := cursor.rest[offset]?

def head? (cursor : Cursor) : Option Char := cursor.rest.head?

def skip (cursor : Cursor) (count : Nat) : Cursor :=
  ⟨cursor.rest.drop count, cursor.index + Text.byteLength (cursor.rest.take count), cursor.line,
    cursor.column + count⟩

def readBreak (cursor : Cursor) : List Char × Cursor :=
  match cursor.rest with
  | '\r' :: '\n' :: rest => (['\n'], ⟨rest, cursor.index + 2, cursor.line + 1, 0⟩)
  | c :: rest =>
      if isBreak c then
        (if c == '\u2028' || c == '\u2029' then [c] else ['\n'],
          ⟨rest, cursor.index + c.utf8Size, cursor.line + 1, 0⟩)
      else ([], cursor)
  | [] => ([], cursor)

def skipBreak (cursor : Cursor) : Cursor := cursor.readBreak.2

def takeWhile (cursor : Cursor) (p : Char → Bool) : List Char × Cursor :=
  let taken := cursor.rest.takeWhile p
  (taken, cursor.skip taken.length)

def skipWhile (cursor : Cursor) (p : Char → Bool) : Cursor := (cursor.takeWhile p).2

/-- Moves over spaces, tabs and a comment to the end of the line and over its break; none when
anything else is left on the line. -/
def endLine? (cursor : Cursor) : Option Cursor :=
  let afterSpace := cursor.skipWhile isSpace
  let atEnd := if afterSpace.head? = some '#'
    then afterSpace.skipWhile fun c => !isBreak c
    else afterSpace
  if isLineEnd atEnd.head? then some atEnd.skipBreak else none

/-- Whether three equal marks and a gap stand at the start of a line. -/
def atMarker (cursor : Cursor) (mark : Char) : Bool :=
  cursor.column == 0 && cursor.rest.take 3 == [mark, mark, mark] && isGap (cursor.peek 3)

def atDocumentEdge (cursor : Cursor) : Bool := cursor.atMarker '-' || cursor.atMarker '.'

end Cursor

end PromptLoom.Yaml
