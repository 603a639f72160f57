import PromptLoom.Yaml.Scalar
import PromptLoom.Yaml.Tag

/-!
# The tokens of a YAML text

Tokens name the structure of a text without indentation: where collections begin and end, what is a
key and what a value. Whether a scalar is a key shows only at the colon behind it, so the lexer
remembers for each nesting of flow collections where a key could have begun and inserts the tokens
that announce it there.
-/

namespace PromptLoom.Yaml

set_option autoImplicit false

/-- How a scalar is written. Without a tag only plain ones can mean numbers and the like; folded
block scalars count as quoted. -/
inductive ScalarStyle where
  | plain
  | quoted
  | literal
  deriving Repr, DecidableEq, Inhabited

inductive Token where
  | streamEnd
  | versionDirective (major minor : Nat)
  | tagDirective (handle : String) (expansion : List UInt8)
  | documentStart
  | documentEnd
  | blockSequenceStart
  | blockMappingStart
  | blockEnd
  | flowSequenceStart
  | flowSequenceEnd
  | flowMappingStart
  | flowMappingEnd
  | blockEntry
  | flowEntry
  | key
  | value
  | alias (name : String)
  | anchor (name : String)
  | tag (handle : String) (suffix : List UInt8)
  | scalar (text : String) (style : ScalarStyle)
  deriving Repr, DecidableEq, Inhabited

/-- A place where a key may have begun. -/
structure PendingKey where
  possible : Bool
  required : Bool
  position : Nat
  line : Nat
  index : Nat
  column : Nat
  deriving Repr, Inhabited

def PendingKey.none : PendingKey := ⟨false, false, 0, 0, 0, 0⟩

/-- The state of the lexer. `indent` is the column of the innermost block collection, minus one
outside of any. -/
structure Lexer where
  cursor : Cursor
  tokens : Array Token
  flowDepth : Nat
  pendingKey : PendingKey
  outerKeys : List PendingKey
  indent : Int
  outerIndents : List Int
  keyAllowed : Bool

namespace Lexer

def start (text : List Char) : Lexer :=
  ⟨.start text, #[], 0, .none, [], -1, [], true⟩

def inFlow (lexer : Lexer) : Bool := lexer.flowDepth != 0

def push (lexer : Lexer) (token : Token) : Lexer :=
  { lexer with tokens := lexer.tokens.push token }

def closeBlocks (column : Int) (lexer : Lexer) : Lexer :=
  if lexer.inFlow then lexer else go lexer.indent lexer.outerIndents lexer
where
  /-- Closes collections from the innermost outwards. -/
  go (indent : Int) (outer : List Int) (lexer : Lexer) : Lexer :=
    if indent ≤ column then { lexer with indent, outerIndents := outer }
    else match outer with
      | [] => { lexer with indent, outerIndents := [] }
      | next :: others => go next others (lexer.push .blockEnd)

/-- Opens a block collection at a column unless one is open there or deeper. The token that opens it
goes to `position`, or to the end. -/
def openBlock (column : Nat) (position : Option Nat) (token : Token) (lexer : Lexer) : Lexer :=
  if lexer.inFlow || (column : Int) ≤ lexer.indent then lexer
  else
    let tokens := match position with
      | some index => lexer.tokens.insertIdxIfInBounds index token
      | none => lexer.tokens.push token
    { lexer with
      tokens
      indent := column
      outerIndents := lexer.indent :: lexer.outerIndents }

/-- Gives up a possible key; one that had to be a key is a fault. -/
def dropKey (lexer : Lexer) : Except Problem Lexer :=
  if lexer.pendingKey.possible && lexer.pendingKey.required then .error .missingColon
  else .ok { lexer with pendingKey := { lexer.pendingKey with possible := false } }

def saveKey (lexer : Lexer) : Except Problem Lexer :=
  if lexer.keyAllowed then
    lexer.dropKey.map fun lexer =>
      let cursor := lexer.cursor
      { lexer with
        pendingKey :=
          { possible := true
            required := !lexer.inFlow && lexer.indent == (cursor.column : Int)
            position := lexer.tokens.size
            line := cursor.line
            index := cursor.index
            column := cursor.column } }
  else .ok lexer

/-- A key must end on its line and within 1024 bytes. -/
def expireKey (cursor : Cursor) (key : PendingKey) : Except Problem PendingKey :=
  if key.possible && (key.line < cursor.line || key.index + 1024 < cursor.index) then
    if key.required then .error .missingColon else .ok { key with possible := false }
  else .ok key

def expireKeys (lexer : Lexer) : Except Problem Lexer := do
  let pendingKey ← expireKey lexer.cursor lexer.pendingKey
  let outerKeys ← lexer.outerKeys.mapM (expireKey lexer.cursor)
  pure { lexer with pendingKey, outerKeys }

/-- Moves to the next token over spaces, comments and line breaks. A tab counts as space where no
key may begin, a byte order mark where a line begins; there it takes up a column. -/
def skipSpace (fuel : Nat) (lexer : Lexer) : Lexer :=
  match fuel with
  | 0 => lexer
  | more + 1 =>
      let cursor := lexer.cursor
      let unmarked :=
        if cursor.column = 0 && cursor.head? == some '\ufeff' then cursor.skip 1 else cursor
      let tabs := lexer.inFlow || !lexer.keyAllowed
      let afterSpace := unmarked.skipWhile fun c => c == ' ' || (tabs && c == '\t')
      let atEnd :=
        if afterSpace.head? == some '#' then afterSpace.skipWhile fun c => !isBreak c
        else afterSpace
      if atEnd.head?.any isBreak then
        skipSpace more
          { lexer with
            cursor := atEnd.skipBreak
            keyAllowed := lexer.keyAllowed || !lexer.inFlow }
      else { lexer with cursor := atEnd }

def take (count : Nat) (token : Token) (lexer : Lexer) : Lexer :=
  { lexer with cursor := lexer.cursor.skip count }.push token

def isTagChar (verbatim : Bool) (c : Char) : Bool :=
  isNameChar c || ";/?:@&=+$.%!~*\x27()".toList.contains c ||
    (verbatim && (c == ',' || c == '[' || c == ']'))

def tagPart (letters : List Char) : Except Problem (List UInt8) :=
  match Tag.part? letters with
  | some part => .ok part
  | none => .error .malformedTag

/-- Reads a tag; the cursor stands at its exclamation mark. Gives handle and suffix. A tag that is
its mark alone has no handle. -/
def readTag (inFlow : Bool) (cursor : Cursor) :
    Except Problem (String × List UInt8 × Cursor) := do
  let (handle, suffix, next) ←
    if cursor.peek 1 = some '<' then
      let (letters, after) := (cursor.skip 2).takeWhile (isTagChar true)
      if letters.isEmpty || after.head? != some '>' then Except.error Problem.malformedTag
      let suffix ← tagPart letters
      pure ("", suffix, after.skip 1)
    else
      let (name, afterName) := (cursor.skip 1).takeWhile isNameChar
      if afterName.head? = some '!' then
        let (letters, after) := (afterName.skip 1).takeWhile (isTagChar false)
        if letters.isEmpty then Except.error Problem.malformedTag
        let suffix ← tagPart letters
        pure ("!" ++ String.ofList name ++ "!", suffix, after)
      else
        let (letters, after) := afterName.takeWhile (isTagChar false)
        let suffix ← tagPart (name ++ letters)
        pure (if suffix.isEmpty then ("", [Tag.mark], after) else ("!", suffix, after))
  if (inFlow && next.head? == some ',') || isGap next.head? then pure (handle, suffix, next)
  else .error .malformedTag

def readAnchor (cursor : Cursor) : Except Problem (String × Cursor) :=
  let (name, next) := (cursor.skip 1).takeWhile isNameChar
  let ends := isGap next.head? || next.head?.any fun c => "?:,]\x7d%@\x60".toList.contains c
  if name.isEmpty || !ends then .error .malformedAnchor else .ok (String.ofList name, next)

/-- Reads a number of at most nine digits in a directive. -/
def readVersionNumber (cursor : Cursor) : Except Problem (Nat × Cursor) :=
  let (digits, next) := cursor.takeWhile Char.isDigit
  match Text.readRadix? 10 digits with
  | some value => if digits.length ≤ 9 then .ok (value, next) else .error .malformedDirective
  | none => .error .malformedDirective

def readDirective (cursor : Cursor) : Except Problem (Token × Cursor) := do
  let (name, afterName) := (cursor.skip 1).takeWhile isNameChar
  if name.isEmpty || !isGap afterName.head? then Except.error Problem.malformedDirective
  let value := afterName.skipWhile isSpace
  let (token, next) ←
    if name = "YAML".toList then
      let (major, afterMajor) ← readVersionNumber value
      if afterMajor.head? != some '.' then Except.error Problem.malformedDirective
      let (minor, afterMinor) ← readVersionNumber (afterMajor.skip 1)
      pure (Token.versionDirective major minor, afterMinor)
    else if name = "TAG".toList then
      if value.head? != some '!' then Except.error Problem.malformedDirective
      let (inner, afterInner) := (value.skip 1).takeWhile isNameChar
      let closed := afterInner.head? == some '!'
      if !closed && !inner.isEmpty then Except.error Problem.malformedDirective
      let afterHandle := if closed then afterInner.skip 1 else afterInner
      if !afterHandle.head?.any isSpace then Except.error Problem.malformedDirective
      let (letters, after) := (afterHandle.skipWhile isSpace).takeWhile (isTagChar true)
      if letters.isEmpty || !isGap after.head? then Except.error Problem.malformedDirective
      let expansion ← tagPart letters
      let handle := "!" ++ String.ofList inner ++ (if closed then "!" else "")
      pure (Token.tagDirective handle expansion, after)
    else Except.error Problem.unknownDirective
  match next.endLine? with
  | some line => pure (token, line)
  | none => .error .malformedDirective

/-- Ends every open block, as the edge of a document does. -/
def leaveBlocks (lexer : Lexer) : Except Problem Lexer :=
  (lexer.closeBlocks (-1)).dropKey.map fun lexer => { lexer with keyAllowed := false }

def openFlow (token : Token) (lexer : Lexer) : Except Problem Lexer :=
  lexer.saveKey.map fun lexer =>
    { lexer with
      flowDepth := lexer.flowDepth + 1
      pendingKey := .none
      outerKeys := lexer.pendingKey :: lexer.outerKeys
      keyAllowed := true }.take 1 token

def closeFlow (token : Token) (lexer : Lexer) : Except Problem Lexer :=
  lexer.dropKey.map fun lexer =>
    let closed := match lexer.flowDepth, lexer.outerKeys with
      | depth + 1, key :: keys =>
          { lexer with flowDepth := depth, pendingKey := key, outerKeys := keys }
      -- A bracket that closes nothing is left to the reader of nodes.
      | _, _ => lexer
    { closed with keyAllowed := false }.take 1 token

def blockIndicator (collection token : Token) (keyAfter : Bool) (lexer : Lexer) :
    Except Problem Lexer :=
  if !lexer.inFlow && !lexer.keyAllowed then .error .misplacedIndicator
  else
    (lexer.openBlock lexer.cursor.column Option.none collection).dropKey.map fun lexer =>
      { lexer with keyAllowed := keyAfter }.take 1 token

/-- The colon before a value. Behind a possible key it makes that key one. -/
def valueIndicator (lexer : Lexer) : Except Problem Lexer :=
  let key := lexer.pendingKey
  if key.possible then
    let keyed :=
      { lexer with
        -- The start of a mapping goes to the same place next, and so in front of the key.
        tokens := lexer.tokens.insertIdxIfInBounds key.position .key
        pendingKey := { key with possible := false } }
    let opened := keyed.openBlock key.column (some key.position) .blockMappingStart
    .ok ({ opened with keyAllowed := false }.take 1 .value)
  else if !lexer.inFlow && !lexer.keyAllowed then .error .misplacedIndicator
  else
    let opened := lexer.openBlock lexer.cursor.column Option.none .blockMappingStart
    .ok ({ opened with keyAllowed := !opened.inFlow }.take 1 .value)

/-- The indentation that scalars inside the innermost block must exceed. -/
def blockIndent (lexer : Lexer) : Option Nat :=
  if lexer.indent < 0 then Option.none else some lexer.indent.toNat

def startsPlain (inFlow : Bool) (c : Char) (next : Option Char) : Bool :=
  if c == '-' then !next.any isSpace
  else if c == '?' || c == ':' then !inFlow && !isGap next
  else !isGap (some c) && !",[]\x7b\x7d#&*!|>\x27\x22%@\x60".toList.contains c

def token (c : Char) (lexer : Lexer) : Except Problem Lexer :=
  let cursor := lexer.cursor
  let next := cursor.peek 1
  if cursor.column = 0 && c == '%' then
    lexer.leaveBlocks.bind fun lexer =>
      (readDirective cursor).map fun (token, after) => { lexer with cursor := after }.push token
  else if cursor.atMarker '-' then
    lexer.leaveBlocks.map fun lexer => lexer.take 3 .documentStart
  else if cursor.atMarker '.' then
    lexer.leaveBlocks.map fun lexer => lexer.take 3 .documentEnd
  else if c == '[' then lexer.openFlow .flowSequenceStart
  else if c == '{' then lexer.openFlow .flowMappingStart
  else if c == ']' then lexer.closeFlow .flowSequenceEnd
  else if c == '}' then lexer.closeFlow .flowMappingEnd
  else if c == ',' then
    lexer.dropKey.map fun lexer => { lexer with keyAllowed := true }.take 1 .flowEntry
  -- A dash, a question mark or a colon that is no indicator begins a plain scalar below.
  else if c == '-' && isGap next then lexer.blockIndicator .blockSequenceStart .blockEntry true
  else if c == '?' && (lexer.inFlow || isGap next) then
    lexer.blockIndicator .blockMappingStart .key (!lexer.inFlow)
  else if c == ':' && (lexer.inFlow || isGap next) then lexer.valueIndicator
  else if c == '*' || c == '&' then
    lexer.saveKey.bind fun lexer =>
      (readAnchor cursor).map fun (name, after) =>
        { lexer with cursor := after, keyAllowed := false }.push
          (if c == '*' then .alias name else .anchor name)
  else if c == '!' then
    lexer.saveKey.bind fun lexer =>
      (readTag lexer.inFlow cursor).map fun (handle, suffix, after) =>
        { lexer with cursor := after, keyAllowed := false }.push (.tag handle suffix)
  else if (c == '|' || c == '>') && !lexer.inFlow then
    lexer.dropKey.bind fun lexer =>
      (Block.read (c == '|') lexer.blockIndent cursor).map fun (text, after) =>
        { lexer with cursor := after, keyAllowed := true }.push
          (.scalar (String.ofList text) (if c == '|' then .literal else .quoted))
  else if c == '\x27' || c == '\x22' then
    lexer.saveKey.bind fun lexer =>
      (Quoted.read (c == '\x27') cursor).map fun (text, after) =>
        { lexer with cursor := after, keyAllowed := false }.push
          (.scalar (String.ofList text) .quoted)
  else if startsPlain lexer.inFlow c next then
    lexer.saveKey.bind fun lexer =>
      (Plain.read lexer.inFlow (lexer.indent + 1).toNat cursor).map fun (text, broken, after) =>
        { lexer with cursor := after, keyAllowed := broken }.push
          (.scalar (String.ofList text) .plain)
  else .error .unexpectedToken

/-- Reads the tokens from here to the end of the text. Every token takes at least one character, so
the length of the text bounds their number. -/
def run (fuel : Nat) (lexer : Lexer) : Except Problem Lexer :=
  match fuel with
  | 0 => .error .unfinished
  | more + 1 => do
      let spaced := lexer.skipSpace (lexer.cursor.rest.length + 1)
      let expired ← spaced.expireKeys
      let ready := expired.closeBlocks expired.cursor.column
      match ready.cursor.head? with
      | none => return (← ready.leaveBlocks).push .streamEnd
      | some c => run more (← ready.token c)

end Lexer

def Token.ofText (text : List Char) : Except Problem (List Token) :=
  if text.all isAllowed then
    (Lexer.run (text.length + 1) (.start text)).map fun lexer => lexer.tokens.toList
  else .error .forbiddenCharacter

end PromptLoom.Yaml
