import PromptLoom.Yaml.Cursor
import PromptLoom.Text.Number

/-!
# The text of YAML scalars

Plain, quoted and block scalars each have their own rules for what ends them and how their lines are
joined. Every reader here takes a cursor at the first character of a scalar and gives its text and
the cursor behind it.
-/

namespace PromptLoom.Yaml

set_option autoImplicit false

/-- The space between two words of a scalar: the blanks before the first line break, or the breaks
themselves. -/
structure Gap where
  blanks : List Char
  breaks : List (List Char)
  deriving Repr

namespace Gap

def none : Gap := ⟨[], []⟩

def hasBreak (gap : Gap) : Bool := !gap.breaks.isEmpty

/-- One ordinary line break folds to a space; of several the first is dropped. A break that is kept
as it is folds to nothing else. -/
def fold (gap : Gap) : List Char :=
  match gap.breaks with
  | [] => gap.blanks
  | first :: others =>
      if first = ['\n'] then (if others.isEmpty then [' '] else others.flatten)
      else first ++ others.flatten

/-- Reads blanks and breaks. After a break a tab before column `indent` is refused. -/
def read (indent : Nat) (fuel : Nat) (gap : Gap) (cursor : Cursor) :
    Except Problem (Gap × Cursor) :=
  match fuel, cursor.head? with
  | more + 1, some c =>
      if isSpace c then
        if gap.hasBreak then
          if c == '\t' && cursor.column < indent then .error .tabInIndentation
          else read indent more gap (cursor.skip 1)
        else read indent more { gap with blanks := gap.blanks ++ [c] } (cursor.skip 1)
      else if isBreak c then
        let (text, next) := cursor.readBreak
        read indent more ⟨[], gap.breaks ++ [text]⟩ next
      else .ok (gap, cursor)
  | _, _ => .ok (gap, cursor)

end Gap

def isFlowIndicator (c : Char) : Bool :=
  c == ',' || c == '[' || c == ']' || c == '{' || c == '}'

def isColonBar (c : Char) : Bool := isFlowIndicator c || c == '?'

namespace Plain

/-- The characters of a plain scalar up to the next space or to an indicator that ends it. -/
def word (inFlow : Bool) : List Char → Except Problem (List Char)
  | [] => .ok []
  | c :: rest =>
      if isGap (some c) then .ok []
      -- In a flow collection a colon in front of an indicator is refused, not taken as text.
      else if inFlow && c == ':' && rest.head?.any isColonBar then .error .misplacedIndicator
      else if c == ':' && isGap rest.head? then .ok []
      else if inFlow && isFlowIndicator c then .ok []
      else (word inFlow rest).map (c :: ·)

/-- Reads words and gaps up to the end of the scalar, after a gap. Gives the text from that gap on,
whether the last gap reached into another line, and the cursor. -/
def scan (inFlow : Bool) (indent : Nat) (fuel : Nat) (gap : Gap) (cursor : Cursor) :
    Except Problem (List Char × Bool × Cursor) :=
  match fuel with
  | 0 => .ok ([], gap.hasBreak, cursor)
  | more + 1 =>
      if cursor.atDocumentEdge || cursor.head? == some '#' then .ok ([], gap.hasBreak, cursor)
      else (word inFlow cursor.rest).bind fun letters =>
        let afterWord := cursor.skip letters.length
        let (text, pending) :=
          if letters.isEmpty then ([], gap) else (gap.fold ++ letters, Gap.none)
        match afterWord.head? with
        | none => .ok (text, pending.hasBreak, afterWord)
        | some c =>
            if !(isSpace c || isBreak c) then .ok (text, pending.hasBreak, afterWord)
            else (Gap.read indent (more + 1) pending afterWord).bind fun (wide, next) =>
              if !inFlow && next.column < indent then .ok (text, wide.hasBreak, next)
              else (scan inFlow indent more wide next).map fun (later, broken, last) =>
                (text ++ later, broken, last)

def read (inFlow : Bool) (indent : Nat) (cursor : Cursor) :
    Except Problem (List Char × Bool × Cursor) :=
  scan inFlow indent (cursor.rest.length + 1) Gap.none cursor

end Plain

namespace Quoted

def simpleEscape? (c : Char) : Option Char :=
  match c with
  | '0' => some '\x00'
  | 'a' => some '\x07'
  | 'b' => some '\x08'
  | 't' => some '\t'
  | '\t' => some '\t'
  | 'n' => some '\n'
  | 'v' => some '\x0b'
  | 'f' => some '\x0c'
  | 'r' => some '\r'
  | 'e' => some '\x1b'
  | ' ' => some ' '
  | '\x22' => some '\x22'
  | '/' => some '/'
  | '\x5c' => some '\x5c'
  | 'N' => some '\x85'
  | '_' => some '\xa0'
  | 'L' => some '\u2028'
  | 'P' => some '\u2029'
  | _ => none

def escapeLength? (c : Char) : Option Nat :=
  match c with
  | 'x' => some 2
  | 'u' => some 4
  | 'U' => some 8
  | _ => none

def charOfCode? (code : Nat) : Option Char :=
  if (0xD800 ≤ code ∧ code ≤ 0xDFFF) ∨ 0x10FFFF < code then none else some (Char.ofNat code)

inductive Ending where
  | quote
  | gap
  | escapedBreak
  deriving DecidableEq

/-- Reads the characters of a quoted scalar up to the next blank, an escaped line break, or the
closing quote. Gives their text, the number of characters read, and what ended them. -/
def word (single : Bool) : List Char → Except Problem (List Char × Nat × Ending)
  | [] => .ok ([], 0, .gap)
  | c :: rest =>
      if isGap (some c) then .ok ([], 0, .gap)
      else if single then
        if c == '\x27' then
          match rest with
          | '\x27' :: more => (word single more).map fun (t, n, e) => ('\x27' :: t, n + 2, e)
          | _ => .ok ([], 0, .quote)
        else (word single rest).map fun (t, n, e) => (c :: t, n + 1, e)
      else if c == '\x22' then .ok ([], 0, .quote)
      else if c == '\x5c' then
        match rest with
        | [] => .error .malformedEscape
        | mark :: more =>
            if isBreak mark then .ok ([], 1, .escapedBreak)
            else match simpleEscape? mark, escapeLength? mark with
              | some value, _ => (word single more).map fun (t, n, e) => (value :: t, n + 2, e)
              | none, some count =>
                  if (more.take count).length < count then .error .malformedEscape
                  else match Text.readRadix? 16 (more.take count) with
                    | none => .error .malformedEscape
                    | some code =>
                        match charOfCode? code with
                        | none => .error .malformedEscape
                        | some value =>
                            (word single (more.drop count)).map fun (t, n, e) =>
                              (value :: t, n + 2 + count, e)
              | none, none => .error .malformedEscape
      else (word single rest).map fun (t, n, e) => (c :: t, n + 1, e)
termination_by text => text.length
decreasing_by all_goals simp only [List.length_cons, List.length_drop]; omega

def scan (single : Bool) (fuel : Nat) (cursor : Cursor) : Except Problem (List Char × Cursor) :=
  match fuel with
  | 0 => .error .unterminatedQuote
  | more + 1 =>
      if cursor.atDocumentEdge then .error .unterminatedQuote
      else if cursor.rest.isEmpty then .error .unterminatedQuote
      else (word single cursor.rest).bind fun (letters, count, ending) =>
        let afterWord := cursor.skip count
        match ending with
        | .quote => .ok (letters, afterWord.skip 1)
        | .gap =>
            (Gap.read 0 (more + 1) Gap.none afterWord).bind fun (gap, next) =>
              (scan single more next).map fun (later, last) =>
                (letters ++ gap.fold ++ later, last)
        | .escapedBreak =>
            let (_, next) := afterWord.readBreak
            -- The escaped break counts as a break of no characters.
            (Gap.read 0 (more + 1) ⟨[], [[]]⟩ next).bind fun (gap, next) =>
              (scan single more next).map fun (later, last) =>
                (letters ++ gap.fold ++ later, last)

def read (single : Bool) (cursor : Cursor) : Except Problem (List Char × Cursor) :=
  let inside := cursor.skip 1
  scan single (inside.rest.length + 1) inside

end Quoted

namespace Block

inductive Chomping where
  | strip
  | clip
  | keep
  deriving Repr, DecidableEq

def chomping? (c : Option Char) : Option Chomping :=
  match c with
  | some '+' => some .keep
  | some '-' => some .strip
  | _ => none

def increment? (c : Option Char) : Option Nat := c.bind Text.digitValue?

def header (cursor : Cursor) : Except Problem (Chomping × Nat × Cursor) :=
  let read : Except Problem (Chomping × Nat × Cursor) :=
    match chomping? cursor.head?, increment? cursor.head? with
    | some chomping, _ =>
        match increment? (cursor.peek 1) with
        | some 0 => .error .malformedBlockHeader
        | some n => .ok (chomping, n, cursor.skip 2)
        | none => .ok (chomping, 0, cursor.skip 1)
    | none, some 0 => .error .malformedBlockHeader
    | none, some n =>
        match chomping? (cursor.peek 1) with
        | some chomping => .ok (chomping, n, cursor.skip 2)
        | none => .ok (.clip, n, cursor.skip 1)
    | none, none => .ok (.clip, 0, cursor)
  read.bind fun (chomping, increment, next) =>
    match next.endLine? with
    | some line => .ok (chomping, increment, line)
    | none => .error .malformedBlockHeader

/-- Reads indentation and empty lines. `indent` is zero while it is not known; then the deepest
indentation seen is found out as well. -/
def leading (indent : Nat) (fuel deepest : Nat) (breaks : List Char) (cursor : Cursor) :
    Except Problem (Nat × List Char × Cursor) :=
  match fuel with
  | 0 => .ok (deepest, breaks, cursor)
  | more + 1 =>
      let spaces := (cursor.rest.takeWhile (· == ' ')).length
      let skipped := if indent = 0 then spaces else min spaces (indent - cursor.column)
      let next := cursor.skip skipped
      let deepest := max deepest next.column
      if (indent = 0 ∨ next.column < indent) ∧ next.head? = some '\t' then
        .error .tabInIndentation
      else if next.head?.any isBreak then
        let (text, line) := next.readBreak
        leading indent more deepest (breaks ++ text) line
      else .ok (deepest, breaks, next)

/-- Reads the lines of the content. `pendingBreak` is the break of the line before, `breaks` those
of empty lines after it, and `blankLine` tells whether that line began with a blank. -/
def scan (literal : Bool) (indent : Nat) (fuel : Nat) (pendingBreak breaks : List Char)
    (blankLine : Bool) (cursor : Cursor) :
    Except Problem (List Char × List Char × List Char × Cursor) :=
  match fuel with
  | 0 => .ok ([], pendingBreak, breaks, cursor)
  | more + 1 =>
      match cursor.head? with
      | none => .ok ([], pendingBreak, breaks, cursor)
      | some c =>
          -- `leading` does not go beyond the indentation, so this line is indented less.
          if cursor.column ≠ indent then .ok ([], pendingBreak, breaks, cursor)
          else
            let startsBlank := isSpace c
            let glue :=
              if !literal && pendingBreak == ['\n'] && !blankLine && !startsBlank then
                (if breaks.isEmpty then [' '] else [])
              else pendingBreak
            let (line, atEnd) := cursor.takeWhile fun c => !isBreak c
            let (lineBreak, next) := atEnd.readBreak
            (leading indent (more + 1) 0 [] next).bind fun (_, empty, content) =>
              (scan literal indent more lineBreak empty startsBlank content).map
                fun (later, lastBreak, trailing, last) =>
                  (glue ++ breaks ++ line ++ later, lastBreak, trailing, last)

/-- Reads a block scalar inside a block whose indentation is `outer`, if it has one; the cursor
stands at the indicator. -/
def read (literal : Bool) (outer : Option Nat) (cursor : Cursor) :
    Except Problem (List Char × Cursor) :=
  (header (cursor.skip 1)).bind fun (chomping, increment, line) =>
    let given := if increment = 0 then 0 else outer.getD 0 + increment
    (leading given (line.rest.length + 1) 0 [] line).bind fun (deepest, breaks, content) =>
      let indent :=
        if given = 0 then max deepest (max ((outer.map (· + 1)).getD 0) 1) else given
      (scan literal indent (content.rest.length + 1) [] breaks false content).map
        fun (text, lastBreak, trailing, next) =>
          match chomping with
          | .strip => (text, next)
          | .clip => (text ++ lastBreak, next)
          | .keep => (text ++ lastBreak ++ trailing, next)

end Block

end PromptLoom.Yaml
