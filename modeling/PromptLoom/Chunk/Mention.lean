import PromptLoom.Placeholder
import PromptLoom.Text.Blank
import PromptLoom.Text.LetterNumber
import PromptLoom.Text.Split

/-!
# Mentions of chunks

A body mentions a chunk as `@Name`, or as `@{Name with Param:value, ...}` with values for some of
the placeholders of the chunk. A mention starts only where the character before it does not continue
a word, so that `artist@studio` stays text. Text is read as a list of parts, each a mention or a
single character, and the parts print back to the text.
-/

namespace PromptLoom

open Text

set_option autoImplicit false

/-- The name of a chunk and the values bound to its placeholders, in the order written. -/
structure ChunkRef where
  name : String
  bindings : List (String × String)
  deriving Repr, DecidableEq, Inhabited

inductive MentionError where
  | invalidName (name : String)
  | malformedBinding (text : String)
  | unterminated
  deriving Repr, DecidableEq

def MentionError.message : MentionError → String
  | invalidName name => s!"invalid chunk name `{name}`"
  | malformedBinding text => s!"binding `{text}` must look like `Param:\x7bImport\x7d`"
  | unterminated => "unterminated chunk reference `@\x7b`"

namespace ChunkRef

def inFrontOf (c : Char) : List (List Char) → List (List Char)
  | [] => [[c]]
  | part :: parts => (c :: part) :: parts

/-- The parts between the commas that stand outside braces and brackets. `depth` counts the braces
and brackets open before the text; a closing one without an opening one is passed over. -/
def splitTopLevel (depth : Nat) : List Char → List (List Char)
  | [] => [[]]
  | c :: rest =>
      if c = '{' ∨ c = '[' then inFrontOf c (splitTopLevel (depth + 1) rest)
      else if c = '}' ∨ c = ']' then inFrontOf c (splitTopLevel (depth - 1) rest)
      else if c = ',' ∧ depth = 0 then [] :: splitTopLevel 0 rest
      else inFrontOf c (splitTopLevel depth rest)

/-- One binding: a parameter and a value around the first colon, neither blank. -/
def parseBinding (text : List Char) : Except MentionError (String × String) :=
  let malformed := Except.error (.malformedBinding (String.ofList (trim text)))
  match cutAtChar ':' text with
  | none => malformed
  | some (before, after) =>
      let param := trim before
      let value := trim after
      if param.isEmpty || value.isEmpty then malformed
      else .ok (String.ofList param, String.ofList value)

/-- Bindings in order; the first malformed one counts. -/
def parseBindings : List (List Char) → Except MentionError (List (String × String))
  | [] => .ok []
  | text :: rest =>
      (parseBinding text).bind fun binding => (parseBindings rest).map (binding :: ·)

def parse (inside : List Char) : Except MentionError ChunkRef :=
  let text := trim inside
  let (name, list) := match cutAtWord " with ".toList text with
    | some (before, after) => (trim before, splitTopLevel 0 after)
    | none => (text, [])
  if isIdent name then
    -- Blank parts do not count, so a comma may stand at either end.
    (parseBindings (list.filter fun part => !isAllBlank part)).map fun bindings =>
      ⟨String.ofList name, bindings⟩
  else .error (.invalidName (String.ofList name))

end ChunkRef

/-- The text before the brace that closes one opened earlier, and the text behind that brace.
`depth` counts further braces opened since. -/
def takeBraced (depth : Nat) : List Char → Option (List Char × List Char)
  | [] => none
  | '}' :: rest =>
      match depth with
      | 0 => some ([], rest)
      | outer + 1 => (takeBraced outer rest).map fun (inner, after) => ('}' :: inner, after)
  | '{' :: rest => (takeBraced (depth + 1) rest).map fun (inner, after) => ('{' :: inner, after)
  | c :: rest => (takeBraced depth rest).map fun (inner, after) => (c :: inner, after)

theorem take_braced_parts {depth : Nat} {text inner after : List Char}
    (found : takeBraced depth text = some (inner, after)) : text = inner ++ '}' :: after := by
  fun_induction takeBraced depth text generalizing inner after with
  | case1 => simp at found
  | case2 => simp_all
  | case3 rest outer ih =>
      obtain ⟨⟨i, a⟩, deeper, equal⟩ := Option.map_eq_some_iff.mp found
      simp only [Prod.mk.injEq] at equal
      obtain ⟨rfl, rfl⟩ := equal
      rw [ih deeper]
      simp
  | case4 depth rest ih =>
      obtain ⟨⟨i, a⟩, deeper, equal⟩ := Option.map_eq_some_iff.mp found
      simp only [Prod.mk.injEq] at equal
      obtain ⟨rfl, rfl⟩ := equal
      rw [ih deeper]
      simp
  | case5 depth c rest notClose notOpen ih =>
      obtain ⟨⟨i, a⟩, deeper, equal⟩ := Option.map_eq_some_iff.mp found
      simp only [Prod.mk.injEq] at equal
      obtain ⟨rfl, rfl⟩ := equal
      rw [ih deeper]
      simp

/-- A part of a body: a mention of a chunk, with its text and what it says, or one character. -/
inductive BodyPart where
  | char (c : Char)
  | mention (source : List Char) (parsed : Except MentionError ChunkRef)

namespace BodyPart

def printed : BodyPart → List Char
  | char c => [c]
  | mention source _ => source

/-- The mention at the start of a text, whether what follows continues a word, and the text behind
it. A mention without a closing brace takes the rest of the text. -/
def mention? : List Char → Option (BodyPart × Bool × List Char)
  | '@' :: '{' :: inside =>
      match takeBraced 0 inside with
      | none => some (.mention ('@' :: '{' :: inside) (.error .unterminated), false, [])
      | some (inner, after) =>
          some (.mention ('@' :: '{' :: (inner ++ ['}'])) (ChunkRef.parse inner), false, after)
  | '@' :: tail =>
      (takeIdent tail).map fun (name, after) =>
        (.mention ('@' :: name) (.ok ⟨String.ofList name, []⟩), true, after)
  | _ => none

/-- A mention takes exactly its own text off the text, and at least one character. -/
theorem mention?_append {text after : List Char} {part : BodyPart} {inWord : Bool}
    (found : mention? text = some (part, inWord, after)) :
    text = part.printed ++ after ∧ after.length < text.length := by
  unfold mention? at found
  split at found
  · split at found
    · simp only [Option.some.injEq, Prod.mk.injEq] at found
      obtain ⟨rfl, _, rfl⟩ := found
      simp [printed]
    · next inner rest closed =>
      simp only [Option.some.injEq, Prod.mk.injEq] at found
      obtain ⟨rfl, _, rfl⟩ := found
      rw [take_braced_parts closed]
      simp only [printed, List.cons_append, List.append_assoc, List.nil_append, List.length_cons,
        List.length_append, true_and]
      omega
  · obtain ⟨⟨name, rest⟩, named, equal⟩ := Option.map_eq_some_iff.mp found
    simp only [Prod.mk.injEq] at equal
    obtain ⟨rfl, _, rfl⟩ := equal
    have shorter := take_ident_length named
    refine ⟨?_, by simp only [List.length_cons]; omega⟩
    rw [take_ident_parts named]
    simp [printed]
  · simp at found

/-- The parts of a text. `afterWord` tells whether the character before the text continues a
word, after which no mention begins. -/
def scan (afterWord : Bool) (text : List Char) : List BodyPart :=
  match text with
  | [] => []
  | c :: rest =>
      match found : if afterWord then none else mention? (c :: rest) with
      | some (part, inWord, after) =>
          have shorter : after.length < rest.length + 1 := by
            split at found
            · simp at found
            · simpa only [List.length_cons] using (mention?_append found).2
          part :: scan inWord after
      | none => .char c :: scan (isWordChar c) rest
termination_by text.length

def ofText (text : String) : List BodyPart := scan false text.toList

theorem flat_map_printed_scan (afterWord : Bool) (text : List Char) :
    (scan afterWord text).flatMap printed = text := by
  induction size : text.length using Nat.strongRecOn generalizing afterWord text with
  | ind bound ih =>
      cases text with
      | nil => simp [scan]
      | cons c rest =>
          unfold scan
          split
          · next part inWord after found =>
              split at found
              · simp at found
              · obtain ⟨parts, shorter⟩ := mention?_append found
                rw [List.flatMap_cons, ih _ (size ▸ shorter) inWord after rfl, ← parts]
          · have shorter : rest.length < bound := by simp [← size]
            rw [List.flatMap_cons, ih _ shorter _ rest rfl]
            rfl

end BodyPart

/-- A mention with the byte offsets of its first byte and of the first byte after it. -/
structure LocatedMention where
  parsed : Except MentionError ChunkRef
  start : Nat
  stop : Nat

namespace LocatedMention

def ofParts (offset : Nat) : List BodyPart → List LocatedMention
  | [] => []
  | part :: rest =>
      let next := offset + byteLength part.printed
      match part with
      | .char _ => ofParts next rest
      | .mention _ parsed => ⟨parsed, offset, next⟩ :: ofParts next rest

def ofText (text : String) : List LocatedMention := ofParts 0 (BodyPart.ofText text)

end LocatedMention

end PromptLoom
