import PromptLoom.Text.Number
import PromptLoom.Text.Split

/-!
# Arguments of the command

Options come before the subcommand or after it. An option takes its value from the same argument,
after an equals sign or, behind a single letter, directly, or else from the next argument, which may
not begin with a dash. No option may be given twice on one level, but a level after the subcommand
wins over the one before it. Two dashes end the options.

A value in an argument of its own settles only when the next argument of its level shows that it is
complete. Help is given as soon as it is asked for, so it passes over the faults of a value that has
not settled by then, and of no other.
-/

namespace PromptLoom.Command

open Text

set_option autoImplicit false

inductive Format where
  | text
  | json
  deriving Repr, DecidableEq

inductive Task where
  | validate (paths : List String) (report : Option String)
  | inspect (prompt : String) (format : Format)
  | generate (prompt : String) (limit : Option Nat) (format : Format)
  deriving Repr, DecidableEq

structure Globals where
  config : Option String
  logLevel : Option String
  rngSeed : Option Nat
  deriving Repr, DecidableEq

inductive Request where
  | run (globals : Globals) (task : Task)
  | version
  | help
  deriving Repr, DecidableEq

structure OptionForm where
  letter : Option Char
  name : String
  deriving Repr, DecidableEq

/-- The options and words that one level of arguments may hold. Without a bound there may be any
number of words. -/
structure Level where
  options : List OptionForm
  hasVersion : Bool
  mostWords : Option Nat
  commands : List String

/-- The values of options by name, in the order given, the one that has not settled, and the words. -/
structure Given where
  values : List (String × String)
  pending : Option (String × String)
  words : List String

inductive LevelEnd where
  | help (given : Given)
  | version (given : Given)
  | command (name : String) (given : Given) (rest : List String)
  | finished (given : Given)

namespace Given

def nothing : Given := ⟨[], none, []⟩

def value? (given : Given) (name : String) : Option String := given.values.lookup name

def addValue (given : Given) (name value : String) : Option Given :=
  if (given.value? name).isSome then none
  else some { given with values := given.values ++ [(name, value)] }

def settle (given : Given) : Option Given :=
  match given.pending with
  | none => some given
  | some (name, value) => { given with pending := none }.addValue name value

end Given

namespace Level

def addWord (level : Level) (given : Given) (word : String) : Option Given :=
  if level.mostWords.any fun most => most ≤ given.words.length then none
  else given.settle.map fun settled => { settled with words := settled.words ++ [word] }

inductive Shape where
  | dashes
  | long (name : String) (value : Option String)
  | short (letter : Char) (value : Option String)
  | word

/-- The shape of an argument. A single dash is a word. -/
def shapeOf (argument : String) : Shape :=
  match argument.toList with
  | ['-', '-'] => .dashes
  | '-' :: '-' :: body =>
      match cutAtChar '=' body with
      | some (name, value) => .long (String.ofList name) (some (String.ofList value))
      | none => .long (String.ofList body) none
  | '-' :: letter :: body =>
      match body with
      | [] => .short letter none
      | '=' :: value => .short letter (some (String.ofList value))
      | value => .short letter (some (String.ofList value))
  | _ => .word

def isValue (argument : String) : Bool :=
  match shapeOf argument with
  | .word => true
  | _ => false

inductive Meaning where
  | help
  | version
  | option (name : String) (value : Option String)

def longMeaning (level : Level) (name : String) (value : Option String) : Option Meaning :=
  if (level.options.find? fun form => form.name == name).isSome then some (.option name value)
  else if value.isSome then none
  else if name = "help" then some .help
  else if name = "version" ∧ level.hasVersion then some .version
  else none

/-- The meaning of a short argument. What stands behind a letter without a value does not count. -/
def shortMeaning (level : Level) (letter : Char) (value : Option String) : Option Meaning :=
  match level.options.find? fun form => form.letter == some letter with
  | some form => some (.option form.name value)
  | none =>
      if letter = 'h' then some .help
      else if letter = 'V' ∧ level.hasVersion then some .version
      else none

def meaning (level : Level) : Shape → Option Meaning
  | .long name value => level.longMeaning name value
  | .short letter value => level.shortMeaning letter value
  | _ => none

def read (level : Level) (given : Given) : List String → Option LevelEnd
  | [] => given.settle.map .finished
  | argument :: rest =>
      match shapeOf argument with
      | .dashes => ((rest.foldlM level.addWord given).bind Given.settle).map .finished
      | .word =>
          -- A value that has not settled is handed on with the rest of `given`.
          if level.commands.contains argument then some (.command argument given rest)
          else (level.addWord given argument).bind fun next => read level next rest
      | shape =>
          match level.meaning shape, rest with
          | none, _ => none
          | some .help, _ => given.settle.map .help
          | some .version, _ => given.settle.map .version
          | some (.option name (some value)), rest =>
              (given.settle.bind fun settled => settled.addValue name value).bind fun next =>
                read level next rest
          | some (.option name none), value :: more =>
              if isValue value then
                given.settle.bind fun settled =>
                  read level { settled with pending := some (name, value) } more
              else none
          | some (.option _ none), [] => none

end Level

/-! ### The grammar of the command -/

def globalForms : List OptionForm :=
  [⟨some 'c', "config"⟩, ⟨some 'l', "log-level"⟩, ⟨none, "rng-seed"⟩]

def formatForm : OptionForm := ⟨some 'f', "format"⟩

def commandNames : List String := ["validate", "inspect", "generate", "help"]

def rootLevel : Level := ⟨globalForms, true, some 0, commandNames⟩

def levelOf (command : String) : Level :=
  match command with
  | "validate" => ⟨⟨none, "report"⟩ :: globalForms, false, none, []⟩
  | "inspect" => ⟨formatForm :: globalForms, false, some 1, []⟩
  | _ => ⟨formatForm :: ⟨some 'n', "limit"⟩ :: globalForms, false, some 1, []⟩

def readPath? (text : String) : Option String := if text.isEmpty then none else some text

def readCount? (text : String) : Option Nat := readUnsigned? maxWord64 text.toList

def readFormat? (text : String) : Option Format :=
  [("text", Format.text), ("plain", .text), ("json", .json)].lookup text.toLower

/-- An option that may be missing but not malformed. -/
def Given.read {α : Type} (given : Given) (name : String) (reader : String → Option α) :
    Option (Option α) :=
  match given.value? name with
  | none => some none
  | some text => (reader text).map some

def readGlobals (given : Given) : Option Globals := do
  let config ← given.read "config" readPath?
  let logLevel ← given.read "log-level" some
  let rngSeed ← given.read "rng-seed" readCount?
  pure ⟨config, logLevel, rngSeed⟩

/-- The options given behind the subcommand, else those before it. -/
def Globals.orElse (first second : Globals) : Globals :=
  ⟨first.config.or second.config, first.logLevel.or second.logLevel,
    first.rngSeed.or second.rngSeed⟩

/-- The format of results, text when none is given. -/
def readFormat (given : Given) : Option Format :=
  (given.read "format" readFormat?).map fun format => format.getD .text

def readTask (command : String) (given : Given) : Option Task := do
  let words ← given.words.mapM readPath?
  match command with
  | "validate" =>
      let report ← given.read "report" readPath?
      if words.isEmpty then none else pure (.validate words report)
  | "inspect" =>
      let format ← readFormat given
      let prompt ← words.head?
      pure (.inspect prompt format)
  | _ =>
      let limit ← given.read "limit" readCount?
      let format ← readFormat given
      let prompt ← words.head?
      pure (.generate prompt limit format)

def isSound (given : Given) : Bool :=
  (readGlobals given).isSome && (given.words.mapM readPath?).isSome &&
    (given.read "report" readPath?).isSome && (given.read "limit" readCount?).isSome &&
    (readFormat given).isSome

/-- Reads what stands behind a subcommand. What is not settled before it settles after it. -/
def readCommand (command : String) (before : Given) (rest : List String) : Option Request :=
  if command = "help" then
    match rest with
    | [] => some .help
    | [name] => if commandNames.contains name then some .help else none
    | _ => none
  else do
    match ← (levelOf command).read .nothing rest with
    | .help given => if isSound given then some .help else none
    | .finished given =>
        let own ← readGlobals given
        let task ← readTask command given
        let outer ← readGlobals (← before.settle)
        pure (.run (own.orElse outer) task)
    | _ => none

def readArguments (arguments : List String) : Option Request := do
  match ← rootLevel.read .nothing arguments with
  | .help given => if isSound given then some .help else none
  | .version given => if isSound given then some .version else none
  | .command name given rest => if isSound given then readCommand name given rest else none
  | .finished _ => none

end PromptLoom.Command
