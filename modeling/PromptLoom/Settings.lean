import PromptLoom.Text.Blank
import PromptLoom.Yaml.Value

/-!
# Settings

Settings are what a run takes over where a prompt says nothing. They are read from a YAML mapping
whose fields may all be missing. Texts may be written as any scalar; whole numbers are plain scalars;
unknown fields do not count.
-/

namespace PromptLoom

open Yaml (Node)

set_option autoImplicit false

/-- What generation takes over where a prompt says nothing: the separator of lists, how many draws
per wanted output random generation may make, and how many outputs it makes. -/
structure Defaults where
  separator : String
  attemptFactor : Nat
  rngSeed : Option Nat
  maxImages : Nat
  deriving Repr, DecidableEq, Inhabited

def Defaults.standard : Defaults := ⟨",", 100, none, 10⟩

structure Settings where
  defaults : Defaults
  logLevel : Option String
  deriving Repr, DecidableEq, Inhabited

def Settings.standard : Settings := ⟨.standard, none⟩

inductive SettingsFault where
  | blankSeparator
  | zeroFactor
  deriving Repr, DecidableEq

def SettingsFault.message : SettingsFault → String
  | blankSeparator => "generation.separator must not be blank"
  | zeroFactor => "generation.random-attempt-factor must be at least 1"

namespace Settings

def fault? (settings : Settings) : Option SettingsFault :=
  if Text.isAllBlank settings.defaults.separator.toList then some .blankSeparator
  else if settings.defaults.attemptFactor = 0 then some .zeroFactor
  else none

/-! ### Reading fields off nodes -/

abbrev FieldReader (α : Type) := Node → Option α

def text : FieldReader String := Node.text?

def mayCount (tag : Option Yaml.Tag) (style : Yaml.ScalarStyle) : Bool :=
  style == .plain || (style == .literal && tag == some (.core "int"))

def nat64 : FieldReader Nat
  | .scalar tag style content =>
      if mayCount tag style then
        (Yaml.Plain.unsigned? content.toList).filter (· ≤ Text.maxWord64)
      else none
  | _ => none

def optional {α : Type} (reader : FieldReader α) : FieldReader (Option α)
  | .scalar tag style content =>
      let present := (reader (.scalar tag style content)).map some
      if style != .plain then present
      else if tag == some (.core "null") then
        if Yaml.Plain.isNull content then some none else none
      else if tag.isSome then present
      else if content.isEmpty || Yaml.Plain.isNull content then some none
      else present
  | node => (reader node).map some

def fields (document : Yaml.Document) (known : List String) :
    FieldReader (List (String × Node)) := fun node => do
  let entries ← node.entries?
  let named ← entries.mapM fun (key, value) => do
    let name ← (document.follow? key).bind text
    let content ← document.follow? value
    pure (name, content)
  let names := (named.map Prod.fst).filter known.contains
  if names.eraseDups.length = names.length then some named else none

def fieldOr {α : Type} (named : List (String × Node)) (name : String) (fallback : α)
    (reader : FieldReader α) : Option α :=
  match named.lookup name with
  | none => some fallback
  | some node => reader node

def readDefaults (document : Yaml.Document) : FieldReader Defaults := fun node => do
  let named ← fields document
    ["separator", "random-attempt-factor", "rng-seed", "default-max-images"] node
  let standard := Defaults.standard
  let separator ← fieldOr named "separator" standard.separator text
  let attemptFactor ← fieldOr named "random-attempt-factor" standard.attemptFactor nat64
  let rngSeed ← fieldOr named "rng-seed" standard.rngSeed (optional nat64)
  let maxImages ← fieldOr named "default-max-images" standard.maxImages nat64
  pure ⟨separator, attemptFactor, rngSeed, maxImages⟩

/-- The settings of a document; an empty one sets nothing. -/
def ofDocument (document : Yaml.Document) : Option Settings :=
  match document.root with
  | none => some standard
  | some root => do
      let named ← fields document ["generation", "log-level"] root
      let generation ← fieldOr named "generation" .standard (readDefaults document)
      let logLevel ← fieldOr named "log-level" none (optional text)
      pure ⟨generation, logLevel⟩

def ofText (source : String) : Option Settings :=
  (Yaml.Document.ofText source).toOption.bind ofDocument

end Settings

end PromptLoom
