import PromptLoom.Digest.Sha256

/-!
# Variations

A variation is a text under a key. A variation set is a list of variations in the order in which
they were added. Inserting under a known key replaces the text in place; a literal text is added
under a key of its own, made from its digest, so that nothing is ever lost.
-/

namespace PromptLoom

set_option autoImplicit false

structure Variation where
  key : String
  value : String
  deriving Repr, DecidableEq, Inhabited

/-- Variations in the order in which they were added. -/
structure VariationSet where
  entries : List Variation
  deriving Repr, DecidableEq, Inhabited

namespace VariationSet

def empty : VariationSet := ⟨[]⟩

def keys (set : VariationSet) : List String := set.entries.map Variation.key

def size (set : VariationSet) : Nat := set.entries.length

def isEmpty (set : VariationSet) : Bool := set.entries.isEmpty

def get? (set : VariationSet) (key : String) : Option Variation :=
  set.entries.find? fun entry => entry.key == key

def atIndex? (set : VariationSet) (index : Nat) : Option Variation := set.entries[index]?

def contains (set : VariationSet) (key : String) : Bool := (set.get? key).isSome

def insertEntry (key value : String) : List Variation → List Variation
  | [] => [⟨key, value⟩]
  | entry :: rest =>
      if entry.key == key then ⟨entry.key, value⟩ :: rest
      else entry :: insertEntry key value rest

/-- Adds a variation; a known key keeps its place and takes the new text. -/
def insert (set : VariationSet) (key value : String) : VariationSet :=
  ⟨insertEntry key value set.entries⟩

/-- A set from keys and texts, inserted in order. -/
def ofList (pairs : List (String × String)) : VariationSet :=
  pairs.foldl (fun set (key, value) => set.insert key value) empty

/-- The key tried for a literal after `tries` taken ones: the base itself, then the base with the
numbers from two on. -/
def candidateKey (base : String) : Nat → String
  | 0 => base
  | tries + 1 => base ++ "-" ++ toString (tries + 2)

/-- The first free candidate. A set of `n` variations takes at most `n` of the first `n + 1`
candidates, so one of them is free. -/
def freshKey (set : VariationSet) (base : String) : String :=
  (((List.range (set.size + 1)).map (candidateKey base)).find? fun key => !set.contains key).getD
    base

def pushUnder (set : VariationSet) (base text : String) : VariationSet :=
  ⟨set.entries ++ [⟨set.freshKey base, text⟩]⟩

/-- The base key of a literal: a tilde, which sets it apart from keys that authors write, and the
first twelve hexadecimal digits of the digest of the text. -/
def literalKey (text : String) : String :=
  String.ofList ('~' :: (Digest.sha256Hex text.toUTF8.toList).take 12)

def pushLiteral (set : VariationSet) (text : String) : VariationSet :=
  set.pushUnder (literalKey text) text

end VariationSet

end PromptLoom
