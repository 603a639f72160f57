import PromptLoom.Draws
import PromptLoom.Text.Blank
import PromptLoom.Text.Number
import PromptLoom.Text.Split
import PromptLoom.Variation

/-!
# Selectors

The bracketed part of a placeholder: clauses between semicolons, in any order.

* `3` draws three variations at random;
* `#0,2,4` takes variations by position, counted from zero;
* `red,blue` takes variations by key;
* `$5` gives the weight that orders nested loops, where zero takes the placeholder out of them.

At most one clause selects and at most one gives a weight. `parse` reads a selector, `display`
writes it, and `select` applies it to a variation set.
-/

namespace PromptLoom

set_option autoImplicit false

inductive Selection where
  | all
  | limit (count : Nat)
  | indexes (list : List Nat)
  | keys (list : List String)
  deriving Repr, DecidableEq, Inhabited

structure Selector where
  selection : Selection
  declaredWeight : Option Nat
  deriving Repr, DecidableEq, Inhabited

inductive SelectorError where
  | conflictingSelection
  | duplicateWeight
  | invalidWeight (text : String)
  | invalidIndex (text : String)
  | zeroLimit
  | invalidLimit (text : String)
  | emptyEntry (text : String)
  deriving Repr, DecidableEq

def SelectorError.message : SelectorError → String
  | conflictingSelection =>
      "selector combines more than one of limit, index list and key list"
  | duplicateWeight => "selector declares more than one weight"
  | invalidWeight text => s!"invalid weight `{text}`"
  | invalidIndex text => s!"invalid index `{text}`"
  | zeroLimit => "random limit must be at least 1"
  | invalidLimit text => s!"invalid random limit `{text}`"
  | emptyEntry text => s!"empty entry in `{text}`"

namespace Selector

open Text

/-- The selector of a bare placeholder: every variation, no declared weight. -/
def default : Selector := ⟨.all, none⟩

def weight (selector : Selector) : Nat := selector.declaredWeight.getD 1

/-- The entries of a comma list, trimmed; none may be blank. -/
def entries (list : List Char) : Except SelectorError (List (List Char)) :=
  let parts := (splitAtChar ',' list).map trim
  if parts.any List.isEmpty then .error (.emptyEntry (String.ofList list)) else .ok parts

def readIndexes : List (List Char) → Except SelectorError (List Nat)
  | [] => .ok []
  | entry :: rest =>
      match readUnsigned? maxWord64 entry with
      | none => .error (.invalidIndex (String.ofList entry))
      | some index => (readIndexes rest).map (index :: ·)

def readSelection (clause : List Char) : Except SelectorError Selection :=
  match clause with
  | '#' :: list => (entries list).bind fun parts => (readIndexes parts).map .indexes
  | _ =>
      if clause.all Char.isDigit then
        match readUnsigned? maxWord64 clause with
        | none => .error (.invalidLimit (String.ofList clause))
        | some 0 => .error .zeroLimit
        | some count => .ok (.limit count)
      else (entries clause).map fun parts => .keys (parts.map String.ofList)

def addClause (selector : Selector) (clause : List Char) : Except SelectorError Selector :=
  match clause with
  | '$' :: text =>
      if selector.declaredWeight.isSome then .error .duplicateWeight
      else match readUnsigned? maxWord32 (trim text) with
        | none => .error (.invalidWeight (String.ofList text))
        | some weight => .ok { selector with declaredWeight := some weight }
  | _ =>
      if selector.selection = .all then
        (readSelection clause).map fun selection => { selector with selection }
      else .error .conflictingSelection

/-- The clauses of a text: its trimmed, non-blank parts between semicolons. -/
def clauses (text : List Char) : List (List Char) :=
  ((splitAtChar ';' text).map trim).filter fun clause => !clause.isEmpty

def readClauses (selector : Selector) : List (List Char) → Except SelectorError Selector
  | [] => .ok selector
  | clause :: rest => (addClause selector clause).bind fun next => readClauses next rest

def parse (text : String) : Except SelectorError Selector :=
  readClauses default (clauses text.toList)

def written (selector : Selector) : List (List Char) :=
  (match selector.selection with
    | .all => []
    | .limit count => [(toString count).toList]
    | .indexes list => ['#' :: join [','] (list.map fun index => (toString index).toList)]
    | .keys list => [join [','] (list.map String.toList)])
  ++ match selector.declaredWeight with
    | none => []
    | some weight => ['$' :: (toString weight).toList]

def display (selector : Selector) : String := String.ofList (join [';'] selector.written)

def firstOfEach (kept : List Variation) : List Variation → List Variation
  | [] => []
  | entry :: rest =>
      if kept.any fun other => other.key == entry.key then firstOfEach kept rest
      else entry :: firstOfEach (entry :: kept) rest

/-- Applies a selection to a set. A limit below the size of the set draws that many positions and
keeps them in set order; lists keep the order in which they are written and pass over what is not
in the set or was taken before. -/
def select (selector : Selector) (set : VariationSet) (draws : Draws) : List Variation × Draws :=
  match selector.selection with
  | .limit count =>
      if set.size ≤ count then (set.entries, draws)
      else
        let (drawn, draws) := draws.sample count (List.range set.size)
        let positions := (List.range set.size).filter fun index => drawn.contains index
        (positions.filterMap set.atIndex?, draws)
  | .indexes list => (firstOfEach [] (list.filterMap set.atIndex?), draws)
  | .keys list => (firstOfEach [] (list.filterMap set.get?), draws)
  | .all => (firstOfEach [] set.entries, draws)

end Selector

end PromptLoom
