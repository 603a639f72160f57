import PromptLoom.Placeholder
import PromptLoom.Prompt.Prepared
import PromptLoom.Scope

/-!
# From bodies to slots

The placeholders of both bodies are numbered by name in the order in which the names appear. One
selector may be written at some of the occurrences of a name and holds for all of them; two
different ones conflict. Reserved names become text.
-/

namespace PromptLoom

open Text

set_option autoImplicit false

/-- A name that has appeared: its selector, if one is written, and the body it first appeared in. -/
structure SlotEntry where
  name : String
  selector : Option String
  field : String
  deriving Repr, DecidableEq

abbrev SlotTable := List SlotEntry

namespace SlotTable

/-- A selector as it counts: trimmed, and none when blank. -/
def written (selector : Option String) : Option String :=
  (selector.map trimmed).filter fun text => !text.isEmpty

def adopt (selector : Option String) (entry : SlotEntry) : SlotEntry :=
  { entry with selector := entry.selector.or selector }

/-- The number of a name, which is given one if it is new. -/
def register (table : SlotTable) (placeholder : Placeholder) (field : String) :
    Except Cause (Nat × SlotTable) :=
  let selector := written placeholder.selector
  match table.findIdx? fun entry => entry.name == placeholder.name with
  | none => .ok (table.length, table ++ [⟨placeholder.name, selector, field⟩])
  | some index =>
      match (table[index]?).bind SlotEntry.selector, selector with
      | some first, some second =>
          if first = second then .ok (index, table)
          else .error (.conflictingSelectors placeholder.name first second)
      -- A selector may be written behind the first occurrence of its name.
      | _, _ => .ok (index, table.modify index (adopt selector))

end SlotTable

/-- What a body becomes: its parts, the names known after it, and the errors met. -/
structure Cut where
  segments : List Segment
  table : SlotTable
  errors : List DocumentError

namespace Cut

/-- Text that has been gathered in reverse, as a part if there is any. -/
def flush (pending : List Char) : List Segment :=
  match pending with
  | [] => []
  | _ => [.text (String.ofList pending.reverse)]

/-- Cuts a body into its parts. `pending` is the text gathered so far, last character first. -/
def ofPieces (file : Path) (field : String) (loras : List Char) (table : SlotTable)
    (pending : List Char) : List Piece → Cut
  | [] => ⟨flush pending, table, []⟩
  | .char c :: rest => ofPieces file field loras table (c :: pending) rest
  | .placeholder found :: rest =>
      if Placeholder.isReserved found.name then
        let text := if found.name = "loras" then loras.reverse ++ pending else pending
        ofPieces file field loras table text rest
      else match table.register found field with
        | .ok (index, table) =>
            let later := ofPieces file field loras table [] rest
            { later with segments := flush pending ++ .slot index :: later.segments }
        | .error cause =>
            -- The occurrence is left out, so the text on its two sides stays together.
            let later := ofPieces file field loras table pending rest
            { later with errors := ⟨file, some field, cause⟩ :: later.errors }

end Cut

namespace SlotTable

/-- The slot of an entry, or why there is none. Only a limit below the size of a set draws. -/
def slotOf (scope : Scope) (entry : SlotEntry) (draws : Draws) : Except Cause Slot × Draws :=
  match scope.get? entry.name with
  | none => (.error (.unknownPlaceholder entry.name), draws)
  | some set =>
      let text := entry.selector.getD ""
      match Selector.parse text with
      | .error problem => (.error (.malformedSelector entry.name text problem), draws)
      | .ok selector =>
          let (pool, draws) := selector.select set draws
          if !pool.isEmpty then (.ok ⟨entry.name, selector, pool⟩, draws)
          else if set.isEmpty then (.error (.emptyImport entry.name), draws)
          else (.error (.nothingSelected selector.display entry.name), draws)

def slots (file : Path) (scope : Scope) : SlotTable → Draws → List Slot × List DocumentError × Draws
  | [], draws => ([], [], draws)
  | entry :: rest, draws =>
      let (first, draws) := slotOf scope entry draws
      let (others, errors, draws) := slots file scope rest draws
      match first with
      | .ok slot => (slot :: others, errors, draws)
      | .error cause => (others, ⟨file, some entry.field, cause⟩ :: errors, draws)

end SlotTable

end PromptLoom
