/-!
# Maps from names

Maps keyed by name are lists of entries in the order of their names. Inserting replaces the entry of
a known name, and merging lets the entries of the second map win.
-/

namespace PromptLoom

set_option autoImplicit false

/-- Entries in the order of their names. -/
structure NameMap (α : Type) where
  entries : List (String × α)
  deriving Repr, Inhabited

namespace NameMap

variable {α β : Type}

def empty : NameMap α := ⟨[]⟩

def insertEntry (name : String) (value : α) : List (String × α) → List (String × α)
  | [] => [(name, value)]
  | (other, kept) :: rest =>
      if name = other then (name, value) :: rest
      else if name < other then (name, value) :: (other, kept) :: rest
      else (other, kept) :: insertEntry name value rest

def insert (map : NameMap α) (name : String) (value : α) : NameMap α :=
  ⟨insertEntry name value map.entries⟩

def get? (map : NameMap α) (name : String) : Option α := map.entries.lookup name

def contains (map : NameMap α) (name : String) : Bool := (map.get? name).isSome

def names (map : NameMap α) : List String := map.entries.map Prod.fst

def size (map : NameMap α) : Nat := map.entries.length

def isEmpty (map : NameMap α) : Bool := map.entries.isEmpty

/-- A map from entries in any order; of several under one name the last counts. -/
def ofList (entries : List (String × α)) : NameMap α :=
  entries.foldl (fun map (name, value) => map.insert name value) empty

def mapValues (f : α → β) (map : NameMap α) : NameMap β :=
  ⟨map.entries.map fun (name, value) => (name, f value)⟩

/-- Both maps together; where both know a name the second counts. -/
def merge (first second : NameMap α) : NameMap α :=
  second.entries.foldl (fun map (name, value) => map.insert name value) first

end NameMap

end PromptLoom
