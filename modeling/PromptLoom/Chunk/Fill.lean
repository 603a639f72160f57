import PromptLoom.Chunk.Mention
import PromptLoom.Inheritance.Config
import PromptLoom.Scope

/-!
# Filling the body of a chunk

Each placeholder of a chunk is replaced: by the value bound in the mention, else by an override, else
by a default, else by a placeholder for the chunk's own import of that name. Overrides and defaults
may refer to variations, which are looked up in the chunk's own imports before those of the caller.
-/

namespace PromptLoom.Chunk

open Text

set_option autoImplicit false

/-- The value bound to a parameter, the first of several. -/
def bound? (ref : ChunkRef) (param : String) : Option String := ref.bindings.lookup param

/-- The placeholder by which a caller draws from an import of a chunk. -/
def lifted (chunkName : String) (placeholder : Placeholder) : Placeholder :=
  ⟨chunkName ++ "." ++ placeholder.name, placeholder.selector⟩

def filling (chunk : ResolvedChunk) (ref : ChunkRef) (own caller : Scope)
    (placeholder : Placeholder) : Except DocumentError String :=
  let name := placeholder.name
  if Placeholder.isReserved name then
    .error ⟨chunk.source, some "template", .reservedInChunk name⟩
  else match bound? ref name with
    | some value => .ok value
    | none =>
        match chunk.overrides.get? name with
        | some value => ValueRef.resolve value [own, caller] chunk.source ("overrides." ++ name)
        | none =>
            match chunk.defaults.get? name with
            | some value => ValueRef.resolve value [own, caller] chunk.source ("defaults." ++ name)
            | none =>
                -- The caller chooses from the import, which it knows under the dotted name.
                if own.contains name then
                  .ok (String.ofList (lifted ref.name placeholder).printed)
                else
                  .error ⟨chunk.source, some "template", .unfilledPlaceholder name ref.name⟩

/-- The body with its placeholders replaced, and the errors met. What cannot be replaced is left
out. -/
def fillPieces (chunk : ResolvedChunk) (ref : ChunkRef) (own caller : Scope) :
    List Piece → List Char × List DocumentError
  | [] => ([], [])
  | .char c :: rest =>
      let (text, errors) := fillPieces chunk ref own caller rest
      (c :: text, errors)
  | .placeholder found :: rest =>
      let (text, errors) := fillPieces chunk ref own caller rest
      match filling chunk ref own caller found with
      | .ok value => (value.toList ++ text, errors)
      | .error error => (text, error :: errors)

def fill (chunk : ResolvedChunk) (ref : ChunkRef) (own caller : Scope) :
    String × List DocumentError :=
  let (text, errors) := fillPieces chunk ref own caller (Piece.ofText chunk.body)
  (String.ofList text, errors)

end PromptLoom.Chunk
