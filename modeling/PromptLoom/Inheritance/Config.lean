import PromptLoom.Document.Config
import PromptLoom.Finding
import PromptLoom.Text.Blank
import PromptLoom.Text.Split

/-!
# What documents inherit

Entries of maps are inherited name by name, the nearest declaration counts, and imports and chunks
remember the document that declares them, since its references are relative to it. The body of a
child takes the place of every marker in the body of its parent. A parent body without the marker
gives way to the child body as a whole, which is worth a warning unless the parent body is blank.
-/

namespace PromptLoom

open Text

set_option autoImplicit false

/-! ### Bodies inside bodies -/

def positiveMarker : String := "\x7bprompt\x7d"

def negativeMarker : String := "\x7bnegprompt\x7d"

def lorasMarker : String := "\x7bloras\x7d"

/-- A combined body, and whether a parent body that is not blank gave way. -/
structure Injection where
  text : String
  replaced : Bool
  deriving Repr, DecidableEq

def Text.contains (text word : String) : Bool := hasWord word.toList text.toList

def inject (parent : String) (child : Option String) (marker : String) : Injection :=
  match child with
  | none => ⟨parent, false⟩
  | some body =>
      if Text.contains parent marker then
        ⟨String.ofList (replaceWord marker.toList body.toList parent.toList), false⟩
      else ⟨body, !isAllBlank parent.toList⟩

/-! ### Declarations -/

structure ImportDecl where
  spec : ImportSpec
  origin : Path
  deriving Repr, Inhabited

structure ChunkDecl where
  reference : String
  origin : Path
  deriving Repr, DecidableEq, Inhabited

def ImportDecl.declare (origin : Path) (imports : NameMap ImportSpec) : NameMap ImportDecl :=
  imports.mapValues fun spec => ⟨spec, origin⟩

def ChunkDecl.declare (origin : Path) (chunks : NameMap String) : NameMap ChunkDecl :=
  chunks.mapValues fun reference => ⟨reference, origin⟩

/-- A template or prompt together with everything it inherits. The generation settings are there
once a prompt has been merged in. -/
structure ResolvedConfig where
  source : Path
  name : String
  parameters : NameMap Yaml.Value
  imports : NameMap ImportDecl
  chunks : NameMap ChunkDecl
  loras : NameMap Decimal.Binary64
  positive : String
  negative : String
  generation : Option Generation
  deriving Repr, Inhabited

namespace ResolvedConfig

def root (layer : Layer) (generation : Option Generation) : ResolvedConfig where
  source := layer.source
  name := layer.name
  parameters := layer.parameters
  imports := ImportDecl.declare layer.source layer.imports
  chunks := ChunkDecl.declare layer.source layer.chunks
  loras := layer.loras
  positive := layer.positive.getD ""
  negative := layer.negative.getD ""
  generation := generation

def extend (parent : ResolvedConfig) (layer : Layer) (generation : Option Generation) :
    ResolvedConfig where
  source := layer.source
  name := if layer.name.isEmpty then parent.name else layer.name
  parameters := parent.parameters.merge layer.parameters
  imports := parent.imports.merge (ImportDecl.declare layer.source layer.imports)
  chunks := parent.chunks.merge (ChunkDecl.declare layer.source layer.chunks)
  loras := parent.loras.merge layer.loras
  positive := (inject parent.positive layer.positive positiveMarker).text
  negative := (inject parent.negative layer.negative negativeMarker).text
  generation := generation.or parent.generation

def extendWarnings (parent : ResolvedConfig) (layer : Layer) (bodyField : String) :
    List Finding :=
  (if (inject parent.positive layer.positive positiveMarker).replaced then
    [(Notice.bodyReplaced parent.source).finding layer.source bodyField] else []) ++
  (if (inject parent.negative layer.negative negativeMarker).replaced then
    [(Notice.negativeReplaced parent.source).finding layer.source "negative-prompt"] else [])

end ResolvedConfig

structure ResolvedChunk where
  source : Path
  name : String
  chunkType : Option String
  imports : NameMap ImportDecl
  defaults : NameMap String
  overrides : NameMap String
  body : String
  deriving Repr, Inhabited

namespace ResolvedChunk

def root (chunk : ChunkConfig) : ResolvedChunk where
  source := chunk.source
  name := chunk.name
  chunkType := chunk.chunkType
  imports := ImportDecl.declare chunk.source chunk.imports
  defaults := chunk.defaults
  overrides := chunk.overrides
  body := chunk.body.getD ""

def extend (parent child : ChunkConfig) : ResolvedChunk where
  source := child.source
  name := if child.name.isEmpty then parent.name else child.name
  chunkType := child.chunkType.or parent.chunkType
  imports := (ImportDecl.declare parent.source parent.imports).merge
    (ImportDecl.declare child.source child.imports)
  defaults := parent.defaults.merge child.defaults
  overrides := parent.overrides.merge child.overrides
  body := (inject (parent.body.getD "") child.body positiveMarker).text

/-- Why a chunk cannot extend another: the other has a parent itself, or the types differ. -/
def extendFault? (parent child : ChunkConfig) : Option DocumentError :=
  match parent.implements with
  | some grandparent =>
      some ⟨child.source, some "implements", .nestedChunkParent parent.source grandparent⟩
  | none =>
      match child.chunkType, parent.chunkType with
      | some c, some p =>
          if c = p then none else some ⟨child.source, some "type", .chunkTypeMismatch c p⟩
      | _, _ => none

def untypedParentWarning? (parent child : ChunkConfig) : Option Finding :=
  match child.chunkType, parent.chunkType with
  | some c, none => some ((Notice.untypedParent parent.source c).finding child.source "type")
  | _, _ => none

def extendWarnings (parent child : ChunkConfig) : List Finding :=
  (untypedParentWarning? parent child).toList ++
  (if (inject (parent.body.getD "") child.body positiveMarker).replaced then
    [(Notice.chunkBodyReplaced parent.source).finding child.source "template"] else [])

end ResolvedChunk

end PromptLoom
