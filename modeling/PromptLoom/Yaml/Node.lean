import PromptLoom.Yaml.Token

/-!
# The node tree of a YAML document

A node is a scalar as it is written, a sequence, a mapping, or an alias for a node elsewhere. A text
holds one document; anything behind it but end marks is a fault.
-/

namespace PromptLoom.Yaml

set_option autoImplicit false

/-- A node as it is written. Tags are resolved to full names, aliases to anchor numbers. -/
inductive Node where
  | alias (anchor : Nat)
  | scalar (tag : Option Tag) (style : ScalarStyle) (text : String)
  | sequence (tag : Option Tag) (items : List Node)
  | mapping (tag : Option Tag) (entries : List (Node × Node))
  deriving Inhabited

/-- A node with an anchor: the number of the anchor and the rank of the node among those with one,
in the order in which they begin. -/
structure Target where
  anchor : Nat
  rank : Nat
  node : Node

/-- A document: its root, its anchored nodes, and its size in nodes and ends of collections. -/
structure Document where
  root : Option Node
  targets : List Target
  size : Nat

/-- The text of a scalar, however it is written. -/
def Node.text? : Node → Option String
  | .scalar _ _ text => some text
  | _ => none

/-- The entries of a mapping. A scalar that is not written is a mapping without entries. -/
def Node.entries? : Node → Option (List (Node × Node))
  | .mapping _ entries => some entries
  | .scalar _ style text => if style = .plain ∧ text.isEmpty then some [] else none
  | _ => none

/-- The node that an alias stands for: of those under its anchor number, the one that begins
last. -/
def Document.target? (document : Document) (anchor : Nat) : Option Node :=
  let under := document.targets.filter fun target => target.anchor == anchor
  let last := under.foldl
    (fun best target => match best with
      | none => some target
      | some other => if other.rank < target.rank then some target else best)
    (none : Option Target)
  last.map Target.node

/-- A node, or the one that an alias stands for. -/
def Document.follow? (document : Document) : Node → Option Node
  | .alias anchor => document.target? anchor
  | node => some node

namespace Node

structure State where
  tokens : List Token
  handles : List (String × List UInt8)
  anchors : List (String × Nat)
  begun : Nat
  targets : List Target
  size : Nat

abbrev Reading := StateT State (Except Problem)

def peek : Reading Token := return (← get).tokens.headD .streamEnd

def advance : Reading Unit := modify fun state => { state with tokens := state.tokens.tail }

def count (parts : Nat) : Reading Unit :=
  modify fun state => { state with size := state.size + parts }

def missing : Reading Node := do
  count 1
  return .scalar none .plain ""

def expandTag (handle : String) (suffix : List UInt8) : Reading Tag := do
  if handle.isEmpty then return ⟨suffix⟩
  match (← get).handles.lookup handle with
  | some expansion => return ⟨expansion ++ suffix⟩
  | none => throw .unknownTagHandle

/-- Gives an anchor its number. A name in use again keeps the count of names, so that a later new
name may share its number. -/
def beginAnchor (name : Option String) : Reading (Option (Nat × Nat)) := do
  match name with
  | none => return none
  | some name =>
      let state ← get
      let number := state.anchors.length
      let others := state.anchors.filter fun (other, _) => other != name
      let rank := state.begun + 1
      set { state with anchors := (name, number) :: others, begun := rank }
      return some (number, rank)

def endAnchor (mark : Option (Nat × Nat)) (node : Node) : Reading Node := do
  match mark with
  | none => return node
  | some (anchor, rank) =>
      modify fun state => { state with targets := ⟨anchor, rank, node⟩ :: state.targets }
      return node

def properties : Reading (Option String × Option Tag) := do
  match ← peek with
  | .anchor name =>
      advance
      match ← peek with
      | .tag handle suffix =>
          advance
          return (some name, some (← expandTag handle suffix))
      | _ => return (some name, none)
  | .tag handle suffix =>
      advance
      match ← peek with
      | .anchor name =>
          advance
          return (some name, some (← expandTag handle suffix))
      | _ => return (none, some (← expandTag handle suffix))
  | _ => return (none, none)

mutual

/-- Reads a node. `block` allows block collections, `flat` a sequence at the column of its key. -/
def read (block flat : Bool) : Nat → Reading Node
  | 0 => throw .unfinished
  | fuel + 1 => do
      match ← peek with
      | .alias name =>
          advance
          count 1
          match (← get).anchors.lookup name with
          | some anchor => return .alias anchor
          | none => throw .unknownAnchor
      | _ =>
          let (name, tag) ← properties
          match ← peek with
          | .scalar text style =>
              advance
              count 1
              let mark ← beginAnchor name
              endAnchor mark (.scalar tag style text)
          | .flowSequenceStart =>
              advance
              count 2
              let mark ← beginAnchor name
              endAnchor mark (.sequence tag (← flowItems true fuel))
          | .flowMappingStart =>
              advance
              count 2
              let mark ← beginAnchor name
              endAnchor mark (.mapping tag (← flowEntries true fuel))
          | next =>
              if flat && next == .blockEntry then
                count 2
                let mark ← beginAnchor name
                endAnchor mark (.sequence tag (← flatItems fuel))
              else if block && next == .blockSequenceStart then
                advance
                count 2
                let mark ← beginAnchor name
                endAnchor mark (.sequence tag (← blockItems fuel))
              else if block && next == .blockMappingStart then
                advance
                count 2
                let mark ← beginAnchor name
                endAnchor mark (.mapping tag (← blockEntries fuel))
              -- Properties alone make a node: a scalar that is not written.
              else if name.isSome || tag.isSome then
                count 1
                let mark ← beginAnchor name
                endAnchor mark (.scalar tag .plain "")
              else throw .unexpectedToken

def blockItems : Nat → Reading (List Node)
  | 0 => throw .unfinished
  | fuel + 1 => do
      match ← peek with
      | .blockEntry =>
          advance
          let next ← peek
          let item ← if next == .blockEntry || next == .blockEnd then missing
            else read true false fuel
          return item :: (← blockItems fuel)
      | .blockEnd =>
          advance
          return []
      | _ => throw .unexpectedToken

def flatItems : Nat → Reading (List Node)
  | 0 => throw .unfinished
  | fuel + 1 => do
      match ← peek with
      | .blockEntry =>
          advance
          let next ← peek
          let item ←
            if next == .blockEntry || next == .key || next == .value || next == .blockEnd then
              missing
            else read true false fuel
          return item :: (← flatItems fuel)
      | _ => return []

def blockEntries : Nat → Reading (List (Node × Node))
  | 0 => throw .unfinished
  | fuel + 1 => do
      match ← peek with
      | .key =>
          advance
          let key ← blockPart fuel
          let value ←
            if (← peek) == .value then
              advance
              blockPart fuel
            else missing
          return (key, value) :: (← blockEntries fuel)
      | .blockEnd =>
          advance
          return []
      | _ => throw .unexpectedToken

def blockPart : Nat → Reading Node
  | 0 => throw .unfinished
  | fuel + 1 => do
      let next ← peek
      if next == .key || next == .value || next == .blockEnd then missing
      else read true true fuel

def flowItems (first : Bool) : Nat → Reading (List Node)
  | 0 => throw .unfinished
  | fuel + 1 => do
      if (← peek) == .flowSequenceEnd then
        advance
        return []
      if !first then
        if (← peek) == .flowEntry then advance else throw .unexpectedToken
      match ← peek with
      | .key =>
          advance
          count 2
          let entry ← flowPair fuel
          return .mapping none [entry] :: (← flowItems false fuel)
      | .flowSequenceEnd =>
          advance
          return []
      | _ =>
          let item ← read false false fuel
          return item :: (← flowItems false fuel)

/-- Reads a single pair inside a flow sequence. A key that is not written takes the next token with
it. -/
def flowPair : Nat → Reading (Node × Node)
  | 0 => throw .unfinished
  | fuel + 1 => do
      let next ← peek
      let key ←
        if next == .value || next == .flowEntry || next == .flowSequenceEnd then
          advance
          missing
        else read false false fuel
      let value ← flowValue .flowSequenceEnd fuel
      return (key, value)

def flowValue (closing : Token) : Nat → Reading Node
  | 0 => throw .unfinished
  | fuel + 1 => do
      if (← peek) == .value then
        advance
        let next ← peek
        if next == .flowEntry || next == closing then missing else read false false fuel
      else missing

def flowEntries (first : Bool) : Nat → Reading (List (Node × Node))
  | 0 => throw .unfinished
  | fuel + 1 => do
      if (← peek) == .flowMappingEnd then
        advance
        return []
      if !first then
        if (← peek) == .flowEntry then advance else throw .unexpectedToken
      match ← peek with
      | .key =>
          advance
          let next ← peek
          let key ←
            if next == .value || next == .flowEntry || next == .flowMappingEnd then missing
            else read false false fuel
          let value ← flowValue .flowMappingEnd fuel
          return (key, value) :: (← flowEntries false fuel)
      | .flowMappingEnd =>
          advance
          return []
      | _ =>
          let key ← read false false fuel
          let value ← missing
          return (key, value) :: (← flowEntries false fuel)

end

/-- Reads the directives before a document. Later entries of the default handles give way to
declared ones. -/
def directives (versionSeen : Bool) (declared : List (String × List UInt8)) :
    Nat → Reading (List (String × List UInt8))
  | 0 => throw .unfinished
  | fuel + 1 => do
      match ← peek with
      | .versionDirective major minor =>
          if versionSeen || major != 1 || (minor != 1 && minor != 2) then
            throw .malformedDirective
          advance
          directives true declared fuel
      | .tagDirective handle expansion =>
          if (declared.lookup handle).isSome then throw .malformedDirective
          advance
          directives versionSeen (declared ++ [(handle, expansion)]) fuel
      | _ => return declared

def defaultHandles : List (String × List UInt8) :=
  [("!", [Tag.mark]), ("!!", (Tag.core "").bytes)]

def edgesDocument : Token → Bool
  | .versionDirective _ _ | .tagDirective _ _ | .documentStart | .documentEnd | .streamEnd => true
  | _ => false

/-- Reads the root of the document; none when the text holds nothing. -/
def readRoot (fuel : Nat) : Reading (Option Node) := do
  match ← peek with
  | .streamEnd => return none
  | .versionDirective _ _ | .tagDirective _ _ | .documentStart =>
      let declared ← directives false [] fuel
      modify fun state => { state with handles := declared ++ defaultHandles }
      if (← peek) == .documentStart then advance else throw .unexpectedToken
      if edgesDocument (← peek) then return some (← missing)
      else return some (← read true false fuel)
  | _ => return some (← read true false fuel)

end Node

def Document.ofText (text : String) : Except Problem Document := do
  let tokens ← Token.ofText text.toList
  let fuel := 3 * tokens.length + 10
  let (root, state) ← (Node.readRoot fuel).run ⟨tokens, Node.defaultHandles, [], 0, [], 0⟩
  if (state.tokens.dropWhile (· == .documentEnd)) == [.streamEnd] then
    return ⟨root, state.targets, max state.size 1⟩
  else throw .severalDocuments

end PromptLoom.Yaml
