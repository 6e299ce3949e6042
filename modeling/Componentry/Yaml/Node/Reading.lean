/-
The document that tokens write.

A node is read by what its first token announces; entries are read until the token that ends their collection. An
`unreadable` token is a fault as soon as it is looked at.
-/
import Componentry.Yaml.Node
import Componentry.Yaml.Timestamp
import Componentry.Yaml.Token.Stream

namespace Componentry.Yaml

/-- the state of reading: the tokens left, what the tag handles stand for, the anchors with the numbers of their
nodes, the nodes so far, and the lists of entries -/
structure Reader where
  tokens : List Token
  handles : List (Text × Text)
  anchors : List (Text × Nat)
  nodes : Array Node
  lists : Array (List (Nat × Nat))

/-- reading from tokens -/
abbrev Read := StateT Reader (Except Fault)

namespace Read

/-- the next token, if there is one -/
def peek : Read (Option Token) := do
  match (← get).tokens with
  | .unreadable f :: _ => throw f
  | token :: _ => pure (some token)
  | [] => pure none

/-- one token further -/
def skip : Read Unit := modify fun r => { r with tokens := r.tokens.drop 1 }

/-- whether the next token is one of some -/
def sees (tokens : List Token) : Read Bool := do
  match ← peek with
  | some token => pure (tokens.contains token)
  | none => pure false

/-- one token further, if it is the one given -/
def accept (token : Token) : Read Bool := do
  if ← sees [token] then
    skip
    pure true
  else pure false

/-- one token further; it must be the one given -/
def expect (token : Token) : Read Unit := do
  unless ← accept token do throw .malformed

/-! ## What stands before a node -/

/-- an anchor, if there is one -/
def anchor? : Read (Option Text) := do
  match ← peek with
  | some (.anchor name) =>
    skip
    pure (some name)
  | _ => pure none

/-- a tag, if there is one -/
def tag? : Read (Option (Option Text × Text)) := do
  match ← peek with
  | some (.tag handle suffix) =>
    skip
    pure (some (handle, suffix))
  | _ => pure none

/-- an anchor and a tag, in either order -/
def properties : Read (Option Text × Option (Option Text × Text)) := do
  match ← anchor? with
  | some name => pure (some name, ← tag?)
  | none =>
    match ← tag? with
    | some tag => pure (← anchor?, some tag)
    | none => pure (none, none)

/-- a tag with what its handle stands for in its place -/
def spelled (tag : Option Text × Text) : Read Text := do
  match tag.1 with
  | none => pure tag.2
  | some handle =>
    match (← get).handles.lookup handle with
    | some stem => pure (stem ++ tag.2)
    | none => throw .malformed

/-- the number of a new node, which is filled in later -/
def reserve : Read Nat := do
  let r ← get
  set { r with nodes := r.nodes.push (.scalar .null []) }
  pure r.nodes.size

/-- a node filled in under its number -/
def place (number : Nat) (node : Node) : Read Nat := do
  modify fun r => { r with nodes := r.nodes.setIfInBounds number node }
  pure number

/-- the number of a new node -/
def add (node : Node) : Read Nat := do place (← reserve) node

/-- a mapping of some entries -/
def mapping (tag : Tag) (entries : List (Nat × Nat)) : Read Node := do
  let r ← get
  set { r with lists := r.lists.push entries }
  pure (.mapping tag r.lists.size)

/-- a node is given the name of an anchor; a name can be given only once -/
def declare (number : Nat) (name : Text) : Read Unit := do
  let r ← get
  if (r.anchors.lookup name).isSome then throw .malformed
  set { r with anchors := (name, number) :: r.anchors }

/-- the node of an alias -/
def refer (name : Text) : Read Nat := do
  match (← get).anchors.lookup name with
  | some n => pure n
  | none => throw .malformed

/-- whether a tag leaves the kind of a node to its form -/
def isOpen (tag : Option Text) : Bool := tag.all (· = ['!'])

/-- the kind of a collection -/
def collectionTag (tag : Option Text) (usual : Tag) : Tag :=
  if isOpen tag then usual else Tag.ofText (tag.getD [])

/-- the kind of a scalar: its tag, or what its spelling shows if it is plain or the tag is `!` -/
def scalarTag (tag : Option Text) (plain : Bool) (text : Text) : Tag :=
  match tag with
  | some t => if t = ['!'] then Tag.ofPlain Timestamp.isSpelling text else Tag.ofText t
  | none => if plain then Tag.ofPlain Timestamp.isSpelling text else .text

/-- a node that is not written -/
def absent : Read Nat := add (.scalar .null [])

/-- a node of which only an anchor or a tag is written; there must be one of them -/
def unwritten (isBare : Bool) (tag : Option Text) : Read Node :=
  if isBare then throw .malformed else pure (Node.scalar (scalarTag tag true []) [])

/-! ## Nodes -/

mutual

/-- a node; `block` allows blocks, and `flush` a sequence whose entries are not indented -/
def node (block flush : Bool) : Nat → Read Nat
  | 0 => throw .malformed
  | fuel + 1 => do
    match ← peek with
    | some (.alias name) =>
      skip
      refer name
    | _ =>
      let (anchor, tag) ← properties
      let tag ← tag.mapM spelled
      let first ← peek
      let number ← reserve
      if let some name := anchor then declare number name
      let isBare := anchor.isNone && tag.isNone
      let content ← match first with
        | some (.scalar text plain) => do
          skip
          pure (Node.scalar (scalarTag tag plain text) text)
        | some .flowSequence => do
          skip
          Node.sequence (collectionTag tag .sequence) <$> flowItems true fuel
        | some .flowMapping => do
          skip
          mapping (collectionTag tag .mapping) (← flowEntries true fuel)
        | some .entry =>
          if flush then Node.sequence (collectionTag tag .sequence) <$> flushItems fuel
          else unwritten isBare tag
        | some .blockSequence =>
          if block then do
            skip
            Node.sequence (collectionTag tag .sequence) <$> blockItems fuel
          else unwritten isBare tag
        | some .blockMapping =>
          if block then do
            skip
            mapping (collectionTag tag .mapping) (← blockEntries fuel)
          else unwritten isBare tag
        | _ => unwritten isBare tag
      place number content

/-- the items of a sequence in a block of its own -/
def blockItems : Nat → Read (List Nat)
  | 0 => throw .malformed
  | fuel + 1 => do
    if ← accept .entry then
      let item ← if ← sees [.entry, .blockEnd] then absent else node true false fuel
      pure (item :: (← blockItems fuel))
    else
      expect .blockEnd
      pure []

/-- the items of a sequence that is not indented further than the mapping around it -/
def flushItems : Nat → Read (List Nat)
  | 0 => throw .malformed
  | fuel + 1 => do
    if ← accept .entry then
      let item ← if ← sees [.entry, .key, .value, .blockEnd] then absent else node true false fuel
      pure (item :: (← flushItems fuel))
    else pure []

/-- the entries of a mapping in a block -/
def blockEntries : Nat → Read (List (Nat × Nat))
  | 0 => throw .malformed
  | fuel + 1 => do
    if ← accept .key then
      let ends := [Token.key, .value, .blockEnd]
      let key ← if ← sees ends then absent else node true true fuel
      let value ← if ← accept .value then (if ← sees ends then absent else node true true fuel) else absent
      pure ((key, value) :: (← blockEntries fuel))
    else
      expect .blockEnd
      pure []

/-- a key and its value in brackets that end with the given token -/
def flowPair (stop : Token) : Nat → Read (Nat × Nat)
  | 0 => throw .malformed
  | fuel + 1 => do
    let key ← if ← sees [.value, .separator, stop] then absent else node false false fuel
    let value ← if ← accept .value then
        (if ← sees [.separator, stop] then absent else node false false fuel)
      else absent
    pure (key, value)

/-- the items of a sequence in brackets; a pair among them is a mapping of its own -/
def flowItems (first : Bool) : Nat → Read (List Nat)
  | 0 => throw .malformed
  | fuel + 1 => do
    if ← accept .flowSequenceEnd then pure []
    else
      unless first do expect .separator
      if ← accept .key then
        let pair ← flowPair .flowSequenceEnd fuel
        let item ← add (← mapping .mapping [pair])
        pure (item :: (← flowItems false fuel))
      else if ← accept .flowSequenceEnd then pure []
      else
        let item ← node false false fuel
        pure (item :: (← flowItems false fuel))

/-- the entries of a mapping in braces; a key may stand alone -/
def flowEntries (first : Bool) : Nat → Read (List (Nat × Nat))
  | 0 => throw .malformed
  | fuel + 1 => do
    if ← accept .flowMappingEnd then pure []
    else
      unless first do expect .separator
      if ← accept .key then
        let pair ← flowPair .flowMappingEnd fuel
        pure (pair :: (← flowEntries false fuel))
      else if ← accept .flowMappingEnd then pure []
      else
        let key ← node false false fuel
        let value ← absent
        pure ((key, value) :: (← flowEntries false fuel))

end

/-! ## Documents -/

/-- the tag handles that need no directive -/
def usualHandles : List (Text × Text) := [(['!'], ['!']), (['!', '!'], Tag.stem)]

/-- the directives in front of a document; `versioned` tells whether one gave the version -/
def directives (versioned : Bool) : Nat → Read Unit
  | 0 => throw .malformed
  | fuel + 1 => do
    match ← peek with
    | some (.version major) =>
      skip
      if versioned || major ≠ 1 then throw .malformed
      directives true fuel
    | some (.handle name stem) =>
      skip
      let r ← get
      if (r.handles.lookup name).isSome then throw .malformed
      set { r with handles := (name, stem) :: r.handles }
      directives versioned fuel
    | some .reserved =>
      skip
      directives versioned fuel
    | _ => modify fun r => { r with handles := r.handles ++ usualHandles }

/-- the node of a document after the line that starts it -/
def content (fuel : Nat) : Read Nat := do
  match ← peek with
  | none | some .documentStart | some .documentEnd | some .reserved | some (.version _) | some (.handle ..) =>
    absent
  | _ => node true false fuel

/-- the directives and the line that start a document -/
def heading (fuel : Nat) : Read Unit := do
  modify fun r => { r with handles := [] }
  directives false fuel
  expect .documentStart

/-- any number of lines that end a document -/
def endings : Nat → Read Unit
  | 0 => pure ()
  | fuel + 1 => do
    if ← accept .documentEnd then endings fuel

/-- the document that the tokens write, if they write any; there may be only one -/
def document (fuel : Nat) : Read (Option Nat) := do
  match ← peek with
  | none => pure none
  | first =>
    let root ← match first with
      | some .documentStart | some .reserved | some (.version _) | some (.handle ..) => do
        heading fuel
        content fuel
      | _ => do
        modify fun r => { r with handles := usualHandles }
        node true false fuel
    endings fuel
    match ← peek with
    | none => pure (some root)
    | _ =>
      heading fuel
      throw .malformed

end Read

/-- the document that a text writes, if it writes any; the text may stop for some reason -/
def Document.ofText (t : Text) (stop : Option Fault) : Except Fault (Option Document) :=
  let tokens := Token.ofText t stop
  match (Read.document (3 * tokens.length + 3)).run ⟨tokens, [], [], #[], #[]⟩ with
  | .error f => .error f
  | .ok (none, _) => .ok none
  | .ok (some root, r) => .ok (some ⟨root, r.nodes, r.lists⟩)

end Componentry.Yaml
