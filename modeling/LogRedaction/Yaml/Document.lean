/-
LogRedaction.Yaml.Document — the document that tokens make up.

A text holds at most one document. Where the format lets something be left out there is an
empty scalar. Inside a flow sequence a key makes a mapping of one entry.

## §1 Reading tokens
## §2 Properties of nodes
## §3 Nodes
## §4 Directives and documents
-/
import LogRedaction.Yaml.Node
import LogRedaction.Yaml.Token

namespace LogRedaction.Yaml

/-! ## §1 Reading tokens -/

/-- The state of reading a document. -/
structure DocumentState where
  tokens : List Token
  /-- The tags that handles stand for. -/
  handles : List (String × String) := []
  /-- The names that have been given so far. -/
  names : List String := []
  /-- The nodes that have names, as far as they have been read. -/
  anchors : List (String × Node) := []

/-- A step in reading a document. Without a fault it is not known why tokens end; this is the
environment. -/
abbrev ReadNode (α : Type) := ReaderT Fault (StateT DocumentState (Except Fault)) α

/-- The document is malformed. -/
def refuse {α : Type} : ReadNode α := throw .malformed

/-- The next token. -/
def nextToken : ReadNode Token := do
  match (← get).tokens with
  | [] => throw (← read)
  | token :: _ => return token

/-- Steps over a token. -/
def skipToken : ReadNode PUnit := do
  let _ ← nextToken
  modify fun s => { s with tokens := s.tokens.drop 1 }

/-- Whether the next token is among some. -/
def nextIsIn (tokens : List Token) : ReadNode Bool := do return tokens.contains (← nextToken)

/-- Steps over a token, which has to be next. -/
def expectToken (token : Token) : ReadNode PUnit := do
  if (← nextToken) != token then refuse
  skipToken

/-- What stands where something was left out. -/
def emptyNode : Node := .scalar .null ""

/-! ## §2 Properties of nodes -/

/-- What stands before a node. -/
structure Properties where
  anchor : Option String
  tag : Option String

/-- An anchor, if one is next. -/
def readAnchor : ReadNode (Option String) := do
  match ← nextToken with
  | .anchor name =>
    skipToken
    return some name
  | _ => return none

/-- A tag, if one is next. -/
def readTagName : ReadNode (Option TagName) := do
  match ← nextToken with
  | .tag name =>
    skipToken
    return some name
  | _ => return none

/-- The full name of a tag. -/
def fullTag (name : TagName) : ReadNode String := do
  match name.handle with
  | none => return name.suffix
  | some handle =>
    match (← get).handles.lookup handle with
    | some start => return start ++ name.suffix
    | none => refuse

/-- The properties of a node, in either order. -/
def readProperties : ReadNode Properties := do
  let first ← readAnchor
  let tag ← readTagName
  let anchor ← if first.isNone && tag.isSome then readAnchor else pure first
  match tag with
  | none => return ⟨anchor, none⟩
  | some name => return ⟨anchor, some (← fullTag name)⟩

/-- A tag that leaves open what the value is. -/
def isOpen (tag : Option String) : Bool := tag.isNone || tag == some "!"

/-- The tag of a collection. -/
def collectionTag (default : Tag) (tag : Option String) : Tag :=
  match tag with
  | none | some "!" => default
  | some name => Tag.ofName name

/-- The tag of a scalar. -/
def scalarTag (tag : Option String) (text : Text) (plain : Bool) : Tag :=
  match tag with
  | none => if plain then Tag.ofPlain text else .str
  | some "!" => Tag.ofPlain text
  | some name => Tag.ofName name

/-- Gives a name to a node that is about to be read; no two nodes have the same. -/
def declare (anchor : Option String) : ReadNode PUnit := do
  match anchor with
  | none => return
  | some name =>
    if (← get).names.contains name then refuse
    modify fun s => { s with names := name :: s.names }

/-- Keeps a node with its name. -/
def keepAnchor (anchor : Option String) (node : Node) : ReadNode Node := do
  match anchor with
  | none => return node
  | some name =>
    modify fun s => { s with anchors := (name, node) :: s.anchors }
    return .anchored name node

/-! ## §3 Nodes -/

mutual

/-- A node. In a block it may be a block collection; as the value or key of a mapping also a
sequence that is not indented. -/
def readNode (block unindented : Bool) : (fuel : Nat) → ReadNode Node
  | 0 => refuse
  | fuel + 1 => do
    match ← nextToken with
    | .reference name =>
      skipToken
      if !(← get).names.contains name then refuse
      return .reference name
    | _ =>
      let properties ← readProperties
      declare properties.anchor
      keepAnchor properties.anchor (← readContent block unindented properties fuel)

/-- A node without its properties. -/
def readContent (block unindented : Bool) (properties : Properties) : (fuel : Nat) → ReadNode Node
  | 0 => refuse
  | fuel + 1 => do
    let tag := properties.tag
    match ← nextToken with
    | .scalar text plain =>
      skipToken
      return .scalar (scalarTag tag text plain) text
    | .flowSequenceStart =>
      skipToken
      return .sequence (collectionTag .seq tag) (← flowItems true fuel)
    | .flowMappingStart =>
      skipToken
      return .mapping (collectionTag .map tag) (← flowEntries true fuel)
    | token =>
      if unindented && token == .blockEntry then
        return .sequence (collectionTag .seq tag) (← unindentedItems fuel)
      else if block && token == .blockSequenceStart then
        skipToken
        return .sequence (collectionTag .seq tag) (← blockItems fuel)
      else if block && token == .blockMappingStart then
        skipToken
        return .mapping (collectionTag .map tag) (← blockEntries fuel)
      else if properties.anchor.isSome || tag.isSome then
        return .scalar (scalarTag tag "" true) ""
      else refuse

/-- The items of a block sequence with its end. -/
def blockItems : (fuel : Nat) → ReadNode (List Node)
  | 0 => refuse
  | fuel + 1 => do
    if (← nextToken) == .blockEntry then
      skipToken
      let item ← if ← nextIsIn [.blockEntry, .blockEnd] then pure emptyNode
        else readNode true false fuel
      return item :: (← blockItems fuel)
    else
      expectToken .blockEnd
      return []

/-- The items of a block sequence that is not indented. -/
def unindentedItems : (fuel : Nat) → ReadNode (List Node)
  | 0 => refuse
  | fuel + 1 => do
    if (← nextToken) == .blockEntry then
      skipToken
      let item ← if ← nextIsIn [.blockEntry, .key, .value, .blockEnd] then pure emptyNode
        else readNode true false fuel
      return item :: (← unindentedItems fuel)
    else return []

/-- The entries of a block mapping with its end. -/
def blockEntries : (fuel : Nat) → ReadNode (List (Node × Node))
  | 0 => refuse
  | fuel + 1 => do
    if (← nextToken) == .key then
      let key ← blockPart .key fuel
      let value ← blockPart .value fuel
      return (key, value) :: (← blockEntries fuel)
    else
      expectToken .blockEnd
      return []

/-- The key or the value of an entry of a block mapping. -/
def blockPart (mark : Token) : (fuel : Nat) → ReadNode Node
  | 0 => refuse
  | fuel + 1 => do
    if (← nextToken) == mark then
      skipToken
      if ← nextIsIn [.key, .value, .blockEnd] then return emptyNode
      readNode true true fuel
    else return emptyNode

/-- The items of a flow sequence with its end. -/
def flowItems (first : Bool) : (fuel : Nat) → ReadNode (List Node)
  | 0 => refuse
  | fuel + 1 => do
    if (← nextToken) == .flowSequenceEnd then
      skipToken
      return []
    if !first then expectToken .flowEntry
    if (← nextToken) == .flowSequenceEnd then
      skipToken
      return []
    let item ← if (← nextToken) == .key then pairItem fuel else readNode false false fuel
    return item :: (← flowItems false fuel)

/-- An item of a flow sequence that is a key with a value. -/
def pairItem : (fuel : Nat) → ReadNode Node
  | 0 => refuse
  | fuel + 1 => do
    let key ← flowPart .key [.value, .flowEntry, .flowSequenceEnd] fuel
    let value ← flowPart .value [.flowEntry, .flowSequenceEnd] fuel
    return .mapping .map [(key, value)]

/-- The key or the value of an entry in a flow collection; `after` is what may follow if it is left
out. -/
def flowPart (mark : Token) (after : List Token) : (fuel : Nat) → ReadNode Node
  | 0 => refuse
  | fuel + 1 => do
    if (← nextToken) == mark then
      skipToken
      if ← nextIsIn after then return emptyNode
      readNode false false fuel
    else return emptyNode

/-- The entries of a flow mapping with its end. -/
def flowEntries (first : Bool) : (fuel : Nat) → ReadNode (List (Node × Node))
  | 0 => refuse
  | fuel + 1 => do
    if (← nextToken) == .flowMappingEnd then
      skipToken
      return []
    if !first then expectToken .flowEntry
    if (← nextToken) == .flowMappingEnd then
      skipToken
      return []
    let entry ← (do
      if (← nextToken) == .key then
        let key ← flowPart .key [.value, .flowEntry, .flowMappingEnd] fuel
        let value ← flowPart .value [.flowEntry, .flowMappingEnd] fuel
        return (key, value)
      else return (← readNode false false fuel, emptyNode))
    return entry :: (← flowEntries false fuel)

end

/-! ## §4 Directives and documents -/

/-- The handles that need no directive. -/
def standardHandles : List (String × String) := [("!", "!"), ("!!", knownTags)]

/-- Steps over the directives before a document. `versioned` says that its version was given. -/
def readDirectives (versioned : Bool) : (fuel : Nat) → ReadNode PUnit
  | 0 => return
  | fuel + 1 => do
    match ← nextToken with
    | .yamlDirective major =>
      skipToken
      if versioned || major ≠ 1 then refuse
      readDirectives true fuel
    | .tagDirective handle leading =>
      skipToken
      if ((← get).handles.lookup handle).isSome then refuse
      modify fun s => { s with handles := (handle, leading) :: s.handles }
      readDirectives versioned fuel
    | .otherDirective =>
      skipToken
      readDirectives versioned fuel
    | _ => return

/-- Steps over the ends of documents. -/
def skipDocumentEnds : (fuel : Nat) → ReadNode PUnit
  | 0 => return
  | fuel + 1 => do
    if (← nextToken) == .documentEnd then
      skipToken
      skipDocumentEnds fuel

/-- A token that cannot start a node, because the document is over. -/
def endsDocument : Token → Bool
  | .yamlDirective _ | .tagDirective _ _ | .otherDirective => true
  | .documentStart | .documentEnd | .streamEnd => true
  | _ => false

/-- The root of the document. Before one that is not marked as such there are no directives. -/
def readRoot (fuel : Nat) : ReadNode Node := do
  let token ← nextToken
  if endsDocument token && token != .documentEnd then
    readDirectives false fuel
    expectToken .documentStart
    modify fun s => { s with
      handles := s.handles ++ standardHandles.filter fun (handle, _) =>
        (s.handles.lookup handle).isNone }
    if endsDocument (← nextToken) then return emptyNode
    readNode true false fuel
  else
    modify fun s => { s with handles := standardHandles }
    readNode true false fuel

/-- The only document, if there is one. -/
def readDocument (fuel : Nat) : ReadNode (Option Document) := do
  if (← nextToken) == .streamEnd then return none
  let root ← readRoot fuel
  skipDocumentEnds fuel
  if (← nextToken) != .streamEnd then refuse
  return some ⟨root, (← get).anchors, fuel⟩

/-- The document that tokens make up. `fault` is why there are no more. -/
def Document.ofTokens? (tokens : List Token) (fault : Fault) : Except Fault (Option Document) :=
  match ((readDocument (4 * tokens.length + 8)).run fault).run { tokens } with
  | .ok (document, _) => .ok document
  | .error e => .error e

end LogRedaction.Yaml
