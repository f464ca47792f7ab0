/-
LogRedaction.Yaml.Content — the value of a document.

The value of a scalar follows from its tag and its text. A mapping may take over the entries of
others: they come before its own, so that its own entries count where both have a key.

A document whose form is right may still have no value. Faults are looked for level by level:
all scalars of a collection are looked at before the collections in it. The first fault found
is the fault of the document; only a document without one has a value.

## §1 Numbers
## §2 Scalars
## §3 Entries of mappings
## §4 Faults
## §5 Values
-/
import LogRedaction.Decimal.Reading
import LogRedaction.Unicode.Case
import LogRedaction.Value
import LogRedaction.Yaml.Binary
import LogRedaction.Yaml.Document
import LogRedaction.Yaml.Timestamp
import LogRedaction.Yaml.Tokens

namespace LogRedaction.Yaml

/-! ## §1 Numbers -/

/-- The pieces between colons. -/
def splitColons : List CodePoint → List (List CodePoint)
  | [] => [[]]
  | c :: rest =>
    if c = ':' then [] :: splitColons rest
    else match splitColons rest with
      | [] => [[c]]
      | piece :: more => (c :: piece) :: more

/-- A text without underscores. -/
def withoutUnderscores (text : List CodePoint) : List CodePoint := text.filter (· != '_')

/-- Whether a minus sign is in front, and the rest without a sign. -/
def splitSign : List CodePoint → Bool × List CodePoint
  | .scalar '-' :: rest => (true, rest)
  | .scalar '+' :: rest => (false, rest)
  | rest => (false, rest)

/-- A whole number in a base. -/
def readInteger (base : Nat) (text : List CodePoint) : Except Fault Int :=
  match Text.readInteger base (Text.ofList text) with
  | .ok n => .ok n
  | .error .noNumeral => .error (.notInteger (Text.ofList text) base)
  | .error (.tooLong digits) => .error (.integerTooLong digits)

/-- A whole number without sign; parts between colons count in base sixty. -/
def readMagnitude (text : List CodePoint) : Except Fault Int := do
  if text = [.scalar '0'] then return 0
  if ("0b" : Text).toList.isPrefixOf text then return ← readInteger 2 (text.drop 2)
  if ("0x" : Text).toList.isPrefixOf text then return ← readInteger 16 (text.drop 2)
  match text with
  | [] => throw .emptyNumber
  | .scalar '0' :: _ => readInteger 8 text
  | _ =>
    if text.contains ':' then
      let parts ← (splitColons text).mapM (readInteger 10)
      return parts.foldl (fun n part => 60 * n + part) 0
    else readInteger 10 text

/-- The whole number of a scalar. -/
def intOf (text : Text) : Except Fault Int := do
  let text := withoutUnderscores text.toList
  if text = [] then throw .emptyNumber
  let (negative, rest) := splitSign text
  let n ← readMagnitude rest
  return if negative then -n else n

/-- A number with a fraction. -/
def readFloat (text : List CodePoint) : Except Fault Float :=
  match Decimal.float? (Text.ofList text) with
  | some x => .ok x
  | none => .error (.notFloat (Text.ofList text))

/-- So many parts in base sixty exceed the range of numbers with a fraction. -/
def maxSixtieths : Nat := 174

/-- The sum of parts in base sixty, the last part first. -/
def sumSixtieths : (place : Nat) → (sum : Float) → List Float → Float
  | _, sum, [] => sum
  | place, sum, part :: rest =>
    sumSixtieths (60 * place) (sum + part * Float.ofNat place) rest

/-- The number with a fraction of a scalar. -/
def floatOf (text : Text) : Except Fault Float := do
  let text := (withoutUnderscores text.toList).map fun c => CodePoint.ofNat (Unicode.lower c.toNat)
  if text = [] then throw .emptyNumber
  let (negative, rest) := splitSign text
  let x ←
    if rest = (".inf" : Text).toList then pure (1 / 0)
    else if rest = (".nan" : Text).toList then pure (0 / 0)
    else if rest.contains ':' then do
      let parts ← (splitColons rest).mapM readFloat
      if parts.length > maxSixtieths then throw .numberTooLarge
      pure (sumSixtieths 1 0 parts.reverse)
    else readFloat rest
  return if negative then -x else x

/-! ## §2 Scalars -/

/-- The words for truth values. -/
def boolWords : List (Text × Bool) :=
  [("yes", true), ("no", false), ("true", true), ("false", false), ("on", true), ("off", false)]

/-- The truth value of a word in any case. -/
def boolOf (text : Text) : Except Fault Bool :=
  let word := Text.ofList (text.toList.map fun c => CodePoint.ofNat (Unicode.lower c.toNat))
  match boolWords.lookup word with
  | some b => .ok b
  | none => .error (.notBool word)

/-- A time in its ranges. -/
def checkTime (text : Text) : Except Fault Unit :=
  match (Text.characters text.toList).toOption.bind Timestamp.ofText? with
  | none => .error .notTime
  | some time =>
    match time.fault? with
    | some fault => .error fault
    | none => .ok ⟨⟩

/-- The value of a scalar. -/
def scalarValue (tag : Tag) (text : Text) : Except Fault Value :=
  match tag with
  | .null => .ok .null
  | .bool => (boolOf text).map .bool
  | .int => (intOf text).map .int
  | .float => (floatOf text).map .float
  | .timestamp => (checkTime text).map fun _ => .moment
  | .binary =>
    match (Text.characters text.toList).toOption.bind binarySize? with
    | some size => .ok (.binary size)
    | none => .error .malformed
  | .str => .ok (.text text)
  | _ => .error .malformed

namespace Document

variable (document : Document)

/-- The text of a scalar. A mapping can stand for the scalar at its value key. -/
def text? : (fuel : Nat) → Node → Option Text
  | 0, _ => none
  | fuel + 1, node =>
    match document.target node with
    | .scalar _ text => some text
    | .mapping _ entries =>
      match entries.find? fun (key, _) => document.tagOf key = some .value with
      | some (_, node) => text? fuel node
      | none => none
    | _ => none

/-- The value of a node whose tag is that of a scalar. -/
def scalarOf (tag : Tag) (node : Node) : Except Fault Value :=
  match document.text? document.depth node, tag, document.target node with
  | none, _, _ => .error .malformed
  | some _, .timestamp, .mapping _ _ => .error .timeOfMapping
  | some text, _, _ => scalarValue tag text

/-! ## §3 Entries of mappings -/

/-- Sorts entries into what is merged, and what is the mapping's own. A value key is then a text. -/
def splitMerges : List (Node × Node) → List Node × List (Node × Node)
  | [] => ([], [])
  | (key, node) :: rest =>
    let (merged, own) := splitMerges rest
    if document.tagOf key = some .merge then (node :: merged, own)
    else if document.tagOf key = some .value then
      (merged, ((document.target key).withTag .str, node) :: own)
    else (merged, (key, node) :: own)

/-- The mappings that a node to be merged consists of; of several the last comes first. -/
def mergeSources (node : Node) : Except Fault (List Node) :=
  match document.target node with
  | .mapping _ _ => .ok [node]
  | .sequence _ items => .ok items.reverse
  | _ => .error .malformed

/-- The entries of a mapping, with those that it merges in front. A mapping that merges itself
takes over nothing; `opened` are the names of those that are being merged. -/
def entriesOf : (fuel : Nat) → (opened : List String) → Node → Except Fault (List (Node × Node))
  | 0, _, _ => .ok []
  | fuel + 1, opened, node => do
    if node.name?.any opened.contains then return []
    match document.target node with
    | .mapping _ entries =>
      let (merged, own) := document.splitMerges entries
      let sources := (← merged.mapM document.mergeSources).flatten
      let more ← sources.mapM (entriesOf fuel (node.name?.toList ++ opened))
      return more.flatten ++ own
    | _ => throw .malformed

/-! ## §4 Faults -/

/-- What has been looked at. -/
structure Survey where
  /-- The names of nodes that need not be looked at again. -/
  seen : List String := []
  /-- The collections that are to be looked at next. -/
  waiting : Array Node := #[]

/-- A step in looking for faults. -/
abbrev Check (α : Type) := StateT Survey (Except Fault) α

/-- Looks at a node. A collection waits for the next level. -/
def visit (node : Node) : Check PUnit := do
  match node.name? with
  | some name =>
    if (← get).seen.contains name then return
    modify fun s => { s with seen := name :: s.seen }
  | none => pure ⟨⟩
  match document.tagOf node with
  | none => throw .malformed
  | some tag =>
    if tag.isCollection then modify fun s => { s with waiting := s.waiting.push node }
    else
      let _ ← (document.scalarOf tag node : Except Fault Value)

/-- Looks at an entry. A collection cannot be a key. -/
def visitEntry (entry : Node × Node) : Check PUnit := do
  document.visit entry.1
  if (document.tagOf entry.1).any Tag.isCollection then throw .malformed
  document.visit entry.2

/-- Looks at a key with its value in a list; both may be collections. -/
def visitPair (item : Node) : Check PUnit := do
  match document.target item with
  | .mapping _ [(key, node)] =>
    document.visit key
    document.visit node
  | _ => throw .malformed

/-- Looks at the parts of a collection. -/
def visitParts (node : Node) : Check PUnit := do
  match document.tagOf node, document.target node with
  | some .seq, .sequence _ items => items.forM document.visit
  | some .omap, .sequence _ items | some .pairs, .sequence _ items =>
    items.forM document.visitPair
  | some .map, .mapping _ _ | some .set, .mapping _ _ =>
    let entries ← (document.entriesOf document.depth [] node : Except Fault _)
    entries.forM document.visitEntry
  | _, _ => throw .malformed

/-- Looks at level after level. -/
def visitLevels : (fuel : Nat) → Check PUnit
  | 0 => return
  | fuel + 1 => do
    let level := (← get).waiting
    if level.isEmpty then return
    modify fun s => { s with waiting := #[] }
    level.toList.forM document.visitParts
    visitLevels fuel

/-- The first fault of the document. -/
def fault? : Option Fault :=
  let check : Check PUnit := do
    document.visit document.root
    document.visitLevels (document.depth + 1)
  match check.run {} with
  | .ok _ => none
  | .error fault => some fault

/-! ## §5 Values -/

/-- The value of a node of a document without faults; `named` holds the values of names. -/
def valueOf (named : List (String × Value)) : (fuel : Nat) → Node → Value
  | 0, _ => .null
  | _, .reference name => (named.lookup name).getD .null
  | fuel + 1, node =>
    let pairOf (item : Node) : Value :=
      match document.target item with
      | .mapping _ ((key, node) :: _) =>
        .pair (valueOf named fuel key) (valueOf named fuel node)
      | _ => .null
    let entries (node : Node) : List (Value × Value) :=
      ((document.entriesOf document.depth [] node).toOption.getD []).map fun (key, node) =>
        (valueOf named fuel key, valueOf named fuel node)
    match node.tag?, node.bare with
    | some .seq, .sequence _ items => .list (items.map (valueOf named fuel))
    | some .omap, .sequence _ items | some .pairs, .sequence _ items => .list (items.map pairOf)
    | some .map, _ => .mapping (entries node)
    | some .set, _ => .set ((entries node).map (·.1))
    | some tag, _ => (document.scalarOf tag node).toOption.getD .null
    | none, _ => .null

/-- The values of the nodes with names. A node that repeats itself is followed to the given depth. -/
def namedValues : (depth : Nat) → List (String × Value)
  | 0 => []
  | depth + 1 =>
    let named := namedValues depth
    document.anchors.map fun (name, node) => (name, document.valueOf named document.depth node)

/-- How far a node that repeats itself is followed. -/
def repetitions : Nat := 8

/-- The value of the document. -/
def value : Value :=
  let named := document.namedValues (document.anchors.length + repetitions)
  document.valueOf named document.depth document.root

end Document

/-- The value of the document in a text; a text without a document is null. `broken` says that bytes
that are no text come after the text. -/
def load (text : List Char) (broken : Bool) : Except Fault Value :=
  let tokens := Tokens.ofText text broken
  match Document.ofTokens? tokens.tokens tokens.fault with
  | .error fault => .error fault
  | .ok none => .ok .null
  | .ok (some document) =>
    match document.fault? with
    | some fault => .error fault
    | none => .ok document.value

end LogRedaction.Yaml
