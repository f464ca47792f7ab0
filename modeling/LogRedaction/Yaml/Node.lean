/-
LogRedaction.Yaml.Node — documents as trees of nodes.

A node has a tag, which says what its value is, and a content. A place that repeats a node
given earlier is a node of its own kind, which only holds the name; so a document is a finite
tree even if it repeats a node inside itself.

## §1 Tags
## §2 Tags of scalars without one
## §3 Nodes
-/
import LogRedaction.Regex.Search

namespace LogRedaction.Yaml

/-! ## §1 Tags -/

/-- What the value of a node is. -/
inductive Tag where
  | null
  | bool
  | int
  | float
  | binary
  | timestamp
  | omap
  | pairs
  | set
  | str
  | seq
  | map
  /-- The key of mappings that are merged into this one. -/
  | merge
  /-- The key of the value that stands for a mapping. -/
  | value
  | other (name : String)
deriving DecidableEq, Repr

/-- What the names of the known tags start with. -/
def knownTags : String := "tag:yaml.org,2002:"

/-- The tag of a name after `knownTags`. -/
def Tag.ofShortName? : String → Option Tag
  | "null" => some .null
  | "bool" => some .bool
  | "int" => some .int
  | "float" => some .float
  | "binary" => some .binary
  | "timestamp" => some .timestamp
  | "omap" => some .omap
  | "pairs" => some .pairs
  | "set" => some .set
  | "str" => some .str
  | "seq" => some .seq
  | "map" => some .map
  | "merge" => some .merge
  | "value" => some .value
  | _ => none

/-- The tag of a name. -/
def Tag.ofName (name : String) : Tag :=
  if knownTags.toList.isPrefixOf name.toList then
    (ofShortName? (String.ofList (name.toList.drop knownTags.length))).getD (.other name)
  else .other name

/-- The value has parts, so it cannot be a key. -/
def Tag.isCollection : Tag → Bool
  | seq | map | set | omap | pairs => true
  | _ => false

/-! ## §2 Tags of scalars without one -/

/-- A form of plain scalars, with the characters that it starts with. -/
structure ScalarForm where
  tag : Tag
  starts : List CodePoint
  regex : Option Regex

/-- A form that an expression describes. -/
def ScalarForm.of (tag : Tag) (starts pattern : Text) : ScalarForm :=
  ⟨tag, starts.toList, (@Regex.parse .none ("(?x)^(?:" ++ pattern ++ ")$")).toOption⟩

/-- The forms. No text has two of them. -/
def scalarForms : List ScalarForm := [
  .of .bool "yYnNtTfFoO"
    "yes|Yes|YES|no|No|NO|true|True|TRUE|false|False|FALSE|on|On|ON|off|Off|OFF",
  .of .float "-+0123456789."
    "[-+]?(?:[0-9][0-9_]*)\\.[0-9_]*(?:[eE][-+][0-9]+)?
    |\\.[0-9][0-9_]*(?:[eE][-+][0-9]+)?
    |[-+]?[0-9][0-9_]*(?::[0-5]?[0-9])+\\.[0-9_]*
    |[-+]?\\.(?:inf|Inf|INF)
    |\\.(?:nan|NaN|NAN)",
  .of .int "-+0123456789"
    "[-+]?0b[0-1_]+
    |[-+]?0[0-7_]+
    |[-+]?(?:0|[1-9][0-9_]*)
    |[-+]?0x[0-9a-fA-F_]+
    |[-+]?[1-9][0-9_]*(?::[0-5]?[0-9])+",
  .of .merge "<" "<<",
  .of .null "~nN" "~|null|Null|NULL",
  .of .timestamp "0123456789"
    "[0-9][0-9][0-9][0-9]-[0-9][0-9]-[0-9][0-9]
    |[0-9][0-9][0-9][0-9]-[0-9][0-9]?-[0-9][0-9]?
     (?:[Tt]|[ \\t]+)[0-9][0-9]?
     :[0-9][0-9]:[0-9][0-9](?:\\.[0-9]*)?
     (?:[ \\t]*(?:Z|[-+][0-9][0-9]?(?::[0-9][0-9])?))?",
  .of .value "=" "=",
  .of (.other (knownTags ++ "yaml")) "!&*" "!|&|\\*"]

/-- The text is of the form. -/
def ScalarForm.admits (form : ScalarForm) (text : List CodePoint) : Bool :=
  (text.head?.any form.starts.contains) && form.regex.any fun regex => regex.occursIn text

/-- The tag of a plain scalar: that of its form, or a text. Nothing at all is null. -/
def Tag.ofPlain (text : Text) : Tag :=
  if text = "" then .null
  else ((scalarForms.find? fun form => form.admits text.toList).map (·.tag)).getD .str

/-! ## §3 Nodes -/

/-- A part of a document. -/
inductive Node where
  | scalar (tag : Tag) (text : Text)
  | sequence (tag : Tag) (items : List Node)
  | mapping (tag : Tag) (entries : List (Node × Node))
  /-- A node with a name. -/
  | anchored (name : String) (node : Node)
  /-- The node with this name once more. -/
  | reference (name : String)

/-- A document. -/
structure Document where
  root : Node
  /-- The nodes that have names. -/
  anchors : List (String × Node)
  /-- No node is nested deeper. -/
  depth : Nat

namespace Node

/-- The name that the node has or repeats. -/
def name? : Node → Option String
  | anchored name _ => some name
  | reference name => some name
  | _ => none

/-- The tag of the node itself. -/
def tag? : Node → Option Tag
  | scalar tag _ => some tag
  | sequence tag _ => some tag
  | mapping tag _ => some tag
  | anchored _ node => node.tag?
  | reference _ => none

/-- The node with another tag and without a name. -/
def withTag (tag : Tag) : Node → Node
  | scalar _ text => scalar tag text
  | sequence _ items => sequence tag items
  | mapping _ entries => mapping tag entries
  | anchored _ node => node.withTag tag
  | reference name => reference name

/-- The node without its name. -/
def bare : Node → Node
  | anchored _ node => node.bare
  | node => node

end Node

namespace Document

/-- The node that is meant: the one of that name if it is repeated, and without its name. -/
def target (document : Document) (node : Node) : Node :=
  match node.bare with
  | .reference name => ((document.anchors.lookup name).map Node.bare).getD node.bare
  | bare => bare

/-- The tag of the node that is meant. -/
def tagOf (document : Document) (node : Node) : Option Tag := (document.target node).tag?

end Document

end LogRedaction.Yaml
