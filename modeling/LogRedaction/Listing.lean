/-
LogRedaction.Listing — compiled rules as they are listed for people.

The list is JSON with an indentation of two. Each rule is shown with its expanded detection,
its replacement as it is written down, and the placeholders of both in order, each once. The
list is written piece by piece; a piece that cannot be written is the last.
-/
import LogRedaction.Rule
import LogRedaction.Text.Json

namespace LogRedaction

/-- Sorted by code points, each once. -/
def sortedNames (names : List Text) : List Text :=
  (names.mergeSort fun a b => !b.codes.lex a.codes).eraseDups

/-- The placeholders that a rule mentions. -/
def Rule.placeholders (rule : Rule) : List Text :=
  sortedNames (Template.names rule.detect ++ Template.names rule.replace)

/-- Pieces with something in front of all, between two and after all. -/
def joinPieces (opening : List Text) (separator : Text) (items : List (List Text))
    (closing : List Text) : List Text :=
  opening ++ [separator].intercalate items ++ closing

/-- The pieces of an entry. -/
def entryPieces (name : Text) (value : List Text) : List Text :=
  Text.jsonText name :: ": " :: value

/-- The pieces of the names of placeholders; a name and what stands in front of it are one. -/
def namePieces : List Text → List Text
  | [] => ["[]"]
  | first :: rest =>
    ("[\n      " ++ Text.jsonText first) ::
      rest.foldr (fun name pieces => (",\n      " ++ Text.jsonText name) :: pieces) ["\n    ", "]"]

/-- The pieces of one rule of a list. -/
def rulePieces (rule : Rule) (compiled : CompiledRule) : List Text :=
  joinPieces ["\x7b", "\n    "] ",\n    " [
    entryPieces "key" [Text.jsonText rule.key],
    entryPieces "detect" [Text.jsonText compiled.detect.source],
    entryPieces "replace" [Text.jsonText rule.replace],
    entryPieces "placeholders" (namePieces rule.placeholders)] ["\n  ", "\x7d"]

/-- The pieces of the list of rules with what they are compiled to. -/
def listPieces (rules : List Rule) (compiled : List CompiledRule) : List Text :=
  match List.zipWith rulePieces rules compiled with
  | [] => ["[]", "\n"]
  | items => joinPieces ["[\n  "] ",\n  " items ["\n", "]", "\n"]

end LogRedaction
