/-
LogRedaction.Host — what a run finds around it besides its workspace.

Where the home directories of users are, how deeply expressions and documents may be nested
before the stack is used up, what the reader of documents says about a malformed one, and
which texts standard output takes differ from host to host. An instance of `Host` says all
this once. Of the stack only one thing is known: expressions without groups never use it up.
-/
import LogRedaction.Disk.Path
import LogRedaction.Regex.Source
import LogRedaction.Unicode.Name

namespace LogRedaction

/-- What a run finds around it. -/
class Host extends Unicode.CharacterNames where
  /-- The home directory of the user with a name, and of the present user for no name. -/
  home? (user : Text) : Option Path
  /-- The stack is used up by reading the expression. -/
  overflows (pattern : Text) : Bool
  /-- Only groups are nested. -/
  opens_of_overflows {pattern : Text} (h : overflows pattern = true) :
    .plain (.scalar '(') ∈ (Regex.tokens pattern.toList).1
  /-- The stack is used up by reading the document in these bytes. -/
  overflowsOn (document : List UInt8) : Bool
  /-- What is said about the malformed document in these bytes. -/
  complaint (document : List UInt8) : Text
  /-- What is said about a text that standard output cannot take. -/
  outputFault? (text : Text) : Option Text

/-- A host that sets no bounds; only the present user has a home directory. -/
@[reducible] def Host.lenient (home : Path) : Host where
  toCharacterNames := .none
  home? user := if user = "" then some home else none
  overflows _ := false
  opens_of_overflows h := nomatch h
  overflowsOn _ := false
  complaint _ := ""
  outputFault? _ := none

/-- What is said when the stack is used up. -/
def overflowMessage : Text := Regex.Refusal.tooDeep.message ""

end LogRedaction
