/-
LogRedaction.Value — data as it comes from configuration and from callers.

Rules and identities arrive as data of unknown shape. A `Value` is one such datum; the checks
that turn values into rules and identities are elsewhere. The entries of a mapping keep their
order, and where a key is given twice the last entry counts.
-/
import LogRedaction.Text.CodePoint

namespace LogRedaction

/-- A datum of unknown shape. -/
inductive Value where
  | null
  | bool (b : Bool)
  | int (n : Int)
  | float (x : Float)
  | text (s : Text)
  | list (items : List Value)
  | mapping (entries : List (Value × Value))
  /-- A date or a time. -/
  | moment
  /-- Binary data of the given size. -/
  | binary (size : Nat)
  /-- Values without order. -/
  | set (members : List Value)
  /-- A key with its value, where order is kept. -/
  | pair (key value : Value)

namespace Value

/-- The text, if the value is one. -/
def text? : Value → Option Text
  | text s => some s
  | _ => none

/-- The value is this text. -/
def isText (value : Value) (s : Text) : Bool := value.text? == some s

/-- The entry of a text key; the last one counts. -/
def lookup (entries : List (Value × Value)) (key : Text) : Option Value :=
  (entries.reverse.find? fun entry => entry.1.isText key).map (·.2)

/-- Nothing, zero, and what has no parts. -/
def isEmpty : Value → Bool
  | null => true
  | bool b => !b
  | int n => n == 0
  | float x => x == 0
  | text s => s.isEmpty
  | list items => items.isEmpty
  | mapping entries => entries.isEmpty
  | moment => false
  | binary size => size == 0
  | set members => members.isEmpty
  | pair _ _ => false

end Value

end LogRedaction
