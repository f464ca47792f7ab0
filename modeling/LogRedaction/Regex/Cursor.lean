/-
LogRedaction.Regex.Cursor — a position between the characters of a text.

A cursor holds what is before it, nearest first, and what is after it. The text is the
reversed part before it followed by the part after it.
-/
import LogRedaction.Text.CodePoint

namespace LogRedaction.Regex

/-- A position in a text. -/
structure Cursor where
  /-- The characters before the position, nearest first. -/
  before : List CodePoint
  /-- The characters after the position. -/
  after : List CodePoint
  /-- The number of characters before the position. -/
  index : Nat
deriving DecidableEq, Repr

namespace Cursor

/-- The start of a text. -/
def start (text : List CodePoint) : Cursor := ⟨[], text, 0⟩

/-- The next character, and the position after it. -/
def next? (c : Cursor) : Option (CodePoint × Cursor) :=
  match c.after with
  | [] => none
  | x :: rest => some (x, ⟨x :: c.before, rest, c.index + 1⟩)

/-- The position one character earlier. -/
def previous? (c : Cursor) : Option Cursor :=
  match c.before with
  | [] => none
  | x :: rest => some ⟨rest, x :: c.after, c.index - 1⟩

/-- The position so many characters earlier. -/
def back? (c : Cursor) : Nat → Option Cursor
  | 0 => some c
  | n + 1 => c.previous?.bind (·.back? n)

/-- The characters between two positions of a text. -/
def upTo (c stop : Cursor) : List CodePoint := c.after.take (stop.index - c.index)

end Cursor

end LogRedaction.Regex
