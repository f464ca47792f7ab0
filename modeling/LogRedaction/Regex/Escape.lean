/-
LogRedaction.Regex.Escape — expressions that match a given text.

Every character with a meaning in some kind of expression gets a backslash, also the white
space that verbose expressions skip.
-/
import LogRedaction.Text.CodePoint

namespace LogRedaction.Regex

/-- The characters that get a backslash. -/
def isSpecial (c : CodePoint) : Bool :=
  ("()[]\x7b\x7d?*+-|^$\\.&~# \t\n\r\x0b\x0c" : Text).toList.contains c

/-- An expression that matches exactly the given text. -/
def escape (text : List CodePoint) : List CodePoint :=
  text.flatMap fun c => if isSpecial c then [.scalar '\\', c] else [c]

end LogRedaction.Regex
