/-
LogRedaction.Unicode.Name — characters by their names.

Expressions can name a character by its name in the Unicode Character Database. The database
is not part of this library; it is what gives an instance of `CharacterNames`.
-/

namespace LogRedaction.Unicode

/-- The names of characters. -/
class CharacterNames where
  /-- The code point with a name. -/
  named? (name : List Char) : Option Nat
  /-- Names are names of code points. -/
  named?_le {name : List Char} {code : Nat} (h : named? name = some code) : code ≤ 0x10FFFF

/-- No character has a name. -/
@[reducible] def CharacterNames.none : CharacterNames where
  named? _ := .none
  named?_le h := nomatch h

end LogRedaction.Unicode
