/-
LogRedaction.Text.Blank — blank characters and the text without them at its ends.

A blank is a tab, a line break of any kind, one of the four information separators, or a
space of Unicode 14. A zero-width space and a byte order mark are not blank.
-/
import LogRedaction.Text.CodePoint

namespace LogRedaction.Text

/-- The number is that of a blank. -/
def isBlankCode (code : Nat) : Bool :=
  (0x09 ≤ code && code ≤ 0x0D) || (0x1C ≤ code && code ≤ 0x20) || code == 0x85 || code == 0xA0 ||
    code == 0x1680 || (0x2000 ≤ code && code ≤ 0x200A) || code == 0x2028 || code == 0x2029 ||
    code == 0x202F || code == 0x205F || code == 0x3000

/-- The code point is blank. -/
def isBlank (c : CodePoint) : Bool := isBlankCode c.toNat

/-- The code points without the blanks at both ends. -/
def trim (text : List CodePoint) : List CodePoint :=
  ((text.dropWhile isBlank).reverse.dropWhile isBlank).reverse

/-- The text without the blanks at both ends. -/
def strip (text : Text) : Text := Text.ofList (trim text.toList)

/-- The text has no code point that is not blank. -/
def isAllBlank (text : Text) : Bool := text.toList.all isBlank

end LogRedaction.Text
