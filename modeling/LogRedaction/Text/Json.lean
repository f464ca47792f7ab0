/-
LogRedaction.Text.Json — texts as JSON.

Quotes, backslashes and control characters are escaped, and everything else stands as it is.
-/
import LogRedaction.Text.Hexadecimal

namespace LogRedaction.Text

/-- One character inside quotes. -/
def jsonChar (c : CodePoint) : List CodePoint :=
  if c = '\x22' ∨ c = '\\' then ['\\', c]
  else if c = '\n' then ['\\', 'n']
  else if c = '\r' then ['\\', 'r']
  else if c = '\t' then ['\\', 't']
  else if c = '\x08' then ['\\', 'b']
  else if c = '\x0c' then ['\\', 'f']
  else if c.toNat < 0x20 then '\\' :: 'u' :: hexDigits 4 c.toNat
  else [c]

/-- A text. -/
def jsonText (text : Text) : Text :=
  Text.ofList (.scalar '\x22' :: (text.toList.flatMap jsonChar ++ [.scalar '\x22']))

end LogRedaction.Text
