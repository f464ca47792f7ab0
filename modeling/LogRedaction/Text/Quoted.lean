/-
LogRedaction.Text.Quoted — texts as they are quoted in messages.

A text is quoted with apostrophes, or with double quotes when it holds an apostrophe and no
double quote. Inside, the quote and the backslash are escaped, and so is every character
that cannot be printed: `\n`, `\r`, `\t`, and by code point as `\xNN`, `\uNNNN` or
`\UNNNNNNNN`, whichever is the shortest that fits.
-/
import LogRedaction.Text.Hexadecimal
import LogRedaction.Unicode.Printable

namespace LogRedaction.Text

/-- One character inside the given quote. -/
def quotedChar (quote c : CodePoint) : List CodePoint :=
  let code := c.toNat
  if c == quote || c == '\\' then ['\\', c]
  else if c == '\n' then ['\\', 'n']
  else if c == '\r' then ['\\', 'r']
  else if c == '\t' then ['\\', 't']
  else if Unicode.isPrintable code then [c]
  else if code < 0x100 then '\\' :: 'x' :: hexDigits 2 code
  else if code < 0x10000 then '\\' :: 'u' :: hexDigits 4 code
  else '\\' :: 'U' :: hexDigits 8 code

/-- Double quotes save escaping when the text holds apostrophes only. -/
def quoteFor (text : List CodePoint) : CodePoint :=
  if text.contains '\x27' && !text.contains '\x22' then '\x22' else '\x27'

/-- The text between quotes, with escapes for what cannot stand there as it is. -/
def quoted (text : Text) : Text :=
  let quote := quoteFor text.toList
  Text.ofList (quote :: text.toList.flatMap (quotedChar quote) ++ [quote])

end LogRedaction.Text
