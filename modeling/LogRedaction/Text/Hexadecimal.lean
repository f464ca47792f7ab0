/-
LogRedaction.Text.Hexadecimal — numbers in base sixteen.
-/
import LogRedaction.Text.CodePoint

namespace LogRedaction.Text

/-- A digit of base sixteen, in lower case. -/
def hexDigit (n : Nat) : CodePoint :=
  if n < 10 then Char.ofNat (0x30 + n) else Char.ofNat (0x57 + n)

/-- The last `width` digits of a number in base sixteen. -/
def hexDigits : (width : Nat) → Nat → List CodePoint
  | 0, _ => []
  | width + 1, n => hexDigits width (n / 16) ++ [hexDigit (n % 16)]

end LogRedaction.Text
