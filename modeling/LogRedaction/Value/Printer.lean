/-
LogRedaction.Value.Printer — values as they are shown in messages.

Texts are quoted, lists stand in brackets and mappings in braces. A number with a fraction has
the fewest digits that read back; below 10^-4 and from 10^16 on it has an exponent of at
least two digits, and otherwise it has a point with a digit on either side.
-/
import LogRedaction.Decimal.Shortest
import LogRedaction.Text.Quoted
import LogRedaction.Value

namespace LogRedaction.Value

/-- How numbers with a fraction are written. -/
structure FloatFormat where
  /-- The least power of ten above the number for which no exponent is written. -/
  leastPoint : Int
  /-- The greatest one. -/
  mostPoint : Int
  /-- The least number of digits of an exponent. -/
  exponentDigits : Nat

/-- Positional from 10^-4 and below 10^16. -/
def messageFormat : FloatFormat := ⟨-3, 16, 2⟩

/-- Digits as text. -/
def digitText (digits : List Nat) : Text :=
  Text.ofList (digits.map fun d => CodePoint.ofNat (0x30 + d))

/-- So many zeros. -/
def zeros (n : Nat) : Text := Text.ofList (List.replicate n '0')

/-- A positive number from its digits. -/
def FloatFormat.write (format : FloatFormat) (d : Decimal.Digits) : Text :=
  let digits := d.digits
  if format.leastPoint ≤ d.point ∧ d.point ≤ format.mostPoint then
    if d.point ≤ 0 then "0." ++ zeros (-d.point).toNat ++ digitText digits
    else
      let point := d.point.toNat
      if point ≥ digits.length then digitText digits ++ zeros (point - digits.length) ++ ".0"
      else digitText (digits.take point) ++ "." ++ digitText (digits.drop point)
  else
    let exponent := d.point - 1
    let digitsOfExponent := toString exponent.natAbs
    let padding := zeros (format.exponentDigits - digitsOfExponent.length)
    let fraction := digitText (digits.drop 1)
    digitText (digits.take 1) ++ (if fraction.isEmpty then ("" : Text) else "." ++ fraction) ++
      "e" ++ (if exponent < 0 then "-" else "+") ++ padding ++ digitsOfExponent

/-- A number with a fraction. -/
def displayFloat (x : Float) : Text :=
  let bits := x.toBits.toNat
  let sign := if bits ≥ Nat.pow 2 63 then "-" else ""
  let magnitude := bits % Nat.pow 2 63
  if magnitude > 0x7FF * Nat.pow 2 52 then "nan"
  else if magnitude = 0x7FF * Nat.pow 2 52 then sign ++ "inf"
  else if magnitude = 0 then sign ++ "0.0"
  else sign ++ messageFormat.write (Decimal.Binary.ofBits magnitude).shortest

mutual

/-- The value as it is shown in messages. -/
def display : Value → Text
  | null => "None"
  | bool b => if b then "True" else "False"
  | int n => toString n
  | float x => displayFloat x
  | text s => Text.quoted s
  | list items => "[" ++ displayItems items ++ "]"
  | mapping entries => "\x7b" ++ displayEntries entries ++ "\x7d"
  | moment => "moment"
  | binary size => "binary(" ++ toString size ++ ")"
  | set members => "\x7b" ++ displayItems members ++ "\x7d"
  | pair key value => "(" ++ key.display ++ ", " ++ value.display ++ ")"

/-- Values one after the other. -/
def displayItems : List Value → Text
  | [] => ""
  | [item] => item.display
  | item :: rest => item.display ++ ", " ++ displayItems rest

/-- Entries one after the other. -/
def displayEntries : List (Value × Value) → Text
  | [] => ""
  | [(key, value)] => key.display ++ ": " ++ value.display
  | (key, value) :: rest => key.display ++ ": " ++ value.display ++ ", " ++ displayEntries rest

end

end LogRedaction.Value
