/-
LogRedaction.Decimal.Reading — binary fractions from decimal text.

The value is the binary fraction nearest to the number that is written. A number that is far
out of range is infinite or zero without being computed.
-/
import LogRedaction.Text.Integer

namespace LogRedaction.Decimal

/-- The binary fraction nearest to `mantissa` times a power of ten. -/
def nearest (mantissa : Nat) (exponent : Int) : Float :=
  let magnitude : Int := (toString mantissa).length + exponent
  if mantissa = 0 ∨ magnitude < -400 then 0
  else if magnitude > 400 then 1 / 0
  else Float.ofScientific mantissa (exponent < 0) exponent.natAbs

/-- The digits at the start of a text, and the rest. -/
def splitDigits (text : List CodePoint) : List Nat × List CodePoint :=
  let isDigit (c : CodePoint) : Bool := (Unicode.digitValue? c.toNat).isSome
  ((text.takeWhile isDigit).filterMap fun c => Unicode.digitValue? c.toNat, text.dropWhile isDigit)

/-- An exponent, which may be missing. -/
def exponent? : List CodePoint → Option Int
  | [] => some 0
  | e :: rest =>
    if e != 'e' && e != 'E' then none
    else
      let negative := rest.head? == some (.scalar '-')
      let (digits, after) := splitDigits <|
        if negative || rest.head? == some (.scalar '+') then rest.drop 1 else rest
      if digits.isEmpty || !after.isEmpty then none
      else
        let n : Int := Text.ofDigits 10 digits
        some (if negative then -n else n)

/-- A letter of ASCII in lower case. -/
def lowered : CodePoint → CodePoint
  | .scalar c => c.toLower
  | .surrogate n => .surrogate n

/-- A number without sign. -/
def unsigned? (text : List CodePoint) : Option Float := do
  let lower := text.map lowered
  if lower = ("inf" : Text).toList ∨ lower = ("infinity" : Text).toList then return 1 / 0
  if lower = ("nan" : Text).toList then return 0 / 0
  let (whole, rest) := splitDigits text
  let (fraction, rest) :=
    if rest.head? == some (.scalar '.') then splitDigits (rest.drop 1) else ([], rest)
  guard (!(whole.isEmpty && fraction.isEmpty))
  let exponent ← exponent? rest
  return nearest (Text.ofDigits 10 (whole ++ fraction)) (exponent - fraction.length)

/-- A number with an optional sign, between optional spaces. -/
def float? (text : Text) : Option Float :=
  match Text.trimPadding text.toList with
  | .scalar '-' :: rest => (unsigned? rest).map fun x => -x
  | .scalar '+' :: rest => unsigned? rest
  | rest => unsigned? rest

end LogRedaction.Decimal
