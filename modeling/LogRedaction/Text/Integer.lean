/-
LogRedaction.Text.Integer — whole numbers as people write them.

A number may stand between spaces, carry a sign, use the decimal digits of any script and
have single underscores between its digits. In base two, eight and sixteen the letter of the
base may stand in front. Decimal numbers of more than 4300 digits are refused.
-/
import LogRedaction.Text.Blank
import LogRedaction.Unicode.Number

namespace LogRedaction.Text

/-- The longest decimal number that is read, in digits. -/
def maxIntegerDigits : Nat := 4300

/-- Around a number the information separators do not count as spaces. -/
def isPadding (c : CodePoint) : Bool :=
  isBlank c && !(0x1C ≤ c.toNat && c.toNat ≤ 0x1F)

/-- The characters without the padding at both ends. -/
def trimPadding (text : List CodePoint) : List CodePoint :=
  ((text.dropWhile isPadding).reverse.dropWhile isPadding).reverse

/-- The value of a digit: of a decimal digit of any script, or of a letter. -/
def digitValue? (c : CodePoint) : Option Nat :=
  match Unicode.digitValue? c.toNat with
  | some value => some value
  | none =>
    if 'a' ≤ c ∧ c ≤ 'z' then some (c.toNat - 0x57)
    else if 'A' ≤ c ∧ c ≤ 'Z' then some (c.toNat - 0x37)
    else none

/-- The digit of a base. -/
def digitIn? (base : Nat) (c : CodePoint) : Option Nat := (digitValue? c).filter (· < base)

/-- The number that digits stand for. -/
def ofDigits (base : Nat) (digits : List Nat) : Nat := digits.foldl (fun n d => base * n + d) 0

/-- Why a text is no number. -/
inductive IntegerFault where
  | noNumeral
  | tooLong (digits : Nat)
deriving DecidableEq, Repr

/-- Underscores stand between digits, one at a time. -/
def wellSpaced : List CodePoint → Bool
  | [] => false
  | [.scalar '_'] => false
  | .scalar '_' :: .scalar '_' :: _ => false
  | [_] => true
  | _ :: rest => wellSpaced rest

/-- A numeral without sign. -/
def readNatural (base : Nat) (text : List CodePoint) : Except IntegerFault Nat :=
  let inRun (c : CodePoint) : Bool := c == '_' || (digitIn? base c).isSome
  let run := text.takeWhile inRun
  let digits := run.filterMap (digitIn? base)
  if run.head? = some (.scalar '_') ∨ !wellSpaced run then .error .noNumeral
  else if base = 10 ∧ digits.length > maxIntegerDigits then .error (.tooLong digits.length)
  else if text.length ≠ run.length then .error .noNumeral
  else .ok (ofDigits base digits)

/-- The letters that may stand for a base. -/
def baseLetters (base : Nat) : List CodePoint :=
  if base = 2 then ['b', 'B'] else if base = 8 then ['o', 'O']
  else if base = 16 then ['x', 'X'] else []

/-- A numeral without the mark of its base. -/
def dropBaseMark (base : Nat) : List CodePoint → List CodePoint
  | .scalar '0' :: letter :: rest =>
    if (baseLetters base).contains letter then
      if rest.head? = some (.scalar '_') then rest.drop 1 else rest
    else '0' :: letter :: rest
  | text => text

/-- A numeral with an optional sign, between optional spaces. -/
def readInteger (base : Nat) (text : Text) : Except IntegerFault Int :=
  match trimPadding text.toList with
  | .scalar '-' :: rest => (readNatural base (dropBaseMark base rest)).map fun n => -(n : Int)
  | .scalar '+' :: rest => (readNatural base (dropBaseMark base rest)).map Int.ofNat
  | rest => (readNatural base (dropBaseMark base rest)).map Int.ofNat

end LogRedaction.Text
