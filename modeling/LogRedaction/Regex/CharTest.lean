/-
LogRedaction.Regex.CharTest — when one character satisfies a literal, a set or a class.

Where case is ignored, a character is compared by its lower case form; with Unicode classes
the relatives of a letter count as that letter too. A set is tested against the lower case
form only if one of its members has case. Members beyond the basic plane are compared with
that form as they are written, ranges also with its upper case form.
-/
import LogRedaction.Regex.Syntax
import LogRedaction.Text.Blank
import LogRedaction.Unicode.Case
import LogRedaction.Unicode.Letter
import LogRedaction.Unicode.Number

namespace LogRedaction.Regex

/-! ## Classes -/

/-- A letter, a digit or an underscore, of ASCII or of Unicode. -/
def isWordCode (unicode : Bool) (code : Nat) : Bool :=
  code == 0x5F || (0x30 ≤ code && code ≤ 0x39) ||
    (0x41 ≤ code && code ≤ 0x5A) || (0x61 ≤ code && code ≤ 0x7A) ||
    (unicode && (Unicode.isLetter code || Unicode.isNumeric code))

/-- White space of ASCII or of Unicode. -/
def isSpaceCode (unicode : Bool) (code : Nat) : Bool :=
  code == 0x20 || (0x09 ≤ code && code ≤ 0x0D) || (unicode && Text.isBlankCode code)

/-- A decimal digit of ASCII or of Unicode. -/
def isDigitCode (unicode : Bool) (code : Nat) : Bool :=
  (0x30 ≤ code && code ≤ 0x39) || (unicode && Unicode.isDecimalDigit code)

/-- The code point is in the class. -/
def Category.contains (unicode : Bool) : Category → Nat → Bool
  | digit => isDigitCode unicode
  | space => isSpaceCode unicode
  | word => isWordCode unicode

/-! ## Case -/

/-- How letters of different case are compared. -/
inductive Folding where
  | exact
  | ascii
  | unicode
deriving DecidableEq, Repr

/-- The comparison of letters under flags. -/
def Flags.folding (flags : Flags) : Folding :=
  if !flags.ignoreCase then .exact else if flags.unicode then .unicode else .ascii

/-- The form by which code points are compared. -/
def Folding.fold : Folding → Nat → Nat
  | exact, code => code
  | ascii, code => if 0x41 ≤ code ∧ code ≤ 0x5A then code + 0x20 else code
  | unicode, code => Unicode.lower code

/-- The code point has forms of different case. -/
def Folding.hasCase : Folding → Nat → Bool
  | exact, _ => false
  | ascii, code => (0x41 ≤ code && code ≤ 0x5A) || (0x61 ≤ code && code ≤ 0x7A)
  | unicode, code => Unicode.hasCase code

/-- Some code point of the range has forms of different case. -/
def Folding.anyHasCase : Folding → Nat → Nat → Bool
  | exact, _, _ => false
  | ascii, low, high => (low ≤ 0x5A && 0x41 ≤ high) || (low ≤ 0x7A && 0x61 ≤ high)
  | unicode, low, high => Unicode.anyHasCase low high

/-- The other lower case letters that count as this one. -/
def Folding.relatives : Folding → Nat → List Nat
  | unicode, code => Unicode.relatives code
  | _, _ => []

/-- The code points with this form. -/
def Folding.origins : Folding → Nat → List Nat
  | exact, code => [code]
  | ascii, code =>
    if 0x61 ≤ code ∧ code ≤ 0x7A then [code, code - 0x20]
    else if 0x41 ≤ code ∧ code ≤ 0x5A then [] else [code]
  | unicode, code => Unicode.raised code

/-! ## Literals -/

/-- The character with code `x` satisfies the literal `code`. -/
def Folding.literal (folding : Folding) (code x : Nat) : Bool :=
  if folding.hasCase code then
    let form := folding.fold code
    let y := folding.fold x
    y == form || (folding.relatives form).contains y
  else x == code

/-! ## Sets -/

/-- The last code point of the basic plane. -/
def lastOfBasicPlane : Nat := 0xFFFF

/-- The member calls for the lower case form of characters. -/
def Member.hasCase (folding : Folding) : Member → Bool
  | literal code => folding.hasCase code || (folding != .exact && code > lastOfBasicPlane)
  | range low high => folding.anyHasCase low high || (folding != .exact && high > lastOfBasicPlane)
  | .category _ _ => false

/-- The form `x` of a character satisfies the member. -/
def Member.contains (folding : Folding) (unicode : Bool) (x : Nat) : Member → Bool
  | literal code =>
    let form := folding.fold code
    if folding != .exact && form > lastOfBasicPlane then x == code
    else x == form || (folding.relatives form).contains x
  | range low high =>
    if folding = .exact then low ≤ x && x ≤ high
    else
      let inBasicPlane := (x :: folding.relatives x).any fun form =>
        (folding.origins form).any fun code =>
          low ≤ code && code ≤ high && code ≤ lastOfBasicPlane
      inBasicPlane || (high > lastOfBasicPlane &&
        ((low ≤ x && x ≤ high) || (low ≤ Unicode.upper x && Unicode.upper x ≤ high)))
  | category kind negated => kind.contains unicode x != negated

/-- The character with code `x` satisfies the set. -/
def inSet (folding : Folding) (unicode : Bool) (negated : Bool) (members : List Member) (x : Nat) :
    Bool :=
  let x := if members.any (·.hasCase folding) then folding.fold x else x
  members.any (·.contains folding unicode x) != negated

/-! ## Patterns of one character -/

/-- The test of a pattern that matches exactly one character. -/
def Pattern.test? (flags : Flags) : Pattern → Option (CodePoint → Bool)
  | .literal code => some fun x => flags.folding.literal code x.toNat
  | .notLiteral code => some fun x => !flags.folding.literal code x.toNat
  | .any => some fun x => flags.dotAll || x != '\n'
  | .set negated members => some fun x => inSet flags.folding flags.unicode negated members x.toNat
  | _ => none

end LogRedaction.Regex
