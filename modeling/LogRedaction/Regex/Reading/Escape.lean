/-
LogRedaction.Regex.Reading.Escape — escapes in regular expressions.

Some escapes mean the same everywhere: the control characters, and code points by number or
by name. The others depend on where they stand: `\b` is a backspace inside a character set
and a word boundary outside, and digits after a backslash are an octal number inside a set
but mostly a group outside.
-/
import LogRedaction.Regex.Source
import LogRedaction.Regex.Syntax
import LogRedaction.Text.Utf8
import LogRedaction.Unicode.Name

namespace LogRedaction.Regex

open Unicode (CharacterNames)

variable [CharacterNames]

/-! ## Digits -/

/-- A digit of base eight. -/
def isOctal (c : CodePoint) : Bool := '0' ≤ c && c ≤ '7'

/-- A digit of base ten. -/
def isDecimal (c : CodePoint) : Bool := '0' ≤ c && c ≤ '9'

/-- A digit of base sixteen. -/
def isHex (c : CodePoint) : Bool := isDecimal c || ('a' ≤ c && c ≤ 'f') || ('A' ≤ c && c ≤ 'F')

/-- A letter of ASCII. -/
def isAsciiLetter (c : CodePoint) : Bool := ('a' ≤ c && c ≤ 'z') || ('A' ≤ c && c ≤ 'Z')

/-- The value of a digit of base sixteen or less. -/
def digitOf (c : CodePoint) : Nat :=
  if isDecimal c then c.toNat - '0'.toNat
  else if 'a' ≤ c then c.toNat - 'a'.toNat + 10
  else c.toNat - 'A'.toNat + 10

/-- The number that digits stand for in a base. -/
def numberIn (base : Nat) (digits : List CodePoint) : Nat :=
  digits.foldl (fun n c => base * n + digitOf c) 0

/-! ## Escapes with one meaning -/

/-- The control character of an escape letter, or the backslash itself. -/
def controlCode? : CodePoint → Option Nat
  | .scalar 'a' => some 0x07
  | .scalar 'b' => some 0x08
  | .scalar 'f' => some 0x0C
  | .scalar 'n' => some 0x0A
  | .scalar 'r' => some 0x0D
  | .scalar 't' => some 0x09
  | .scalar 'v' => some 0x0B
  | .scalar '\\' => some 0x5C
  | _ => none

/-- The class of an escape letter, and whether it is the complement. -/
def category? : CodePoint → Option (Category × Bool)
  | .scalar 'd' => some (.digit, false)
  | .scalar 'D' => some (.digit, true)
  | .scalar 's' => some (.space, false)
  | .scalar 'S' => some (.space, true)
  | .scalar 'w' => some (.word, false)
  | .scalar 'W' => some (.word, true)
  | _ => none

/-- How many digits follow the letter of a numeric escape. -/
def hexLength? : CodePoint → Option Nat
  | .scalar 'x' => some 2
  | .scalar 'u' => some 4
  | .scalar 'U' => some 8
  | _ => none

/-- A code point by number: `letter` and so many digits of base sixteen. -/
def readHex (source : Source) (letter : CodePoint) (length : Nat) : Except Refusal (Nat × Source) := do
  let (digits, source) ← source.takeWhile isHex length
  let escape : List CodePoint := '\\' :: letter :: digits
  if digits.length < length then
    source.refuseBack escape.length (.incompleteEscape (Text.ofList escape))
  let code := numberIn 16 digits
  if code > 0x10FFFF then
    source.refuseBack escape.length (.badEscape (Text.ofList escape))
  return (code, source)

/-- A code point by name, in braces. -/
def readNamed (source : Source) : Except Refusal (Nat × Source) := do
  let (opened, source) ← source.accept '\x7b'
  if !opened then source.refuse .missingOpeningBrace
  let (name, source) ← source.takeName '\x7d' "character name"
  match Text.characters name with
  | .error _ => source.refuseBack 2 (.badEscape "\\N")
  | .ok chars =>
    match CharacterNames.named? chars with
    | some code => return (code, source)
    | none => source.refuseBack (name.length + 4) (.undefinedCharacter (Text.ofList name))

/-- A code point by number or by name; nothing if the letter does not start such an escape. -/
def readCode? (source : Source) (letter : CodePoint) : Except Refusal (Option (Nat × Source)) := do
  match hexLength? letter with
  | some length => return some (← readHex source letter length)
  | none => if letter == 'N' then return some (← readNamed source) else return none

/-- The value of up to three octal digits, of which the first has been taken. -/
def octalValue (source : Source) (digits : List CodePoint) : Except Refusal Nat :=
  let code := numberIn 8 digits
  if code > 0xFF then
    source.refuseBack (digits.length + 1) (.octalTooLarge (Text.ofList ('\\' :: digits)))
  else return code

/-- The refusal of an escape of one character. -/
def refuseEscape {α : Type} (source : Source) (c : CodePoint) : Except Refusal α :=
  source.refuseBack 2 (.badEscape (Text.ofList ['\\', c]))

/-! ## Inside a character set -/

/-- The member that the escape of `c` stands for. -/
def readMemberEscape (source : Source) (c : CodePoint) : Except Refusal (Member × Source) := do
  if let some code := controlCode? c then return (.literal code, source)
  if let some (category, negated) := category? c then return (.category category negated, source)
  if let some (code, source) ← readCode? source c then return (.literal code, source)
  if isOctal c then
    let (more, source) ← source.takeWhile isOctal 2
    return (.literal (← octalValue source (c :: more)), source)
  if isDecimal c || isAsciiLetter c then refuseEscape source c
  return (.literal c.toNat, source)

/-! ## Outside -/

/-- The test of a position that an escape letter stands for. -/
def anchor? : CodePoint → Option Anchor
  | .scalar 'A' => some .textStart
  | .scalar 'b' => some .wordBoundary
  | .scalar 'B' => some .notWordBoundary
  | .scalar 'Z' => some .textEnd
  | _ => none

/-- What is known of the groups read so far. -/
structure Groups where
  /-- One entry for each group opened; its width once it is closed. -/
  widths : Array (Option Width) := #[]
  names : List (Text × Nat) := []
  /-- Inside an expression that looks behind: the groups opened before it. -/
  lookbehindLimit : Option Nat := none
  /-- Groups asked for by number in conditions, with the place of the first time. -/
  asked : Array (Nat × Nat) := #[]
deriving Repr

namespace Groups

/-- The width of a group that has been closed. -/
def width? (groups : Groups) (group : Nat) : Option Width :=
  if group = 0 then none else (groups.widths[group - 1]?).join

/-- The group has been opened. -/
def isOpened (groups : Groups) (group : Nat) : Bool := group ≤ groups.widths.size

/-- Inside an expression that looks behind, only a group closed before it may be asked for. -/
def checkLookbehind (groups : Groups) (source : Source) (group : Nat) : Except Refusal PUnit :=
  match groups.lookbehindLimit with
  | none => return
  | some limit => do
    if (groups.width? group).isNone then source.refuse .openGroup
    if group > limit then source.refuse .groupOfSameLookbehind

/-- The text of a closed group once more; `back` is how far behind a fault is located. -/
def readBackref (groups : Groups) (source : Source) (group back : Nat) : Except Refusal Pattern :=
  match groups.width? group with
  | none => source.refuseBack back .openGroup
  | some width => do
    groups.checkLookbehind source group
    return .backref group width

end Groups

/-- Digits after a backslash: three octal ones are a code point, and otherwise one or two digits
are a group. -/
def readNumberEscape (groups : Groups) (source : Source) (c : CodePoint) :
    Except Refusal (Pattern × Source) := do
  if c == '0' then
    let (more, source) ← source.takeWhile isOctal 2
    return (.literal (numberIn 8 (c :: more)), source)
  let (second, source) ← source.takeWhile isDecimal 1
  let digits := c :: second
  if second ≠ [] && digits.all isOctal then
    let (third, source) ← source.takeWhile isOctal 1
    if third ≠ [] then
      return (.literal (← octalValue source (digits ++ third)), source)
  let group := numberIn 10 digits
  if groups.isOpened group then
    return (← groups.readBackref source group (digits.length + 1), source)
  else source.refuseBack digits.length (.noSuchGroup group)

/-- What the escape of `c` stands for. -/
def readEscape (groups : Groups) (source : Source) (c : CodePoint) :
    Except Refusal (Pattern × Source) := do
  if let some test := anchor? c then return (.anchor test, source)
  if let some (category, negated) := category? c then
    return (.set false [.category category negated], source)
  if let some code := controlCode? c then return (.literal code, source)
  if let some (code, source) ← readCode? source c then return (.literal code, source)
  if isDecimal c then return ← readNumberEscape groups source c
  if isAsciiLetter c then refuseEscape source c
  return (.literal c.toNat, source)

end LogRedaction.Regex
