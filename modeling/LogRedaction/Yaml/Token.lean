/-
LogRedaction.Yaml.Token — the tokens of a document, and the state of finding them.

Besides the marks that stand in the text there are tokens for what indentation means: the
start of a block sequence or mapping, and the end of either. A mapping key needs no mark of
its own if a colon follows it on the same line; therefore the places where such a key may
have begun are kept, and its mark is put there when the colon is found.

## §1 Tokens
## §2 Characters
## §3 The state
## §4 Moving
-/
import LogRedaction.Yaml.Fault

namespace LogRedaction.Yaml

/-! ## §1 Tokens -/

/-- A tag: the handle if it has one, and the rest. -/
structure TagName where
  handle : Option String
  suffix : String
deriving DecidableEq, Repr

/-- A token. -/
inductive Token where
  | streamEnd
  | yamlDirective (major : Nat)
  | tagDirective (handle leading : String)
  | otherDirective
  | documentStart
  | documentEnd
  | blockSequenceStart
  | blockMappingStart
  | blockEnd
  | flowSequenceStart
  | flowSequenceEnd
  | flowMappingStart
  | flowMappingEnd
  | blockEntry
  | flowEntry
  | key
  | value
  | reference (name : String)
  | anchor (name : String)
  | tag (name : TagName)
  | scalar (text : Text) (plain : Bool)
deriving DecidableEq, Repr

/-! ## §2 Characters -/

/-- Stands for the end of the text; no document holds it. -/
def endMark : Char := '\x00'

/-- A line break. -/
def isBreak (c : Char) : Bool :=
  c == '\n' || c == '\r' || c == '\u0085' || c == '\u2028' || c == '\u2029'

/-- A line break or the end. -/
def isBreakOrEnd (c : Char) : Bool := c == endMark || isBreak c

/-- A space, a line break or the end. -/
def isSpaceOrEnd (c : Char) : Bool := c == ' ' || isBreakOrEnd c

/-- A space, a tab, a line break or the end. -/
def isBlankOrEnd (c : Char) : Bool := c == '\t' || isSpaceOrEnd c

/-- A digit of ASCII. -/
def isDigit (c : Char) : Bool := '0' ≤ c && c ≤ '9'

/-- A digit of base sixteen. -/
def isHexDigit (c : Char) : Bool := isDigit c || ('a' ≤ c && c ≤ 'f') || ('A' ≤ c && c ≤ 'F')

/-- A character of names of anchors, handles and directives. -/
def isNameChar (c : Char) : Bool :=
  isDigit c || ('a' ≤ c && c ≤ 'z') || ('A' ≤ c && c ≤ 'Z') || c == '-' || c == '_'

/-- A character of tags. -/
def isTagChar (c : Char) : Bool :=
  isNameChar c || ";/?:@&=+$,.!~*\x27()[]%".toList.contains c

/-- A character that documents may hold. -/
def isAllowed (c : Char) : Bool :=
  let code := c.toNat
  code == 0x09 || code == 0x0A || code == 0x0D || (0x20 ≤ code && code ≤ 0x7E) || code == 0x85 ||
    (0xA0 ≤ code && code ≤ 0xD7FF) || (0xE000 ≤ code && code ≤ 0xFFFD) || 0x10000 ≤ code

/-- A number of base sixteen. -/
def hexValue (digits : List Char) : Nat :=
  digits.foldl (fun n c =>
    16 * n + (if isDigit c then c.toNat - 0x30
      else if 'a' ≤ c then c.toNat - 0x57 else c.toNat - 0x37)) 0

/-! ## §3 The state -/

/-- A place where a key without mark may have begun. -/
structure PossibleKey where
  /-- The index among the tokens of the mark to be put there. -/
  token : Nat
  /-- In a block mapping nothing else than a key can stand there. -/
  required : Bool
  index : Nat
  line : Nat
  column : Nat
deriving Repr

/-- The state of finding tokens. -/
structure Scanner where
  rest : List Char
  /-- Why nothing can be read after `rest`, if that is not the end of the text. -/
  ending : Option Fault := none
  index : Nat := 0
  line : Nat := 0
  column : Nat := 0
  /-- How many flow collections are open. -/
  flowLevel : Int := 0
  /-- The indentation of the innermost block collection. -/
  indent : Int := -1
  /-- The indentations around it. -/
  indents : List Int := []
  keyAllowed : Bool := true
  /-- At most one place for each level of flow collections. -/
  possibleKeys : List (Int × PossibleKey) := []
  tokens : Array Token := #[]
deriving Repr

/-- A step in finding tokens. -/
abbrev Scan (α : Type) := StateT Scanner (Except Fault) α

/-- The document is malformed. -/
def malformed {α : Type} : Scan α := throw .malformed

/-! ## §4 Moving -/

namespace Scanner

/-- The character so many places ahead. -/
def peek (s : Scanner) (n : Nat) : Char := (s.rest.drop n).headD endMark

/-- Without the next character. -/
def forward (s : Scanner) : Scanner :=
  match s.rest with
  | [] => s
  | c :: rest =>
    if isBreak c && !(c == '\r' && rest.head? == some '\n') then
      { s with rest, index := s.index + 1, line := s.line + 1, column := 0 }
    else
      { s with
        rest
        index := s.index + 1
        column := if c == '\ufeff' then s.column else s.column + 1 }

/-- Without so many characters. -/
def forwardBy (s : Scanner) : Nat → Scanner
  | 0 => s
  | n + 1 => s.forward.forwardBy n

/-- In a flow collection. -/
def inFlow (s : Scanner) : Bool := s.flowLevel ≠ 0

end Scanner

/-- The next character. -/
def peek : Scan Char := return (← get).peek 0

/-- The character so many places ahead is looked at, so it has to be readable. -/
def demand (n : Nat) : Scan PUnit := do
  let s ← get
  match s.ending with
  | some fault => if s.rest.length ≤ n then throw fault
  | none => return

/-- Steps over so many characters. The one after them is looked at. -/
def forward (n : Nat) : Scan PUnit := do
  modify (·.forwardBy n)
  demand 0

/-- A line that separates documents starts here. -/
def atSeparator : Scan Bool := do
  demand 2
  let s ← get
  if s.rest.take 3 == ['-', '-', '-'] || s.rest.take 3 == ['.', '.', '.'] then
    demand 3
    return isBlankOrEnd (s.peek 3)
  else return false

/-- Takes the characters up to the first outside a class. -/
def takeWhile (inClass : Char → Bool) : Scan (List Char) := do
  let taken := (← get).rest.takeWhile inClass
  forward taken.length
  return taken

/-- Adds a token. -/
def emit (token : Token) : Scan PUnit := modify fun s => { s with tokens := s.tokens.push token }

/-- Steps over a line break; what it means in a scalar, or nothing. -/
def takeBreak : Scan (List Char) := do
  let s ← get
  let c := s.peek 0
  if c == '\r' || c == '\n' || c == '\u0085' then
    forward (if c == '\r' && s.peek 1 == '\n' then 2 else 1)
    return ['\n']
  else if isBreak c then
    forward 1
    return [c]
  else return []

/-- Steps over spaces and a comment, which have to end the line. -/
def finishLine : Scan PUnit := do
  let _ ← takeWhile (· == ' ')
  if (← peek) == '#' then
    let _ ← takeWhile fun c => !isBreakOrEnd c
  if !isBreakOrEnd (← peek) then malformed
  let _ ← takeBreak

end LogRedaction.Yaml
