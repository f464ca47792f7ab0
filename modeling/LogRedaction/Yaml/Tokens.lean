/-
LogRedaction.Yaml.Tokens — the tokens of a text.

The next character decides which token is next; each kind of token has its own step. Before
each step indentation is compared with the block collections that are open, and places where
a key may have begun are given up when the line ends.

Tokens are of use in order: those before a place where a key may have begun do not change any
more. When a step fails these are the ones that stand.

## §1 Possible keys
## §2 Indentation
## §3 Directives
## §4 Anchors and tags
## §5 Steps
## §6 All tokens
-/
import LogRedaction.Text.Utf8
import LogRedaction.Yaml.Scalar

namespace LogRedaction.Yaml

/-! ## §1 Possible keys -/

/-- The longest key without mark, in characters. -/
def maxKeyLength : Nat := 1024

/-- Gives up the places on lines before, and those too far back. One that can only be a key may not
be given up. -/
def dropStaleKeys : Scan PUnit := do
  let s ← get
  let stale (key : PossibleKey) : Bool := key.line != s.line || s.index - key.index > maxKeyLength
  if s.possibleKeys.any fun (_, key) => stale key && key.required then malformed
  set { s with possibleKeys := s.possibleKeys.filter fun (_, key) => !stale key }

/-- Gives up the place in this collection. -/
def dropKey : Scan PUnit := do
  let s ← get
  match s.possibleKeys.lookup s.flowLevel with
  | none => return
  | some key =>
    if key.required then malformed
    set { s with possibleKeys := s.possibleKeys.filter fun (level, _) => level != s.flowLevel }

/-- A key may begin here. -/
def saveKey : Scan PUnit := do
  if (← get).keyAllowed then
    dropKey
    modify fun s =>
      let key : PossibleKey :=
        { token := s.tokens.size
          required := !s.inFlow && s.indent == (s.column : Int)
          index := s.index
          line := s.line
          column := s.column }
      { s with possibleKeys := (s.flowLevel, key) :: s.possibleKeys }

/-- Whether a key may begin after this. -/
def allowKey (allowed : Bool) : Scan PUnit := modify fun s => { s with keyAllowed := allowed }

/-! ## §2 Indentation -/

/-- Ends the block collections that are indented deeper than a column. -/
def unwind (column : Int) : (depth : Nat) → Scan PUnit
  | 0 => return
  | depth + 1 => do
    let s ← get
    if s.indent > column then
      set { s with
        indent := s.indents.headD (-1)
        indents := s.indents.drop 1
        tokens := s.tokens.push .blockEnd }
      unwind column depth

/-- Ends the block collections deeper than a column; in a flow collection indentation does not
count. -/
def unwindTo (column : Int) : Scan PUnit := do
  let s ← get
  if !s.inFlow then unwind column (s.indents.length + 1)

/-- Starts a block collection at a column, if it is deeper than the one around it. Its token goes to
the given place. -/
def indentTo (column : Nat) (place : Nat) (start : Token) : Scan PUnit := do
  let s ← get
  if !s.inFlow && s.indent < (column : Int) then
    set { s with
      indents := s.indent :: s.indents
      indent := column
      tokens := s.tokens.insertIdxIfInBounds place start }

/-- Starts a block collection here. -/
def indentHere (start : Token) : Scan PUnit := do
  let s ← get
  indentTo s.column s.tokens.size start

/-! ## §3 Directives -/

/-- Characters of a name; at least one. -/
def scanName : Scan String := do
  let name ← takeWhile isNameChar
  if name = [] then malformed
  return String.ofList name

/-- The text cannot go on like this unless the next character is of a class. -/
def require (inClass : Char → Bool) : Scan PUnit := do
  if !inClass (← peek) then malformed

/-- Steps over spaces. -/
def skipSpaces : Scan PUnit := do
  let _ ← takeWhile (· == ' ')

/-- A number of a version. -/
def scanVersionNumber : Scan Nat := do
  let digits ← takeWhile isDigit
  if digits = [] then malformed
  return digits.foldl (fun n c => 10 * n + (c.toNat - 0x30)) 0

/-- A handle: an exclamation mark before a space, or a name between two. -/
def scanHandle : Scan String := do
  require (· == '!')
  forward 1
  if (← peek) == ' ' then return "!"
  let name ← takeWhile isNameChar
  require (· == '!')
  forward 1
  return "!" ++ String.ofList name ++ "!"

/-- Bytes written with percent signs. -/
def escapedBytes : (fuel : Nat) → Scan (List UInt8)
  | 0 => return []
  | fuel + 1 => do
    if (← peek) != '%' then return []
    forward 1
    let digits := (← get).rest.take 2
    if !digits.all isHexDigit then malformed
    demand 1
    if digits.length < 2 then malformed
    forward 2
    return (hexValue digits).toUInt8 :: (← escapedBytes fuel)

/-- The characters of a tag. -/
def tagChars : (fuel : Nat) → Scan (List Char)
  | 0 => return []
  | fuel + 1 => do
    let plain ← takeWhile fun c => isTagChar c && c != '%'
    if (← peek) == '%' then
      let bytes ← escapedBytes fuel
      match Text.decodeUtf8? bytes with
      | none => malformed
      | some chars => return plain ++ chars ++ (← tagChars fuel)
    else return plain

/-- The text of a tag; it is written with at least one character. -/
def scanTagText : Scan String := do
  require isTagChar
  return String.ofList (← tagChars ((← get).rest.length + 1))

/-- What follows the name of a directive. -/
def scanDirectiveValue (name : String) : Scan Token := do
  if name = "YAML" then
    skipSpaces
    let major ← scanVersionNumber
    require (· == '.')
    forward 1
    let _ ← scanVersionNumber
    require isSpaceOrEnd
    return .yamlDirective major
  else if name = "TAG" then
    skipSpaces
    let handle ← scanHandle
    require (· == ' ')
    skipSpaces
    let leading ← scanTagText
    require isSpaceOrEnd
    return .tagDirective handle leading
  else
    let _ ← takeWhile fun c => !isBreakOrEnd c
    return .otherDirective

/-- A directive. -/
def scanDirective : Scan Token := do
  forward 1
  let name ← scanName
  require isSpaceOrEnd
  let token ← scanDirectiveValue name
  finishLine
  return token

/-! ## §4 Anchors and tags -/

/-- The name of an anchor or an alias, after its mark. -/
def scanAnchorName : Scan String := do
  forward 1
  let name ← scanName
  require fun c => isBlankOrEnd c || "?:,]\x7d%@\x60".toList.contains c
  return name

/-- The tag after its mark has a handle of its own. -/
def hasHandle : Scan Bool := do
  let word := ((← get).rest.drop 1).takeWhile fun c => !isSpaceOrEnd c
  if word.contains '!' then return true
  demand (1 + word.length)
  return false

/-- A tag. -/
def scanTag : Scan Token := do
  demand 1
  let s ← get
  let next := s.peek 1
  let name : TagName ← (do
    if next == '<' then
      forward 2
      let suffix ← scanTagText
      require (· == '>')
      forward 1
      return ⟨none, suffix⟩
    else if isBlankOrEnd next then
      forward 1
      return ⟨none, "!"⟩
    else if ← hasHandle then
      let handle ← scanHandle
      return ⟨some handle, ← scanTagText⟩
    else
      forward 1
      return ⟨some "!", ← scanTagText⟩)
  require isSpaceOrEnd
  return .tag name

/-! ## §5 Steps -/

/-- Steps over spaces, comments and line breaks. -/
def skipToToken : (fuel : Nat) → Scan PUnit
  | 0 => return
  | fuel + 1 => do
    skipSpaces
    if (← peek) == '#' then
      let _ ← takeWhile fun c => !isBreakOrEnd c
    let line ← takeBreak
    if line ≠ [] then
      if !(← get).inFlow then allowKey true
      skipToToken fuel

/-- Ends what is open in this document. -/
def endBlocks : Scan PUnit := do
  unwindTo (-1)
  dropKey
  allowKey false

/-- The end of the text. -/
def fetchEnd : Scan PUnit := do
  endBlocks
  emit .streamEnd

/-- A line that starts or ends a document. -/
def fetchSeparator (token : Token) : Scan PUnit := do
  endBlocks
  forward 3
  emit token

/-- The start of a flow collection. -/
def fetchFlowStart (token : Token) : Scan PUnit := do
  saveKey
  modify fun s => { s with flowLevel := s.flowLevel + 1 }
  allowKey true
  forward 1
  emit token

/-- The end of a flow collection. -/
def fetchFlowEnd (token : Token) : Scan PUnit := do
  dropKey
  modify fun s => { s with flowLevel := s.flowLevel - 1 }
  allowKey false
  forward 1
  emit token

/-- A comma of a flow collection. -/
def fetchFlowEntry : Scan PUnit := do
  allowKey true
  dropKey
  forward 1
  emit .flowEntry

/-- In a block a mark of a collection has to stand where a key may begin. -/
def requireKeyPlace : Scan PUnit := do
  let s ← get
  if !s.inFlow && !s.keyAllowed then malformed

/-- The dash of an entry. -/
def fetchBlockEntry : Scan PUnit := do
  requireKeyPlace
  indentHere .blockSequenceStart
  allowKey true
  dropKey
  forward 1
  emit .blockEntry

/-- The mark of a key. -/
def fetchKey : Scan PUnit := do
  requireKeyPlace
  indentHere .blockMappingStart
  allowKey (!(← get).inFlow)
  dropKey
  forward 1
  emit .key

/-- The colon of a value. If a key without mark may have begun, it has. -/
def fetchValue : Scan PUnit := do
  let s ← get
  match s.possibleKeys.lookup s.flowLevel with
  | some key =>
    set { s with
      possibleKeys := s.possibleKeys.filter fun (level, _) => level != s.flowLevel
      tokens := s.tokens.insertIdxIfInBounds key.token .key }
    indentTo key.column key.token .blockMappingStart
    allowKey false
  | none =>
    requireKeyPlace
    indentHere .blockMappingStart
    allowKey (!s.inFlow)
    dropKey
  forward 1
  emit .value

/-- A token at which a key may begin. -/
def fetchKeyStart (scan : Scan Token) : Scan PUnit := do
  saveKey
  allowKey false
  emit (← scan)

/-- A literal or folded block. -/
def fetchBlockScalar (folded : Bool) : Scan PUnit := do
  allowKey true
  dropKey
  emit (← scanBlock folded)

/-- Characters that no plain scalar starts with, unless the next character says otherwise. -/
def isMark (c : Char) : Bool :=
  isBlankOrEnd c || "-?:,[]\x7b\x7d#&*!|>\x27\x22%@\x60".toList.contains c

/-- The next character is this mark, and a blank follows; `enough` says that the mark will do. -/
def startsMark (mark : Char) (enough : Bool) : Scan Bool := do
  if (← peek) != mark then return false
  if enough then return true
  demand 1
  return isBlankOrEnd ((← get).peek 1)

/-- A plain scalar starts here. -/
def startsPlain : Scan Bool := do
  let s ← get
  let c := s.peek 0
  if !isMark c then return true
  demand 1
  return !isBlankOrEnd (s.peek 1) && (c == '-' || (!s.inFlow && (c == '?' || c == ':')))

/-- A line here separates documents; it is made of this mark. -/
def startsSeparator (mark : Char) : Scan Bool := do
  let s ← get
  if s.column == 0 && s.peek 0 == mark then atSeparator else return false

/-- The token that starts here. -/
def fetch : Scan PUnit := do
  let s ← get
  let c := s.peek 0
  if c == endMark then fetchEnd
  else if s.column == 0 && c == '%' then
    endBlocks
    emit (← scanDirective)
  else if ← startsSeparator '-' then fetchSeparator .documentStart
  else if ← startsSeparator '.' then fetchSeparator .documentEnd
  else if c == '[' then fetchFlowStart .flowSequenceStart
  else if c == '\x7b' then fetchFlowStart .flowMappingStart
  else if c == ']' then fetchFlowEnd .flowSequenceEnd
  else if c == '\x7d' then fetchFlowEnd .flowMappingEnd
  else if c == ',' then fetchFlowEntry
  else if ← startsMark '-' false then fetchBlockEntry
  else if ← startsMark '?' s.inFlow then fetchKey
  else if ← startsMark ':' s.inFlow then fetchValue
  else if c == '*' then fetchKeyStart (return .reference (← scanAnchorName))
  else if c == '&' then fetchKeyStart (return .anchor (← scanAnchorName))
  else if c == '!' then fetchKeyStart scanTag
  else if c == '|' && !s.inFlow then fetchBlockScalar false
  else if c == '>' && !s.inFlow then fetchBlockScalar true
  else if c == '\x27' || c == '\x22' then fetchKeyStart (scanQuoted c)
  else if ← startsPlain then fetchKeyStart scanPlain
  else malformed

/-! ## §6 All tokens -/

/-- One step. -/
def step : Scan PUnit := do
  skipToToken ((← get).rest.length + 1)
  dropStaleKeys
  unwindTo (← get).column
  fetch

/-- The tokens of a text. -/
structure Tokens where
  tokens : List Token
  /-- Why there are no more. After the end of the text this is not asked for. -/
  fault : Fault

/-- The tokens that do not change any more. -/
def Scanner.settled (s : Scanner) : List Token :=
  s.tokens.toList.take (s.possibleKeys.foldl (fun n (_, key) => min n key.token) s.tokens.size)

/-- Steps until the end of the text. -/
def Scanner.run (s : Scanner) : (fuel : Nat) → Tokens
  | 0 => ⟨s.settled, .malformed⟩
  | fuel + 1 =>
    match step.run s with
    | .error fault => ⟨s.settled, fault⟩
    | .ok (_, next) =>
      if next.tokens.back? = some .streamEnd then ⟨next.tokens.toList, .malformed⟩
      else next.run fuel

/-- So many characters of a text are read at a time, and twice as many at first. -/
def loadSize : Nat := 4096

/-- The text in front of the first load with a character that no document may hold, and whether
this is all of it. -/
def allowedLoads : (fuel size : Nat) → List Char → List Char × Bool
  | 0, _, _ => ([], true)
  | fuel + 1, size, text =>
    if !(text.take size).all isAllowed then ([], false)
    else if text.length ≤ size then (text, true)
    else
      let (more, all) := allowedLoads fuel loadSize (text.drop size)
      (text.take size ++ more, all)

/-- The part of a text that is seen, and why no more is. If bytes that are no text come after it,
only full loads are seen. -/
def seenPart (text : List Char) (broken : Bool) : List Char × Option Fault :=
  let whole := if !broken then text
    else if text.length < 2 * loadSize then []
    else text.take (text.length / loadSize * loadSize)
  let (seen, all) := allowedLoads (whole.length + 1) (2 * loadSize) whole
  (seen, if !all then some .malformed else if broken then some .unreadable else none)

/-- The start of a text. A byte order mark there is not one of its characters. -/
def start : Scan PUnit := do
  demand 0
  if (← peek) == '\ufeff' then forward 1

/-- The tokens of a text; `broken` says that bytes that are no text come after it. -/
def Tokens.ofText (text : List Char) (broken : Bool) : Tokens :=
  let (seen, ending) := seenPart text broken
  match start.run { rest := seen, ending } with
  | .error fault => ⟨[], fault⟩
  | .ok (_, s) => s.run (seen.length + 2)

end LogRedaction.Yaml
