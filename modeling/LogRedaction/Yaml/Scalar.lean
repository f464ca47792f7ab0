/-
LogRedaction.Yaml.Scalar — the text of scalars.

Plain and quoted scalars are folded: a line break is a space, and of several line breaks the
first is dropped. A literal block keeps its line breaks and a folded block folds them between
lines that start at the indentation; both end according to their chomping.

## §1 Plain scalars
## §2 Quoted scalars
## §3 Block scalars
-/
import LogRedaction.Yaml.Token

namespace LogRedaction.Yaml

/-! ## §1 Plain scalars -/

/-- The characters of a plain scalar on one line. -/
def plainRun (flow : Bool) : List Char → List Char
  | [] => []
  | c :: rest =>
    let follower := rest.headD endMark
    if isBlankOrEnd c || (flow && ",?[]\x7b\x7d".toList.contains c) then []
    else if c == ':' &&
        (isBlankOrEnd follower || (flow && ",[]\x7b\x7d".toList.contains follower)) then []
    else c :: plainRun flow rest

/-- The line breaks and spaces after a line break, and whether a separator of documents ends
them. -/
def plainBreaks : (fuel : Nat) → (breaks : List Char) → Scan (List Char × Bool)
  | 0, breaks => return (breaks, false)
  | fuel + 1, breaks => do
    let c ← peek
    if c == ' ' then
      forward 1
      plainBreaks fuel breaks
    else if isBreak c then
      let more ← takeBreak
      if ← atSeparator then return (breaks ++ more, true)
      plainBreaks fuel (breaks ++ more)
    else return (breaks, false)

/-- A line break between two parts of a scalar, with the breaks after it. -/
def fold (first breaks : List Char) : List Char :=
  if first ≠ ['\n'] then first ++ breaks
  else if breaks = [] then [' '] else breaks

/-- The space between two parts of a plain scalar; nothing if it ends. -/
def plainSpace : Scan (List Char) := do
  let spaces ← takeWhile (· == ' ')
  if isBreak (← peek) then
    let first ← takeBreak
    modify fun s => { s with keyAllowed := true }
    if ← atSeparator then return []
    let (breaks, separated) ← plainBreaks ((← get).rest.length + 1) []
    if separated then return []
    return fold first breaks
  else return spaces

/-- The parts of a plain scalar, each with the space before it. -/
def plainParts (indent : Int) : (fuel : Nat) → (space : List Char) → Scan (List Char)
  | 0, _ => return []
  | fuel + 1, space => do
    let s ← get
    if s.peek 0 == '#' then return []
    let run := plainRun s.inFlow s.rest
    -- What follows a colon says whether the scalar goes on.
    if s.peek run.length == ':' then demand (run.length + 1)
    if run = [] then return []
    modify fun s => { s with keyAllowed := false }
    forward run.length
    let next ← plainSpace
    let s ← get
    if next = [] || s.peek 0 == '#' || (!s.inFlow && (s.column : Int) < indent) then
      return space ++ run
    return space ++ run ++ (← plainParts indent fuel next)

/-- A plain scalar. -/
def scanPlain : Scan Token := do
  let s ← get
  let text ← plainParts (s.indent + 1) (s.rest.length + 1) []
  return .scalar (Text.ofChars text) true

/-! ## §2 Quoted scalars -/

/-- The line breaks inside a quoted scalar. A separator of documents may not come first in a line. -/
def quotedBreaks : (fuel : Nat) → Scan (List Char)
  | 0 => return []
  | fuel + 1 => do
    if ← atSeparator then malformed
    let _ ← takeWhile fun c => c == ' ' || c == '\t'
    let line ← takeBreak
    if line = [] then return []
    return line ++ (← quotedBreaks fuel)

/-- The line breaks from here on. -/
def scanQuotedBreaks : Scan (List Char) := do quotedBreaks ((← get).rest.length + 1)

/-- The character of an escape letter. -/
def escapeChar? : Char → Option Char
  | '0' => some '\x00'
  | 'a' => some '\x07'
  | 'b' => some '\x08'
  | 't' | '\t' => some '\t'
  | 'n' => some '\n'
  | 'v' => some '\x0b'
  | 'f' => some '\x0c'
  | 'r' => some '\r'
  | 'e' => some '\x1b'
  | ' ' => some ' '
  | '\x22' => some '\x22'
  | '\\' => some '\\'
  | '/' => some '/'
  | 'N' => some '\u0085'
  | '_' => some '\u00a0'
  | 'L' => some '\u2028'
  | 'P' => some '\u2029'
  | _ => none

/-- How many digits follow an escape letter. -/
def escapeLength? : Char → Option Nat
  | 'x' => some 2
  | 'u' => some 4
  | 'U' => some 8
  | _ => none

/-- What the escape after a backslash stands for. Half of a surrogate pair stands for itself. -/
def scanEscape : Scan (List CodePoint) := do
  let c ← peek
  match escapeChar? c, escapeLength? c with
  | some x, _ =>
    forward 1
    return [x]
  | none, some length =>
    forward 1
    let digits := (← get).rest.take length
    if !digits.all isHexDigit then malformed
    demand (length - 1)
    if digits.length < length then malformed
    let code := hexValue digits
    if code > 0x7FFFFFFF then throw .codePointTooLarge
    if code > 0x10FFFF then throw .noSuchCodePoint
    forward length
    return [CodePoint.ofNat code]
  | none, none =>
    if isBreak c then
      let _ ← takeBreak
      return (← scanQuotedBreaks).map .scalar
    else malformed

/-- The characters of a quoted scalar up to a space, a line break or the closing quote. -/
def quotedRun (double : Bool) : (fuel : Nat) → Scan (List CodePoint)
  | 0 => return []
  | fuel + 1 => do
    let plain := (← takeWhile fun c =>
      !(isBlankOrEnd c || c == '\x27' || c == '\x22' || c == '\\')).map CodePoint.scalar
    let s ← get
    let c := s.peek 0
    if !double && c == '\x27' then demand 1
    if !double && c == '\x27' && s.peek 1 == '\x27' then
      forward 2
      return plain ++ .scalar '\x27' :: (← quotedRun double fuel)
    else if (double && c == '\x27') || (!double && (c == '\x22' || c == '\\')) then
      forward 1
      return plain ++ .scalar c :: (← quotedRun double fuel)
    else if double && c == '\\' then
      forward 1
      let escaped ← scanEscape
      return plain ++ escaped ++ (← quotedRun double fuel)
    else return plain

/-- The characters from here on. -/
def scanQuotedRun (double : Bool) : Scan (List CodePoint) := do
  quotedRun double ((← get).rest.length + 1)

/-- The space inside a quoted scalar. -/
def quotedSpace : Scan (List CodePoint) := do
  let spaces ← takeWhile fun c => c == ' ' || c == '\t'
  let c ← peek
  if c == endMark then malformed
  else if isBreak c then
    let first ← takeBreak
    return (fold first (← scanQuotedBreaks)).map .scalar
  else return spaces.map .scalar

/-- The parts of a quoted scalar up to the closing quote. -/
def quotedParts (quote : Char) : (fuel : Nat) → Scan (List CodePoint)
  | 0 => malformed
  | fuel + 1 => do
    if (← peek) == quote then return []
    let space ← quotedSpace
    let run ← scanQuotedRun (quote == '\x22')
    return space ++ run ++ (← quotedParts quote fuel)

/-- A quoted scalar. -/
def scanQuoted (quote : Char) : Scan Token := do
  forward 1
  let first ← scanQuotedRun (quote == '\x22')
  let more ← quotedParts quote ((← get).rest.length + 1)
  forward 1
  return .scalar (Text.ofList (first ++ more)) false

/-! ## §3 Block scalars -/

/-- What becomes of the line breaks at the end of a block. -/
inductive Chomping where
  | clip
  | strip
  | keep
deriving DecidableEq, Repr

/-- A chomping mark, if one is next. -/
def scanChomping : Scan (Option Chomping) := do
  let c ← peek
  if c == '+' then
    forward 1
    return some .keep
  else if c == '-' then
    forward 1
    return some .strip
  else return none

/-- An indentation mark, if one is next; it is not zero. -/
def scanIncrement : Scan (Option Nat) := do
  let c ← peek
  if isDigit c then
    if c == '0' then malformed
    forward 1
    return some (c.toNat - 0x30)
  else return none

/-- The marks after the start of a block, in either order. -/
def scanBlockHeader : Scan (Chomping × Option Nat) := do
  let first ← scanChomping
  let increment ← scanIncrement
  let chomping ← match first with
    | some c => pure (some c)
    | none => if increment.isSome then scanChomping else pure none
  if !isSpaceOrEnd (← peek) then malformed
  return (chomping.getD .clip, increment)

/-- The line breaks before the first line of a block, and the deepest indentation among them. -/
def blockIndentation : (fuel : Nat) → (deepest : Nat) → Scan (List Char × Nat)
  | 0, deepest => return ([], deepest)
  | fuel + 1, deepest => do
    let c ← peek
    if c == ' ' then
      forward 1
      blockIndentation fuel (max deepest (← get).column)
    else if isBreak c then
      let line ← takeBreak
      let (breaks, deepest) ← blockIndentation fuel deepest
      return (line ++ breaks, deepest)
    else return ([], deepest)

/-- Steps over spaces up to the indentation. -/
def skipIndentation (indent : Nat) : (fuel : Nat) → Scan PUnit
  | 0 => return
  | fuel + 1 => do
    let s ← get
    if s.column < indent && s.peek 0 == ' ' then
      forward 1
      skipIndentation indent fuel

/-- The line breaks between two lines of a block. -/
def blockBreaks (indent : Nat) : (fuel : Nat) → Scan (List Char)
  | 0 => return []
  | fuel + 1 => do
    skipIndentation indent (indent + 1)
    let line ← takeBreak
    if line = [] then return []
    return line ++ (← blockBreaks indent fuel)

/-- The breaks from here on. -/
def scanBlockBreaks (indent : Nat) : Scan (List Char) := do
  blockBreaks indent ((← get).rest.length + 1)

/-- The lines of a block: its text without the end, the break of the last line, and the breaks
after it. `breaks` are those before the next line. -/
def blockLines (folded : Bool) (indent : Nat) :
    (fuel : Nat) → (last breaks : List Char) → Scan (List Char × List Char × List Char)
  | 0, last, breaks => return ([], last, breaks)
  | fuel + 1, last, breaks => do
    let s ← get
    if !(s.column == indent && s.peek 0 != endMark) then return ([], last, breaks)
    let startsAtIndent := !(s.peek 0 == ' ' || s.peek 0 == '\t')
    let line ← takeWhile fun c => !isBreakOrEnd c
    let last ← takeBreak
    let next ← scanBlockBreaks indent
    let s ← get
    if s.column == indent && s.peek 0 != endMark then
      let joint :=
        if folded && last == ['\n'] && startsAtIndent && !(s.peek 0 == ' ' || s.peek 0 == '\t') then
          if next = [] then [' '] else []
        else last
      let (more, last, after) ← blockLines folded indent fuel last next
      return (breaks ++ line ++ joint ++ more, last, after)
    else return (breaks ++ line, last, next)

/-- A block scalar. -/
def scanBlock (folded : Bool) : Scan Token := do
  forward 1
  let (chomping, increment) ← scanBlockHeader
  finishLine
  let s ← get
  let least := max (s.indent + 1).toNat 1
  let (breaks, indent) ← match increment with
    | none =>
      let (breaks, deepest) ← blockIndentation (s.rest.length + 1) 0
      pure (breaks, max least deepest)
    | some increment =>
      let indent := least + increment - 1
      pure (← scanBlockBreaks indent, indent)
  let (text, last, after) ← blockLines folded indent ((← get).rest.length + 1) [] breaks
  let tail := match chomping with
    | .strip => []
    | .clip => last
    | .keep => last ++ after
  return .scalar (Text.ofChars (text ++ tail)) false

end LogRedaction.Yaml
