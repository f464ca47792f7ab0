/-
LogRedaction.Regex.Reading.Expression — reading a whole regular expression.

The reader goes once over the text and keeps the groups that are still open on a stack. Each
open group remembers what had been read before it, so that closing it puts the group back at
the end of that. One step takes at least one token; the number of tokens bounds the steps.

## §1 Open groups
## §2 Joining alternatives
## §3 Quantifiers
## §4 Opening a group
## §5 Steps
## §6 The whole expression
-/
import LogRedaction.Host
import LogRedaction.Regex.Reading.Set
import LogRedaction.Regex.Reading.Flag
import LogRedaction.Text.Integer
import LogRedaction.Unicode.Identifier

namespace LogRedaction.Regex

open Unicode (CharacterNames)

variable [CharacterNames]

/-! ## §1 Open groups -/

/-- What a group becomes when it is closed. -/
inductive GroupKind where
  | capture (group : Nat)
  | flagged (change : FlagChange)
  | atomic
  | conditional (group : Nat)
  | look (direction : Direction) (negative : Bool)
deriving Repr

/-- The alternatives read so far at one level: the closed ones, and the open one in reverse. -/
structure Level where
  closed : List (List Pattern) := []
  current : List Pattern := []
  /-- White space and comments are skipped. -/
  verbose : Bool := false
deriving Repr

/-- A group that is still open, and the level around it. -/
structure OpenGroup where
  kind : GroupKind
  /-- The position of its parenthesis. -/
  start : Nat
  outer : Level
  /-- What was the limit of group numbers before the group. -/
  lookbehindLimit : Option Nat
deriving Repr

/-- The state of the reader. -/
structure Reader where
  source : Source
  flags : Flags := {}
  groups : Groups := {}
  stack : List OpenGroup := []
  level : Level := {}
deriving Repr

/-- Goes on reading at the given place. -/
def Reader.resume (r : Reader) (source : Source) : Reader := { r with source }

/-- Adds a part to the open alternative. -/
def Reader.push (r : Reader) (p : Pattern) : Reader :=
  { r with level := { r.level with current := p :: r.level.current } }

/-! ## §2 Joining alternatives -/

/-- A group without effect gives way to its parts. -/
def unwrap : Pattern → List Pattern
  | .flagged change body => if change = {} then body.toList else [.flagged change body]
  | p => [p]

/-- The parts of an alternative, from the parts read in reverse. -/
def finishSequence (current : List Pattern) : List Pattern := current.reverse.flatMap unwrap

/-- The first part of each list and the rest of it, if each list starts with the same unit. -/
def tailsAfter (p : Pattern) : List (List Pattern) → Option (List (List Pattern))
  | [] => some []
  | [] :: _ => none
  | (q :: rest) :: more => if q.sameUnit p then (tailsAfter p more).map (rest :: ·) else none

/-- The units with which all alternatives start, and what follows them in each. -/
def commonStart : List Pattern → List (List Pattern) → List Pattern × List (List Pattern)
  | [], others => ([], [] :: others)
  | p :: rest, others =>
    match if p.sameUnit p then tailsAfter p others else none with
    | some tails =>
      let (start, remaining) := commonStart rest tails
      (p :: start, remaining)
    | none => ([], (p :: rest) :: others)

/-- The members of a set that stands for the alternatives, if each is one character of a kind. -/
def asMembers : List (List Pattern) → Option (List Member)
  | [] => some []
  | [.literal code] :: rest => (asMembers rest).map (.literal code :: ·)
  | [.set false members] :: rest => (asMembers rest).map (members ++ ·)
  | _ => none

/-- The first that matches. -/
def firstOf : List (List Pattern) → Pattern
  | [] => .empty
  | [p] => .ofList p
  | p :: rest => .alt (.ofList p) (firstOf rest)

/-- The parts of a group with the given alternatives. What they start with is read once, and
alternatives of one character each are a set. -/
def joinAlternatives : List (List Pattern) → List Pattern
  | [] => []
  | [only] => only
  | first :: others =>
    let (start, remaining) := commonStart first others
    match asMembers remaining with
    | some members => start ++ [.set false (distinct members)]
    | none => start ++ [firstOf remaining]

/-- All alternatives of a level. -/
def Level.alternatives (level : Level) : List (List Pattern) :=
  level.closed ++ [finishSequence level.current]

/-- The expression that a level has become. -/
def Level.pattern (level : Level) : Pattern := .ofList (joinAlternatives level.alternatives)

/-- The two branches of a condition; the second may be missing. -/
def Level.branches (level : Level) : Pattern × Pattern :=
  match level.alternatives with
  | [yes, no] => (.ofList yes, .ofList no)
  | [yes] => (.ofList yes, .empty)
  | _ => (.empty, .empty)

/-- The expression of a closed group. -/
def GroupKind.close (kind : GroupKind) (level : Level) : Pattern :=
  match kind with
  | capture group => .capture group level.pattern
  | flagged change => .flagged change level.pattern
  | atomic => .atomic level.pattern
  | conditional group => .conditional group level.branches.1 level.branches.2
  | look direction negative => .look direction negative level.pattern

/-! ## §3 Quantifiers -/

/-- Counts of repetitions are below this number. -/
def maxCount : Nat := 4294967295

/-- A count of repetitions. -/
def readCount (digits : List CodePoint) : Except Refusal Nat :=
  if digits.length > Text.maxIntegerDigits then .error (.countTooLong digits.length)
  else
    let n := numberIn 10 digits
    if n ≥ maxCount then .error .countTooLarge else .ok n

/-- Digits of ASCII that come next. -/
def readDigits (source : Source) : Except Refusal (List CodePoint × Source) :=
  source.takeWhile isDecimal source.rest.length

/-- The bounds after an opening brace; nothing if the brace is a literal, which is then left at
`source`. `start` is the position after the brace. -/
def readBounds (source : Source) : Except Refusal (Option (Nat × Option Nat × Source)) := do
  if source.sees '\x7d' then return none
  let start := source.position
  let (low, source) ← readDigits source
  let (comma, source) ← source.accept ','
  let (high, source) ← if comma then readDigits source else pure (low, source)
  let (closed, source) ← source.accept '\x7d'
  if !closed then return none
  let least ← if low = [] then pure 0 else readCount low
  let most ← if high = [] then pure none else some <$> readCount high
  if let some most := most then
    if most < least then
      .error (.fault ⟨.leastAboveMost, some start⟩)
  return some (least, most, source)

/-- Whether a part is itself a repetition. -/
def isRepeated : Pattern → Bool
  | .repeated .. => true
  | _ => false

/-- Whether a part is a test of a position. -/
def isAnchor : Pattern → Bool
  | .anchor _ => true
  | _ => false

/-- The part under a quantifier; a group without effect gives way to its body. -/
def repeatedBody : Pattern → Pattern
  | .flagged change body => if change = {} then body else .flagged change body
  | p => p

/-- Puts a quantifier on the last part. `start` is where the quantifier stands. -/
def Reader.quantify (r : Reader) (start least : Nat) (most : Option Nat) :
    Except Refusal Reader := do
  let refuse {α : Type} (cause : Cause) : Except Refusal α := .error (.fault ⟨cause, some start⟩)
  let last :: before := r.level.current | refuse .nothingToRepeat
  if isAnchor last then refuse .nothingToRepeat
  if isRepeated last then refuse .repeatOfRepeat
  let (lazy, source) ← r.source.accept '?'
  let (possessive, source) ← if lazy then pure (false, source) else source.accept '+'
  let greed : Greed := if lazy then .lazy else if possessive then .possessive else .greedy
  let p := Pattern.repeated greed least most (repeatedBody last)
  return { r with source, level := { r.level with current := p :: before } }

/-! ## §4 Opening a group -/

/-- Opens a group at `start`. -/
def Reader.enter (r : Reader) (kind : GroupKind) (start : Nat) (verbose : Bool) : Reader where
  source := r.source
  flags := r.flags
  groups := r.groups
  stack := ⟨kind, start, r.level, r.groups.lookbehindLimit⟩ :: r.stack
  level := { verbose }

/-- Opens a group whose text is kept. -/
def Reader.openCapture (r : Reader) (start : Nat) : Reader :=
  let groups := { r.groups with widths := r.groups.widths.push none }
  { r with groups }.enter (.capture groups.widths.size) start r.level.verbose

/-- The name of a group before a terminator; it has to be an identifier. -/
def readGroupName (source : Source) (terminator : CodePoint) :
    Except Refusal (List CodePoint × Source) := do
  let (name, source) ← source.takeName terminator "group name"
  if !Unicode.isIdentifier name then
    source.refuseBack (name.length + 1) (.badGroupName (Text.ofList name))
  return (name, source)

/-- The number of a named group. -/
def Groups.named (groups : Groups) (source : Source) (name : List CodePoint) : Except Refusal Nat :=
  match groups.names.lookup (Text.ofList name) with
  | some group => return group
  | none => source.refuseBack (name.length + 1) (.unknownGroup (Text.ofList name))

/-- Opens a group with a name, of which the angle bracket has just been taken. -/
def Reader.openNamed (r : Reader) (start : Nat) : Except Refusal Reader := do
  let (name, source) ← readGroupName r.source '>'
  let text := Text.ofList name
  let group := r.groups.widths.size + 1
  if let some earlier := r.groups.names.lookup text then
    source.refuseBack (name.length + 1) (.redefinedGroup text group earlier)
  let groups := { r.groups with names := (text, group) :: r.groups.names }
  return { r with source, groups }.openCapture start

/-- A named group once more, of which the equals sign has just been taken. -/
def Reader.readNamedBackref (r : Reader) : Except Refusal Reader := do
  let (name, source) ← readGroupName r.source ')'
  let group ← r.groups.named source name
  let p ← r.groups.readBackref source group (name.length + 1)
  return (r.resume source).push p

/-- Skips a comment in parentheses that was opened at `start`. -/
def skipComment (start : Nat) : (fuel : Nat) → Source → Except Refusal Source
  | 0, source => return source
  | fuel + 1, source => do
    let (token?, source) ← source.take
    match token? with
    | none => .error (.fault ⟨.unterminatedComment, some start⟩)
    | some (.plain (.scalar ')')) => return source
    | some _ => skipComment start fuel source

/-- Opens an assertion. Looking behind fixes which groups may be asked for inside. -/
def Reader.openLook (r : Reader) (direction : Direction) (negative : Bool) (start : Nat) :
    Reader :=
  let opened := r.enter (.look direction negative) start r.level.verbose
  match direction with
  | .ahead => opened
  | .behind =>
    let limit := r.groups.lookbehindLimit.getD r.groups.widths.size
    { opened with groups := { opened.groups with lookbehindLimit := some limit } }

/-- Group numbers in conditions are below this number. -/
def maxGroups : Nat := 1073741823

/-- Opens a condition, of which the second parenthesis has just been taken. The group may be
named, or it may be a number of a group that is opened later. -/
def Reader.openConditional (r : Reader) (start : Nat) : Except Refusal Reader := do
  let (name, source) ← r.source.takeName ')' "group name"
  let back := name.length + 1
  let r := r.resume source
  if Unicode.isIdentifier name then
    let group ← r.groups.named source name
    r.groups.checkLookbehind source group
    return r.enter (.conditional group) start r.level.verbose
  else
    let bad {α : Type} : Except Refusal α :=
      source.refuseBack back (.badGroupName (Text.ofList name))
    let some number := (Text.readInteger 10 (Text.ofList name)).toOption | bad
    if number < 0 then bad
    let group := number.toNat
    if group = 0 then source.refuseBack back .groupZero
    if group ≥ maxGroups then source.refuseBack back (.noSuchGroup group)
    let asked := if r.groups.asked.any (·.1 == group) then r.groups.asked
      else r.groups.asked.push (group, source.position - back)
    let r := { r with groups := { r.groups with asked } }
    r.groups.checkLookbehind source group
    return r.enter (.conditional group) start r.level.verbose

/-- Flags that start with `c` stand at the beginning of the expression or open a group. -/
def Reader.readFlagGroup (r : Reader) (c : CodePoint) (start : Nat) : Except Refusal Reader := do
  let (effect, source) ← readFlags r.source c
  let r := r.resume source
  match effect with
  | .wholeExpression on =>
    let flags := r.flags.union on
    if !(r.stack.isEmpty && r.level.closed.isEmpty && r.level.current.isEmpty) then
      .error (.fault ⟨.lateFlags, some start⟩)
    return { r with flags, level := { r.level with verbose := flags.verbose } }
  | .group change =>
    let verbose := (r.level.verbose || change.on.verbose) && !change.off.verbose
    return r.enter (.flagged change) start verbose

/-- Opens what an opening parenthesis, just taken at `start`, introduces. -/
def Reader.openGroup (r : Reader) (start : Nat) : Except Refusal Reader := do
  let (extended, source) ← r.source.accept '?'
  let r := r.resume source
  if !extended then return r.openCapture start
  let (token?, source) ← r.source.take
  let r := r.resume source
  match token? with
  | none => source.refuse .unexpectedEnd
  | some (.plain (.scalar 'P')) =>
    let (named, source) ← source.accept '<'
    if named then return ← (r.resume source).openNamed start
    let (repeated, source) ← source.accept '='
    if repeated then return ← (r.resume source).readNamedBackref
    let (token?, source) ← source.take
    match token? with
    | none => source.refuse .unexpectedEnd
    | some token =>
      source.refuseBack (token.length + 2) (.unknownExtension ("P" ++ token.text))
  | some (.plain (.scalar ':')) => return r.enter (.flagged {}) start r.level.verbose
  | some (.plain (.scalar '#')) =>
    let source ← skipComment start (source.rest.length + 1) source
    return r.resume source
  | some (.plain (.scalar '=')) => return r.openLook .ahead false start
  | some (.plain (.scalar '!')) => return r.openLook .ahead true start
  | some (.plain (.scalar '<')) =>
    let (token?, source) ← source.take
    let r := r.resume source
    match token? with
    | none => source.refuse .unexpectedEnd
    | some (.plain (.scalar '=')) => return r.openLook .behind false start
    | some (.plain (.scalar '!')) => return r.openLook .behind true start
    | some token =>
      source.refuseBack (token.length + 2) (.unknownExtension ("<" ++ token.text))
  | some (.plain (.scalar '(')) => r.openConditional start
  | some (.plain (.scalar '>')) => return r.enter .atomic start r.level.verbose
  | some (.plain c) =>
    if isFlagLetter c || c == '-' then r.readFlagGroup c start
    else source.refuseBack 2 (.unknownExtension (Text.ofList [c]))
  | some token => source.refuseBack (token.length + 1) (.unknownExtension token.text)

/-- Closes the innermost group, whose closing parenthesis has just been taken. -/
def Reader.closeGroup (r : Reader) (group : OpenGroup) (stack : List OpenGroup) : Reader :=
  let p := group.kind.close r.level
  let widths := match group.kind with
    | .capture n => r.groups.widths.setIfInBounds (n - 1) (some p.width)
    | _ => r.groups.widths
  let groups := { r.groups with widths, lookbehindLimit := group.lookbehindLimit }
  { r with groups, stack, level := group.outer }.push p

/-! ## §5 Steps -/

/-- White space that is skipped in verbose expressions. -/
def isLayout (c : CodePoint) : Bool :=
  c == ' ' || c == '\t' || c == '\n' || c == '\r' || c == '\x0b' || c == '\x0c'

/-- Skips a comment to the end of its line. -/
def skipLine : (fuel : Nat) → Source → Except Refusal Source
  | 0, source => return source
  | fuel + 1, source => do
    let (token?, source) ← source.take
    match token? with
    | none | some (.plain (.scalar '\n')) => return source
    | some _ => skipLine fuel source

/-- Starts the next alternative. A condition has at most two. -/
def Reader.nextAlternative (r : Reader) : Except Refusal Reader := do
  if let ⟨.conditional _, _, _, _⟩ :: _ := r.stack then
    if !r.level.closed.isEmpty then r.source.refuse .thirdBranch
  let verbose := if r.stack.isEmpty then r.flags.verbose else r.level.verbose
  let closed := r.level.closed ++ [finishSequence r.level.current]
  let source ← r.source.advance
  return { r with source, level := { closed, verbose } }

/-- Reads from a character that is not an escape; `start` is its position. -/
def Reader.stepPlain (r : Reader) (c : CodePoint) (start : Nat) : Except Refusal Reader := do
  match c with
  | .scalar '[' =>
    let (p, source) ← readSet r.source start
    return (r.resume source).push p
  | .scalar '?' => r.quantify start 0 (some 1)
  | .scalar '*' => r.quantify start 0 none
  | .scalar '+' => r.quantify start 1 none
  | .scalar '\x7b' =>
    match ← readBounds r.source with
    | none => return r.push (.literal c.toNat)
    | some (least, most, source) => (r.resume source).quantify start least most
  | .scalar '.' => return r.push .any
  | .scalar '(' => r.openGroup start
  | .scalar '^' => return r.push (.anchor .lineStart)
  | .scalar '$' => return r.push (.anchor .lineEnd)
  | c => return r.push (.literal c.toNat)

/-- Reads one part, or opens, closes or divides a group. The next token is given; it is not a
parenthesis that closes no group. -/
def Reader.step (r : Reader) (token : Token) : Except Refusal Reader := do
  let start := r.source.position
  match token, r.stack with
  | .plain (.scalar '|'), _ => r.nextAlternative
  | .plain (.scalar ')'), group :: stack =>
    let source ← r.source.advance
    return (r.resume source).closeGroup group stack
  | .escaped c, _ =>
    let (p, source) ← readEscape r.groups (← r.source.advance) c
    return (r.resume source).push p
  | .plain c, _ =>
    let source ← r.source.advance
    if r.level.verbose && isLayout c then return r.resume source
    if r.level.verbose && c == '#' then
      let source ← skipLine (source.rest.length + 1) source
      return r.resume source
    (r.resume source).stepPlain c start

/-- Steps to the end of the text, or to a parenthesis that closes no group. -/
def Reader.run : (fuel : Nat) → Reader → Except Refusal Reader
  | 0, r => .ok r
  | fuel + 1, r =>
    match r.source.rest with
    | [] => .ok r
    | token :: _ =>
      if token = .plain ')' ∧ r.stack.isEmpty then .ok r
      else match r.step token with
        | .ok r => r.run fuel
        | .error e => .error e

/-! ## §6 The whole expression -/

/-- The greatest width that an expression looking behind may have. -/
def maxLookbehind : Nat := 4294967295

/-- The name of a kind of repetition. -/
def Greed.operator : Greed → Text
  | greedy => "MAX_REPEAT"
  | lazy => "MIN_REPEAT"
  | possessive => "POSSESSIVE_REPEAT"

/-- Rules on the whole expression: what looks behind has one width, and a template has no
repetitions. -/
def Pattern.check (template : Bool) : Pattern → Except Refusal PUnit
  | .seq p q | .alt p q | .conditional _ p q => do
    p.check template
    q.check template
  | .capture _ p | .flagged _ p | .atomic p => p.check template
  | .repeated greed _ _ p =>
    if template then .error (.fault ⟨.repeatInTemplate greed.operator, none⟩)
    else p.check template
  | .look .ahead _ p => p.check template
  | .look .behind _ p =>
    let width := p.width
    if width.least > maxLookbehind then .error (.fault ⟨.lookbehindTooFar, none⟩)
    else if width.most ≠ some width.least then .error (.fault ⟨.lookbehindNotFixed, none⟩)
    else p.check template
  | _ => .ok ⟨⟩

/-- The flags in force: Unicode classes unless ASCII ones are asked for. -/
def settleFlags (flags : Flags) : Except Refusal Flags :=
  if !flags.ascii then .ok { flags with unicode := true }
  else if flags.unicode then .error .asciiAndUnicode
  else .ok flags

end LogRedaction.Regex

namespace LogRedaction

open Regex in
/-- A regular expression that has been read. -/
structure Regex where
  /-- The text that was read. -/
  source : Text
  /-- The flags of the whole expression. -/
  flags : Flags
  /-- How many groups keep their text. -/
  groups : Nat
  pattern : Pattern
deriving Repr

namespace Regex

/-- Reads a regular expression, whatever room that takes. -/
def parse [Unicode.CharacterNames] (text : Text) : Except Refusal Regex := do
  let source ← Source.ofText text.toList
  let r ← Reader.run source.rest.length { source }
  if let group :: _ := r.stack then
    .error (.fault ⟨.unterminatedGroup, some group.start⟩)
  let flags ← settleFlags r.flags
  if !r.source.rest.isEmpty then r.source.refuse .unbalancedParenthesis
  if let some (group, position) := r.groups.asked.find? fun (group, _) => !r.groups.isOpened group then
    .error (.fault ⟨.noSuchGroup group, some position⟩)
  let pattern := r.level.pattern
  pattern.check flags.template
  return { source := text, flags, groups := r.groups.widths.size, pattern }

/-- Reads a regular expression. -/
def read [Host] (text : Text) : Except Refusal Regex :=
  if Host.overflows text then .error .tooDeep else parse text

end Regex

end LogRedaction
