/-
LogRedaction.Regex.Match — matching by backtracking.

`Pattern.run` walks the tree of an expression. What has to match after the tree is handed
down as a continuation; the answer is the first state, in order of preference, that the
continuation accepts. Assertions and atomic groups are run on their own, so their other
answers are never tried.

The recursion is on the tree. Only repetitions need more: the obligatory ones are counted
down, and each optional one begins at a later position than the one before, because none
follows a repetition that has matched nothing. So there is at most one for each character
that is left, and one at the end; those characters are the `room` of the recursion.
-/
import LogRedaction.Regex.Cursor
import LogRedaction.Regex.CharTest

namespace LogRedaction.Regex

/-! ## States -/

/-- Where a group was last entered and last left. -/
structure Capture where
  entered : Option Cursor := none
  left : Option Cursor := none
deriving Repr

/-- A position, and the groups kept on the way to it. -/
structure State where
  cursor : Cursor
  captures : Array Capture
deriving Repr

namespace State

/-- The same groups at another position. -/
def moveTo (s : State) (cursor : Cursor) : State := { s with cursor }

/-- Notes that the group is entered here. -/
def enter (s : State) (group : Nat) : State :=
  { s with captures := s.captures.modify (group - 1) fun c => { c with entered := some s.cursor } }

/-- Notes that the group is left here. -/
def leave (s : State) (group : Nat) : State :=
  { s with captures := s.captures.modify (group - 1) fun c => { c with left := some s.cursor } }

/-- The text of a group that has been entered and then left. -/
def captured? (s : State) (group : Nat) : Option (List CodePoint) :=
  match s.captures[group - 1]? with
  | some ⟨some entered, some left⟩ =>
    if entered.index ≤ left.index then some (entered.upTo left) else none
  | _ => none

end State

/-- What has to match next. -/
abbrev Continuation := State → Option State

/-! ## Tests of one position -/

/-- The character before a position. -/
def Cursor.lastChar? (c : Cursor) : Option CodePoint := c.before.head?

/-- The character after a position. -/
def Cursor.nextChar? (c : Cursor) : Option CodePoint := c.after.head?

/-- Exactly one side of the position is a word character; an empty text has no such position. -/
def Cursor.betweenWords (unicode : Bool) (c : Cursor) : Bool :=
  c.lastChar?.any (isWordCode unicode ·.toNat) != c.nextChar?.any (isWordCode unicode ·.toNat)

/-- The position satisfies the test. -/
def Anchor.holds (flags : Flags) (c : Cursor) : Anchor → Bool
  | textStart => c.before.isEmpty
  | textEnd => c.after.isEmpty
  | lineStart => c.before.isEmpty || (flags.multiline && c.lastChar? == some (.scalar '\n'))
  | lineEnd => c.after.isEmpty || (if flags.multiline then c.nextChar? == some (.scalar '\n')
      else c.after == [.scalar '\n'])
  | wordBoundary => c.betweenWords flags.unicode
  | notWordBoundary => !(c.before.isEmpty && c.after.isEmpty) && !c.betweenWords flags.unicode

/-- The next character, if it passes the test. -/
def Cursor.step? (test : CodePoint → Bool) (c : Cursor) : Option Cursor :=
  match c.next? with
  | some (x, d) => if test x then some d else none
  | none => none

/-- Steps over the given characters, compared by their forms. -/
def Cursor.stepOver? (folding : Folding) (c : Cursor) : List CodePoint → Option Cursor
  | [] => some c
  | x :: rest =>
    match c.step? fun y => folding.fold y.toNat == folding.fold x.toNat with
    | some d => d.stepOver? folding rest
    | none => none

/-! ## Repetitions of one character -/

/-- Steps as often as the test allows, at most so many times; all positions on the way, the last
one first, in front of those already passed. -/
def reach (test : CodePoint → Bool) (before : List CodePoint) (index : Nat) (most : Option Nat)
    (passed : List Cursor) : (after : List CodePoint) → List Cursor
  | [] => ⟨before, [], index⟩ :: passed
  | x :: after =>
    let here : Cursor := ⟨before, x :: after, index⟩
    if most = some 0 || !test x then here :: passed
    else reach test (x :: before) (index + 1) (most.map (· - 1)) (here :: passed) after

/-- The positions after each allowed number of characters, the farthest first. -/
def stops (test : CodePoint → Bool) (least : Nat) (most : Option Nat) (c : Cursor) : List Cursor :=
  let passed := reach test c.before c.index most [] c.after
  passed.take (passed.length - least)

/-- The positions in order of preference. -/
def Greed.order (greed : Greed) (stops : List Cursor) : List Cursor :=
  match greed with
  | greedy => stops
  | lazy => stops.reverse
  | possessive => stops.take 1

/-! ## Repetitions in general -/

/-- So many times, one after the other. -/
def times (body : Continuation → Continuation) : Nat → Continuation → Continuation
  | 0, k => k
  | n + 1, k => body (times body n k)

/-- The count of optional repetitions is used up, or the last one matched nothing. -/
def exhausted (most : Option Nat) (last : Option Nat) (s : State) : Bool :=
  most == some 0 || last == some s.cursor.index

/-- Once more if possible, and then what follows. -/
def moreFirst (body : Continuation → Continuation) (k : Continuation) :
    (room : List CodePoint) → (most last : Option Nat) → Continuation
  | [], most, last, s =>
    if exhausted most last s then k s
    else
      match body k s with
      | some answer => some answer
      | none => k s
  | _ :: room, most, last, s =>
    if exhausted most last s then k s
    else
      match body (moreFirst body k room (most.map (· - 1)) (some s.cursor.index)) s with
      | some answer => some answer
      | none => k s

/-- What follows, or else once more. -/
def lessFirst (body : Continuation → Continuation) (k : Continuation) :
    (room : List CodePoint) → (most last : Option Nat) → Continuation
  | [], most, last, s =>
    match k s with
    | some answer => some answer
    | none => if exhausted most last s then none else body k s
  | _ :: room, most, last, s =>
    match k s with
    | some answer => some answer
    | none =>
      if exhausted most last s then none
      else body (lessFirst body k room (most.map (· - 1)) (some s.cursor.index)) s

/-- As often as possible, each time by the first answer only. -/
def asLongAs (body : Continuation → Continuation) :
    (room : List CodePoint) → (most last : Option Nat) → State → State
  | [], most, last, s => if exhausted most last s then s else (body some s).getD s
  | _ :: room, most, last, s =>
    if exhausted most last s then s
    else
      match body some s with
      | some s' => asLongAs body room (most.map (· - 1)) (some s.cursor.index) s'
      | none => s

/-- So many times, each time by the first answer only. -/
def timesOnce (body : Continuation → Continuation) : Nat → State → Option State
  | 0, s => some s
  | n + 1, s => (body some s).bind (timesOnce body n)

/-- Repetitions from `least` to `most`. -/
def repeatRun (greed : Greed) (least : Nat) (most : Option Nat)
    (body : Continuation → Continuation) (k : Continuation) (s : State) : Option State :=
  let optional := most.map (· - least)
  match greed with
  | .greedy => times body least (fun s => moreFirst body k s.cursor.after optional none s) s
  | .lazy => times body least (fun s => lessFirst body k s.cursor.after optional none s) s
  | .possessive =>
    (timesOnce body least s).bind fun s => k (asLongAs body s.cursor.after optional none s)

/-! ## Expressions -/

/-- The first answer of the expression, by preference, that the continuation accepts. -/
def Pattern.run (flags : Flags) : Pattern → Continuation → Continuation
  | .empty, k, s => k s
  | .seq p q, k, s => p.run flags (q.run flags k) s
  | .alt p q, k, s =>
    match p.run flags k s with
    | some answer => some answer
    | none => q.run flags k s
  | .anchor test, k, s => if test.holds flags s.cursor then k s else none
  | .capture group p, k, s =>
    p.run flags (fun s => k (s.leave group)) (s.enter group)
  | .flagged change p, k, s => p.run (change.apply flags) k s
  | .atomic p, k, s => (p.run flags some s).bind k
  | .repeated greed least most p, k, s =>
    match p.test? flags with
    | some test =>
      (greed.order (stops test least most s.cursor)).findSome? fun c => k (s.moveTo c)
    | none => repeatRun greed least most (p.run flags) k s
  | .backref group _, k, s =>
    match s.captured? group with
    | some text => (s.cursor.stepOver? flags.folding text).bind fun c => k (s.moveTo c)
    | none => none
  | .conditional group p q, k, s =>
    if (s.captured? group).isSome then p.run flags k s else q.run flags k s
  | .look direction negative p, k, s =>
    let start := match direction with
      | .ahead => some s.cursor
      | .behind => s.cursor.back? p.width.least
    let found := start.bind fun c => p.run flags some (s.moveTo c)
    match negative, found with
    | false, some found => k { s with captures := found.captures }
    | false, none => none
    | true, some _ => none
    | true, none => k s
  | .literal code, k, s =>
    (s.cursor.step? fun x => flags.folding.literal code x.toNat).bind fun c => k (s.moveTo c)
  | .notLiteral code, k, s =>
    (s.cursor.step? fun x => !flags.folding.literal code x.toNat).bind fun c => k (s.moveTo c)
  | .any, k, s =>
    (s.cursor.step? fun x => flags.dotAll || x != '\n').bind fun c => k (s.moveTo c)
  | .set negated members, k, s =>
    (s.cursor.step? fun x => inSet flags.folding flags.unicode negated members x.toNat).bind
      fun c => k (s.moveTo c)

end LogRedaction.Regex
