/-
LogRedaction.Regex.Syntax — regular expressions as trees.

Characters of an expression are code points, because an expression can name a code point
that no text holds. Alternatives are tried from left to right; what a repetition prefers is
its `Greed`. The flags in force are not stored at the leaves: a `flagged` node changes them
for the tree below it, and whoever walks the tree passes them down.

The width of an expression, the least and the greatest number of characters it can match,
is needed where it looks behind: there it has to be one number.
-/

namespace LogRedaction.Regex

/-! ## Flags -/

/-- How an expression reads letters, lines and classes. -/
structure Flags where
  ignoreCase : Bool := false
  multiline : Bool := false
  dotAll : Bool := false
  verbose : Bool := false
  ascii : Bool := false
  unicode : Bool := false
  template : Bool := false
deriving DecidableEq, Repr

/-- Every flag of either. -/
def Flags.union (a b : Flags) : Flags where
  ignoreCase := a.ignoreCase || b.ignoreCase
  multiline := a.multiline || b.multiline
  dotAll := a.dotAll || b.dotAll
  verbose := a.verbose || b.verbose
  ascii := a.ascii || b.ascii
  unicode := a.unicode || b.unicode
  template := a.template || b.template

/-- The flags of the first that the second does not have. -/
def Flags.minus (a b : Flags) : Flags where
  ignoreCase := a.ignoreCase && !b.ignoreCase
  multiline := a.multiline && !b.multiline
  dotAll := a.dotAll && !b.dotAll
  verbose := a.verbose && !b.verbose
  ascii := a.ascii && !b.ascii
  unicode := a.unicode && !b.unicode
  template := a.template && !b.template

/-- Some flag is in both. -/
def Flags.meets (a b : Flags) : Bool := a.minus (a.minus b) != {}

/-- Flags that a group turns on and off. -/
structure FlagChange where
  on : Flags := {}
  off : Flags := {}
deriving DecidableEq, Repr

/-- The flags inside a group: choosing a character set replaces the one in force. -/
def FlagChange.apply (change : FlagChange) (flags : Flags) : Flags :=
  let base := if change.on.ascii || change.on.unicode then
    { flags with ascii := false, unicode := false } else flags
  (base.union change.on).minus change.off

/-! ## Trees -/

/-- Classes of characters that an escape names. -/
inductive Category where
  | digit
  | space
  | word
deriving DecidableEq, Repr

/-- One member of a character set. -/
inductive Member where
  | literal (code : Nat)
  | range (low high : Nat)
  | category (category : Category) (negated : Bool)
deriving DecidableEq, Repr

/-- Tests of a position that consume nothing. -/
inductive Anchor where
  | lineStart
  | lineEnd
  | textStart
  | textEnd
  | wordBoundary
  | notWordBoundary
deriving DecidableEq, Repr

/-- Which number of repetitions is tried first, and whether another is tried at all. -/
inductive Greed where
  | greedy
  | lazy
  | possessive
deriving DecidableEq, Repr

/-- Where an assertion looks. -/
inductive Direction where
  | ahead
  | behind
deriving DecidableEq, Repr

/-- The least and the greatest number of characters; no greatest if there is no bound. -/
structure Width where
  least : Nat
  most : Option Nat
deriving DecidableEq, Repr

/-- A regular expression. -/
inductive Pattern where
  /-- Matches the empty text. -/
  | empty
  /-- The first, then the second. -/
  | seq (first second : Pattern)
  /-- The first, or else the second. -/
  | alt (first second : Pattern)
  | literal (code : Nat)
  | notLiteral (code : Nat)
  /-- Any character, a line feed only where dots match all. -/
  | any
  | set (negated : Bool) (members : List Member)
  | anchor (test : Anchor)
  /-- A group whose text is kept. -/
  | capture (group : Nat) (body : Pattern)
  /-- A group with flags of its own. -/
  | flagged (change : FlagChange) (body : Pattern)
  /-- A group that is left by its first match only. -/
  | atomic (body : Pattern)
  | repeated (greed : Greed) (least : Nat) (most : Option Nat) (body : Pattern)
  /-- The text of a group once more; the group has the given width. -/
  | backref (group : Nat) (width : Width)
  /-- The first if the group has matched, or else the second. -/
  | conditional (group : Nat) (yes no : Pattern)
  | look (direction : Direction) (negative : Bool) (body : Pattern)
deriving Repr

namespace Pattern

/-! ## Sequences -/

/-- One after the other. -/
def ofList : List Pattern → Pattern
  | [] => empty
  | [p] => p
  | p :: rest => seq p (ofList rest)

/-- The parts of a sequence. -/
def toList : Pattern → List Pattern
  | empty => []
  | seq p q => p.toList ++ q.toList
  | p => [p]

/-- Two equal tests of one position. Groups, repetitions and alternatives are never the same. -/
def sameUnit : Pattern → Pattern → Bool
  | literal a, literal b => a == b
  | notLiteral a, notLiteral b => a == b
  | any, any => true
  | set n a, set m b => n == m && a == b
  | anchor a, anchor b => a == b
  | backref a _, backref b _ => a == b
  | _, _ => false

/-! ## Width -/

/-- Exactly so many characters. -/
def fixed (n : Nat) : Width := ⟨n, some n⟩

/-- The width of one after the other. -/
def Width.add (a b : Width) : Width :=
  ⟨a.least + b.least, do return (← a.most) + (← b.most)⟩

/-- The width of one or the other. -/
def Width.join (a b : Width) : Width :=
  ⟨min a.least b.least, do return max (← a.most) (← b.most)⟩

/-- The width of so many repetitions. -/
def Width.times (a : Width) (least : Nat) (most : Option Nat) : Width :=
  ⟨a.least * least,
    match a.most, most with
    | some 0, _ => some 0
    | _, some 0 => some 0
    | some w, some n => some (w * n)
    | _, _ => none⟩

/-- The least and the greatest number of characters that the expression matches. -/
def width : Pattern → Width
  | empty => fixed 0
  | seq p q => Width.add p.width q.width
  | alt p q => Width.join p.width q.width
  | literal _ | notLiteral _ | any | set _ _ => fixed 1
  | anchor _ => fixed 0
  | capture _ p | flagged _ p | atomic p => p.width
  | repeated _ least most p => Width.times p.width least most
  | backref _ w => w
  | conditional _ p q => Width.join p.width q.width
  | look _ _ _ => fixed 0

end Pattern

end LogRedaction.Regex
