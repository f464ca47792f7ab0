/-
LogRedaction.Regex.Reading.Flag — flags written in an expression.

`(?i)` sets flags for the whole expression, `(?i-s:…)` changes them for a group. The two
character sets exclude each other and cannot be turned off.
-/
import LogRedaction.Regex.Source
import LogRedaction.Regex.Syntax
import LogRedaction.Unicode.Letter

namespace LogRedaction.Regex

/-- The flag of a letter. -/
def flag? : CodePoint → Option Flags
  | .scalar 'i' => some { ignoreCase := true }
  | .scalar 'm' => some { multiline := true }
  | .scalar 's' => some { dotAll := true }
  | .scalar 'x' => some { verbose := true }
  | .scalar 'a' => some { ascii := true }
  | .scalar 'u' => some { unicode := true }
  | .scalar 't' => some { template := true }
  | _ => none

/-- The letter stands for a flag, be it one that no expression can use. -/
def isFlagLetter (c : CodePoint) : Bool := c == 'L' || (flag? c).isSome

/-- The flags of the characters classes. -/
def characterSets : Flags := { ascii := true, unicode := true }

/-- Flags that hold for a whole expression or not at all. -/
def globalOnly : Flags := { template := true }

/-- The fault for a token that is not a flag letter: a letter is an unknown flag, and anything
else shows that `expected` is missing. -/
def refuseFlag {α : Type} (source : Source) (token : Token) (expected : Cause) :
    Except Refusal α :=
  match token with
  | .plain c =>
    source.refuseBack 1 (if Unicode.isLetter c.toNat then .unknownFlag else expected)
  | .escaped _ => source.refuseBack 2 expected

/-- What ends a list of flags to turn on. -/
inductive FlagEnd where
  | wholeExpression
  | turnOff
  | group
deriving DecidableEq

/-- The flags to turn on, from the letter `c` just taken, and what ends them. -/
def readFlagsOn : (fuel : Nat) → Source → CodePoint → Flags → Except Refusal (Flags × FlagEnd × Source)
  | 0, source, _, on => return (on, .group, source)
  | fuel + 1, source, c, on => do
    let some flag := flag? c | source.refuse .localeFlag
    let on := on.union flag
    if flag.meets characterSets && on.ascii && on.unicode then source.refuse .incompatibleFlags
    let (token?, source) ← source.take
    match token? with
    | none => source.refuse .missingFlagEnd
    | some (.plain (.scalar ')')) => return (on, .wholeExpression, source)
    | some (.plain (.scalar '-')) => return (on, .turnOff, source)
    | some (.plain (.scalar ':')) => return (on, .group, source)
    | some (.plain c) =>
      if isFlagLetter c then readFlagsOn fuel source c on
      else refuseFlag source (.plain c) .missingFlagEnd
    | some token => refuseFlag source token .missingFlagEnd

/-- The flags to turn off, from the letter `c` just taken to the colon. -/
def readFlagsOff : (fuel : Nat) → Source → CodePoint → Flags → Except Refusal (Flags × Source)
  | 0, source, _, off => return (off, source)
  | fuel + 1, source, c, off => do
    let some flag := flag? c | source.refuse .characterSetOff
    if flag.meets characterSets then source.refuse .characterSetOff
    let off := off.union flag
    let (token?, source) ← source.take
    match token? with
    | none => source.refuse .missingColon
    | some (.plain (.scalar ':')) => return (off, source)
    | some (.plain c) =>
      if isFlagLetter c then readFlagsOff fuel source c off
      else refuseFlag source (.plain c) .missingColon
    | some token => refuseFlag source token .missingColon

/-- The flags to turn off, whose hyphen has just been taken. -/
def readTurnOff (source : Source) : Except Refusal (Flags × Source) := do
  let (token?, source) ← source.take
  match token? with
  | none => source.refuse .missingFlag
  | some (.plain c) =>
    if isFlagLetter c then readFlagsOff (source.rest.length + 1) source c {}
    else refuseFlag source (.plain c) .missingFlag
  | some token => refuseFlag source token .missingFlag

/-- What flags in an expression do. -/
inductive FlagEffect where
  /-- They hold for the whole expression. -/
  | wholeExpression (on : Flags)
  /-- They are those of the group that starts here. -/
  | group (change : FlagChange)
deriving DecidableEq

/-- The flags from the character `c` just taken, a flag letter or a hyphen. -/
def readFlags (source : Source) (c : CodePoint) : Except Refusal (FlagEffect × Source) := do
  let (on, flagEnd, source) ←
    if c == '-' then pure ({}, .turnOff, source)
    else readFlagsOn (source.rest.length + 1) source c {}
  if flagEnd = .wholeExpression then return (.wholeExpression on, source)
  if on.meets globalOnly then source.refuseBack 1 .globalFlagOn
  let (off, source) ←
    if flagEnd = .turnOff then readTurnOff source else pure ({}, source)
  if off.meets globalOnly then source.refuseBack 1 .globalFlagOff
  if on.meets off then source.refuseBack 1 .flagOnAndOff
  return (.group ⟨on, off⟩, source)

end LogRedaction.Regex
