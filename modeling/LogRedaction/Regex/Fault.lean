/-
LogRedaction.Regex.Fault — what can be wrong with a regular expression.

A fault in the text of an expression has a cause and mostly a position. Two rules are checked
only after the whole expression has been read, and their faults have no position. Besides
faults there are refusals that concern numbers, flags and nesting: they are not about the text
at a position, and callers may not want to treat them as faults of the expression.
-/
import LogRedaction.Text.Quoted

namespace LogRedaction.Regex

/-- The causes of a fault. -/
inductive Cause where
  | danglingBackslash
  | badEscape (escape : Text)
  | incompleteEscape (escape : Text)
  | octalTooLarge (escape : Text)
  | missingOpeningBrace
  | missingName (what : Text)
  | unterminatedName (terminator : CodePoint)
  | undefinedCharacter (name : Text)
  | noSuchGroup (group : Nat)
  | openGroup
  | groupOfSameLookbehind
  | unterminatedSet
  | badRange (low high : Text)
  | leastAboveMost
  | nothingToRepeat
  | repeatOfRepeat
  | unexpectedEnd
  | badGroupName (name : Text)
  | unknownGroup (name : Text)
  | redefinedGroup (name : Text) (group earlier : Nat)
  | groupZero
  | unknownExtension (text : Text)
  | unterminatedComment
  | unterminatedGroup
  | thirdBranch
  | lateFlags
  | localeFlag
  | incompatibleFlags
  | unknownFlag
  | missingFlagEnd
  | missingFlag
  | missingColon
  | globalFlagOn
  | globalFlagOff
  | characterSetOff
  | flagOnAndOff
  | unbalancedParenthesis
  | lookbehindTooFar
  | lookbehindNotFixed
  | repeatInTemplate (operator : Text)
deriving DecidableEq, Repr

/-- The wording of a cause. -/
def Cause.message : Cause → Text
  | danglingBackslash => "bad escape (end of pattern)"
  | badEscape escape => "bad escape " ++ escape
  | incompleteEscape escape => "incomplete escape " ++ escape
  | octalTooLarge escape => "octal escape value " ++ escape ++ " outside of range 0-0o377"
  | missingOpeningBrace => "missing \x7b"
  | missingName what => "missing " ++ what
  | unterminatedName terminator => "missing " ++ Text.ofList [terminator] ++ ", unterminated name"
  | undefinedCharacter name => "undefined character name " ++ Text.quoted name
  | noSuchGroup group => "invalid group reference " ++ toString group
  | openGroup => "cannot refer to an open group"
  | groupOfSameLookbehind => "cannot refer to group defined in the same lookbehind subpattern"
  | unterminatedSet => "unterminated character set"
  | badRange low high => "bad character range " ++ low ++ "-" ++ high
  | leastAboveMost => "min repeat greater than max repeat"
  | nothingToRepeat => "nothing to repeat"
  | repeatOfRepeat => "multiple repeat"
  | unexpectedEnd => "unexpected end of pattern"
  | badGroupName name => "bad character in group name " ++ Text.quoted name
  | unknownGroup name => "unknown group name " ++ Text.quoted name
  | redefinedGroup name group earlier =>
    "redefinition of group name " ++ Text.quoted name ++ " as group " ++ toString group ++
      "; was group " ++ toString earlier
  | groupZero => "bad group number"
  | unknownExtension text => "unknown extension ?" ++ text
  | unterminatedComment => "missing ), unterminated comment"
  | unterminatedGroup => "missing ), unterminated subpattern"
  | thirdBranch => "conditional backref with more than two branches"
  | lateFlags => "global flags not at the start of the expression"
  | localeFlag => "bad inline flags: cannot use 'L' flag with a str pattern"
  | incompatibleFlags => "bad inline flags: flags 'a', 'u' and 'L' are incompatible"
  | unknownFlag => "unknown flag"
  | missingFlagEnd => "missing -, : or )"
  | missingFlag => "missing flag"
  | missingColon => "missing :"
  | globalFlagOn => "bad inline flags: cannot turn on global flag"
  | globalFlagOff => "bad inline flags: cannot turn off global flag"
  | characterSetOff => "bad inline flags: cannot turn off flags 'a', 'u' and 'L'"
  | flagOnAndOff => "bad inline flags: flag turned on and off"
  | unbalancedParenthesis => "unbalanced parenthesis"
  | lookbehindTooFar => "looks too much behind"
  | lookbehindNotFixed => "look-behind requires fixed-width pattern"
  | repeatInTemplate operator => "internal: unsupported template operator " ++ operator

/-- A cause, and the position in the expression if there is one. -/
structure Fault where
  cause : Cause
  position : Option Nat
deriving DecidableEq, Repr

/-- The lines before a position: their number, and the length of the unfinished one. -/
def lineAndColumn (text : List CodePoint) (position : Nat) : Nat × Nat :=
  (text.take position).foldl
    (fun (line, column) c => if c == .scalar '\n' then (line + 1, 1) else (line, column + 1)) (1, 1)

/-- The wording of a fault in the given expression. Where the expression has several lines, the
position is also given by line and column. -/
def Fault.message (fault : Fault) (pattern : Text) : Text :=
  match fault.position with
  | none => fault.cause.message
  | some position =>
    let located := fault.cause.message ++ " at position " ++ toString position
    if pattern.toList.contains '\n' then
      let (line, column) := lineAndColumn pattern.toList position
      located ++ " (line " ++ toString line ++ ", column " ++ toString column ++ ")"
    else located

/-- Why an expression is refused. -/
inductive Refusal where
  /-- The text of the expression is at fault. -/
  | fault (fault : Fault)
  /-- A repetition count is beyond all bounds. -/
  | countTooLarge
  /-- A repetition count has too many digits to be read. -/
  | countTooLong (digits : Nat)
  /-- The expression asks for ASCII and for Unicode classes. -/
  | asciiAndUnicode
  /-- Groups are nested too deeply. -/
  | tooDeep
deriving DecidableEq, Repr

/-- The wording of a refusal of the given expression. -/
def Refusal.message (pattern : Text) : Refusal → Text
  | fault f => f.message pattern
  | countTooLarge => "the repetition number is too large"
  | countTooLong digits =>
    "Exceeds the limit (4300 digits) for integer string conversion: value has " ++
      toString digits ++ " digits; use sys.set_int_max_str_digits() to increase the limit"
  | asciiAndUnicode => "ASCII and UNICODE flags are incompatible"
  | tooDeep => "maximum recursion depth exceeded"

end LogRedaction.Regex
