/-
LogRedaction.Regex.Reading.Set — character sets in brackets.

A closing bracket that stands first is a member, and so is a hyphen at either end. A set of
one literal is read as that literal, or as its complement.
-/
import LogRedaction.Regex.Reading.Escape

namespace LogRedaction.Regex

open Unicode (CharacterNames)

variable [CharacterNames]

/-- The members without repetitions, each at its first place. -/
def distinct (members : List Member) : List Member :=
  (members.foldl (fun seen m => if seen.contains m then seen else m :: seen) []).reverse

/-- A member that a token stands for. -/
def readMember (source : Source) : Token → Except Refusal (Member × Source)
  | .escaped c => readMemberEscape source c
  | .plain c => return (.literal c.toNat, source)

/-- The range between two members; both have to be literals in increasing order. -/
def rangeOf (source : Source) (low high : Member) (lowText highText : Token) :
    Except Refusal Member :=
  let fault : Except Refusal Member :=
    source.refuseBack (lowText.length + 1 + highText.length) (.badRange lowText.text highText.text)
  match low, high with
  | .literal a, .literal b => if b < a then fault else return .range a b
  | _, _ => fault

/-- The members up to the closing bracket, added to those already read in reverse. `start` is
where the set was opened. -/
def readMembers (start : Nat) :
    (fuel : Nat) → Source → List Member → Except Refusal (List Member × Source)
  | 0, source, members => return (members, source)
  | fuel + 1, source, members => do
    let unterminated {α : Type} : Except Refusal α :=
      .error (.fault ⟨.unterminatedSet, some start⟩)
    let (token?, source) ← source.take
    let some token := token? | unterminated
    if token == .plain ']' && !members.isEmpty then return (members, source)
    let (low, source) ← readMember source token
    let (hyphen, source) ← source.accept '-'
    if !hyphen then return ← readMembers start fuel source (low :: members)
    let (token'?, source) ← source.take
    let some token' := token'? | unterminated
    if token' == .plain ']' then return (.literal '-'.toNat :: low :: members, source)
    let (high, source) ← readMember source token'
    let range ← rangeOf source low high token token'
    readMembers start fuel source (range :: members)

/-- The set whose opening bracket, at `start`, has just been taken. -/
def readSet (source : Source) (start : Nat) : Except Refusal (Pattern × Source) := do
  let (negated, source) ← source.accept '^'
  let (members, source) ← readMembers start (source.rest.length + 1) source []
  match distinct members.reverse with
  | [.literal code] => return (if negated then .notLiteral code else .literal code, source)
  | members => return (.set negated members, source)

end LogRedaction.Regex
