/-
LogRedaction.Regex.Source — the text of an expression as it is being read.

The unit of reading is a character, or a backslash with the character after it. A backslash
that ends the text is noticed as soon as the unit before it is taken, so every function that
takes a unit can fail; a function that only looks cannot. Positions count characters.
-/
import LogRedaction.Regex.Fault

namespace LogRedaction.Regex

/-- A unit of the text. -/
inductive Token where
  | plain (c : CodePoint)
  | escaped (c : CodePoint)
deriving DecidableEq, Repr

namespace Token

/-- The characters of a unit. -/
def chars : Token → List CodePoint
  | plain c => [c]
  | escaped c => ['\\', c]

/-- The text of a unit. -/
def text (token : Token) : Text := Text.ofList token.chars

/-- One or two characters. -/
def length : Token → Nat
  | plain _ => 1
  | escaped _ => 2

end Token

/-- The units of a text, and whether a lone backslash follows them. -/
def tokens : List CodePoint → List Token × Bool
  | [] => ([], false)
  | [.scalar '\\'] => ([], true)
  | .scalar '\\' :: c :: rest =>
    let (more, dangling) := tokens rest
    (.escaped c :: more, dangling)
  | c :: rest =>
    let (more, dangling) := tokens rest
    (.plain c :: more, dangling)

/-- What is left to read. -/
structure Source where
  rest : List Token
  position : Nat
  dangling : Bool
deriving DecidableEq, Repr

namespace Source

/-- The refusal for a cause found so many characters before the next unit. -/
def refuseBack {α : Type} (source : Source) (back : Nat) (cause : Cause) : Except Refusal α :=
  .error (.fault ⟨cause, some (source.position - back)⟩)

/-- The refusal for a cause found at the next unit. -/
def refuse {α : Type} (source : Source) (cause : Cause) : Except Refusal α :=
  source.refuseBack 0 cause

/-- A lone backslash may not be next. -/
def settle (source : Source) : Except Refusal Source :=
  if source.rest.isEmpty && source.dangling then source.refuse .danglingBackslash else .ok source

/-- The whole text. -/
def ofText (text : List CodePoint) : Except Refusal Source :=
  let (rest, dangling) := tokens text
  settle ⟨rest, 0, dangling⟩

/-- The next unit. -/
def next? (source : Source) : Option Token := source.rest.head?

/-- The next unit is this character. -/
def sees (source : Source) (c : CodePoint) : Bool := source.next? == some (.plain c)

/-- The source without its next unit. -/
def advance (source : Source) : Except Refusal Source :=
  match source.rest with
  | [] => .ok source
  | token :: rest => settle { source with rest, position := source.position + token.length }

/-- The next unit, and the source without it. -/
def take (source : Source) : Except Refusal (Option Token × Source) :=
  return (source.next?, ← source.advance)

/-- Steps over the character if it is next; says whether it did. -/
def accept (source : Source) (c : CodePoint) : Except Refusal (Bool × Source) :=
  if source.sees c then return (true, ← source.advance) else return (false, source)

/-- The characters of a class that come next, at most so many. -/
def takeWhile (source : Source) (inClass : CodePoint → Bool) :
    (most : Nat) → Except Refusal (List CodePoint × Source)
  | 0 => return ([], source)
  | most + 1 =>
    match source.next? with
    | some (.plain c) =>
      if inClass c then do
        let (more, source) ← (← source.advance).takeWhile inClass most
        return (c :: more, source)
      else return ([], source)
    | _ => return ([], source)

/-- The text before a terminator, which is stepped over; `what` names what the text is. -/
def takeUntil (source : Source) (terminator : CodePoint) (what : Text) :
    (fuel : Nat) → (taken : List CodePoint) → Except Refusal (List CodePoint × Source)
  | 0, taken => return (taken, source)
  | fuel + 1, taken => do
    let (token?, source) ← source.take
    match token? with
    | none =>
      if taken.isEmpty then source.refuse (.missingName what)
      else source.refuseBack taken.length (.unterminatedName terminator)
    | some token =>
      if token == .plain terminator then
        if taken.isEmpty then source.refuseBack 1 (.missingName what) else return (taken, source)
      else source.takeUntil terminator what fuel (taken ++ token.chars)

/-- The name before a terminator; it is not empty. -/
def takeName (source : Source) (terminator : CodePoint) (what : Text) :
    Except Refusal (List CodePoint × Source) :=
  source.takeUntil terminator what (source.rest.length + 1) []

end Source

end LogRedaction.Regex
