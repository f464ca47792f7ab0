/-
LogRedaction.Regex.Search — the matches of an expression in a text.

Matches are looked for from left to right, each from where the one before ended. A match of
nothing is found at the end of another match, but not where the last match of nothing was.
`Regex.cut` divides the text by its matches; the text with all matches replaced is built from
the same pieces.
-/
import LogRedaction.Regex.Match
import LogRedaction.Regex.Reading.Expression

namespace LogRedaction

/-- A text divided into parts: pairs of a kept piece and a match after it, and the kept rest. -/
structure Cut where
  parts : List (List CodePoint × List CodePoint)
  rest : List CodePoint
deriving DecidableEq, Repr

namespace Cut

/-- The text that was divided. -/
def text (cut : Cut) : List CodePoint :=
  cut.parts.flatMap (fun (kept, found) => kept ++ found) ++ cut.rest

/-- The kept pieces with a text in place of each match. -/
def fill (cut : Cut) (replacement : List CodePoint) : List CodePoint :=
  cut.parts.flatMap (fun (kept, _) => kept ++ replacement) ++ cut.rest

end Cut

namespace Regex

/-- Where a match at the given position ends. If `nonempty`, a match of nothing is passed over. -/
def matchAt? (regex : Regex) (nonempty : Bool) (start : Cursor) : Option Cursor :=
  let accept : Continuation := fun s =>
    if nonempty && s.cursor.index == start.index then none else some s
  (regex.pattern.run regex.flags accept ⟨start, Array.replicate regex.groups {}⟩).map (·.cursor)

/-- The first match at or after a position, as its two ends. If `nonempty`, a match of nothing at
the position itself is passed over. -/
def findFrom? (regex : Regex) (nonempty : Bool) (before : List CodePoint) (index : Nat) :
    List CodePoint → Option (Cursor × Cursor)
  | [] => (regex.matchAt? nonempty ⟨before, [], index⟩).map (⟨before, [], index⟩, ·)
  | x :: rest =>
    let start : Cursor := ⟨before, x :: rest, index⟩
    match regex.matchAt? nonempty start with
    | some stop => some (start, stop)
    | none => regex.findFrom? false (x :: before) (index + 1) rest

/-- The expression matches somewhere in the text. -/
def occursIn (regex : Regex) (text : List CodePoint) : Bool :=
  (regex.findFrom? false [] 0 text).isSome

/-- The text after a position, divided by its matches. -/
def cutFrom (regex : Regex) : (fuel : Nat) → (nonempty : Bool) → Cursor → Cut
  | 0, _, c => ⟨[], c.after⟩
  | fuel + 1, nonempty, c =>
    match regex.findFrom? nonempty c.before c.index c.after with
    | none => ⟨[], c.after⟩
    | some (start, stop) =>
      let cut := regex.cutFrom fuel (start.index == stop.index) stop
      { cut with parts := (c.upTo start, start.upTo stop) :: cut.parts }

/-- The text divided by its matches. At each position there are at most two of them. -/
def cut (regex : Regex) (text : List CodePoint) : Cut :=
  regex.cutFrom (2 * text.length + 2) false (Cursor.start text)

/-- The text with every match replaced. -/
def replace (regex : Regex) (replacement text : List CodePoint) : List CodePoint :=
  (regex.cut text).fill replacement

end Regex

end LogRedaction
