/-
LogRedaction.Template — templates with placeholders.

A template is text in which `${name}` stands for a value and `$${name}` for the literal text
`${name}`. A name runs to the next closing brace. Reading a template into pieces decides once
what is a placeholder; both questions that are asked of a template, which names it mentions
and what it expands to, go over the same pieces.

Expanded templates are regular expressions. Therefore the literal text of an escaped
placeholder is expanded to an expression that matches it.
-/
import LogRedaction.Regex.Escape

namespace LogRedaction

/-- The values of placeholders. -/
abbrev Mapping := List (Text × Text)

namespace Template

/-- A piece of a template. -/
inductive Piece where
  | char (c : CodePoint)
  /-- The value of the name. -/
  | placeholder (name : List CodePoint)
  /-- The name with its marks, as text. -/
  | escaped (name : List CodePoint)
  /-- A placeholder, escaped or not, that is never closed. -/
  | unclosed (name : List CodePoint)
deriving DecidableEq, Repr

/-- The characters up to the next closing brace. -/
def nameOf (text : List CodePoint) : List CodePoint := text.takeWhile (· != '\x7d')

/-- From the next closing brace on. -/
def afterName (text : List CodePoint) : List CodePoint := text.dropWhile (· != '\x7d')

theorem length_afterName_le (text : List CodePoint) : (afterName text).length ≤ text.length :=
  (List.dropWhile_sublist _).length_le

theorem length_lt_of_afterName {text more : List CodePoint} {c : CodePoint}
    (h : afterName text = c :: more) : more.length < text.length := by
  have hle := length_afterName_le text
  rw [h, List.length_cons] at hle
  exact hle

/-- The pieces of a template. -/
def pieces : List CodePoint → List Piece
  | [] => []
  | .scalar '$' :: .scalar '$' :: .scalar '\x7b' :: rest =>
    match h : afterName rest with
    | [] => [.unclosed (nameOf rest)]
    | _ :: more =>
      have : more.length < rest.length := length_lt_of_afterName h
      .escaped (nameOf rest) :: pieces more
  | .scalar '$' :: .scalar '\x7b' :: rest =>
    match h : afterName rest with
    | [] => [.unclosed (nameOf rest)]
    | _ :: more =>
      have : more.length < rest.length := length_lt_of_afterName h
      .placeholder (nameOf rest) :: pieces more
  | c :: rest => .char c :: pieces rest
termination_by text => text.length

/-- The name of a placeholder that has no value, and the rule that mentions it. -/
structure Unresolved where
  name : Text
  rule : Option Text
deriving DecidableEq, Repr

/-- The wording of an unresolved placeholder. -/
def Unresolved.message (e : Unresolved) : Text :=
  let place := match e.rule with
    | none | some "" => ""
    | some rule => " in rule '" ++ rule ++ "'"
  "Unresolved placeholder $\x7b" ++ e.name ++ "\x7d" ++ place

/-- The text of a piece, or the name that has none. -/
def Piece.expand (mapping : Mapping) : Piece → Except Text (List CodePoint)
  | char c => .ok [c]
  | placeholder name =>
    match mapping.lookup (Text.ofList name) with
    | some value => .ok value.toList
    | none => .error (Text.ofList name)
  | escaped name => .ok (Regex.escape (.scalar '$' :: .scalar '\x7b' :: name ++ [.scalar '\x7d']))
  | unclosed name => .error (Text.ofList name)

/-- The texts of the pieces one after the other; the first name without a value is the error. -/
def expandPieces (mapping : Mapping) : List Piece → Except Text (List CodePoint)
  | [] => .ok []
  | piece :: rest =>
    match piece.expand mapping with
    | .error name => .error name
    | .ok text =>
      match expandPieces mapping rest with
      | .error name => .error name
      | .ok more => .ok (text ++ more)

/-- The template with every placeholder replaced by its value. `rule` says whose template it is. -/
def expand (mapping : Mapping) (template : Text) (rule : Option Text) :
    Except Unresolved Text :=
  match expandPieces mapping (pieces template.toList) with
  | .ok text => .ok (Text.ofList text)
  | .error name => .error ⟨name, rule⟩

/-- The name that a piece mentions. -/
def Piece.name? : Piece → Option Text
  | placeholder name => some (Text.ofList name)
  | _ => none

/-- The names that a template mentions, in order. Escaped and unclosed ones do not count. -/
def names (template : Text) : List Text := (pieces template.toList).filterMap Piece.name?

end Template

end LogRedaction
