/-
LogRedaction.Rule — rules, and rules made ready for one user.

A rule says by which lines it is concerned and what it replaces there. Both are templates of
regular expressions. Compiling a rule expands and reads both, so that every rule that
compiles can be used; the template of the replacement is kept, because it is expanded again
wherever the rule applies.
-/
import LogRedaction.Regex.Search
import LogRedaction.Template
import LogRedaction.Text.Blank

namespace LogRedaction

variable [Host]

/-- A rule as it is written down. -/
structure Rule where
  key : Text
  /-- The template of the expression that finds lines. -/
  detect : Text
  /-- The template of the expression that is replaced; blank if lines are only noted. -/
  replace : Text
deriving DecidableEq, Repr

/-- A rule whose detection has been read. -/
structure CompiledRule where
  key : Text
  detect : Regex
  /-- Still a template. -/
  replace : Text
deriving Repr

/-- What is wrong with a pattern. -/
inductive PatternFlaw where
  | empty
  | fault (fault : Regex.Fault)
deriving DecidableEq, Repr

/-- The wording of a flaw of the given pattern. -/
def PatternFlaw.message (pattern : Text) : PatternFlaw → Text
  | empty => "detection pattern is empty"
  | fault f => f.message pattern

/-- Why a rule cannot be compiled. -/
inductive CompileError where
  | unresolved (e : Template.Unresolved)
  | invalid (key pattern : Text) (flaw : PatternFlaw)
  /-- The expression is refused although its text has no fault. -/
  | refused (pattern : Text) (refusal : Regex.Refusal)
deriving DecidableEq, Repr

/-- The wording of an error. -/
def CompileError.message : CompileError → Text
  | unresolved e => e.message
  | invalid key pattern flaw =>
    "Invalid pattern in rule '" ++ key ++ "': " ++ flaw.message pattern ++
      " (" ++ Text.quoted pattern ++ ")"
  | refused pattern refusal => refusal.message pattern

namespace Rule

/-- A template of the rule with its placeholders replaced. -/
def expand (key : Text) (mapping : Mapping) (template : Text) : Except CompileError Text :=
  match Template.expand mapping template (some key) with
  | .ok text => .ok text
  | .error e => .error (.unresolved e)

/-- The expression that a pattern of the rule stands for. -/
def readPattern (key pattern : Text) : Except CompileError Regex :=
  match Regex.read pattern with
  | .ok regex => .ok regex
  | .error (.fault f) => .error (.invalid key pattern (.fault f))
  | .error refusal => .error (.refused pattern refusal)

/-- The rule made ready for the given values. -/
def compile (mapping : Mapping) (rule : Rule) : Except CompileError CompiledRule := do
  let detect := Text.strip (← expand rule.key mapping rule.detect)
  if detect = "" then throw (.invalid rule.key detect .empty)
  let regex ← readPattern rule.key detect
  let replace ← expand rule.key mapping rule.replace
  if !Text.isAllBlank replace then
    let _ ← readPattern rule.key replace
  return ⟨rule.key, regex, rule.replace⟩

/-- The rules made ready one after the other. -/
def compileAll (mapping : Mapping) : List Rule → Except CompileError (List CompiledRule)
  | [] => .ok []
  | rule :: rest => do
    let compiled ← rule.compile mapping
    let more ← compileAll mapping rest
    return compiled :: more

/-- The rules that are looked at when these are compiled: up to the first that does not compile. -/
def examined (mapping : Mapping) : List Rule → List Rule
  | [] => []
  | rule :: rest =>
    match rule.compile mapping with
    | .ok _ => rule :: examined mapping rest
    | .error _ => [rule]

end Rule

end LogRedaction
