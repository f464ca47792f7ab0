/-
LogRedaction.CommandLine.Grammar — what may stand on a command line.

A grammar has options and at most one positional part. The positional part is a list of
arguments, or a command with all that follows it, which is then read by a grammar of its own.

## §1 Grammars
## §2 Errors
-/
import LogRedaction.Text.Quoted

namespace LogRedaction.CommandLine

/-! ## §1 Grammars -/

/-- What an option is followed by. -/
inductive OptionKind where
  | flag
  | text
  | number
  /-- Asks for help instead of a run. -/
  | help
deriving DecidableEq, Repr

/-- An option. -/
structure OptionSpec where
  /-- All its names; the last one is the full one. -/
  names : List Text
  kind : OptionKind
  required : Bool
deriving DecidableEq, Repr

namespace OptionSpec

/-- The option as messages show it. -/
def shown (spec : OptionSpec) : Text := Text.intercalate "/" spec.names

/-- The full name. -/
def fullName (spec : OptionSpec) : Text := spec.names.getLast?.getD ""

/-- A value follows. -/
def takesValue (spec : OptionSpec) : Bool := spec.kind = .text || spec.kind = .number

end OptionSpec

/-- What may stand besides options. -/
inductive Positional where
  | nothing
  /-- One or more arguments. -/
  | arguments (name : Text)
  /-- One of some commands, with what follows. -/
  | command (name : Text) (choices : List Text)
deriving DecidableEq, Repr

/-- The name of the positional part, if there is one. -/
def Positional.name? : Positional → Option Text
  | nothing => none
  | arguments name => some name
  | command name _ => some name

/-- What may stand on a command line. -/
structure Grammar where
  program : Text
  options : List OptionSpec
  positional : Positional
deriving DecidableEq, Repr

namespace Grammar

/-- All names of options, each with its option. -/
def names (grammar : Grammar) : List (Text × OptionSpec) :=
  grammar.options.flatMap fun spec => spec.names.map fun name => (name, spec)

/-- The option of a name. -/
def find? (grammar : Grammar) (name : Text) : Option OptionSpec := grammar.names.lookup name

end Grammar

/-! ## §2 Errors -/

/-- What is wrong with a command line. -/
inductive UsageProblem where
  | ambiguous (argument : Text) (candidates : List Text)
  | valueMissing (option : Text)
  | valueIgnored (option value : Text)
  | noNumber (option value : Text)
  | noChoice (name value : Text) (choices : List Text)
  | missing (names : List Text)
  | unrecognized (arguments : List Text)
deriving DecidableEq, Repr

/-- The wording of a problem. -/
def UsageProblem.message : UsageProblem → Text
  | ambiguous argument candidates =>
    "ambiguous option: " ++ argument ++ " could match " ++ Text.intercalate ", " candidates
  | valueMissing option => "argument " ++ option ++ ": expected one argument"
  | valueIgnored option value =>
    "argument " ++ option ++ ": ignored explicit argument " ++ Text.quoted value
  | noNumber option value => "argument " ++ option ++ ": invalid int value: " ++ Text.quoted value
  | noChoice name value choices =>
    "argument " ++ name ++ ": invalid choice: " ++ Text.quoted value ++ " (choose from " ++
      Text.intercalate ", " (choices.map Text.quoted) ++ ")"
  | missing names => "the following arguments are required: " ++ Text.intercalate ", " names
  | unrecognized arguments => "unrecognized arguments: " ++ Text.intercalate " " arguments

/-- Why a command line is not run. -/
inductive Stop where
  | help
  | usage (program : Text) (problem : UsageProblem)
deriving DecidableEq, Repr

/-- What the program ends with. -/
def Stop.exitCode : Stop → Nat
  | help => 0
  | usage _ _ => 2

/-- The last line that is written. -/
def Stop.message : Stop → Text
  | help => ""
  | usage program problem => program ++ ": error: " ++ problem.message

end LogRedaction.CommandLine
