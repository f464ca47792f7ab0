/-
LogRedaction.CommandLine.Command — the commands of the program.

`redact` puts redacted copies of log files in their place; `check` compiles the rules for a
user and lists them. Both need the identity of the user.

## §1 Grammars
## §2 Commands
-/
import LogRedaction.CommandLine.Reading
import LogRedaction.Identity

namespace LogRedaction.CommandLine

/-! ## §1 Grammars -/

/-- The name of the program. -/
def programName : Text := "pii_log_redactor"

/-- The option for help, which every grammar has. -/
def helpOption : OptionSpec := ⟨["-h", "--help"], .help, false⟩

/-- A grammar with the option for help. -/
def grammarOf (program : Text) (options : List OptionSpec) (positional : Positional) : Grammar :=
  ⟨program, helpOption :: options, positional⟩

/-- What comes before the command. -/
def mainGrammar : Grammar :=
  grammarOf programName [⟨["-v", "--verbose"], .flag, false⟩]
    (.command "command" ["redact", "check"])

/-- The options of the identity and of the rules. -/
def identityOptions : List OptionSpec := [
  ⟨["--username"], .text, true⟩,
  ⟨["--tenant-domain"], .text, true⟩,
  ⟨["--tenant-id"], .number, true⟩,
  ⟨["--userstore-domain"], .text, false⟩,
  ⟨["--pseudonym"], .text, true⟩,
  ⟨["--patterns"], .text, false⟩]

/-- What comes after `redact`. -/
def redactGrammar : Grammar :=
  grammarOf (programName ++ " redact")
    (identityOptions ++ [⟨["--report"], .text, false⟩, ⟨["--keep-temp"], .flag, false⟩])
    (.arguments "files")

/-- What comes after `check`. -/
def checkGrammar : Grammar := grammarOf (programName ++ " check") identityOptions .nothing

/-! ## §2 Commands -/

/-- What counts where an option is not given. -/
structure Defaults where
  /-- The file with the rules. -/
  patterns : Text := "patterns.yaml"
  /-- The report file, or nothing. -/
  report : Text := ""

/-- What both commands need. -/
structure Common where
  identity : IdentityForm
  /-- The file with the rules. Nothing if the option was given the bare mark. -/
  patterns : Option Text

/-- A command. -/
inductive Command where
  /-- Without a report file the report is written out. -/
  | redact (common : Common) (report : Option Text) (keepTemp : Bool) (files : List Text)
  | check (common : Common)

/-- A command and how it is run. -/
structure Invocation where
  verbose : Bool
  command : Command

/-- An option as a value. -/
def Setting.toValue : Setting → Value
  | .on => .bool true
  | .text s => .text s
  | .number n => .int n
  | .blank => .list []

namespace Line

/-- The value of an option, or nothing. -/
def value (line : Line) (name : Text) : Value :=
  ((line.setting? name).map Setting.toValue).getD .null

/-- The identity that a line describes. -/
def identity (line : Line) : IdentityForm where
  username := line.value "--username"
  tenantDomain := line.value "--tenant-domain"
  tenantId := line.value "--tenant-id"
  userstoreDomain := ((line.setting? "--userstore-domain").map Setting.toValue).getD
    (.text Identity.primaryUserstore)
  pseudonym := line.value "--pseudonym"

/-- What both commands need. -/
def common (line : Line) (defaults : Defaults) : Common where
  identity := line.identity
  patterns := match line.setting? "--patterns" with
    | none => some defaults.patterns
    | some (.text path) => some path
    | some _ => none

/-- The report file, if one is named. -/
def report? (line : Line) (defaults : Defaults) : Option Text :=
  match (line.setting? "--report").getD (.text defaults.report) with
  | .text path => if path = "" then none else some path
  | _ => none

end Line

/-- Reads a line that has no place for extras. Those of the line before come first. -/
def readCommand (verbose : Bool) (before : List Text) (grammar : Grammar)
    (arguments : List Text) (command : Line → Command) : Except Stop Invocation :=
  match grammar.read arguments with
  | .error stop => .error stop
  | .ok line =>
    match before ++ line.extras with
    | [] => .ok ⟨verbose, command line⟩
    | extras => .error (.usage programName (.unrecognized extras))

/-- The command that arguments ask for. -/
def Invocation.ofArguments (defaults : Defaults) (arguments : List Text) :
    Except Stop Invocation :=
  match mainGrammar.read arguments with
  | .error stop => .error stop
  | .ok line =>
    let verbose := (line.setting? "--verbose").isSome
    let words := line.positional.getD []
    let rest := words.drop 1
    if words.head? = some "redact" then
      readCommand verbose line.extras redactGrammar rest fun line =>
        .redact (line.common defaults) (line.report? defaults)
          (line.setting? "--keep-temp").isSome (line.positional.getD [])
    else if words.head? = some "check" then
      readCommand verbose line.extras checkGrammar rest fun line => .check (line.common defaults)
    else
      .error (.usage programName
        (.noChoice "command" (words.headD "") ["redact", "check"]))

end LogRedaction.CommandLine
