/-
LogRedaction.CommandLine.Execution — running a command.

A command works on a workspace and writes two texts: its results, and what it has to say about
its work. Results are written piece by piece, and one that standard output cannot take ends the
command. What it noted in its log comes before all else that it says; unless it is verbose only
errors are shown. Errors that a user can cause by rules, files and identities are reported; any
other error is left to the caller.

## §1 Errors
## §2 Runs
## §3 The commands
## §4 Results
-/
import LogRedaction.CommandLine.Command
import LogRedaction.Configuration
import LogRedaction.Listing
import LogRedaction.Placement

namespace LogRedaction.CommandLine

/-! ## §1 Errors -/

/-- Why a command fails. -/
inductive CommandError where
  /-- The option for the rules has no value. -/
  | noPatterns
  | rules (e : RulesFileError)
  | report (e : ReportError)
  | run (e : RunError)
  | discard (e : DiscardError)
  | placement (e : PlacementError)
  /-- Standard output cannot take a text. -/
  | output (complaint : Text)

/-- The wording of an error. -/
def CommandError.message : CommandError → Text
  | noPatterns => "expected str, bytes or os.PathLike object, not list"
  | rules e => e.message
  | report e => e.message
  | run e => e.message
  | discard e => e.message
  | placement e => e.message
  | output complaint => complaint

/-- The error is reported to the user. -/
def CommandError.isReported : CommandError → Bool
  | rules (.unreadable _ _) | rules (.undecodable _ _) | rules (.malformed _ _) => true
  | rules (.unencodable _ _) | rules (.content _) => true
  | run (.identity _) | run (.file _ _) => true
  | run (.rule (.unresolved _)) | run (.rule (.invalid _ _ _)) => true
  | run (.line (.unresolved _)) => true
  | placement (.refused _ _) | placement (.disk _ _ _) => true
  | _ => false

/-! ## §2 Runs -/

variable [Host]

/-- What a command works on and what it has written. -/
structure Desk where
  work : Workspace
  results : Text := ""
  remarks : Text := ""

/-- A part of a command. -/
abbrev Run (α : Type) := ExceptT CommandError (StateM Desk) α

namespace Run

/-- An action on the workspace. -/
def act {ε α : Type} (wrap : ε → CommandError) (action : Action ε α) : Run α := fun desk =>
  match (action.run desk.work : Except ε α × Workspace) with
  | (.ok a, work) => (.ok a, { desk with work })
  | (.error e, work) => (.error (wrap e), { desk with work })

/-- A computation without effects. -/
def get {ε α : Type} (wrap : ε → CommandError) : Except ε α → Run α
  | .ok a => pure a
  | .error e => throw (wrap e)

/-- Writes results. -/
def write (text : Text) : Run Unit := do
  match Host.outputFault? text with
  | some complaint => throw (.output complaint)
  | none => modify fun desk => { desk with results := desk.results ++ text }

/-- Says something. -/
def remark (text : Text) : Run Unit :=
  modify fun desk => { desk with remarks := desk.remarks ++ text ++ "\n" }

end Run

/-! ## §3 The commands -/

/-- The rules in the file that is named. -/
def loadRules (patterns : Option Text) : Run (List Rule) := do
  let desk ← get
  match patterns with
  | none => throw .noPatterns
  | some path => Run.get .rules (Rule.ofFile desk.work.disk path)

/-- Opens the report: in a file that grows, or in memory. -/
def openReport (report : Option Text) : Run Unit := do
  let desk ← get
  match report with
  | none => set { desk with work := { desk.work with report := .list [] } }
  | some path =>
    match FileReport.open? desk.work.disk path true with
    | (.ok file, disk) => set { desk with work := { desk.work with disk, report := .file file } }
    | (.error e, disk) =>
      set { desk with work := { desk.work with disk } }
      throw (.report e)

/-- Closes the report. -/
def closeReport : Run Unit :=
  modify fun desk =>
    let (report, disk) := desk.work.report.close desk.work.disk
    { desk with work := { desk.work with report, disk } }

/-- Writes a report that is kept in memory. -/
def writeReport : Run Unit := do
  match (← get).work.report with
  | .list records => (reportLines records).forM fun line => Run.write (line ++ "\n")
  | .file _ => return

/-- Says where the copies of files are. -/
def remarkCopies (files : List FileCopy) : Run Unit :=
  files.forM fun file =>
    Run.remark (file.source.toText ++ " -> " ++ ((file.temp.map Path.toText).getD "None"))

/-- Copies files. After a failure the unfinished copy is discarded, and what was finished before
is reported. The report is closed in any case. -/
def copyAll (form : IdentityForm) (rules : List Rule) (files : List Path) :
    Run (List FileCopy) := fun desk =>
  match Run.act .run (copyFiles form rules files) desk with
  | (.ok files, desk) =>
    let (_, desk) := closeReport.run desk
    (.ok files, desk)
  | (.error (.run (.file failure completed)), desk) =>
    let cleanUp : Run Unit := do
      let _ ← Run.act .discard (discardCopy (failure.temp.map Path.toText))
      writeReport
      remarkCopies completed
    let (result, desk) := cleanUp.run desk
    let (_, desk) := closeReport.run desk
    match result with
    | .error e => (.error e, desk)
    | .ok _ => (.error (.run (.file failure completed)), desk)
  | (.error e, desk) =>
    let (_, desk) := closeReport.run desk
    (.error e, desk)

/-- Redacts files, and unless the copies are to be kept puts them in place of the sources. Bad
rules are noticed before the report is opened. -/
def redactFiles (common : Common) (report : Option Text) (keepTemp : Bool) (files : List Text) :
    Run Unit := do
  let rules ← loadRules common.patterns
  let identity ← Run.get (fun e => .run (.identity e)) common.identity.check
  let _ ← Run.act .run (prepare identity rules)
  openReport report
  let copies ← copyAll common.identity rules (files.map Path.ofText)
  writeReport
  if keepTemp then remarkCopies copies
  else
    let _ ← Run.act .placement (putAllInPlace copies)

/-- Lists the compiled rules. -/
def listCompiled (common : Common) : Run Unit := do
  let identity ← Run.get (fun e => .run (.identity e)) common.identity.check
  let rules ← loadRules common.patterns
  let job ← Run.act .run (prepare identity rules)
  (listPieces rules job.rules).forM Run.write

/-- Runs a command. -/
def Command.execute : Command → Run Unit
  | .redact common report keepTemp files => redactFiles common report keepTemp files
  | .check common => listCompiled common

/-! ## §4 Results -/

/-- What a command leaves behind. -/
structure Outcome where
  results : Text
  remarks : Text
  error : Option CommandError
  /-- The disk and the number of the next token are of use; the report is closed. -/
  work : Workspace

/-- The events that are shown. -/
def shownEvents (verbose : Bool) (events : List Event) : List Event :=
  if verbose then events else events.filter fun event => event.level = .error

/-- An event as it is said; `stamp` tells the time. -/
def eventText (stamp : Text) (event : Event) : Text :=
  stamp ++ " " ++ event.record programName ++ "\n"

/-- What a reported error adds to the remarks. -/
def errorText (error : Option CommandError) : Text :=
  match error with
  | some e => if e.isReported then "error: " ++ e.message ++ "\n" else ""
  | none => ""

/-- Runs what is asked for. The workspace comes without anything noted. -/
def Invocation.execute (invocation : Invocation) (stamp : Text) (work : Workspace) : Outcome :=
  let desk : Desk := { work := { work with log := [], report := .list [] } }
  let (result, desk) := invocation.command.execute.run desk
  let error : Option CommandError := match result with
    | .ok _ => none
    | .error e => some e
  let said := Text.join
    ((shownEvents invocation.verbose desk.work.log).map (eventText stamp))
  { results := desk.results
    remarks := said ++ desk.remarks ++ errorText error
    error
    work := desk.work }

/-- What the program ends with, unless it fails in a way that is not reported. -/
def Outcome.exitCode (outcome : Outcome) : Nat := if outcome.error.isSome then 1 else 0

end LogRedaction.CommandLine
