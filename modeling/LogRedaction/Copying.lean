/-
LogRedaction.Copying — redacted copies of log files.

A file is never changed here. It is read, and its redacted lines go to a new file beside it,
whose name is made from a fresh token and its own name. The copy is kept also when reading or
writing fails in the middle; the record of the file says whether it is complete.

All rules are compiled before the first file is opened, so a bad identity or a bad rule
leaves no trace on the disk or in the report.

## §1 Records of files
## §2 Errors
## §3 Lines
## §4 Files
-/
import LogRedaction.Identity
import LogRedaction.Line
import LogRedaction.Text.Lines
import LogRedaction.Workspace

namespace LogRedaction

variable [Host]

/-! ## §1 Records of files -/

/-- How far a file has been copied. -/
inductive CopyState where
  | notStarted
  | reading
  | completed
  | failed
deriving DecidableEq, Repr

/-- The name of a state. -/
def CopyState.name : CopyState → Text
  | notStarted => "not_started"
  | reading => "reading"
  | completed => "completed"
  | failed => "failed"

/-- A log file and its temporary copy. -/
structure FileCopy where
  source : Path
  temp : Option Path := none
  state : CopyState := .notStarted
  lines : Nat := 0
  matchedLines : Nat := 0
  substitutions : Nat := 0
deriving DecidableEq, Repr

/-- What the names of temporary copies start with. -/
def tempMark : Text := "anon-"

/-- The name of the temporary copy of a file. -/
def tempName (token : Token) (name : Text) : Text := tempMark ++ token.text ++ "-" ++ name

/-- The temporary copy of a file, beside it. -/
def tempPath (token : Token) (source : Path) : Path := source.sibling (tempName token source.name)

/-! ## §2 Errors -/

/-- Why a file cannot be read or copied. -/
inductive FileFault where
  | disk (e : DiskError)
  | undecodable (e : Text.Utf8Error)
  /-- A path, a redacted line or an entry of the report has no bytes. -/
  | unencodable (e : Text.EncodeError)
deriving DecidableEq, Repr

/-- The wording of a fault. -/
def FileFault.message : FileFault → Text
  | disk e => e.message
  | undecodable e => e.message
  | unencodable e => e.message

/-- A file that could not be copied. -/
structure FileFailure where
  source : Path
  /-- The temporary copy, if its name was chosen. -/
  temp : Option Path
  cause : FileFault
deriving DecidableEq, Repr

/-- The wording of a failure. -/
def FileFailure.message (failure : FileFailure) : Text :=
  "Error occurred while processing log file " ++ failure.source.toText ++ ": " ++
    failure.cause.message

/-- Why the copying of one file ends early. -/
inductive FileError where
  | failure (e : FileFailure)
  | line (e : LineError)
  | nulInPath
  | report (fault : ReportFault)
deriving DecidableEq, Repr

/-- Why a run ends early. -/
inductive RunError where
  | identity (e : IdentityError)
  | rule (e : CompileError)
  /-- A file could not be copied; the files before it were. -/
  | file (e : FileFailure) (completed : List FileCopy)
  | line (e : LineError)
  | nulInPath
  | report (fault : ReportFault)

/-- The wording of an error. -/
def RunError.message : RunError → Text
  | identity e => e.message
  | rule e => e.message
  | file e _ => e.message
  | line e => e.message
  | nulInPath => nulMessage
  | report fault => fault.message

/-! ## §3 Lines -/

/-- Rules ready for use, with the values of a user. -/
structure Job where
  rules : List CompiledRule
  mapping : Mapping
  pseudonym : Text

/-- The event of a hit. -/
def Hit.event (source : Text) (line : Int) (hit : Hit) : Event :=
  if hit.substituted then .replaced source line hit.key else .noted source line hit.key

/-- Why the redaction of lines stops before their end. -/
inductive LineStop where
  /-- A rule cannot be applied. -/
  | rule (e : LineError)
  /-- The redacted line has no bytes. -/
  | text (e : Text.EncodeError)
  /-- The redacted line has been written, but the report does not take an entry about it. -/
  | entry (fault : ReportFault)
deriving DecidableEq, Repr

/-- The course of redacting a file. -/
structure FileCourse where
  /-- The redacted lines that are written, with the hits of each that are reported. -/
  lines : List (List Char × List Hit)
  /-- The hits that are noted and not reported, and why nothing comes after them. -/
  stop : Option (List Hit × LineStop)

/-- Redacts lines up to the first that fails. -/
def redactLines (job : Job) : List (List Char) → FileCourse
  | [] => ⟨[], none⟩
  | line :: rest =>
    let lineCourse := applyRules job.mapping job.pseudonym.toList job.rules (line.map .scalar)
    match lineCourse.failure with
    | some e => ⟨[], some (lineCourse.hits, .rule e)⟩
    | none =>
      match Text.characters lineCourse.text with
      | .error e => ⟨[], some (lineCourse.hits, .text e)⟩
      | .ok text =>
        let course := redactLines job rest
        { course with lines := (text, lineCourse.hits) :: course.lines }

/-- The hits on a line before the first whose entry the report does not take, and this one with
those after it. -/
def splitRefused (report : Report) (label : Text) (number : Nat) :
    List Hit → List Hit × Option (List Hit × ReportFault)
  | [] => ([], none)
  | hit :: rest =>
    match report.fault? ⟨.entry, (hit.entry label number).format⟩ with
    | some fault => ([], some (hit :: rest, fault))
    | none =>
      let (taken, refused) := splitRefused report label number rest
      (hit :: taken, refused)

namespace FileCourse

/-- The course as far as the report takes the entries about its lines, the first of which has the
given number. -/
def reportedIn (report : Report) (label : Text) (stop : Option (List Hit × LineStop)) :
    (number : Nat) → List (List Char × List Hit) → FileCourse
  | _, [] => ⟨[], stop⟩
  | number, (line, hits) :: rest =>
    match splitRefused report label number hits with
    | (taken, some (refused, fault)) => ⟨[(line, taken)], some (refused, .entry fault)⟩
    | (taken, none) =>
      let course := reportedIn report label stop (number + 1) rest
      { course with lines := (line, taken) :: course.lines }

/-- The redacted lines, each with its end. -/
def text (course : FileCourse) : List Char :=
  course.lines.flatMap fun (line, _) => line ++ ['\n']

/-- The hits, each with the number of its line. -/
def numbered (lines : List (List Char × List Hit)) : List (Nat × Hit) :=
  (lines.mapIdx fun i (_, hits) => hits.map fun hit => (i + 1, hit)).flatten

/-- The entries of the report. -/
def entries (course : FileCourse) (label : Text) : List Text :=
  (numbered course.lines).map fun (n, hit) => (hit.entry label n).format

/-- The hits that are not reported, each with the number of its line. -/
def unreported (course : FileCourse) : List (Nat × Hit) :=
  match course.stop with
  | none => []
  | some (hits, .entry _) => hits.map fun hit => (course.lines.length, hit)
  | some (hits, _) => hits.map fun hit => (course.lines.length + 1, hit)

/-- What is noted about the lines. -/
def events (course : FileCourse) (label : Text) : List Event :=
  (numbered course.lines ++ course.unreported).map fun (n, hit) => hit.event label n

/-- The number of lines that some rule matched. -/
def matched (course : FileCourse) : Nat :=
  (course.lines.filter fun (_, hits) => !hits.isEmpty).length

/-- The number of hits that replaced something. -/
def substitutions (course : FileCourse) : Nat :=
  ((numbered course.lines).filter fun (_, hit) => hit.substituted).length

end FileCourse

/-! ## §4 Files -/

/-- Notes that a file failed. -/
def fail {α : Type} (failure : FileFailure) : Action FileError α := do
  Action.note (.failed failure.source.toText failure.cause.message)
  throw (.failure failure)

/-- Copies the redacted lines of an open file to its temporary copy. -/
def copyLines (job : Job) (label : Text) (source temp : Path) (content : List UInt8) :
    Action FileError FileCopy := do
  let (lines, fault) := Text.readLines content
  let redacted := redactLines job lines
  let course := FileCourse.reportedIn (← get).report label redacted.stop 1 redacted.lines
  let bytes := Text.encodeUtf8 course.text
  match (← get).disk.create temp bytes with
  | .error e => fail ⟨source, some temp, .disk ⟨e, temp.toText, none⟩⟩
  | .ok disk =>
    modify fun w => { w with disk }
    Action.noteAll (course.events label)
    Action.reportEntries .report (course.entries label)
    match course.stop, fault with
    | some (_, .rule e), _ => throw (.line e)
    | some (_, .text e), _ => fail ⟨source, some temp, .unencodable e⟩
    | some (_, .entry (.unencodable e)), _ => fail ⟨source, some temp, .unencodable e⟩
    | some (_, .entry .closed), _ => throw (.report .closed)
    | none, some e => fail ⟨source, some temp, .undecodable e⟩
    | none, none =>
      return {
        source
        temp := some temp
        state := .completed
        lines := course.lines.length
        matchedLines := course.matched
        substitutions := course.substitutions }

/-- Copies one file. -/
def copyFile (job : Job) (source : Path) : Action FileError FileCopy := do
  let label := (Path.absolute (← get).disk.workingPath source).toText
  Action.report .report ⟨.start, label⟩
  Action.note (.reading source.name)
  match source.fault? with
  | some .nul => throw .nulInPath
  | some (.unencodable e) => fail ⟨source, none, .unencodable e⟩
  | none =>
    match (← get).disk.read source with
    | .error e => fail ⟨source, none, .disk ⟨e, source.toText, none⟩⟩
    | .ok content =>
      let temp := tempPath (← Action.token) source
      let copy ← copyLines job label source temp content
      Action.note (.completed source.toText copy.lines copy.matchedLines copy.substitutions)
      Action.report .report ⟨.finish, label⟩
      return copy

/-- Copies files in order, after those already copied, up to the first that fails. -/
def copyEach (job : Job) : (completed : List FileCopy) → List Path →
    Action RunError (List FileCopy)
  | completed, [] => return completed
  | completed, source :: rest => fun w =>
    match (copyFile job source).run w with
    | (.ok copy, w) => copyEach job (completed ++ [copy]) rest w
    | (.error e, w) =>
      let e : RunError := match e with
        | .failure e => .file e completed
        | .line e => .line e
        | .nulInPath => .nulInPath
        | .report fault => .report fault
      (.error e, w)

/-- Compiles the rules for a user, and notes which ones are compiled. -/
def prepare (identity : Identity) (rules : List Rule) : Action RunError Job := do
  let mapping := identity.mapping
  Action.noteAll ((Rule.examined mapping rules).map fun rule => .compiling rule.key)
  match Rule.compileAll mapping rules with
  | .ok compiled => return ⟨compiled, mapping, identity.pseudonym⟩
  | .error e => throw (.rule e)

/-- Copies files for a user. -/
def copyFiles (form : IdentityForm) (rules : List Rule) (files : List Path) :
    Action RunError (List FileCopy) := do
  match form.check with
  | .error e => throw (.identity e)
  | .ok identity =>
    let job ← prepare identity rules
    copyEach job [] files

end LogRedaction
