/-
LogRedaction.Main — the program.

The commands are functions on a disk. The program looks at every place that a command may
reach, runs the command on what it found there, and then makes the changes that the command
made. The names of characters come from a file in the format of `UnicodeData.txt`, if the
environment says where one is.

## §1 Looking at the host
## §2 Looking at the disk
## §3 Making changes
## §4 The program
-/
import LogRedaction.CommandLine.Execution
import Mathlib.Tactic.DeprecateTo

namespace LogRedaction.CommandLine

/-! ## §1 Looking at the host -/

/-- The names of characters in lines of fields, of which the first is the code point and the
second the name. -/
def namesIn (lines : List String) : List (List Char × Nat) :=
  lines.filterMap fun line =>
    match line.splitOn ";" with
    | code :: name :: _ =>
      (Text.readInteger 16 code).toOption.map fun code => (name.toList, code.toNat)
    | _ => none

/-- The home directories in lines of fields, of which the first is the user and the sixth the
directory. -/
def homesIn (lines : List String) : List (Text × Path) :=
  lines.filterMap fun line =>
    match line.splitOn ":" with
    | [user, _, _, _, _, home, _] => some (user, Path.ofText home)
    | _ => none

/-- The lines of a file; none if it cannot be read. -/
def linesOf (path : String) : IO (List String) := do
  try return ((← IO.FS.readFile path).splitOn "\n")
  catch _ => return []

theorem le_of_named {names : List (List Char × Nat)} {name : List Char} {code : Nat}
    (h : (names.lookup (name.map Char.toUpper)).filter (· ≤ 0x10FFFF) = some code) :
    code ≤ 0x10FFFF := by
  simpa using (Option.filter_eq_some_iff.mp h).2

/-- The host with these names and home directories. Its output is in UTF-8, and its stack has no
bounds. -/
@[reducible] def hostWith (names : List (List Char × Nat)) (homes : List (Text × Path)) : Host :=
  { Host.lenient ⟨"/", []⟩ with
    named? := fun name => (names.lookup (name.map Char.toUpper)).filter (· ≤ 0x10FFFF)
    named?_le := le_of_named
    home? := fun user => homes.lookup user
    complaint := fun _ => "malformed document"
    outputFault? := fun text => (Text.encodeError? text.toList).map Text.EncodeError.message }

/-- The host of this run. -/
def currentHost : IO Host := do
  let names ← match ← IO.getEnv "UNICODE_DATA" with
    | some path => linesOf path
    | none => pure []
  let home := (← IO.getEnv "HOME").getD "/"
  return hostWith (namesIn names) (("", Path.ofText home) :: homesIn (← linesOf "/etc/passwd"))

/-- What the environment says about options that are not given. -/
def currentDefaults : IO Defaults := do
  let standard : Defaults := {}
  return {
    patterns := ((← IO.getEnv "LOG_REDACTOR_PATTERNS").map Text.ofString).getD standard.patterns
    report := ((← IO.getEnv "LOG_REDACTOR_REPORT").map Text.ofString).getD standard.report }

/-! ## §2 Looking at the disk -/

/-- The text with escapes for halves of surrogate pairs. -/
def shown (text : Text) : String :=
  String.ofList (text.toList.flatMap fun c => match c with
    | .scalar c => [c]
    | .surrogate _ =>
      '\\' :: 'u' :: (Text.hexDigits 4 c.toNat).filterMap CodePoint.char?)

/-- A location as the text of a path. -/
def locationText (location : Location) : String := "/" ++ shown (Text.intercalate "/" location)

/-- What is at a location. The serial number is that of the place in the list of locations. -/
def probe (location : Location) (serial : Nat) : IO (Option Entry) := do
  try
    let bytes ← IO.FS.readBinFile (locationText location)
    return some (.file serial bytes.toList)
  catch
    | .inappropriateType .. => return some .directory
    | _ => return none

/-- The locations on the way to the end of a path. -/
def waysTo (workingDirectory : Location) (path : Path) : List Location :=
  let parts := (if path.isAbsolute then [] else workingDirectory) ++ path.parts
  (parts.foldl (fun (ways : List Location × Location) (part : Text) =>
    let next := if part = ".." then ways.2.dropLast else ways.2 ++ [part]
    (ways.1 ++ [next], next)) ([], [])).1

/-- The paths that a command names, and the copies that it may make. -/
def Command.paths [Host] (time : Int) : Command → List Path
  | .check common =>
    (common.patterns.toList.map Path.ofText).filterMap (Path.expandHome? Host.home?)
  | .redact common report _ files =>
    let named := (common.patterns.toList ++ report.toList).map Path.ofText
    let sources := files.map Path.ofText
    let tokens := (List.range files.length).map fun n => (⟨time, n + 1⟩ : Token)
    let copies := sources.flatMap fun source => tokens.map fun token => tempPath token source
    named.filterMap (Path.expandHome? Host.home?) ++ sources ++ copies

/-- The disk as far as paths reach. -/
def takePicture (workingDirectory : Location) (paths : List Path) : IO Disk := do
  let ways := waysTo workingDirectory ⟨"/", workingDirectory⟩
  let locations := (ways ++ paths.flatMap (waysTo workingDirectory)).eraseDups
  let mut entries : List (Location × Entry) := []
  let mut serial := 0
  for location in locations do
    match ← probe location serial with
    | some entry => entries := entries ++ [(location, entry)]
    | none => pure ()
    serial := serial + 1
  return ⟨entries.filter fun (location, _) => location ≠ [], serial, workingDirectory⟩

/-! ## §3 Making changes -/

/-- Makes the changes between two disks: directories, files, and what is gone. -/
def makeChanges (before after : Disk) : IO Unit := do
  let locations := (after.entries.map (·.1)).mergeSort fun a b => a.length ≤ b.length
  for location in locations do
    match after.get? location, before.get? location with
    | some .directory, none => IO.FS.createDir (locationText location)
    | some (.file _ content), found =>
      if found.isNone || before.bytesAt location ≠ content then
        IO.FS.writeBinFile (locationText location) ⟨content.toArray⟩
    | _, _ => pure ()
  for (location, _) in before.entries do
    if (after.get? location).isNone then IO.FS.removeFile (locationText location)

/-! ## §4 The program -/

/-- Runs what is asked for, and says what the program ends with. -/
def perform [Host] (invocation : Invocation) : IO UInt32 := do
  let time := (← Std.Time.Timestamp.now).toNanosecondsSinceUnixEpoch.val
  let here := Path.ofText (toString (← IO.currentDir))
  let disk ← takePicture here.parts (invocation.command.paths time)
  let work : Workspace :=
    { disk, report := .list [], nextToken := 1, clock := fun _ => time, log := [] }
  let outcome := invocation.execute (toString time) work
  makeChanges disk outcome.work.disk
  (← IO.getStdout).putStr (shown outcome.results)
  (← IO.getStderr).putStr (shown outcome.remarks)
  match outcome.error with
  | some e => if !e.isReported then (← IO.getStderr).putStrLn (shown e.message)
  | none => pure ()
  return outcome.exitCode.toUInt32

end LogRedaction.CommandLine

open LogRedaction.CommandLine in
/-- The program with its arguments. -/
def main (arguments : List String) : IO UInt32 := do
  match Invocation.ofArguments (← currentDefaults) (arguments.map LogRedaction.Text.ofString) with
  | .ok invocation =>
    let host ← currentHost
    @perform host invocation
  | .error stop =>
    (← IO.getStderr).putStrLn (shown stop.message)
    return stop.exitCode.toUInt32
