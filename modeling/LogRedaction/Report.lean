/-
LogRedaction.Report — the report of a run.

A report is a sequence of records: the start of a section, an entry, the end of a section.
There are two ways to keep it. In memory it is the list of its records. In a file each record
is a line; lines are gathered in a buffer and reach the file at the end of a section and when
the report is closed. A closed report takes no records, and a report in a file none whose
line has no bytes.

## §1 Records
## §2 Reports in files
## §3 Reports
-/
import LogRedaction.Disk.Basic
import LogRedaction.Host

namespace LogRedaction

/-! ## §1 Records -/

/-- What a record is about. -/
inductive RecordKind where
  | start
  | entry
  | finish
deriving DecidableEq, Repr

/-- One record. -/
structure Record where
  kind : RecordKind
  text : Text
deriving DecidableEq, Repr

/-- The name of a kind. -/
def RecordKind.name : RecordKind → Text
  | start => "start"
  | entry => "entry"
  | finish => "end"

/-- The record as a line. -/
def Record.render (record : Record) : Text :=
  match record.kind with
  | .start => "=== " ++ record.text
  | .finish => "--- Completed " ++ record.text
  | .entry => record.text

/-- The line of a record with its end. -/
def Record.line (record : Record) : List CodePoint := record.render.toList ++ [.scalar '\n']

/-! ## §2 Reports in files -/

/-- Where text goes in an open file. -/
inductive Mode where
  /-- To the end of the file, wherever that is. -/
  | append
  /-- To a position, which moves on with what is written. -/
  | at (position : Nat)
deriving DecidableEq, Repr

/-- The content of a file after bytes have been written to a position. -/
def overwrite (position : Nat) (bytes content : List UInt8) : List UInt8 :=
  let kept := content.take position
  kept ++ List.replicate (position - kept.length) 0 ++ bytes ++ content.drop (position + bytes.length)

/-- A report in a file. -/
structure FileReport where
  path : Path
  /-- The serial number of the file. -/
  serial : Nat
  mode : Mode
  /-- What has not reached the file yet. -/
  buffer : List UInt8
  closed : Bool
deriving Repr

namespace FileReport

/-- The buffer reaches the file. -/
def flush (report : FileReport) (disk : Disk) : FileReport × Disk :=
  let size := report.buffer.length
  match report.mode with
  | .append =>
    ({ report with buffer := [] }, disk.modify report.serial fun content => content ++ report.buffer)
  | .at position =>
    ({ report with buffer := [], mode := .at (position + size) },
      disk.modify report.serial fun content =>
        if size = 0 then content else overwrite position report.buffer content)

/-- Adds a line about a record; the end of a section reaches the file at once. -/
def add (report : FileReport) (disk : Disk) (kind : RecordKind) (line : List Char) :
    FileReport × Disk :=
  let report := { report with buffer := report.buffer ++ Text.encodeUtf8 line }
  if kind = .finish then report.flush disk else (report, disk)

/-- Closes the file. Closing it again has no effect. -/
def close (report : FileReport) (disk : Disk) : FileReport × Disk :=
  if report.closed then (report, disk)
  else
    let (report, disk) := report.flush disk
    ({ report with closed := true }, disk)

end FileReport

/-- Why a report in a file cannot be opened. -/
inductive ReportError where
  /-- The path starts with the tilde of an unknown user. -/
  | noHome
  | path (fault : PathFault)
  | disk (e : DiskError)
deriving DecidableEq, Repr

/-- The wording of an error. -/
def ReportError.message : ReportError → Text
  | noHome => noHomeMessage
  | path fault => fault.message
  | disk e => e.message

/-- Why a report does not take a record. -/
inductive ReportFault where
  | closed
  | unencodable (e : Text.EncodeError)
deriving DecidableEq, Repr

/-- The wording of a fault. -/
def ReportFault.message : ReportFault → Text
  | closed => "I/O operation on closed file."
  | unencodable e => e.message

/-- Opens a report in a file, and makes the directories above it. -/
def FileReport.open? [Host] (disk : Disk) (text : Text) (append : Bool) :
    Except ReportError FileReport × Disk :=
  match (Path.ofText text).expandHome? Host.home? with
  | none => (.error .noHome, disk)
  | some path =>
    match path.parent.fault? with
    | some fault => (.error (.path fault), disk)
    | none =>
      match disk.makeDirectories path.parent.parts.length path.parent with
      | .error e => (.error (.disk e), disk)
      | .ok disk =>
        match path.fault? with
        | some fault => (.error (.path fault), disk)
        | none =>
          match disk.openToWrite path (!append) with
          | .error e => (.error (.disk ⟨e, path.toText, none⟩), disk)
          | .ok (serial, disk) =>
            (.ok ⟨path, serial, if append then .append else .at 0, [], false⟩, disk)

/-! ## §3 Reports -/

/-- A report in memory or in a file. -/
inductive Report where
  | list (records : List Record)
  | file (report : FileReport)
deriving Repr

namespace Report

/-- Why the report does not take a record, if it does not. -/
def fault? (report : Report) (record : Record) : Option ReportFault :=
  match report with
  | list _ => none
  | file f =>
    if f.closed then some .closed else (Text.encodeError? record.line).map .unencodable

/-- The report with another record, if it takes it. -/
def add? (report : Report) (disk : Disk) (record : Record) : Except ReportFault (Report × Disk) :=
  match report with
  | list records => .ok (list (records ++ [record]), disk)
  | file f =>
    if f.closed then .error .closed
    else
      match Text.characters record.line with
      | .error e => .error (.unencodable e)
      | .ok line =>
        let (f, disk) := f.add disk record.kind line
        .ok (file f, disk)

/-- The report with more entries, if it takes them all. -/
def addEntries? (report : Report) (disk : Disk) : List Text → Except ReportFault (Report × Disk)
  | [] => .ok (report, disk)
  | text :: rest =>
    match report.add? disk ⟨.entry, text⟩ with
    | .error fault => .error fault
    | .ok (report, disk) => addEntries? report disk rest

/-- The report closed; in memory there is nothing to close. -/
def close (report : Report) (disk : Disk) : Report × Disk :=
  match report with
  | list records => (list records, disk)
  | file f =>
    let (f, disk) := f.close disk
    (file f, disk)

end Report

/-- The texts of the entries among the records. -/
def entryTexts (records : List Record) : List Text :=
  (records.filter fun record => record.kind = .entry).map (·.text)

/-- The records as lines. -/
def reportLines (records : List Record) : List Text := records.map Record.render

end LogRedaction
