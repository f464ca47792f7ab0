/-
LogRedaction.Workspace — what a run works on, and what it leaves behind.

An action is a function from a workspace to a result and a workspace. The workspace comes
back also when the action fails: what has been written, reported and noted until then stays.
-/
import LogRedaction.Log
import LogRedaction.Report

namespace LogRedaction

/-- What makes the name of a temporary file unique: the time, and a number that is used once. -/
structure Token where
  /-- Negative before the time from which is counted. -/
  time : Int
  number : Nat
deriving DecidableEq, Repr

/-- The token as it stands in file names. -/
def Token.text (token : Token) : Text := toString token.time ++ "-" ++ toString token.number

/-- The state of the world around a run. -/
structure Workspace where
  disk : Disk
  report : Report
  /-- The number of the next token. -/
  nextToken : Nat
  /-- The time at which the token with a number is made. -/
  clock : Nat → Int
  /-- What has been noted, in order. -/
  log : List Event

/-- A function on workspaces that may fail. -/
abbrev Action (ε α : Type) := ExceptT ε (StateM Workspace) α

namespace Action

variable {ε α : Type}

/-- Notes an event. -/
def note (event : Event) : Action ε PUnit := modify fun w => { w with log := w.log ++ [event] }

/-- Notes events in order. -/
def noteAll (events : List Event) : Action ε PUnit :=
  modify fun w => { w with log := w.log ++ events }

/-- A fresh token. -/
def token : Action ε Token := do
  let w ← get
  set { w with nextToken := w.nextToken + 1 }
  return ⟨w.clock w.nextToken, w.nextToken⟩

/-- Adds a record to the report; the error is made from the fault. -/
def report (error : ReportFault → ε) (record : Record) : Action ε PUnit := do
  let w ← get
  match w.report.add? w.disk record with
  | .ok (report, disk) => set { w with report, disk }
  | .error fault => throw (error fault)

/-- Adds entries to the report. -/
def reportEntries (error : ReportFault → ε) (texts : List Text) : Action ε PUnit := do
  let w ← get
  match w.report.addEntries? w.disk texts with
  | .ok (report, disk) => set { w with report, disk }
  | .error fault => throw (error fault)

/-- An operation that changes the disk; the error is made from the refusal. -/
def changeDisk (change : Disk → Except DiskRefusal Disk) (error : DiskRefusal → ε) :
    Action ε PUnit := do
  let w ← get
  match change w.disk with
  | .ok disk => set { w with disk }
  | .error e => throw (error e)

end Action

end LogRedaction
