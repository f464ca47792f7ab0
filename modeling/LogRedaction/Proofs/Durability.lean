/-
LogRedaction.Proofs.Durability — what the file of a report holds at any moment.

A report in memory and a report in a file are given the same records. The file does not take all of
them: where the line has no bytes the call fails, and nothing changes (`Report.move`). The file then
holds what was there when it was opened, and after it the beginning of the records it has taken, as
text; the rest is in the buffer (`FileReport.Holds`). How much has reached the file by then is up to
the system, which may write out a part of the buffer whenever it likes (`FileReport.spill`); a
section whose end has been taken is there in any case, and everything is after closing
(`fileReport_refines_list`). If every line has bytes, this is all that the report in memory has.

It makes no difference whether the file is added to or overwritten: in either case what is written
goes to its end (`FileReport.OpenAt.flush`).

## §1 What goes to the end of a file
## §2 Opening
## §3 Records and parts of the buffer
## §4 Both reports
-/
import LogRedaction.Proofs.Parallel

namespace LogRedaction

open Text

/-! ## §1 What goes to the end of a file -/

namespace FileReport

/-- What is written goes to the end of a file of the given size. -/
def AtEnd (f : FileReport) (size : Nat) : Prop := f.mode = .append ∨ f.mode = .at size

theorem overwrite_length (content bytes : List UInt8) :
    overwrite content.length bytes content = content ++ bytes := by
  simp [overwrite]

/-- The report is open in the file that the path names, which holds the content, and writes to its
end. -/
structure OpenAt (f : FileReport) (disk : Disk) (path : Path) (place : Location)
    (content : List UInt8) : Prop where
  isOpen : f.closed = false
  names : disk.Names path place
  file : disk.get? place = some (.file f.serial content)
  atEnd : f.AtEnd content.length

/-- The buffer goes to the end of the file, whether it is added to or overwritten. -/
theorem OpenAt.flush {f : FileReport} {disk : Disk} {path : Path} {place : Location}
    {content : List UInt8} (h : f.OpenAt disk path place content) :
    (f.flush disk).1.OpenAt (f.flush disk).2 path place (content ++ f.buffer) := by
  have hnames : ∀ change, (disk.modify f.serial change).Names path place := fun change =>
    (Disk.names_congr (Disk.sameDirectories_modify disk f.serial change)).mp h.names
  have hfile : ∀ change, (disk.modify f.serial change).get? place =
      some (.file f.serial (change content)) := by
    intro change
    rw [Disk.get?_modify, h.file]
    simp [Disk.changed]
  rw [FileReport.flush]
  rcases h.atEnd with hmode | hmode
  · rw [hmode]
    exact ⟨h.isOpen, hnames _, hfile _, .inl rfl⟩
  · rw [hmode]
    refine ⟨h.isOpen, hnames _, ?_, .inr (by simp)⟩
    rw [hfile]
    by_cases hempty : f.buffer.length = 0
    · rw [if_pos hempty, List.length_eq_zero_iff.mp hempty, List.append_nil]
    · rw [if_neg hempty, overwrite_length]

theorem flush_buffer (f : FileReport) (disk : Disk) : (f.flush disk).1.buffer = [] := by
  rw [flush]
  cases f.mode <;> rfl

theorem OpenAt.read {f : FileReport} {disk : Disk} {path : Path} {place : Location}
    {content : List UInt8} (h : f.OpenAt disk path place content) : disk.read path = .ok content :=
  Disk.read_eq_ok_iff.mpr ⟨place, f.serial, h.names, h.file⟩

end FileReport

/-! ## §2 Opening -/

/-- What the file at a location holds when it has been opened: what it held before, if it is to be
added to. -/
def Disk.openedContent (disk : Disk) (append : Bool) (location : Location) : List UInt8 :=
  if append then disk.bytesAt location else []

section Content

variable {disk : Disk} {place : Location}

theorem Disk.bytesAt_of_file {serial : Nat} {content : List UInt8}
    (h : disk.get? place = some (.file serial content)) : disk.bytesAt place = content := by
  rw [bytesAt, h]

theorem Disk.openedContent_of_none (h : disk.get? place = none) (append : Bool) :
    disk.openedContent append place = [] := by
  rw [openedContent, bytesAt, h]
  cases append <;> rfl

/-- A file that has been opened is there, and has lost its content if that was asked for. -/
theorem Disk.file_of_openToWrite {disk' : Disk} {path : Path} {append : Bool} {serial : Nat}
    (h : disk.openToWrite path (!append) = .ok (serial, disk')) :
    ∃ place, disk'.Names path place ∧ disk.get? place ≠ some .directory ∧
      disk'.get? place = some (.file serial (disk.openedContent append place)) := by
  rw [openToWrite] at h
  split at h
  · cases h
  · cases h
  · cases h
  · rename_i place hlocate
    obtain ⟨hnames, hnone⟩ := names_of_locate hlocate
    obtain ⟨rfl, rfl⟩ := Prod.mk.inj (Except.ok.inj h)
    have hspace : disk.get? place ≠ some .directory := by simp [← hnone]
    refine ⟨place, (names_congr (sameDirectories_putNew hnames.ne_nil hspace)).mp hnames, hspace,
      ?_⟩
    rw [get?_putNew _ _ hnames.ne_nil, if_pos rfl, openedContent_of_none hnone.symm]
  · rename_i place serial' content hlocate
    obtain ⟨hnames, hfile⟩ := names_of_locate hlocate
    obtain ⟨rfl, rfl⟩ := Prod.mk.inj (Except.ok.inj h)
    have hspace : disk.get? place ≠ some .directory := by simp [← hfile]
    cases append with
    | false =>
        refine ⟨place, (names_congr (sameDirectories_put hnames.ne_nil hspace)).mp hnames, hspace,
          ?_⟩
        exact (get?_put _ _ hnames.ne_nil).trans (if_pos rfl)
    | true =>
        exact ⟨place, hnames, hspace, by
          rw [openedContent, if_pos rfl, bytesAt_of_file hfile.symm]; exact hfile.symm⟩

end Content

/-- Making directories changes no file. -/
theorem Disk.DirectoriesMade.bytesAt_eq {a b : Disk} (h : DirectoriesMade a b) {place : Location}
    (hspace : b.get? place ≠ some .directory) : b.bytesAt place = a.bytesAt place := by
  rcases h.made place with heq | ⟨-, hmade⟩
  · rw [bytesAt, bytesAt, heq]
  · exact absurd hmade hspace

namespace Disk

/-- The text names a place in a directory that is there, where a file may be but no directory is. -/
structure TakesReport [Host] (disk : Disk) (text : Text) (place : Location) : Prop where
  path : ∃ path, (Path.ofText text).expandHome? Host.home? = some path ∧ path.fault? = none ∧
    disk.isDirectory path.parent ∧ disk.Names path place
  space : disk.get? place ≠ some .directory

/-- A directory that is there is not made again. -/
theorem makeDirectories_of_isDirectory {disk : Disk} {path : Path} (h : disk.isDirectory path)
    (missing : Nat) : disk.makeDirectories missing path = .ok disk := by
  have hmake : disk.makeDirectory path = .error .exists := by
    rw [isDirectory] at h
    rw [makeDirectory]
    split at h
    · rename_i hlocate
      rw [hlocate]
    · rename_i hlocate
      rw [hlocate]
    · cases h
  cases missing with
  | zero =>
      rw [makeDirectories, hmake]
      simp [h]
  | succ missing =>
      rw [makeDirectories, hmake]
      simp [h]

theorem exists_openToWrite {disk : Disk} {path : Path} {place : Location}
    (hnames : disk.Names path place) (hspace : disk.get? place ≠ some .directory)
    (truncate : Bool) : ∃ serial disk', disk.openToWrite path truncate = .ok (serial, disk') := by
  rw [Names] at hnames
  rw [openToWrite, hnames]
  rcases hget : disk.get? place with _ | _ | ⟨serial, content⟩
  · exact ⟨_, _, rfl⟩
  · exact absurd hget hspace
  · exact ⟨_, _, rfl⟩

end Disk

namespace FileReport

/-- A report is opened if its file is. -/
theorem open?_eq [Host] {disk opened : Disk} {path : Path} {text : Text} {append : Bool}
    {serial : Nat} (hpath : (Path.ofText text).expandHome? Host.home? = some path)
    (hsound : path.fault? = none) (hparent : disk.isDirectory path.parent)
    (hopen : disk.openToWrite path (!append) = .ok (serial, opened)) :
    open? disk text append =
      (.ok ⟨path, serial, if append then .append else .at 0, [], false⟩, opened) := by
  rw [open?, hpath]
  simp only [Path.fault?_parent hsound, hsound, Disk.makeDirectories_of_isDirectory hparent, hopen]

/-- A report that has been opened has an empty buffer, and its file holds what it held before, if it
is to be added to. -/
theorem openAt_of_open? [Host] {disk opened : Disk} {text : Text} {append : Bool}
    {f : FileReport} (h : open? disk text append = (.ok f, opened)) :
    f.buffer = [] ∧ ∃ place, f.OpenAt opened f.path place (disk.openedContent append place) := by
  rw [open?] at h
  split at h
  · cases h
  split at h
  · cases h
  split at h
  · cases h
  rename_i between hmade
  have hmade := Disk.directoriesMade hmade
  split at h
  · cases h
  split at h
  · cases h
  rename_i serial opened' hopen
  obtain ⟨hf, rfl⟩ := Prod.mk.inj h
  obtain rfl := Except.ok.inj hf
  obtain ⟨place, hnames, hspace, hfile⟩ := Disk.file_of_openToWrite hopen
  rw [Disk.openedContent, hmade.bytesAt_eq hspace, ← Disk.openedContent] at hfile
  refine ⟨rfl, place, rfl, hnames, hfile, ?_⟩
  cases append with
  | false => exact .inr rfl
  | true => exact .inl rfl

/-! ## §3 Records and parts of the buffer -/

/-- The system writes out what comes first in the buffer, up to the given size. -/
def spill (f : FileReport) (disk : Disk) (size : Nat) : FileReport × Disk :=
  let (g, disk) := { f with buffer := f.buffer.take size }.flush disk
  ({ g with buffer := f.buffer.drop size }, disk)

/-- The records have been added to a file that held the initial content. What has been written of
them is in the file, with every section that has ended, and the rest is in the buffer. -/
structure Holds (f : FileReport) (disk : Disk) (path : Path) (place : Location)
    (initial : List UInt8) (records : List Record) (written : List UInt8) : Prop where
  openAt : f.OpenAt disk path place (initial ++ written)
  bytes : written ++ f.buffer = encodeUtf8 (fileText records)
  ended : ∀ before label, before ++ [⟨.finish, label⟩] <+: records →
    encodeUtf8 (fileText (before ++ [⟨.finish, label⟩])) <+: written

/-- The text of the first records is the first part of the text. -/
theorem encode_fileText_prefix {before records : List Record} (h : before <+: records) :
    encodeUtf8 (fileText before) <+: encodeUtf8 (fileText records) := by
  obtain ⟨more, rfl⟩ := h
  rw [fileText_append, encodeUtf8_append]
  exact List.prefix_append _ _

section Steps

variable {f : FileReport} {disk : Disk} {path : Path} {place : Location} {initial : List UInt8}
  {records : List Record} {written : List UInt8}
  (h : f.Holds disk path place initial records written)
include h

/-- Whatever part of the buffer reaches the file, it continues what is there. -/
theorem Holds.spill (size : Nat) :
    (f.spill disk size).1.Holds (f.spill disk size).2 path place initial records
      (written ++ f.buffer.take size) := by
  have hcut : OpenAt { f with buffer := f.buffer.take size } disk path place (initial ++ written) :=
    ⟨h.openAt.isOpen, h.openAt.names, h.openAt.file, h.openAt.atEnd⟩
  have hflushed := hcut.flush
  rw [List.append_assoc] at hflushed
  refine ⟨⟨hflushed.isOpen, hflushed.names, hflushed.file, hflushed.atEnd⟩, ?_, ?_⟩
  · rw [List.append_assoc]
    exact (congrArg (written ++ ·) (List.take_append_drop size f.buffer)).trans h.bytes
  · exact fun before label hbefore => (h.ended before label hbefore).trans (List.prefix_append _ _)

/-- After a flush everything is in the file. -/
theorem Holds.flush :
    (f.flush disk).1.Holds (f.flush disk).2 path place initial records
      (encodeUtf8 (fileText records)) := by
  have hflushed := h.openAt.flush
  rw [List.append_assoc, h.bytes] at hflushed
  exact ⟨hflushed, by rw [flush_buffer, List.append_nil],
    fun before label hbefore => encode_fileText_prefix hbefore⟩

/-- A record goes into the buffer; the end of a section goes into the file, with all before it. -/
theorem Holds.add (record : Record) : ∃ written',
    (f.add disk record.kind record.written).1.Holds (f.add disk record.kind record.written).2 path
      place initial (records ++ [record]) written' := by
  have hbytes : written ++ (f.buffer ++ encodeUtf8 record.written) =
      encodeUtf8 (fileText (records ++ [record])) := by
    rw [← List.append_assoc, h.bytes, fileText_append, encodeUtf8_append]
    simp [fileText]
  have hopen : OpenAt { f with buffer := f.buffer ++ encodeUtf8 record.written } disk path
      place (initial ++ written) :=
    ⟨h.openAt.isOpen, h.openAt.names, h.openAt.file, h.openAt.atEnd⟩
  rw [FileReport.add]
  by_cases hkind : record.kind = .finish
  · rw [if_pos hkind]
    have hflushed := hopen.flush
    rw [List.append_assoc, hbytes] at hflushed
    exact ⟨_, hflushed, by rw [flush_buffer, List.append_nil],
      fun before label hbefore => encode_fileText_prefix hbefore⟩
  · rw [if_neg hkind]
    refine ⟨written, hopen, hbytes, fun before label hbefore => ?_⟩
    rcases List.prefix_concat_iff.mp hbefore with heq | hbefore
    · -- The record that is added last ends no section.
      obtain ⟨-, hlast⟩ := List.append_inj' heq rfl
      obtain rfl := List.singleton_inj.mp hlast
      exact absurd rfl hkind
    · exact h.ended before label hbefore

/-- When the report is closed everything is in the file. -/
theorem Holds.close : ∃ g last, f.close disk = (g, last) ∧ g.closed = true ∧
    last.read path = .ok (initial ++ encodeUtf8 (fileText records)) := by
  refine ⟨{ (f.flush disk).1 with closed := true }, (f.flush disk).2, ?_, rfl, h.flush.openAt.read⟩
  rw [FileReport.close, if_neg (by simp [h.openAt.isOpen])]

end Steps

theorem close_closed {f : FileReport} (h : f.closed = true) (disk : Disk) :
    f.close disk = (f, disk) := by
  rw [close, if_pos h]

end FileReport

/-! ## §4 Both reports -/

/-- What happens to a report while it is open. -/
inductive Move where
  /-- A record is added. -/
  | add (record : Record)
  /-- The system writes out a part of the buffer. -/
  | spill (size : Nat)

namespace Move

/-- The records that are added. -/
def records : List Move → List Record
  | [] => []
  | add record :: moves => record :: records moves
  | spill _ :: moves => records moves

/-- Those of them that can be written. -/
def written (moves : List Move) : List Record :=
  (records moves).filter fun record => record.render.Writable

/-- Why a file that is open does not take the record, if it does not. -/
def fault? : Move → Option ReportFault
  | add record => (Text.encodeError? record.line).map .unencodable
  | spill _ => none

end Move

namespace Report

/-- One move: what it fails with, if it fails, and what comes after it. A record that is not taken
changes nothing, and in memory there is no buffer. -/
def move (report : Report) (disk : Disk) : Move → Option ReportFault × Report × Disk
  | .add record =>
    match report.add? disk record with
    | .ok next => (none, next)
    | .error fault => (some fault, report, disk)
  | .spill size =>
    match report with
    | list records => (none, list records, disk)
    | file f => (none, file (f.spill disk size).1, (f.spill disk size).2)

/-- Moves one after the other, whether they fail or not. -/
def moves (report : Report) (disk : Disk) : List Move → List (Option ReportFault) × Report × Disk
  | [] => ([], report, disk)
  | first :: rest =>
    let (fault, report, disk) := report.move disk first
    let (faults, last) := report.moves disk rest
    (fault :: faults, last)

/-- In memory there are the records. -/
theorem moves_list (disk : Disk) (moves : List Move) (records : List Record) :
    (list records).moves disk moves =
      (moves.map fun _ => none, list (records ++ Move.records moves), disk) := by
  induction moves generalizing records with
  | nil => rw [Report.moves, Move.records, List.append_nil, List.map_nil]
  | cons first rest ih =>
      cases first with
      | add record =>
          rw [Report.moves, move, add?]
          simp only
          rw [ih, Move.records, List.append_assoc, List.singleton_append, List.map_cons]
      | spill size =>
          rw [Report.moves, move]
          simp only
          rw [ih, Move.records, List.map_cons]

end Report

namespace FileReport

section Runs

variable {path : Path} {place : Location} {initial : List UInt8}

/-- A move goes on with what is there, unless it fails. -/
theorem Holds.move {f : FileReport} {disk : Disk} {records : List Record} {written : List UInt8}
    (h : f.Holds disk path place initial records written) (move : Move) :
    ∃ g disk' written', (Report.file f).move disk move = (move.fault?, .file g, disk') ∧
      g.Holds disk' path place initial (records ++ Move.written [move]) written' := by
  cases move with
  | add record =>
      rw [Report.move, Move.fault?, Move.written, Move.records, Move.records]
      by_cases hrecord : record.render.Writable
      · have htakes : (Report.file f).Takes record :=
          Report.takes_file_iff.mpr ⟨h.openAt.isOpen, hrecord⟩
        have hline : Text.encodeError? record.line = none := by
          simpa [Report.Takes, Report.fault?, h.openAt.isOpen] using htakes
        obtain ⟨written', hadd⟩ := h.add record
        rw [Report.add?_file htakes, hline, List.filter_cons_of_pos (by simpa using hrecord),
          List.filter_nil]
        exact ⟨_, _, written', rfl, hadd⟩
      · have hfault : (Report.file f).fault? record =
            (Text.encodeError? record.line).map .unencodable := by
          rw [Report.fault?, if_neg (by simp [h.openAt.isOpen])]
        cases herror : Text.encodeError? record.line with
        | none =>
            rw [herror] at hfault
            exact absurd (Report.takes_file_iff.mp hfault).2 hrecord
        | some e =>
            rw [herror] at hfault
            rw [Report.add?_eq_error_iff.mpr hfault,
              List.filter_cons_of_neg (by simpa using hrecord), List.filter_nil, List.append_nil]
            exact ⟨f, disk, written, rfl, h⟩
  | spill size =>
      refine ⟨_, _, written ++ f.buffer.take size, rfl, ?_⟩
      rw [Move.written, Move.records, Move.records, List.filter_nil, List.append_nil]
      exact h.spill size

theorem Holds.moves {f : FileReport} {disk : Disk} {records : List Record} {written : List UInt8}
    (h : f.Holds disk path place initial records written) (moves : List Move) :
    ∃ g disk' written',
      (Report.file f).moves disk moves = (moves.map Move.fault?, .file g, disk') ∧
      g.Holds disk' path place initial (records ++ Move.written moves) written' := by
  induction moves generalizing f disk records written with
  | nil => exact ⟨f, disk, written, rfl, by rwa [Move.written, Move.records, List.filter_nil,
      List.append_nil]⟩
  | cons first rest ih =>
      obtain ⟨g, disk', written', hmove, hnext⟩ := h.move first
      obtain ⟨last, disk'', written'', hmoves, hlast⟩ := ih hnext
      refine ⟨last, disk'', written'', ?_, ?_⟩
      · rw [Report.moves, hmove]
        simp only [hmoves, List.map_cons]
      · rw [List.append_assoc, Move.written, Move.written, ← List.filter_append] at hlast
        cases first <;> exact hlast

end Runs

end FileReport

/-- While records are added, the file of a report holds what it held when it was opened, and after
that the beginning of what the report in memory renders, at least up to the last section that has
ended. When it is closed it holds all of it, and from then on nothing is taken and nothing changes.
A record whose line has no bytes is left out of the file: the call fails and changes nothing. -/
theorem fileReport_refines_list [Host] {disk : Disk} {text : Text} {append : Bool} :
    (∀ place, disk.TakesReport text place →
      ∃ f opened, FileReport.open? disk text append = (.ok f, opened)) ∧
    ∀ f opened, FileReport.open? disk text append = (.ok f, opened) →
      ∃ place, opened.Names f.path place ∧ ∀ moves, ∃ g now written closed last,
        (Report.file f).moves opened moves = (moves.map Move.fault?, .file g, now) ∧
        (Report.list []).moves opened moves =
          (moves.map fun _ => none, .list (Move.records moves), opened) ∧
        now.read f.path = .ok (disk.openedContent append place ++ written) ∧
        written <+: encodeUtf8 (fileText (Move.written moves)) ∧
        (∀ before label, before ++ [⟨.finish, label⟩] <+: Move.written moves →
          encodeUtf8 (fileText (before ++ [⟨.finish, label⟩])) <+: written) ∧
        (Report.file g).close now = (closed, last) ∧
        last.read f.path =
          .ok (disk.openedContent append place ++ encodeUtf8 (fileText (Move.written moves))) ∧
        (∀ disk, closed.close disk = (closed, disk)) ∧
        ∀ (ε : Type) (e : ReportFault → ε) (record : Record) (w : Workspace), w.report = closed →
          (Action.report e record).run w = (.error (e .closed), w) := by
  refine ⟨fun place htakes => ?_, fun f opened hopen => ?_⟩
  · obtain ⟨path, hpath, hsound, hparent, hnames⟩ := htakes.path
    obtain ⟨serial, opened, hopen⟩ := Disk.exists_openToWrite hnames htakes.space (!append)
    exact ⟨_, opened, FileReport.open?_eq hpath hsound hparent hopen⟩
  · obtain ⟨hbuffer, place, hopened⟩ := FileReport.openAt_of_open? hopen
    have hstart : f.Holds opened f.path place (disk.openedContent append place) [] [] :=
      ⟨by rwa [List.append_nil], hbuffer, by simp⟩
    refine ⟨place, hopened.names, fun moves => ?_⟩
    obtain ⟨g, now, written, hmoves, hholds⟩ := hstart.moves moves
    obtain ⟨closed, last, hclose, hclosed, hread⟩ := hholds.close
    refine ⟨g, now, written, .file closed, last, hmoves, Report.moves_list opened moves [],
      hholds.openAt.read, ?_, hholds.ended, ?_, hread, ?_, ?_⟩
    · rw [← List.nil_append (Move.written moves), ← hholds.bytes]
      exact List.prefix_append _ _
    · rw [Report.close, hclose]
    · intro disk
      rw [Report.close, FileReport.close_closed hclosed]
    · intro ε e record w hw
      rw [Action.run_report, hw, Report.add?, if_pos hclosed]

/-- A directory with a report of an earlier run. -/
def reportDisk : Disk := ⟨[(["report"], .file 0 (encodeUtf8 "old\n".toList))], 1, []⟩

/-- The report when it has been opened to be added to. -/
def reportFile : FileReport := ⟨⟨"/", ["report"]⟩, 0, .append, [], false⟩

/-- A text that has no bytes. -/
def halfText : Text := Text.ofList [.ofNat 0xD800]

section Sample

attribute [local instance] sampleHost

/-- An entry that has no bytes is in the report in memory; the file refuses it, and holds nothing of
it when it is closed. -/
theorem fileReport_refuses_half :
    FileReport.open? reportDisk "/report" true = (.ok reportFile, reportDisk) ∧
    (Report.list []).moves reportDisk [.add ⟨.entry, halfText⟩] =
      ([none], .list [⟨.entry, halfText⟩], reportDisk) ∧
    reportLines [⟨.entry, halfText⟩] = [halfText] ∧
    (Report.file reportFile).moves reportDisk [.add ⟨.entry, halfText⟩] =
      ([some (.unencodable ⟨0, 1, .surrogate 0⟩)], .file reportFile, reportDisk) ∧
    ((Report.file reportFile).close reportDisk).2.read ⟨"/", ["report"]⟩ =
      .ok (encodeUtf8 "old\n".toList) :=
  ⟨rfl, rfl, rfl, rfl, by decide +kernel⟩

/-- One section has ended, and the next has only begun when a part of its first line is written out.
Between them an entry has been refused. -/
theorem fileReport_refines_list_begun : ∃ g now written,
    (Report.file reportFile).moves reportDisk [.add ⟨.start, "/a"⟩, .spill 3, .add ⟨.finish, "/a"⟩,
      .add ⟨.entry, halfText⟩, .add ⟨.start, "/b"⟩, .spill 4] =
        ([none, none, none, some (.unencodable ⟨0, 1, .surrogate 0⟩), none, none], .file g, now) ∧
    now.read ⟨"/", ["report"]⟩ = .ok (encodeUtf8 "old\n".toList ++ written) ∧
    written <+: encodeUtf8 "=== /a\n--- Completed /a\n=== /b\n".toList ∧
    encodeUtf8 "=== /a\n--- Completed /a\n".toList <+: written := by
  have htakes : reportDisk.TakesReport "/report" ["report"] :=
    ⟨⟨⟨"/", ["report"]⟩, by decide +kernel, by decide +kernel, by decide +kernel, by rfl⟩,
      by decide +kernel⟩
  obtain ⟨hopens, hruns⟩ := @fileReport_refines_list _ reportDisk "/report" true
  obtain ⟨f, opened, hopen⟩ := hopens ["report"] htakes
  obtain ⟨place, hnames, hmoves⟩ := hruns f opened hopen
  have hreport : FileReport.open? reportDisk "/report" true = (.ok reportFile, reportDisk) := rfl
  obtain ⟨hf, rfl⟩ := Prod.mk.inj (hopen.symm.trans hreport)
  obtain rfl := Except.ok.inj hf
  obtain rfl : place = ["report"] := hnames.unique rfl
  obtain ⟨g, now, written, -, -, hmoved, -, hread, hprefix, hended, -⟩ :=
    hmoves [.add ⟨.start, "/a"⟩, .spill 3, .add ⟨.finish, "/a"⟩, .add ⟨.entry, halfText⟩,
      .add ⟨.start, "/b"⟩, .spill 4]
  have htaken : Move.written [.add ⟨.start, "/a"⟩, .spill 3, .add ⟨.finish, "/a"⟩,
      .add ⟨.entry, halfText⟩, .add ⟨.start, "/b"⟩, .spill 4] =
        [⟨.start, "/a"⟩, ⟨.finish, "/a"⟩, ⟨.start, "/b"⟩] := by
    decide +kernel
  rw [htaken] at hprefix hended
  exact ⟨g, now, written, hmoved, hread, hprefix,
    hended [⟨.start, "/a"⟩] "/a" ⟨[⟨.start, "/b"⟩], rfl⟩⟩

end Sample

end LogRedaction
