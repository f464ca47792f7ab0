/-
LogRedaction.Proofs.Parallel — the report makes no difference to the work.

Two runs copy the same files for the same job; the one keeps its report in memory, the other in a
file. Step by step they stay `Parallel`: the same has been noted, the same tokens have been taken, the
disks are alike but for the file of the report, and what is in this file and in its buffer is the
report in memory as text. So both runs end in the same way, wherever that is (`copyEach_parallel`).

It is asked that no file and no copy is, or is reached through, the file of the report, and that the
file can take the report: what the first run has reported in the end has bytes
(`Report.Encodable`). A report only grows, so what it has on the way has bytes too.

## §1 A report in two places
## §2 Parallel workspaces
## §3 Copying
## §4 Discarding and putting in place
-/
import LogRedaction.Proofs.Disk.Beside
import LogRedaction.Proofs.Growth

namespace LogRedaction

open Text

/-! ## §1 A report in two places -/

/-- The record as a line with its end. -/
def Record.written (record : Record) : List Char := record.render.chars ++ ['\n']

/-- The records as text. -/
def fileText (records : List Record) : List Char := records.flatMap Record.written

theorem fileText_append (records more : List Record) :
    fileText (records ++ more) = fileText records ++ fileText more := List.flatMap_append

/-- What is in the report, if it is in memory, has bytes. -/
def Report.Encodable (report : Report) : Prop :=
  ∀ records, report = .list records → ∀ record ∈ records, record.render.Writable

section Encodable

variable {report next : Report} {more : List Record} (h : next.Encodable)
  (hgrows : report.GrowsBy more next)
include h hgrows

/-- What is in a report has bytes if in the end all that is in it has. -/
theorem Report.Encodable.before : report.Encodable := by
  rintro records rfl record hrecord
  exact h _ (Report.growsBy_list_iff.mp hgrows) record (List.mem_append_left _ hrecord)

/-- So does what has been added to it. -/
theorem Report.Encodable.added (hmemory : report.serial? = none) :
    ∀ record ∈ more, record.render.Writable := by
  cases report with
  | file f => cases hmemory
  | list records =>
      intro record hrecord
      exact h _ (Report.growsBy_list_iff.mp hgrows) record (List.mem_append_right _ hrecord)

end Encodable

/-- The report takes these records at its end: the first of its bytes have reached the file, and the
others are in the buffer. -/
structure FileReport.Keeps (f : FileReport) (records : List Record) (written : List UInt8) :
    Prop where
  isOpen : f.closed = false
  appends : f.mode = .append
  bytes : written ++ f.buffer = encodeUtf8 (fileText records)

namespace FileReport

variable {f : FileReport} {records : List Record} {written : List UInt8} {start a b : Disk}
  {place : Location} (h : f.Keeps records written)
include h

theorem Keeps.flush (hdisk : Disk.Beside start place f.serial written a b) :
    (f.flush b).1.Keeps records (encodeUtf8 (fileText records)) ∧
      Disk.Beside start place (f.flush b).1.serial (encodeUtf8 (fileText records)) a
        (f.flush b).2 := by
  rw [flush_append h.appends]
  refine ⟨⟨h.isOpen, h.appends, List.append_nil _⟩, ?_⟩
  rw [← h.bytes]
  exact hdisk.modify f.buffer

/-- A record goes into the buffer, or with all that is in there to the end of the file. -/
theorem Keeps.add (hdisk : Disk.Beside start place f.serial written a b) (record : Record) :
    ∃ written', (f.add b record.kind record.written).1.Keeps (records ++ [record]) written' ∧
      Disk.Beside start place (f.add b record.kind record.written).1.serial written' a
        (f.add b record.kind record.written).2 := by
  have hbuffer : Keeps { f with buffer := f.buffer ++ encodeUtf8 record.written }
      (records ++ [record]) written := by
    refine ⟨h.isOpen, h.appends, ?_⟩
    rw [fileText_append, encodeUtf8_append, ← h.bytes, List.append_assoc]
    simp [fileText]
  rw [FileReport.add]
  by_cases hkind : record.kind = .finish
  · rw [if_pos hkind]
    exact ⟨_, hbuffer.flush hdisk⟩
  · rw [if_neg hkind]
    exact ⟨written, hbuffer, hdisk⟩

end FileReport

/-! ## §2 Parallel workspaces -/

/-- The workspaces are the same but for the file at the place, which has grown in the second.
Nothing is said of the reports. -/
structure Alongside (start : Disk) (place : Location) (serial : Nat) (more : List UInt8)
    (w v : Workspace) : Prop where
  clock : v.clock = w.clock
  nextToken : v.nextToken = w.nextToken
  log : v.log = w.log
  disk : Disk.Beside start place serial more w.disk v.disk

/-- The first workspace has its report in memory, and the second has it in the file at the place. -/
def Parallel (start : Disk) (place : Location) (w v : Workspace) : Prop :=
  ∃ records f written, w.report = .list records ∧ v.report = .file f ∧ f.Keeps records written ∧
    Alongside start place f.serial written w v

/-- Two runs have the same result and end in workspaces that are related. -/
def InStep {ε α : Type} (R : Workspace → Workspace → Prop) (x y : Except ε α × Workspace) : Prop :=
  ∃ result w v, x = (result, w) ∧ y = (result, v) ∧ R w v

section Steps

variable {start : Disk} {place : Location} {w v : Workspace} (h : Parallel start place w v)
include h

theorem Parallel.memory : w.report.serial? = none := by
  obtain ⟨_, _, _, hlist, -⟩ := h
  rw [hlist]
  rfl

theorem Parallel.takes_left (record : Record) : w.report.Takes record :=
  Report.takes_of_memory h.memory record

/-- The file takes what has bytes. -/
theorem Parallel.takes_right {record : Record} (hrecord : record.render.Writable) :
    v.report.Takes record := by
  obtain ⟨_, f, _, -, hfile, hkeeps, -⟩ := h
  rw [hfile]
  exact Report.takes_file_iff.mpr ⟨hkeeps.isOpen, hrecord⟩

theorem Parallel.tokenAt_eq : v.tokenAt v.nextToken = w.tokenAt w.nextToken := by
  obtain ⟨_, _, _, -, -, -, hwork⟩ := h
  rw [Workspace.tokenAt, Workspace.tokenAt, hwork.clock, hwork.nextToken]

theorem Parallel.label_eq (source : Path) : v.disk.label source = w.disk.label source := by
  obtain ⟨_, _, _, -, -, -, hwork⟩ := h
  exact (label_congr hwork.disk.right source).symm

theorem Parallel.read_eq {path : Path} (hmisses : start.Misses place path) :
    v.disk.read path = w.disk.read path := by
  obtain ⟨_, _, _, -, -, -, hwork⟩ := h
  exact hwork.disk.read_eq hmisses

theorem Parallel.noteAll (events : List Event) : Parallel start place
    { w with log := w.log ++ events } { v with log := v.log ++ events } := by
  obtain ⟨records, f, written, hlist, hfile, hkeeps, hwork⟩ := h
  exact ⟨records, f, written, hlist, hfile, hkeeps,
    { hwork with log := congrArg (· ++ events) hwork.log }⟩

theorem Parallel.takeToken : Parallel start place
    { w with nextToken := w.nextToken + 1 } { v with nextToken := v.nextToken + 1 } := by
  obtain ⟨records, f, written, hlist, hfile, hkeeps, hwork⟩ := h
  exact ⟨records, f, written, hlist, hfile, hkeeps,
    { hwork with nextToken := congrArg (· + 1) hwork.nextToken }⟩

theorem Parallel.add? {record : Record} (hrecord : record.render.Writable) :
    ∃ report report' disk',
      w.report.add? w.disk record = .ok (report, w.disk) ∧
      v.report.add? v.disk record = .ok (report', disk') ∧ w.report.GrowsBy [record] report ∧
      Parallel start place { w with report } { v with report := report', disk := disk' } := by
  have htakes := h.takes_right hrecord
  obtain ⟨records, f, written, hlist, hfile, hkeeps, hwork⟩ := h
  obtain ⟨written', hkeeps', hdisk⟩ := hkeeps.add hwork.disk record
  rw [hfile] at htakes
  refine ⟨.list (records ++ [record]), .file (f.add v.disk record.kind record.written).1,
    (f.add v.disk record.kind record.written).2, by rw [hlist]; rfl, ?_, ?_, ?_⟩
  · rw [hfile, Report.add?_file htakes]
    rfl
  · rw [hlist, Report.growsBy_list_iff]
  · exact ⟨_, _, written', rfl, rfl, hkeeps', { hwork with disk := hdisk }⟩

theorem Parallel.addAll? {records : List Record}
    (hrecords : ∀ record ∈ records, record.render.Writable) :
    ∃ report report' disk',
      w.report.addAll? w.disk records = .ok (report, w.disk) ∧
      v.report.addAll? v.disk records = .ok (report', disk') ∧
      Parallel start place { w with report } { v with report := report', disk := disk' } := by
  induction records generalizing w v with
  | nil => exact ⟨_, _, _, rfl, rfl, h⟩
  | cons record records ih =>
      obtain ⟨hrecord, hmore⟩ := List.forall_mem_cons.mp hrecords
      obtain ⟨next, next', disk, hadd, hadd', -, hnext⟩ := h.add? hrecord
      obtain ⟨report, report', disk', hall, hall', hlast⟩ := ih hnext hmore
      exact ⟨report, report', disk', by rw [Report.addAll?_cons hadd, hall],
        by rw [Report.addAll?_cons hadd', hall'], hlast⟩

/-- A change that cannot tell the disks apart. -/
theorem Parallel.changed {change : Disk → Except DiskRefusal Disk}
    (hchange : ∀ {serial more a b}, Disk.Beside start place serial more a b →
      SameEnd (Disk.Beside start place serial more) (change a) (change b)) :
    SameEnd (fun a b => Parallel start place { w with disk := a } { v with disk := b })
      (change w.disk) (change v.disk) := by
  obtain ⟨records, f, written, hlist, hfile, hkeeps, hwork⟩ := h
  rcases hchange hwork.disk with ⟨e, ha, hb⟩ | ⟨a, b, ha, hb, hdisk⟩
  · exact .inl ⟨e, ha, hb⟩
  · exact .inr ⟨a, b, ha, hb, records, f, written, hlist, hfile, hkeeps,
      { hwork with disk := hdisk }⟩

/-- What has not reached the file does so when the report is closed. -/
theorem Parallel.close : ∃ records serial g, w.report = .list records ∧
    (v.report.close v.disk).1 = .file g ∧
    Alongside start place serial (encodeUtf8 (fileText records)) w { v with
      report := (v.report.close v.disk).1
      disk := (v.report.close v.disk).2 } := by
  obtain ⟨records, f, written, hlist, hfile, hkeeps, hwork⟩ := h
  obtain ⟨-, hdisk⟩ := hkeeps.flush hwork.disk
  have hclose : v.report.close v.disk =
      (.file { (f.flush v.disk).1 with closed := true }, (f.flush v.disk).2) := by
    rw [hfile, Report.close, FileReport.close, if_neg (by simp [hkeeps.isOpen])]
  rw [hclose]
  exact ⟨records, _, _, hlist, rfl, { hwork with disk := hdisk }⟩

end Steps

/-! ## §3 Copying -/

section Copying

variable [Host] {start : Disk} {place : Location} {w v : Workspace}

/-- When the copy has been made, what is in the report is the entries that it takes. -/
theorem report_copyLines {job : Job} {label : Text} {source temp : Path} {content : List UInt8}
    {created disk : Disk} {next : Report}
    (hcreate : w.disk.create temp
      (encodeUtf8 (courseFrom job w.report label 1 (readLines content).1).text) = .ok created)
    (hadd : w.report.addEntries? created
      ((courseFrom job w.report label 1 (readLines content).1).entries label) = .ok (next, disk)) :
    ((copyLines job label source temp content).run w).2.report = next := by
  rw [run_copyLines]
  simp only [hcreate, hadd, run_fail]
  split <;> rfl

theorem Parallel.copyLines (h : Parallel start place w v) {temp : Path}
    (hmisses : start.Misses place temp) (job : Job) (label : Text) (source : Path)
    (content : List UInt8) (hlast : ((copyLines job label source temp content).run w).2.report.Encodable) :
    InStep (Parallel start place)
      ((copyLines job label source temp content).run w)
      ((copyLines job label source temp content).run v) := by
  have hleft : courseFrom job w.report label 1 (readLines content).1 =
      redactLines job (readLines content).1 := reportedIn_eq _ fun _ _ => h.takes_left _
  have hcreate := h.changed fun hdisk =>
    hdisk.create hmisses (encodeUtf8 (redactLines job (readLines content).1).text)
  rcases hcreate with ⟨e, ha, hb⟩ | ⟨a, b, ha, hb, hmade⟩
  · rw [run_copyLines, run_copyLines, hleft]
    simp only [ha, Disk.create_error_congr hb, run_fail]
    exact ⟨_, _, _, rfl, rfl, h.noteAll _⟩
  -- What the first run reports has bytes, so the file takes it, and the course is the same.
  obtain ⟨records, -, -, hlist, -⟩ := id h
  have hadd : w.report.addEntries? a ((redactLines job (readLines content).1).entries label) =
      .ok (.list (records ++ ((redactLines job (readLines content).1).entries label).map
        (Record.mk .entry)), a) := by
    rw [hlist, Report.addEntries?_eq, Report.addAll?_list]
  have hreport : ((LogRedaction.copyLines job label source temp content).run w).2.report =
      .list (records ++ ((redactLines job (readLines content).1).entries label).map
        (Record.mk .entry)) :=
    report_copyLines (by rw [hleft, ha]) (by rw [hleft, hadd])
  rw [hreport] at hlast
  have hentries : ∀ record ∈ ((redactLines job (readLines content).1).entries label).map
      (Record.mk .entry), record.render.Writable := fun record hrecord =>
    hlast _ rfl record (List.mem_append_right _ hrecord)
  have hright : courseFrom job v.report label 1 (readLines content).1 =
      redactLines job (readLines content).1 := by
    refine reportedIn_eq _ fun entry hentry => h.takes_right (hentries _ ?_)
    rw [records_course]
    exact List.mem_map_of_mem hentry
  have hnoted := hmade.noteAll ((redactLines job (readLines content).1).events label)
  obtain ⟨report, report', disk, hall, hall', hadded⟩ := hnoted.addAll? hentries
  rw [run_copyLines, run_copyLines, hleft, hright]
  simp only [ha, hb, Report.addEntries?_eq, hall, hall', run_fail]
  split
  · exact ⟨_, _, _, rfl, rfl, hadded⟩
  · exact ⟨_, _, _, rfl, rfl, hadded.noteAll _⟩
  · exact ⟨_, _, _, rfl, rfl, hadded.noteAll _⟩
  · exact ⟨_, _, _, rfl, rfl, hadded⟩
  · exact ⟨_, _, _, rfl, rfl, hadded.noteAll _⟩
  · exact ⟨_, _, _, rfl, rfl, hadded⟩

/-- What is reported of a file begins with the start of its section. -/
theorem copyFile_reports {job : Job} (hjob : job.Ready) (source : Path)
    (htakes : w.report.Takes ⟨.start, w.disk.label source⟩) :
    ∃ more, w.report.GrowsBy (⟨.start, w.disk.label source⟩ :: more)
      ((copyFile job source).run w).2.report := by
  have hcourse := copyFile_course hjob source w
  rcases hrun : (copyFile job source).run w with ⟨result, w'⟩
  rw [hrun] at hcourse
  cases hcourse with
  | unannounced hfault => cases hfault.symm.trans htakes
  | unopened _ _ hgrows => exact ⟨_, hgrows⟩
  | unmade _ _ _ _ hgrows => exact ⟨_, hgrows⟩
  | unfinished _ _ _ _ _ hadd => exact ⟨_, Report.growsBy_of_addAll? hadd⟩
  | completed _ _ _ _ hadd => exact ⟨_, Report.growsBy_of_addAll? hadd⟩

/-- A file is copied, if it is no matter to the report where it and its copy are. -/
theorem Parallel.copyFile (h : Parallel start place w v) {job : Job} (hjob : job.Ready)
    {source : Path} (hmisses : start.Misses place source)
    (htemp : ((copyFile job source).run w).2.nextToken = w.nextToken + 1 →
      ∀ location, start.NameOf place location →
        ¬start.Names (tempPath (w.tokenAt w.nextToken) source) location)
    (hlast : ((copyFile job source).run w).2.report.Encodable) :
    InStep (Parallel start place) ((copyFile job source).run w) ((copyFile job source).run v) := by
  obtain ⟨more, hgrows⟩ := copyFile_reports hjob source (h.takes_left _)
  have hlabel := hlast.added hgrows h.memory _ (List.mem_cons_self ..)
  obtain ⟨report, report', disk', hadd, hadd', -, hstarted⟩ := h.add? hlabel
  have hnoted := hstarted.noteAll [.reading source.name]
  have hread := hnoted.read_eq hmisses
  rw [run_copyFile] at hlast
  rw [run_copyFile, run_copyFile, h.label_eq, h.tokenAt_eq, hadd, hadd']
  simp only [hadd, run_fail] at hread hlast ⊢
  rcases hsound : source.fault? with _ | (e | _)
  · simp only [hsound] at hlast
    simp only [hread]
    cases hcontent : w.disk.read source with
    | error e => exact ⟨_, _, _, rfl, rfl, hnoted.noteAll _⟩
    | ok content =>
        simp only [hcontent] at hlast
        have htoken := nextToken_of_temp job
          (Workspace.temp?_eq_some_iff.mpr ⟨⟨h.takes_left _, hsound⟩, ⟨_, hcontent⟩, rfl⟩)
        have hlines := hnoted.takeToken.copyLines (hmisses.tempPath (htemp htoken)) job
          (w.disk.label source) source content
        rcases hcopy : (LogRedaction.copyLines job (w.disk.label source) source
            (tempPath (w.tokenAt w.nextToken) source) content).run
            { w with report, log := w.log ++ [.reading source.name],
                     nextToken := w.nextToken + 1 } with ⟨e | copy, w₁⟩
        · simp only [hcopy] at hlast
          obtain ⟨_, _, v₁, hrun, hrun', hworks⟩ := hlines (by rw [hcopy]; exact hlast)
          obtain ⟨rfl, rfl⟩ := Prod.mk.inj (hcopy.symm.trans hrun)
          simp only at hrun'
          simp only [hcopy, hrun']
          exact ⟨_, _, _, rfl, rfl, hworks⟩
        · have hbefore : w₁.report.Encodable := by
            simp only [hcopy] at hlast
            cases hfinish : w₁.report.add? w₁.disk ⟨.finish, w.disk.label source⟩ with
            | error fault => rwa [hfinish] at hlast
            | ok next =>
                rw [hfinish] at hlast
                exact hlast.before (Report.growsBy_of_addAll? (Report.addAll?_cons hfinish []))
          obtain ⟨_, _, v₁, hrun, hrun', hworks⟩ := hlines (by rw [hcopy]; exact hbefore)
          obtain ⟨rfl, rfl⟩ := Prod.mk.inj (hcopy.symm.trans hrun)
          obtain ⟨last, last', disk'', hfinish, hfinish', -, hended⟩ :=
            hworks.add? (writable_finish hlabel)
          simp only at hrun'
          simp only [hcopy, hrun', hfinish, hfinish']
          exact ⟨_, _, _, rfl, rfl, hended.noteAll _⟩
  · exact ⟨_, _, _, rfl, rfl, hnoted.noteAll _⟩
  · exact ⟨_, _, _, rfl, rfl, hnoted⟩

end Copying

/-- The copies that the result names are not at the file of the report: those that have been made
after the given ones, or that of the file at which the copying has failed. -/
def CopiesMiss (start : Disk) (place : Location) (completed : List FileCopy) :
    Except RunError (List FileCopy) → Prop
  | .ok copies => ∀ copy ∈ copies, copy ∈ completed ∨
    ∀ temp, copy.temp = some temp → start.Misses place temp
  | .error (.file failure _) => ∀ temp, failure.temp = some temp →
    temp.Normal ∧ start.Misses place temp
  | .error _ => True

theorem CopiesMiss.shorten {start : Disk} {place : Location} {completed : List FileCopy}
    {copy : FileCopy} {result : Except RunError (List FileCopy)}
    (h : CopiesMiss start place (completed ++ [copy]) result)
    (hcopy : ∀ temp, copy.temp = some temp → start.Misses place temp) :
    CopiesMiss start place completed result := by
  cases result with
  | ok copies =>
      intro other hother
      rcases h other hother with hmem | hmisses
      · rcases List.mem_append.mp hmem with hmem | hmem
        · exact .inl hmem
        · obtain rfl := List.mem_singleton.mp hmem
          exact .inr hcopy
      · exact .inr hmisses
  | error e =>
      cases e with
      | file failure done => exact h
      | _ => trivial

section Files

variable [Host] {job : Job} (hjob : job.Ready) {start : Disk} {place : Location}
include hjob

/-- However the copying of files ends, what was in the report stays. -/
theorem copyEach_reports : ∀ (files : List Path) (completed : List FileCopy) (w : Workspace),
    w.report.serial? = none →
    ∃ more, w.report.GrowsBy more ((copyEach job completed files).run w).2.report
  | [], completed, w, _ => ⟨[], fun disk => ⟨disk, rfl⟩⟩
  | source :: rest, completed, w, hmemory => by
      have hcourse := copyFile_course hjob source w
      obtain ⟨more, hgrows⟩ := copyFile_reports hjob source (Report.takes_of_memory hmemory _)
      rw [run_copyEach_cons]
      rcases hrun : (copyFile job source).run w with ⟨e | copy, w₁⟩
      · rw [hrun] at hgrows
        exact ⟨_, hgrows⟩
      · rw [hrun] at hcourse hgrows
        have hmemory' : w₁.report.serial? = none := by
          cases hcourse with
          | completed _ _ _ _ _ halike => exact halike.serial?.trans hmemory
        obtain ⟨last, hlast⟩ := copyEach_reports rest (completed ++ [copy]) w₁ hmemory'
        exact ⟨_, hgrows.trans hlast⟩

/-- Files are copied in the same way, wherever the copying ends. -/
theorem copyEach_parallel : ∀ (files : List Path) (completed : List FileCopy) {w v : Workspace},
    Parallel start place w v → (∀ file ∈ files, file.Normal ∧ start.Misses place file) →
    (∀ temp ∈ tempPaths w.clock w.nextToken
        (files.take (((copyEach job completed files).run w).2.nextToken - w.nextToken)),
      ∀ location, start.NameOf place location → ¬start.Names temp location) →
    ((copyEach job completed files).run w).2.report.Encodable →
    InStep (Parallel start place) ((copyEach job completed files).run w)
        ((copyEach job completed files).run v) ∧
      CopiesMiss start place completed ((copyEach job completed files).run w).1
  | [], completed, w, v, h, _, _, _ => ⟨⟨_, _, _, rfl, rfl, h⟩, fun _ hcopy => .inl hcopy⟩
  | source :: rest, completed, w, v, h, hfiles, htemps, hlast => by
      obtain ⟨hnormal, hmisses⟩ := hfiles source (List.mem_cons_self ..)
      rw [run_copyEach_cons] at htemps hlast
      rw [run_copyEach_cons, run_copyEach_cons]
      rcases hrun : (copyFile job source).run w with ⟨e | copy, w₁⟩
      · simp only [hrun] at htemps hlast
        have hmissed : w₁.nextToken = w.nextToken + 1 → ∀ location, start.NameOf place location →
            ¬start.Names (tempPath (w.tokenAt w.nextToken) source) location := by
          intro htoken
          rw [htoken, tempPaths_one] at htemps
          exact htemps _ (List.mem_singleton.mpr rfl)
        obtain ⟨result, w', v₁, hsame, hrun', hworks⟩ :=
          h.copyFile hjob hmisses (by rw [hrun]; exact hmissed) (by rw [hrun]; exact hlast)
        obtain ⟨rfl, rfl⟩ := Prod.mk.inj (hrun.symm.trans hsame)
        rw [hrun']
        refine ⟨⟨_, _, _, rfl, rfl, hworks⟩, ?_⟩
        cases e with
        | failure failure =>
            intro temp htemp
            have htoken := nextToken_of_temp job ((temp_of_failure hrun).symm.trans htemp)
            rw [hrun] at htoken
            obtain ⟨rfl, -⟩ := copyFile_unfinished hjob hrun htemp
            exact ⟨Path.normal_tempPath hnormal _, hmisses.tempPath (hmissed htoken)⟩
        | line e => trivial
        | nulInPath => trivial
        | report fault => trivial
      · simp only [hrun] at htemps hlast
        have hcourse := copyFile_course hjob source w
        have hlater := copyEach_nextToken job rest (completed ++ [copy]) w₁
        obtain ⟨hclock, htoken, hnamed, hmemory⟩ : w₁.clock = w.clock ∧
            w₁.nextToken = w.nextToken + 1 ∧
            copy.temp = some (tempPath (w.tokenAt w.nextToken) source) ∧
            w₁.report.serial? = none := by
          rw [hrun] at hcourse
          cases hcourse with
          | completed _ _ _ _ _ halike => exact ⟨rfl, rfl, rfl, halike.serial?.trans h.memory⟩
        rw [tempPaths_next source rest hclock htoken hlater] at htemps
        have hmissed := htemps _ (List.mem_append_left _ (List.mem_singleton.mpr rfl))
        obtain ⟨more, hgrows⟩ := copyEach_reports hjob rest (completed ++ [copy]) w₁ hmemory
        obtain ⟨result, w', v₁, hsame, hrun', hworks⟩ :=
          h.copyFile hjob hmisses (fun _ => hmissed) (by rw [hrun]; exact hlast.before hgrows)
        obtain ⟨rfl, rfl⟩ := Prod.mk.inj (hrun.symm.trans hsame)
        rw [hrun']
        obtain ⟨hmore, hmiss⟩ := copyEach_parallel rest (completed ++ [copy]) hworks
          (fun file hfile => hfiles file (List.mem_cons_of_mem _ hfile))
          (fun temp htemp => htemps temp (List.mem_append_right _ htemp)) hlast
        refine ⟨hmore, hmiss.shorten fun temp htemp => ?_⟩
        obtain rfl := Option.some.inj (hnamed.symm.trans htemp)
        exact hmisses.tempPath hmissed

end Files

/-! ## §4 Discarding and putting in place -/

/-- A copy is discarded in the same way. -/
theorem Parallel.discardCopy {start : Disk} {place : Location} {w v : Workspace}
    (h : Parallel start place w v) {temp : Option Path}
    (hmisses : ∀ path, temp = some path → path.Normal ∧ start.Misses place path) :
    InStep (Parallel start place) ((discardCopy (temp.map Path.toText)).run w)
      ((discardCopy (temp.map Path.toText)).run v) := by
  cases temp with
  | none => exact ⟨_, _, _, rfl, rfl, h⟩
  | some path =>
      obtain ⟨hnormal, hpath⟩ := hmisses path rfl
      rw [Option.map_some, run_discardCopy, run_discardCopy, Path.ofText_toText hnormal]
      cases path.fault? with
      | some fault => exact ⟨_, _, _, rfl, rfl, h⟩
      | none =>
      simp only
      rcases h.changed fun hdisk => hdisk.unlink hpath with ⟨e, ha, hb⟩ | ⟨a, b, ha, hb, hgone⟩
      · rw [ha, hb]
        cases e <;> exact ⟨_, _, _, rfl, rfl, h⟩
      · rw [ha, hb]
        exact ⟨_, _, _, rfl, rfl, hgone.noteAll _⟩

section Sites

variable {fresh : Nat} {goal : Location → List UInt8} {start a b : Disk} {place : Location}
  {serial : Nat} {more : List UInt8} {site : Site}

/-- The site has nothing to do with the file at the place. -/
def Site.Misses (start : Disk) (place : Location) (site : Site) : Prop :=
  ¬start.NameOf place site.place ∧ ¬start.NameOf place site.temp

theorem Movable.beside (h : Movable fresh goal a site) (hmisses : site.Misses start place)
    (hdisk : Disk.Beside start place serial more a b) : Movable 0 goal b site := by
  obtain ⟨token, hfinished, htemp⟩ := h.finished
  obtain ⟨n, -, hcontent⟩ := h.content
  refine ⟨⟨token, hfinished, (Disk.names_congr hdisk.right).mp htemp⟩, h.sound,
    (Disk.names_congr hdisk.right).mp h.source,
    fun hdirectory => h.space ((hdisk.right.directory _).mpr hdirectory), ?_⟩
  rcases hdisk.cases hmisses.2 with ⟨ha, -⟩ | ⟨ha, -⟩ | ⟨m, m', content, -, ha, hb⟩
  · cases hcontent.symm.trans ha
  · cases hcontent.symm.trans ha
  · obtain ⟨-, rfl⟩ : n = m ∧ goal site.place = content := by simpa using hcontent.symm.trans ha
    exact ⟨m', Nat.zero_le _, hb⟩

/-- A copy is put in place in the same way. -/
theorem Alongside.putInPlace {w v : Workspace} (h : Alongside start place serial more w v)
    (hmovable : Movable fresh goal w.disk site) (hmisses : site.Misses start place) :
    ∃ n log w' v', w' = { w with
        disk := w.disk.moved site.temp site.place n (goal site.place), log } ∧
      (putInPlace site.copy).run w = (.ok site.copy.source, w') ∧
      (putInPlace site.copy).run v = (.ok site.copy.source, v') ∧
      Alongside start place serial more w' v' := by
  obtain ⟨token, hfinished, -⟩ := hmovable.finished
  obtain ⟨n, hcontent, hrun⟩ := run_putInPlace_movable hmovable hfinished
  have hmovable' := hmovable.beside hmisses h.disk
  obtain ⟨n', hcontent', hrun'⟩ := run_putInPlace_movable hmovable' hfinished
  have hserial : n' ≠ serial := by
    rintro rfl
    exact h.disk.other _ hmisses.2 _ hcontent'
  refine ⟨n, _, _, _, rfl, hrun, hrun', h.clock, h.nextToken, ?_, ?_⟩
  · exact congrArg (· ++ _) h.log
  · exact h.disk.moved hmisses.2 hmisses.1 hmovable.temp_ne_nil hmovable.source.ne_nil
      (by simp [hcontent]) hmovable.space hserial

/-- All copies are put in place in the same way. -/
theorem Alongside.putAllInPlace : ∀ (sites : List Site) {w v : Workspace},
    Alongside start place serial more w v →
    (∀ site ∈ sites, site.Misses start place ∧ ∃ goal, Movable fresh goal w.disk site) →
    sites.Pairwise (fun a b => a.place ≠ b.temp ∧ a.temp ≠ b.temp) →
    InStep (Alongside start place serial more) ((putAllInPlace (sites.map (·.copy))).run w)
      ((putAllInPlace (sites.map (·.copy))).run v)
  | [], w, v, h, _, _ => ⟨_, _, _, rfl, rfl, h⟩
  | site :: sites, w, v, h, hsites, hclear => by
      obtain ⟨hmisses, goal, hmovable⟩ := hsites site (List.mem_cons_self ..)
      obtain ⟨hlaters, hrest⟩ := List.pairwise_cons.mp hclear
      obtain ⟨n, log, w', v', hw', hrun, hrun', hnext⟩ := h.putInPlace hmovable hmisses
      obtain ⟨result, w₂, v₂, hmore, hmore', hworks⟩ := Alongside.putAllInPlace sites hnext
        (fun other hother => by
          obtain ⟨hother', goal', hmovable'⟩ := hsites other (List.mem_cons_of_mem _ hother)
          obtain ⟨hplace, htemp⟩ := hlaters other hother
          rw [hw']
          exact ⟨hother', goal', hmovable.other hmovable' htemp.symm hplace.symm n⟩)
        hrest
      rw [List.map_cons, run_putAllInPlace_cons, run_putAllInPlace_cons, hrun, hrun']
      simp only [hmore, hmore']
      cases result with
      | error e => exact ⟨_, _, _, rfl, rfl, hworks⟩
      | ok paths => exact ⟨_, _, _, rfl, rfl, hworks⟩

end Sites

end LogRedaction
