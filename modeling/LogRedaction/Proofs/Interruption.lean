/-
LogRedaction.Proofs.Interruption — what is left of a run that ends at a file.

Files are copied in order, so a run that ends early has copied the files before the one at which it
ended, and nothing after it (`copyEach_ended`). What has been done by then is `AllCopied`: the
copies are all that is new, each holds the redaction of its source, and the report has a section
about each. It asks nothing of the files but that they have been copied; a file may be listed twice,
or be the copy of one before it. This is no circle: copying only adds files, so what can be read at
the end of the run is what was read on the way, and `Job.outcomesOn` takes it from there.

A run is bound to end early if some file cannot be redacted (`HasUnredactable`): it cannot be read as
text, or a redacted line has no bytes. Then it leaves a file at most besides the complete copies, the
unfinished copy of the file at which it ended (`copyEach_interrupted`), and that is gone when it has
been discarded (`run_discardCopy_stopped`).

## §1 Runs in two parts
## §2 Files that can be redacted
## §3 Errors that are noted
## §4 Files that have been copied
## §5 The file at which a run ends
## §6 Runs that end early
## §7 Discarding the unfinished copy
-/
import LogRedaction.Proofs.Addition
import LogRedaction.Proofs.Disk.Path
import LogRedaction.Proofs.Redaction

namespace LogRedaction

open Text

variable [Host]

/-! ## §1 Runs in two parts -/

theorem run_copyEach_append (job : Job) (before after : List Path) (completed : List FileCopy)
    (w : Workspace) : (copyEach job completed (before ++ after)).run w =
      match (copyEach job completed before).run w with
      | (.ok copies, w) => (copyEach job copies after).run w
      | (.error e, w) => (.error e, w) := by
  induction before generalizing completed w with
  | nil => rfl
  | cons source before ih =>
      rw [List.cons_append, run_copyEach_cons, run_copyEach_cons]
      rcases (copyFile job source).run w with ⟨e | copy, w₁⟩
      · rfl
      · exact ih _ _

/-- A run that ends early has copied the files before the one at which it ends. -/
theorem copyEach_ended {job : Job} {e : RunError} {w' : Workspace} :
    ∀ {files : List Path} {completed : List FileCopy} {w : Workspace},
      (copyEach job completed files).run w = (.error e, w') →
      ∃ before source after copies w₁ e', files = before ++ source :: after ∧
        (copyEach job completed before).run w = (.ok copies, w₁) ∧
        (copyFile job source).run w₁ = (.error e', w') ∧ e = RunError.ofFile copies e'
  | [], completed, w, hrun => by cases hrun
  | source :: rest, completed, w, hrun => by
      rw [run_copyEach_cons] at hrun
      rcases hfirst : (copyFile job source).run w with ⟨e' | copy, w₁⟩
      · rw [hfirst] at hrun
        obtain ⟨he, rfl⟩ := Prod.mk.inj hrun
        exact ⟨[], source, rest, completed, w, e', rfl, rfl, hfirst, (Except.error.inj he).symm⟩
      · rw [hfirst] at hrun
        obtain ⟨before, bad, after, copies, w₂, e', rfl, hbefore, hbad, he⟩ := copyEach_ended hrun
        refine ⟨source :: before, bad, after, copies, w₂, e', rfl, ?_, hbad, he⟩
        rw [run_copyEach_cons, hfirst]
        exact hbefore

/-! ## §2 Files that can be redacted -/

/-- The lines of a file as far as they can be read. -/
def Disk.seenLines (disk : Disk) (file : Path) : List (List Char) :=
  if file.fault? = none then
    ((disk.read file).toOption.map fun content => (readLines content).1).getD []
  else []

omit [Host] in
theorem Disk.seenLines_of_read {disk : Disk} {file : Path} {content : List UInt8}
    (hsound : file.fault? = none) (h : disk.read file = .ok content) :
    disk.seenLines file = (readLines content).1 := by
  rw [seenLines, if_pos hsound, h]
  rfl

omit [Host] in
theorem Disk.seenLines_of_unopened {disk : Disk} {file : Path} {e : FileError}
    (h : Unopened disk file e) : disk.seenLines file = [] := by
  cases h with
  | nul hfault => rw [seenLines, if_neg (by rw [hfault]; nofun)]
  | unnamed hfault => rw [seenLines, if_neg (by rw [hfault]; nofun)]
  | unread hsound hread =>
      rw [seenLines, if_pos hsound, hread]
      rfl

omit [Host] in
theorem Disk.seenLines_of_holds {disk : Disk} {file : Path} {text : List Char}
    (h : disk.Holds file text) : disk.seenLines file = lines text := by
  rw [seenLines_of_read h.1 h.2, readLines_encode]

/-- What becomes of the lines that can be read, called as the disk says. -/
def Job.outcomesOn (job : Job) (disk : Disk) (file : Path) : List RedactedLine :=
  job.outcomes (disk.label file) 1 (disk.seenLines file)

theorem Job.outcomesOn_of_holds (job : Job) {disk : Disk} {file : Path} {text : List Char}
    (h : disk.Holds file text) :
    job.outcomesOn disk file = job.outcomes (disk.label file) 1 (lines text) := by
  rw [outcomesOn, Disk.seenLines_of_holds h]

/-- What is written of them: they are written in order, up to the first that has no bytes. -/
def Job.writtenOn (job : Job) (disk : Disk) (file : Path) : List RedactedLine :=
  (job.outcomesOn disk file).takeWhile fun outcome => outcome.text.Writable

/-- The file can be read as text, and its redacted lines have bytes. -/
structure Redactable (job : Job) (disk : Disk) (file : Path) : Prop where
  holds : ∃ text, disk.Holds file text
  writable : ∀ outcome ∈ job.outcomesOn disk file, outcome.text.Writable

/-- If the report takes everything, only a line that has no bytes stops the redaction. -/
theorem Reaches.written {job : Job} {report : Report} {label : Text} {n : Nat}
    {lines : List (List Char)} {outcomes : List RedactedLine} {entries : List AuditEntry}
    {stop : Option LineStop} (h : Reaches job report label n lines outcomes entries stop)
    (htakes : ∀ record, report.Takes record) :
    outcomes = (job.outcomes label n lines).takeWhile (fun outcome => outcome.text.Writable) ∧
      entries = allEntries outcomes := by
  induction h with
  | all => exact ⟨rfl, rfl⟩
  | unwritable herror =>
      refine ⟨?_, rfl⟩
      rw [Job.outcomes, List.takeWhile_cons_of_neg]
      simp [Writable, herror]
  | unreported _ _ _ hfault => cases hfault.symm.trans (htakes _)
  | line hwritable _ _ ih =>
      obtain ⟨houtcomes, hentries⟩ := ih
      refine ⟨?_, by rw [allEntries_cons, hentries]⟩
      rw [Job.outcomes, List.takeWhile_cons_of_pos (by simpa using hwritable), ← houtcomes]

/-- A report in memory takes all that is to be written of a file that can be redacted. -/
theorem Redactable.canWrite {job : Job} {disk : Disk} {file : Path}
    (h : Redactable job disk file) (records : List Record) :
    CanWrite (.list records) (disk.label file) (job.outcomesOn disk file) :=
  ⟨h.writable, fun record _ => Report.takes_list records record⟩

/-- If all that is to be written has bytes, neither the redaction of a text stops nor the text. -/
theorem CanWrite.breakOf_eq_none {job : Job} {report : Report} {disk : Disk} {file : Path}
    {text : List Char} (h : CanWrite report (disk.label file) (job.outcomesOn disk file))
    (hholds : disk.Holds file text) {content : List UInt8} (hread : disk.read file = .ok content)
    {outcomes : List RedactedLine} {entries : List AuditEntry} {stop : Option LineStop}
    (hreaches : Reaches job report (disk.label file) 1 (readLines content).1 outcomes entries stop) :
    breakOf stop (readLines content).2 = none := by
  obtain rfl := Except.ok.inj (hholds.2.symm.trans hread)
  rw [job.outcomesOn_of_holds hholds] at h
  rw [readLines_encode] at hreaches ⊢
  rw [hreaches.stop_eq_none h.lines h.entries]
  rfl

theorem Redactable.breakOf_eq_none {job : Job} {disk : Disk} {file : Path}
    (h : Redactable job disk file) {report : Report} (htakes : ∀ record, report.Takes record)
    {content : List UInt8} (hread : disk.read file = .ok content) {outcomes : List RedactedLine}
    {entries : List AuditEntry} {stop : Option LineStop}
    (hreaches : Reaches job report (disk.label file) 1 (readLines content).1 outcomes entries stop) :
    breakOf stop (readLines content).2 = none := by
  obtain ⟨text, hholds⟩ := h.holds
  exact CanWrite.breakOf_eq_none ⟨h.writable, fun record _ => htakes record⟩ hholds hread hreaches

section Adding

variable {a b : Disk} {made : List Addition} (h : Additions a b made)
include h

omit [Host] in
theorem Additions.holds {file : Path} {text : List Char} (hholds : a.Holds file text) :
    b.Holds file text :=
  ⟨hholds.1, h.read hholds.2⟩

/-- Files that can be read have the same outcomes when others have been added. -/
theorem Additions.outcomesOn_eq (job : Job) {file : Path} {text : List Char}
    (hholds : a.Holds file text) : job.outcomesOn b file = job.outcomesOn a file := by
  rw [job.outcomesOn_of_holds hholds, job.outcomesOn_of_holds (h.holds hholds),
    label_congr h.directories]

theorem Additions.redactable {job : Job} {file : Path} (hfile : Redactable job a file) :
    Redactable job b file := by
  obtain ⟨⟨text, hholds⟩, hwritable⟩ := hfile
  exact ⟨⟨text, h.holds hholds⟩, h.outcomesOn_eq job hholds ▸ hwritable⟩

omit [Host] in
/-- What is free and not at the place of an addition stays free. -/
theorem Additions.free {path : Path} (hfree : a.Free path)
    (hother : ∀ x ∈ made, ∀ location, a.Names path location → x.location ≠ location) :
    b.Free path := by
  obtain ⟨location, hnames, hnone⟩ := hfree
  refine ⟨location, (Disk.names_congr h.directories).mp hnames, ?_⟩
  cases hget : b.get? location with
  | none => rfl
  | some entry =>
      obtain ⟨x, hx, hlocation⟩ := h.added location entry hnone hget
      exact absurd hlocation (hother x hx location hnames)

end Adding

/-! ## §3 Errors that are noted -/

/-- The errors in a log. -/
def errorsIn (log : List Event) : List Event := log.filter fun event => event.level = .error

omit [Host] in
theorem errorsIn_append (log more : List Event) :
    errorsIn (log ++ more) = errorsIn log ++ errorsIn more :=
  List.filter_append ..

/-- What is noted when the copying of a file ends with an error. -/
def FileError.noted : FileError → List Event
  | .failure e => [.failed e.source.toText e.cause.message]
  | _ => []

omit [Host] in
theorem errorsIn_events (course : FileCourse) (label : Text) :
    errorsIn (course.events label) = [] := by
  rw [errorsIn, List.filter_eq_nil_iff]
  intro event hevent
  obtain ⟨⟨n, hit⟩, -, rfl⟩ := List.mem_map.mp hevent
  simp only [Hit.event]
  split <;> simp [Event.level]

section Noted

variable {job : Job} {label : Text} {source temp : Path} {content : List UInt8}
  {w w' : Workspace}

theorem errorsIn_copyLines {result : Except FileError FileCopy}
    (hrun : (copyLines job label source temp content).run w = (result, w')) :
    errorsIn w'.log = errorsIn w.log ++ (match result with
      | .ok _ => []
      | .error e => e.noted) := by
  rw [run_copyLines] at hrun
  simp only [run_fail] at hrun
  have hevents : errorsIn (w.log ++ (courseFrom job w.report label 1
      (readLines content).1).events label) = errorsIn w.log := by
    rw [errorsIn_append, errorsIn_events, List.append_nil]
  split at hrun
  · obtain ⟨rfl, rfl⟩ := Prod.mk.inj hrun
    exact errorsIn_append ..
  split at hrun
  · obtain ⟨rfl, rfl⟩ := Prod.mk.inj hrun
    exact hevents.trans (List.append_nil _).symm
  split at hrun
  all_goals obtain ⟨rfl, rfl⟩ := Prod.mk.inj hrun
  · exact hevents.trans (List.append_nil _).symm
  · exact (errorsIn_append ..).trans (congrArg (· ++ _) hevents)
  · exact (errorsIn_append ..).trans (congrArg (· ++ _) hevents)
  · exact hevents.trans (List.append_nil _).symm
  · exact (errorsIn_append ..).trans (congrArg (· ++ _) hevents)
  · exact hevents.trans (List.append_nil _).symm

/-- Of a file that is copied to its end no error is noted, and of another at most its failure. -/
theorem errorsIn_copyFile {result : Except FileError FileCopy}
    (hrun : (copyFile job source).run w = (result, w')) :
    errorsIn w'.log = errorsIn w.log ++ (match result with
      | .ok _ => []
      | .error e => e.noted) := by
  rw [run_copyFile] at hrun
  split at hrun
  · obtain ⟨rfl, rfl⟩ := Prod.mk.inj hrun
    exact (List.append_nil _).symm
  rename_i report disk _
  have hreading : errorsIn (w.log ++ [.reading source.name]) = errorsIn w.log := by
    rw [errorsIn_append]
    exact List.append_nil _
  simp only [run_fail] at hrun
  split at hrun
  · obtain ⟨rfl, rfl⟩ := Prod.mk.inj hrun
    exact hreading.trans (List.append_nil _).symm
  · obtain ⟨rfl, rfl⟩ := Prod.mk.inj hrun
    exact (errorsIn_append ..).trans (congrArg (· ++ _) hreading)
  split at hrun
  · obtain ⟨rfl, rfl⟩ := Prod.mk.inj hrun
    exact (errorsIn_append ..).trans (congrArg (· ++ _) hreading)
  split at hrun
  · rename_i hlines
    obtain ⟨rfl, rfl⟩ := Prod.mk.inj hrun
    exact (errorsIn_copyLines hlines).trans (congrArg (· ++ _) hreading)
  · rename_i copy between hlines
    have hcopied : errorsIn (between.log ++ [.completed source.toText copy.lines
        copy.matchedLines copy.substitutions]) = errorsIn w.log := by
      rw [errorsIn_append, errorsIn_copyLines hlines, List.append_nil]
      exact (List.append_nil _).trans hreading
    split at hrun
    · obtain ⟨rfl, rfl⟩ := Prod.mk.inj hrun
      exact hcopied.trans (List.append_nil _).symm
    · obtain ⟨rfl, rfl⟩ := Prod.mk.inj hrun
      exact hcopied.trans (List.append_nil _).symm

end Noted

/-! ## §4 Files that have been copied -/

/-- The file can be redacted, and the other file is its redaction. -/
def CopyOf (job : Job) (disk : Disk) (file temp : Path) : Prop :=
  Redactable job disk file ∧
    disk.read temp = .ok (encodeUtf8 (writtenText (job.outcomesOn disk file)))

theorem CopyOf.later {job : Job} {a b : Disk} {made : List Addition} {file temp : Path}
    (h : CopyOf job a file temp) (hadds : Additions a b made) : CopyOf job b file temp := by
  obtain ⟨hfile, hread⟩ := h
  obtain ⟨text, hholds⟩ := hfile.holds
  refine ⟨hadds.redactable hfile, ?_⟩
  rw [hadds.outcomesOn_eq job hholds]
  exact hadds.read hread

/-- From one workspace to the other the files have been copied to their ends, and nothing else has
been done but to the report. -/
structure AllCopied (job : Job) (w w' : Workspace) (files : List Path) : Prop where
  clock : w'.clock = w.clock
  nextToken : w'.nextToken = w.nextToken + files.length
  memory : w'.report.serial? = none
  noted : errorsIn w'.log = errorsIn w.log
  additions : ∃ made, Additions w.disk w'.disk made ∧
    made.map (fun a => tempPath a.token a.source) = tempPaths w.clock w.nextToken files
  copies : List.Forall₂ (CopyOf job w'.disk) files (tempPaths w.clock w.nextToken files)
  report : w.report.GrowsBy (runRecords w.disk (job.outcomesOn w'.disk) files) w'.report

section Copied

variable {job : Job} {w w₁ w₂ : Workspace} {source : Path} {files before after : List Path}

theorem AllCopied.nil (job : Job) (hmemory : w.report.serial? = none) : AllCopied job w w [] where
  clock := rfl
  nextToken := rfl
  memory := hmemory
  noted := rfl
  additions := ⟨[], .none _, rfl⟩
  copies := .nil
  report := fun disk => ⟨disk, rfl⟩

/-- A file that was copied could be redacted. -/
theorem redactable_of_copyFile (hjob : job.Ready) {copy : FileCopy}
    (hrun : (copyFile job source).run w = (.ok copy, w₁)) : Redactable job w.disk source := by
  have hcourse := copyFile_course hjob source w
  rw [hrun] at hcourse
  cases hcourse with
  | completed hsound hread hwritable =>
      refine ⟨⟨_, hsound, hread⟩, ?_⟩
      rw [job.outcomesOn_of_holds ⟨hsound, hread⟩]
      exact hwritable

theorem copyFile_copied (hjob : job.Ready) (hmemory : w.report.serial? = none) {copy : FileCopy}
    (hrun : (copyFile job source).run w = (.ok copy, w₁)) :
    AllCopied job w w₁ [source] ∧
      copy = completeCopy source (tempPath (w.tokenAt w.nextToken) source)
        (job.outcomesOn w₁.disk source) := by
  have hnoted := errorsIn_copyFile hrun
  have hfile := redactable_of_copyFile hjob hrun
  have hcourse := copyFile_course hjob source w
  rw [hrun] at hcourse
  cases hcourse with
  | @completed text created disk report log hsound hread _ hcreate hadd halike hwritten =>
      have hserial := halike.serial?
      rw [hmemory] at hwritten hserial
      obtain rfl := hwritten.eq_of_none
      obtain ⟨location, hadds⟩ := Additions.one hsound hread hcreate
      have hholds : w.disk.Holds source text := ⟨hsound, hread⟩
      have houtcomes : job.outcomesOn disk source =
          job.outcomes (w.disk.label source) 1 (lines text) := by
        rw [hadds.outcomesOn_eq job hholds, job.outcomesOn_of_holds hholds]
      refine ⟨⟨rfl, rfl, hserial, hnoted.trans (List.append_nil _), ⟨_, hadds, rfl⟩, ?_, ?_⟩,
        by rw [houtcomes]⟩
      · refine .cons ⟨hadds.redactable hfile, ?_⟩ .nil
        rw [houtcomes]
        exact Disk.read_created hcreate
      · simp only [runRecords, List.flatMap_cons, List.flatMap_nil, List.append_nil, houtcomes]
        exact Report.growsBy_of_addAll? hadd

theorem AllCopied.sources (h : AllCopied job w w₁ files) :
    ∀ file ∈ files, Redactable job w₁.disk file :=
  ((List.forall₂_and_left _ _).mp h.copies).1

/-- Files that are copied after others. -/
theorem AllCopied.trans (h : AllCopied job w w₁ before) (h' : AllCopied job w₁ w₂ after) :
    AllCopied job w w₂ (before ++ after) := by
  obtain ⟨made, hmade, hnames⟩ := h.additions
  obtain ⟨more, hmore, hnames'⟩ := h'.additions
  have htemps : tempPaths w.clock w.nextToken (before ++ after) =
      tempPaths w.clock w.nextToken before ++ tempPaths w₁.clock w₁.nextToken after := by
    rw [tempPaths_append, h.clock, h.nextToken]
  have houtcomes : ∀ file ∈ before, job.outcomesOn w₂.disk file = job.outcomesOn w₁.disk file := by
    intro file hfile
    obtain ⟨text, hholds⟩ := (h.sources file hfile).holds
    exact hmore.outcomesOn_eq job hholds
  have hrecords : runRecords w.disk (job.outcomesOn w₂.disk) (before ++ after) =
      runRecords w.disk (job.outcomesOn w₁.disk) before ++
        runRecords w₁.disk (job.outcomesOn w₂.disk) after := by
    rw [← runRecords_congr hmade.directories, runRecords, List.flatMap_append]
    exact congrArg (· ++ _) (List.flatMap_congr fun file hfile => by rw [houtcomes file hfile])
  refine ⟨h'.clock.trans h.clock, ?_, h'.memory, h'.noted.trans h.noted, ?_, ?_, ?_⟩
  · rw [h'.nextToken, h.nextToken, List.length_append, Nat.add_assoc]
  · exact ⟨made ++ more, hmade.trans hmore, by rw [List.map_append, hnames, hnames', htemps]⟩
  · rw [htemps]
    exact List.rel_append (h.copies.imp fun _ _ hcopy => hcopy.later hmore) h'.copies
  · rw [hrecords]
    exact h.report.trans h'.report

theorem copyEach_copied (hjob : job.Ready) :
    ∀ {files : List Path} {completed copies : List FileCopy} {w w' : Workspace},
      w.report.serial? = none → (copyEach job completed files).run w = (.ok copies, w') →
      AllCopied job w w' files ∧ copies =
        completed ++ completeCopies w.clock (job.outcomesOn w'.disk) w.nextToken files
  | [], completed, copies, w, w', hmemory, hrun => by
      obtain ⟨hcopies, rfl⟩ := Prod.mk.inj hrun
      obtain rfl := Except.ok.inj hcopies
      exact ⟨.nil job hmemory, by rw [completeCopies, List.append_nil]⟩
  | source :: rest, completed, copies, w, w', hmemory, hrun => by
      rw [run_copyEach_cons] at hrun
      rcases hfirst : (copyFile job source).run w with ⟨e | copy, w₁⟩
      · rw [hfirst] at hrun
        cases hrun
      rw [hfirst] at hrun
      obtain ⟨hcopied, rfl⟩ := copyFile_copied hjob hmemory hfirst
      obtain ⟨hmore, rfl⟩ := copyEach_copied hjob hcopied.memory hrun
      obtain ⟨made, hmade, -⟩ := hmore.additions
      obtain ⟨text, hholds⟩ := (hcopied.sources source (List.mem_singleton.mpr rfl)).holds
      refine ⟨hcopied.trans hmore, ?_⟩
      rw [hcopied.clock, hcopied.nextToken, List.append_assoc, List.singleton_append,
        ← hmade.outcomesOn_eq job hholds]
      rfl

end Copied

/-! ## §5 The file at which a run ends -/

section Stopped

variable {job : Job} {w w' : Workspace} {source : Path}

/-- What can be left of a file that was not copied to its end: nothing, or the unfinished copy. -/
structure Stopped (job : Job) (w w' : Workspace) (source : Path) (failure : FileFailure) :
    Prop where
  source_eq : failure.source = source
  noted : errorsIn w'.log = errorsIn w.log ++ [.failed source.toText failure.cause.message]
  unredactable : ¬Redactable job w.disk source
  report : w.report.GrowsBy
    (begunSection (w.disk.label source) (allEntries (job.writtenOn w.disk source))) w'.report
  left : failure.temp = none ∧ w'.disk = w.disk ∨ source.fault? = none ∧ ∃ bytes,
    failure.temp = some (tempPath (w.tokenAt w.nextToken) source) ∧
    w.disk.create (tempPath (w.tokenAt w.nextToken) source) bytes = .ok w'.disk

theorem copyFile_stopped (hjob : job.Ready) {e : FileError} (hmemory : w.report.serial? = none)
    (hnul : source.hasNul = false)
    (hfree : w'.nextToken = w.nextToken + 1 → w.disk.Free (tempPath (w.tokenAt w.nextToken) source))
    (hrun : (copyFile job source).run w = (.error e, w')) :
    ∃ failure, e = .failure failure ∧ Stopped job w w' source failure := by
  have hnoted := errorsIn_copyFile hrun
  have hcourse := copyFile_course hjob source w
  rw [hrun] at hcourse
  cases hcourse with
  | unannounced hfault => cases hfault.symm.trans (Report.takes_of_memory hmemory _)
  | @unopened _ report _ hunopened _ hgrows =>
      have hreport : w.report.GrowsBy (begunSection (w.disk.label source)
          (allEntries (job.writtenOn w.disk source))) report := by
        rw [Job.writtenOn, Job.outcomesOn, Disk.seenLines_of_unopened hunopened]
        exact hgrows
      obtain ⟨failure, rfl, hsource, htemp⟩ := hunopened.failure hnul
      refine ⟨failure, rfl, hsource, hsource ▸ hnoted, fun hfile => ?_, hreport,
        .inl ⟨htemp, rfl⟩⟩
      obtain ⟨text, hholds⟩ := hfile.holds
      exact hunopened.not_opened hholds.1 hholds.2
  | unmade _ _ hrefused => exact absurd (hfree rfl) (Disk.create_eq_error hrefused).1
  | @unfinished content _ _ _ _ _ _ _ hsound hread hreaches hbreak hcreate hadd =>
      obtain ⟨rfl, rfl⟩ := hreaches.written (Report.takes_of_memory hmemory)
      refine ⟨_, rfl, rfl, hnoted, fun hfile => ?_, ?_, .inr ⟨hsound, _, rfl, hcreate⟩⟩
      · rw [hfile.breakOf_eq_none (Report.takes_of_memory hmemory) hread hreaches] at hbreak
        cases hbreak
      · rw [Job.writtenOn, Job.outcomesOn, Disk.seenLines_of_read hsound hread]
        exact Report.growsBy_of_addAll? hadd

end Stopped

/-! ## §6 Runs that end early -/

/-- One of the files cannot be redacted, nor is it the copy of a file before it. -/
def HasUnredactable (job : Job) (w : Workspace) (files : List Path) : Prop :=
  ∃ before bad after, files = before ++ bad :: after ∧ ¬Redactable job w.disk bad ∧
    ∀ temp ∈ tempPaths w.clock w.nextToken before, ∀ location,
      w.disk.Names bad location → ¬w.disk.Names temp location

section Runs

variable {job : Job} {w w₁ w' : Workspace} {files before : List Path}

omit [Host] in
/-- The numbers of the tokens are those from the given one on, one for each file. -/
theorem number_lt_of_mem_tempPaths {clock : Nat → Int} {temp : Path} {n : Nat}
    (h : temp ∈ tempPaths clock n files) :
    ∃ token source, temp = tempPath token source ∧ token.number < n + files.length := by
  induction files generalizing n with
  | nil => simp [tempPaths] at h
  | cons file files ih =>
      rw [List.length_cons]
      rcases List.mem_cons.mp h with rfl | h
      · exact ⟨_, _, rfl, by simp only; omega⟩
      · obtain ⟨token, source, rfl, hlt⟩ := ih h
        exact ⟨token, source, rfl, by omega⟩

/-- Only the copies are new. -/
theorem AllCopied.exists_temp (h : AllCopied job w w₁ files) {location : Location} {entry : Entry}
    (hnone : w.disk.get? location = none) (hget : w₁.disk.get? location = some entry) :
    ∃ temp ∈ tempPaths w.clock w.nextToken files, w.disk.Names temp location := by
  obtain ⟨made, hmade, htemps⟩ := h.additions
  obtain ⟨a, ha, rfl⟩ := hmade.added location entry hnone hget
  exact ⟨tempPath a.token a.source, htemps ▸ List.mem_map_of_mem ha, (hmade.made a ha).names⟩

/-- Where nothing was there are the copies, and nothing else. -/
theorem AllCopied.get?_ne_none_iff (h : AllCopied job w w₁ files) {location : Location}
    (hnone : w.disk.get? location = none) : w₁.disk.get? location ≠ none ↔
      ∃ temp ∈ tempPaths w.clock w.nextToken files, w.disk.Names temp location := by
  constructor
  · intro hsome
    obtain ⟨entry, hget⟩ := Option.ne_none_iff_exists'.mp hsome
    exact h.exists_temp hnone hget
  · rintro ⟨temp, htemp, hnames⟩
    obtain ⟨made, hmade, htemps⟩ := h.additions
    obtain ⟨a, ha, rfl⟩ := List.mem_map.mp (htemps ▸ htemp)
    obtain ⟨serial, content, hfile⟩ := (hmade.made a ha).file
    rw [hnames.unique (hmade.made a ha).names, hfile]
    simp

/-- What can be redacted when files have been copied could be redacted before, or is a copy. -/
theorem AllCopied.redactable_before (h : AllCopied job w w₁ files) {file : Path}
    (hfile : Redactable job w₁.disk file) (hother : ∀ temp ∈ tempPaths w.clock w.nextToken files,
      ∀ location, w.disk.Names file location → ¬w.disk.Names temp location) :
    Redactable job w.disk file := by
  obtain ⟨made, hmade, -⟩ := h.additions
  obtain ⟨text, hholds⟩ := hfile.holds
  obtain ⟨location, serial, hnames, hget⟩ := Disk.read_eq_ok_iff.mp hholds.2
  rw [← Disk.names_congr hmade.directories] at hnames
  have hbefore : w.disk.Holds file text := by
    refine ⟨hholds.1, Disk.read_eq_ok_iff.mpr ⟨location, serial, hnames, ?_⟩⟩
    cases hbefore : w.disk.get? location with
    | none =>
        obtain ⟨temp, htemp, hplace⟩ := h.exists_temp hbefore hget
        exact absurd hplace (hother temp htemp location hnames)
    | some entry => rw [← hmade.kept location entry hbefore, hget]
  exact ⟨⟨text, hbefore⟩, hmade.outcomesOn_eq job hbefore ▸ hfile.writable⟩

/-- A run does not get past a file that cannot be redacted. -/
theorem copyEach_ne_ok (hjob : job.Ready) (hmemory : w.report.serial? = none)
    (hbad : HasUnredactable job w files) {copies : List FileCopy} :
    (copyEach job [] files).run w ≠ (.ok copies, w') := by
  intro hrun
  obtain ⟨before, bad, after, rfl, hunredactable, hother⟩ := hbad
  rw [run_copyEach_append] at hrun
  rcases hbefore : (copyEach job [] before).run w with ⟨e | done, w₁⟩
  · rw [hbefore] at hrun
    cases hrun
  simp only [hbefore, run_copyEach_cons] at hrun
  rcases hfile : (copyFile job bad).run w₁ with ⟨e | copy, w₂⟩
  · rw [hfile] at hrun
    cases hrun
  obtain ⟨hcopied, -⟩ := copyEach_copied hjob hmemory hbefore
  exact hunredactable (hcopied.redactable_before (redactable_of_copyFile hjob hfile) hother)

/-- The temporary copy of the next file has room if it has had room at the start. -/
theorem AllCopied.free (h : AllCopied job w w₁ before) {source : Path}
    (hfree : w.disk.Free (tempPath (w₁.tokenAt w₁.nextToken) source)) :
    w₁.disk.Free (tempPath (w₁.tokenAt w₁.nextToken) source) := by
  obtain ⟨made, hmade, htemps⟩ := h.additions
  refine hmade.free hfree ?_
  rintro a ha location hnames rfl
  have hplace := (hmade.made a ha).names
  have hmem : tempPath a.token a.source ∈ tempPaths w.clock w.nextToken before :=
    htemps ▸ List.mem_map_of_mem ha
  obtain ⟨token, source', heq, hlt⟩ := number_lt_of_mem_tempPaths hmem
  rw [heq] at hplace
  refine Disk.tempPath_ne hplace hnames ?_ rfl
  rintro rfl
  rw [Workspace.tokenAt, h.nextToken] at hlt
  exact absurd hlt (Nat.lt_irrefl _)

/-- A run on files one of which cannot be redacted ends at some file. It has copied the files before
that one, and leaves what a file leaves that is not copied to its end. -/
theorem copyEach_interrupted (hjob : job.Ready) {result : Except RunError (List FileCopy)}
    (hmemory : w.report.serial? = none) (hnul : ∀ file ∈ files, file.hasNul = false)
    (hbad : HasUnredactable job w files)
    (hfree : ∀ temp ∈ tempPaths w.clock w.nextToken (files.take (w'.nextToken - w.nextToken)),
      w.disk.Free temp)
    (hrun : (copyEach job [] files).run w = (result, w')) :
    ∃ before bad after w₁ failure, files = before ++ bad :: after ∧ AllCopied job w w₁ before ∧
      Stopped job w₁ w' bad failure ∧ result = .error (.file failure
        (completeCopies w.clock (job.outcomesOn w₁.disk) w.nextToken before)) := by
  cases result with
  | ok copies => exact absurd hrun (copyEach_ne_ok hjob hmemory hbad)
  | error e =>
      obtain ⟨before, bad, after, copies, w₁, e', rfl, hbefore, hfile, rfl⟩ := copyEach_ended hrun
      obtain ⟨hcopied, rfl⟩ := copyEach_copied hjob hmemory hbefore
      have hroom : w'.nextToken = w₁.nextToken + 1 →
          w.disk.Free (tempPath (w₁.tokenAt w₁.nextToken) bad) := by
        intro htoken
        refine hfree _ ?_
        -- One token more has been taken than there are files before this one.
        have hcount : w'.nextToken - w.nextToken = before.length + 1 := by
          rw [htoken, hcopied.nextToken]
          omega
        rw [hcount, List.take_length_add_append, tempPaths_append, Workspace.tokenAt, hcopied.clock,
          hcopied.nextToken]
        exact List.mem_append_right _ (List.mem_cons_self ..)
      obtain ⟨failure, rfl, hstopped⟩ := copyFile_stopped hjob hcopied.memory (hnul bad (by simp))
        (fun htoken => hcopied.free (hroom htoken)) hfile
      exact ⟨before, bad, after, w₁, failure, rfl, hcopied, hstopped, rfl⟩

end Runs

/-! ## §7 Discarding the unfinished copy -/

/-- The disks have the same at every location. -/
structure Disk.Same (a b : Disk) : Prop where
  workingDirectory : a.workingDirectory = b.workingDirectory
  get? : ∀ location, a.get? location = b.get? location

section Same

variable {a b : Disk} (h : Disk.Same a b)
include h

omit [Host] in
theorem Disk.Same.symm : Disk.Same b a :=
  ⟨h.workingDirectory.symm, fun location => (h.get? location).symm⟩

omit [Host] in
theorem Disk.Same.sameDirectories : SameDirectories a b :=
  ⟨h.workingDirectory, fun location => by rw [h.get?]⟩

omit [Host] in
theorem Disk.Same.toOption_read (path : Path) : (a.read path).toOption = (b.read path).toOption :=
  Disk.toOption_read h.sameDirectories fun location _ => h.get? location

omit [Host] in
theorem Disk.Same.read {path : Path} {content : List UInt8} (hread : a.read path = .ok content) :
    b.read path = .ok content :=
  eq_ok_of_toOption (by rw [← h.toOption_read, hread]; rfl)

theorem Disk.Same.outcomesOn (job : Job) : job.outcomesOn a = job.outcomesOn b := by
  funext file
  rw [Job.outcomesOn, Job.outcomesOn, Disk.seenLines, Disk.seenLines, h.toOption_read,
    label_congr h.sameDirectories]

theorem Disk.Same.writtenOn (job : Job) : job.writtenOn a = job.writtenOn b := by
  funext file
  rw [Job.writtenOn, Job.writtenOn, h.outcomesOn]

theorem Disk.Same.redactable {job : Job} {file : Path} (hfile : Redactable job a file) :
    Redactable job b file := by
  obtain ⟨⟨text, hsound, hread⟩, hwritable⟩ := hfile
  exact ⟨⟨text, hsound, h.read hread⟩, h.outcomesOn job ▸ hwritable⟩

end Same

omit [Host] in
/-- A file that has been made is taken away again. -/
theorem same_erase_created {disk created : Disk} {path : Path} {bytes : List UInt8}
    (hcreate : disk.create path bytes = .ok created) :
    ∃ after, created.unlink path = .ok after ∧ Disk.Same disk after ∧ after.Free path := by
  have hsame := Disk.sameDirectories_create hcreate
  obtain ⟨location, hnames, hnone, rfl⟩ := Disk.create_eq_ok_iff.mp hcreate
  have hroot := hnames.ne_nil
  have hnew : (disk.putNew location bytes).get? location = some (.file disk.nextSerial bytes) := by
    rw [Disk.get?_putNew disk bytes hroot, if_pos rfl]
  have hafter : Disk.Same disk ((disk.putNew location bytes).erase location) := by
    refine ⟨rfl, fun other => ?_⟩
    rw [Disk.get?_erase _ hroot, Disk.get?_putNew disk bytes hroot]
    by_cases hother : other = location
    · rw [if_pos hother, hother, hnone]
    · rw [if_neg hother, if_neg hother]
  refine ⟨_, Disk.unlink_eq_ok_iff.mpr
    ⟨location, _, _, (Disk.names_congr hsame).mp hnames, hnew, rfl⟩, hafter, location,
    (Disk.names_congr hafter.sameDirectories).mp hnames, ?_⟩
  rw [← hafter.get?, hnone]

/-- What is left of a file that was not copied to its end is discarded without a trace. -/
theorem run_discardCopy_stopped {job : Job} {w w' : Workspace} {source : Path}
    {failure : FileFailure} (h : Stopped job w w' source failure) (hnormal : source.Normal) :
    ∃ found disk log, (discardCopy (failure.temp.map Path.toText)).run w' =
        (.ok found, { w' with disk, log }) ∧
      Disk.Same w.disk disk ∧ (∀ temp, failure.temp = some temp → disk.Free temp) ∧
      errorsIn log = errorsIn w'.log := by
  rcases h.left with ⟨htemp, hdisk⟩ | ⟨hsound, bytes, htemp, hcreate⟩
  · refine ⟨false, w.disk, w'.log, ?_, ⟨rfl, fun _ => rfl⟩, by simp [htemp], rfl⟩
    rw [htemp, ← hdisk]
    rfl
  · obtain ⟨after, hunlink, hsame, hfree⟩ := same_erase_created hcreate
    have hpath := Path.ofText_toText (Path.normal_tempPath hnormal (w.tokenAt w.nextToken))
    refine ⟨true, after, w'.log ++
      [.discarded (tempPath (w.tokenAt w.nextToken) source).toText], ?_, hsame, ?_, ?_⟩
    · rw [htemp, Option.map_some, run_discardCopy, hpath,
        fault?_tempPath _ hsound, hunlink]
    · rw [htemp]
      rintro temp ⟨⟩
      exact hfree
    · rw [errorsIn_append]
      exact List.append_nil _

end LogRedaction
