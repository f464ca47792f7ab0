/-
LogRedaction.Proofs.CommandLine.ReportFile — the report that is written out and that in a file.

A command writes its report out, or adds it to a file that is named. Either way it is the same
report, and the choice makes no other difference: the command ends in the same way, says the same,
and leaves the same files (`redact_same_report`). This holds also when a file cannot be copied and
the rest of the work is left undone.

The file has to be one that can be added to, in a directory that is there (`Disk.TakesReport`), and
none that the command works on otherwise (`Disk.Misses`). Without the latter the report would be
redacted itself, or be in the way of a copy. And what is written out has to have bytes: standard
output may take what a file cannot hold, and then the run with the file fails
(`redact_report_unencodable`).

## §1 Opening the report
## §2 Tokens that are taken
## §3 What has been written out
## §4 The command with and without a file
-/
import LogRedaction.Proofs.CommandLine.Preflight
import LogRedaction.Proofs.Durability
import LogRedaction.Proofs.Independence

namespace LogRedaction

open Text LogRedaction.Action

section ReportFile

variable [Host]

/-! ## §1 Opening the report -/

/-- The report is opened in the file at the place, and holds nothing yet. -/
theorem FileReport.open?_ok {disk : Disk} {text : Text} {place : Location}
    (h : disk.TakesReport text place) (hnumbered : disk.Numbered) :
    ∃ f opened, FileReport.open? disk text true = (.ok f, opened) ∧ f.Keeps [] [] ∧
      Disk.Beside disk place f.serial [] disk opened := by
  obtain ⟨path, hpath, hsound, hparent, hnames⟩ := h.path
  have hopen : ∀ {serial opened}, disk.openToWrite path false = .ok (serial, opened) →
      FileReport.open? disk text true = (.ok ⟨path, serial, .append, [], false⟩, opened) :=
    fun hwrite => FileReport.open?_eq hpath hsound hparent hwrite
  have hplace := hnames
  rw [Disk.Names] at hplace
  rcases hget : disk.get? place with _ | _ | ⟨serial, content⟩
  · rw [hget] at hplace
    refine ⟨_, _, hopen (by rw [Disk.openToWrite, hplace]), ⟨rfl, rfl, rfl⟩, ?_⟩
    exact Disk.beside_of_none hnumbered hnames.ne_nil hget
  · exact absurd hget h.space
  · rw [hget] at hplace
    refine ⟨_, _, hopen (by rw [Disk.openToWrite, hplace]), ⟨rfl, rfl, rfl⟩, ?_⟩
    exact Disk.beside_of_file hnumbered hget

namespace CommandLine

/-! ## §2 Tokens that are taken -/

theorem nextToken_conclude (copying : Action RunError (List FileCopy)) (desk : Desk) :
    ((conclude copying).run desk).2.work.nextToken = (copying.run desk.work).2.nextToken := by
  rcases hrun : (conclude copying).run desk with ⟨result, desk'⟩
  cases concluded hrun with
  | copied hcopy => exact congrArg (·.2.nextToken) hcopy.symm
  | failed hcopy => exact congrArg (·.2.nextToken) hcopy.symm
  | undiscarded hcopy hdiscard =>
      exact (nextToken_discardCopy hdiscard).trans (congrArg (·.2.nextToken) hcopy.symm)
  | unprinted hcopy hdiscard =>
      exact (nextToken_discardCopy hdiscard).trans (congrArg (·.2.nextToken) hcopy.symm)
  | listed hcopy hdiscard =>
      exact (nextToken_discardCopy hdiscard).trans (congrArg (·.2.nextToken) hcopy.symm)

theorem nextToken_finish (keepTemp : Bool) (copies : List FileCopy) (desk : Desk) :
    ((finish keepTemp copies).run desk).2.work.nextToken = desk.work.nextToken := by
  have htoken := nextToken_putAllInPlace copies desk.work
  rcases hrun : (finish keepTemp copies).run desk with ⟨result, desk'⟩
  cases finished hrun with
  | unprinted => rfl
  | listed => rfl
  | misplaced _ _ hput =>
      rw [hput] at htoken
      exact htoken
  | placed _ _ hput =>
      rw [hput] at htoken
      exact htoken

/-- Tokens are taken only while files are copied. -/
theorem nextToken_redactBy (job : Job) (noted : List Event) (keepTemp : Bool)
    (files : List Text) (desk : Desk) :
    ((redactBy job noted none keepTemp files).run desk).2.work.nextToken =
      ((copyBy job noted (files.map Path.ofText)).run
        { desk.work with report := .list [] }).2.nextToken := by
  have hcopy := nextToken_conclude (copyBy job noted (files.map Path.ofText))
    { desk with work := { desk.work with report := .list [] } }
  rw [redactBy, run_bind, run_openReport_none]
  simp only [run_bind]
  rcases hrun : (conclude (copyBy job noted (files.map Path.ofText))).run
    { desk with work := { desk.work with report := .list [] } } with ⟨e | copies, desk'⟩
  · rw [hrun] at hcopy
    exact hcopy
  · rw [hrun] at hcopy
    exact (nextToken_finish keepTemp copies desk').trans hcopy

/-! ## §3 What has been written out -/

omit [Host] in
theorem chars_reportText (records : List Record) :
    (reportText records).chars = fileText records := by
  have hwritten : Record.written = fun record =>
      record.render.toList.filterMap CodePoint.char? ++ ['\n'] := rfl
  simp [reportText, reportPieces, reportLines, Text.chars, fileText, hwritten,
    List.filterMap_flatMap, List.flatMap_map, CodePoint.char?]

omit [Host] in
/-- A report that is written out has bytes if each of its lines has. -/
theorem writable_reportText {records : List Record} :
    (reportText records).Writable ↔ ∀ record ∈ records, record.render.Writable := by
  simp only [Text.writable_iff_forall, reportText, reportPieces, reportLines, Text.toList_join,
    List.mem_flatMap, List.mem_map]
  constructor
  · intro h record hrecord c hc
    exact h c ⟨_, ⟨_, ⟨record, hrecord, rfl⟩, rfl⟩, List.mem_append_left _ hc⟩
  · rintro h c ⟨_, ⟨_, ⟨record, hrecord, rfl⟩, rfl⟩, hc⟩
    rcases List.mem_append.mp hc with hc | hc
    · exact h record hrecord c hc
    · obtain rfl : c = .scalar '\n' := by simpa using hc
      rfl

theorem copyBy_memory {job : Job} (hjob : job.Ready) (noted : List Event) (files : List Path)
    {w : Workspace} {records : List Record} (hlist : w.report = .list records) :
    ∃ more, ((copyBy job noted files).run w).2.report = .list (records ++ more) := by
  obtain ⟨disk, report, nextToken, clock, log⟩ := w
  obtain rfl : report = .list records := hlist
  obtain ⟨more, hgrows⟩ := copyEach_reports hjob files []
    ⟨disk, .list records, nextToken, clock, log ++ noted⟩ (by rfl)
  rw [Report.growsBy_list_iff] at hgrows
  rw [copyBy, run_bind, run_noteAll]
  exact ⟨more, hgrows⟩

theorem copyBy_error {job : Job} (hjob : job.Ready) {noted : List Event} {files : List Path}
    {e : RunError} {w w' : Workspace}
    (hrun : (copyBy job noted files).run w = (.error e, w')) :
    e = .nulInPath ∨ (∃ fault, e = .report fault) ∨ ∃ failure done, e = .file failure done := by
  rw [copyBy, run_bind, run_noteAll] at hrun
  exact copyEach_error hjob hrun

/-- A command that returns has written its report out to the end. -/
structure Written (report : Report) (results : Text) : Prop where
  report : ∃ records, report = .list records ∧ Printable (reportPieces records) ∧
    results = reportText records

theorem written_of_output {report : Report} {records : List Record} {results : Text}
    (hlist : report = .list records) (hfault : (reportOutput report).2 = none)
    (hresults : results = (reportOutput report).1) : Written report results := by
  subst hlist
  have hprinted := printable_of_printed hfault
  exact ⟨records, rfl, hprinted, by rw [hresults, reportOutput, printed_of_printable hprinted]; rfl⟩

theorem conclude_written {copying : Action RunError (List FileCopy)} {desk desk' : Desk}
    {e : RunError} {err : CommandError} {w : Workspace} {records : List Record}
    (hcopy : copying.run desk.work = (.error e, w)) (hlist : w.report = .list records)
    (he : e = .nulInPath ∨ (∃ fault, e = .report fault) ∨ ∃ failure done, e = .file failure done)
    (hrun : (conclude copying).run desk = (.error err, desk')) (hempty : desk.results = "")
    (hreturned : err.isReported) :
    (∃ failure done, e = .file failure done) ∧ Written w.report desk'.results := by
  cases concluded hrun with
  | failed hcopy' hne =>
      obtain ⟨⟨⟩, rfl⟩ := Prod.mk.inj (hcopy.symm.trans hcopy')
      obtain rfl | ⟨fault, rfl⟩ | ⟨failure, done, rfl⟩ := he
      · cases hreturned
      · cases hreturned
      · exact absurd rfl (hne failure done)
  | undiscarded => cases hreturned
  | unprinted => cases hreturned
  | @listed failure completed found work work' hcopy' hdiscard hfault =>
      obtain ⟨⟨⟩, rfl⟩ := Prod.mk.inj (hcopy.symm.trans hcopy')
      have hreport := report_discardCopy hdiscard
      refine ⟨⟨failure, completed, rfl⟩, written_of_output hlist (hreport ▸ hfault) ?_⟩
      simp only [Desk.closed, Desk.reported, hempty, hreport, Text.empty_append]

theorem finish_written {keepTemp : Bool} {copies : List FileCopy} {desk desk' : Desk}
    {records : List Record} {result : Except CommandError Unit}
    (hlist : desk.work.report = .list records)
    (hrun : (finish keepTemp copies).run desk = (result, desk')) (hempty : desk.results = "")
    (hreturned : ∀ err, errorOf result = some err → err.isReported) :
    Written desk.work.report desk'.results := by
  have hresults : desk.reported.results = (reportOutput desk.work.report).1 := by
    rw [Desk.reported, hempty, Text.empty_append]
  cases finished hrun with
  | unprinted => cases hreturned _ rfl
  | listed hfault => exact written_of_output hlist hfault hresults
  | misplaced hfault => exact written_of_output hlist hfault hresults
  | placed hfault => exact written_of_output hlist hfault hresults

/-- The report in memory is that which there is when the copying of the files has ended. -/
theorem redactBy_written {job : Job} (hjob : job.Ready) {noted before : List Event} {keepTemp : Bool}
    {files : List Text} {work : Workspace} {result : Except CommandError Unit} {desk : Desk}
    (hrun : (redactBy job noted none keepTemp files).run (Desk.start work before) = (result, desk))
    (hreturned : ∀ err, errorOf result = some err → err.isReported) :
    Written ((copyBy job noted (files.map Path.ofText)).run
      (Desk.start work before).work).2.report desk.results ∧
    ∀ e w, (copyBy job noted (files.map Path.ofText)).run (Desk.start work before).work =
      (.error e, w) → ∃ failure done, e = .file failure done := by
  have hmemory : (openReport none).run (Desk.start work before) =
      (.ok ⟨⟩, Desk.start work before) := rfl
  obtain ⟨more, hlist⟩ := copyBy_memory hjob noted (files.map Path.ofText)
    (w := (Desk.start work before).work) rfl
  rw [redactBy, run_bind, hmemory] at hrun
  simp only [run_bind] at hrun
  rcases hcopy : (copyBy job noted (files.map Path.ofText)).run (Desk.start work before).work
    with ⟨e | copies, w⟩
  · rw [hcopy] at hlist
    obtain ⟨err, desk', hconclude⟩ := conclude_fails hcopy
    rw [hconclude] at hrun
    obtain ⟨⟨⟩, rfl⟩ := Prod.mk.inj hrun
    obtain ⟨hfile, hwritten⟩ := conclude_written hcopy hlist (copyBy_error hjob hcopy) hconclude
      rfl (hreturned err rfl)
    refine ⟨hwritten, fun e' w' h => ?_⟩
    obtain ⟨he, -⟩ := Prod.mk.inj h
    exact Except.error.inj he ▸ hfile
  · rw [hcopy] at hlist
    have hconclude := run_conclude (copyBy job noted (files.map Path.ofText))
      (Desk.start work before)
    rw [hcopy] at hconclude
    simp only at hconclude
    rw [Desk.closed_list (by exact hlist)] at hconclude
    rw [hconclude] at hrun
    exact ⟨finish_written (by exact hlist) hrun rfl hreturned, fun _ _ h => by cases h⟩

/-! ## §4 The command with and without a file -/

/-- Nothing that has been written or said differs, but that the first desk has the report among its
results, and the second has it in the file at the place. -/
structure Desk.Matches (start : Disk) (place : Location) (more : List UInt8) (d e : Desk) :
    Prop where
  remarks : e.remarks = d.remarks
  results : e.results = ""
  work : ∃ serial, Alongside start place serial more d.work e.work

section Parts

variable {start : Disk} {place : Location} {job : Job}

theorem copyBy_parallel (hjob : job.Ready) {noted : List Event} {files : List Path}
    {w v : Workspace} (h : Parallel start place w v)
    (hfiles : ∀ file ∈ files, file.Normal ∧ start.Misses place file)
    (htemps : ∀ temp ∈ tempPaths w.clock w.nextToken
        (files.take (((copyBy job noted files).run w).2.nextToken - w.nextToken)),
      ∀ location, start.NameOf place location → ¬start.Names temp location)
    (hencodable : ((copyBy job noted files).run w).2.report.Encodable) :
    InStep (Parallel start place) ((copyBy job noted files).run w)
        ((copyBy job noted files).run v) ∧
      CopiesMiss start place [] ((copyBy job noted files).run w).1 := by
  rw [copyBy, run_bind, run_noteAll] at htemps hencodable ⊢
  exact copyEach_parallel hjob files [] (h.noteAll noted) hfiles htemps hencodable

/-- When all files have been copied, both desks have the report to its end. -/
theorem conclude_copied {copying : Action RunError (List FileCopy)} {d e : Desk}
    {copies : List FileCopy} {w : Workspace} {records : List Record}
    (hcopy : InStep (Parallel start place) (copying.run d.work) (copying.run e.work))
    (hrun : copying.run d.work = (.ok copies, w)) (hlist : w.report = .list records)
    (hremarks : e.remarks = d.remarks) (hresults : e.results = "") :
    ∃ g e', e'.work.report = .file g ∧
      (conclude copying).run d = (.ok copies, { d with work := w }) ∧
      (conclude copying).run e = (.ok copies, e') ∧
      Desk.Matches start place (encodeUtf8 (fileText records)) { d with work := w } e' := by
  obtain ⟨result, w', v, hsame, hrun', hworks⟩ := hcopy
  obtain ⟨rfl, rfl⟩ := Prod.mk.inj (hrun.symm.trans hsame)
  obtain ⟨records', serial, g, hlist', hfile, hclosed⟩ := hworks.close
  obtain rfl := Report.list.inj (hlist.symm.trans hlist')
  refine ⟨g, Desk.closed { e with work := v }, hfile, ?_, ?_, hremarks, hresults, serial, hclosed⟩
  · rw [run_conclude, hrun]
    simp only
    rw [Desk.closed_list (by exact hlist)]
  · rw [run_conclude, hrun']

/-- When the copying has failed at a file, it has done so on both desks. -/
theorem conclude_failed {copying : Action RunError (List FileCopy)} {d e : Desk}
    {failure : FileFailure} {done : List FileCopy} {w : Workspace} {records : List Record}
    (hcopy : InStep (Parallel start place) (copying.run d.work) (copying.run e.work))
    (hrun : copying.run d.work = (.error (.file failure done), w))
    (htemp : ∀ path, failure.temp = some path → path.Normal ∧ start.Misses place path)
    (hlist : w.report = .list records) (hprinted : Printable (reportPieces records))
    (hremarks : e.remarks = d.remarks) (hresults : e.results = "") :
    ∃ err d' e', (conclude copying).run d = (.error err, d') ∧
      (conclude copying).run e = (.error err, e') ∧
      Desk.Matches start place (encodeUtf8 (fileText records)) d' e' := by
  obtain ⟨result, w', v, hsame, hrun', hworks⟩ := hcopy
  obtain ⟨rfl, rfl⟩ := Prod.mk.inj (hrun.symm.trans hsame)
  rw [run_conclude, run_conclude, hrun, hrun']
  obtain ⟨result, w', v', hdiscard, hdiscard', hworks⟩ := hworks.discardCopy htemp
  have hlist' : w'.report = .list records := (report_discardCopy hdiscard).trans hlist
  obtain ⟨records', serial, g, hsame', -, hclosed⟩ := hworks.close
  obtain rfl := Report.list.inj (hlist'.symm.trans hsame')
  simp only [hdiscard, hdiscard']
  cases result with
  | error e' =>
      simp only
      rw [Desk.closed_list (by exact hlist')]
      exact ⟨_, _, _, rfl, rfl, hremarks, hresults, serial, hclosed⟩
  | ok found =>
      obtain ⟨_, f, _, -, hreport, -⟩ := hworks
      simp only [hlist', hreport, reportOutput, printed_of_printable hprinted]
      rw [Desk.closed_list (by exact hlist')]
      refine ⟨_, _, _, rfl, rfl, congrArg (· ++ _) hremarks, ?_, serial, hclosed⟩
      simp only [Desk.closed, Desk.reported, hreport, reportOutput, hresults, Text.append_empty]

section Sites

variable {fresh : Nat} {sites : List Site} {more : List UInt8} {d e : Desk} {records : List Record}
  {g : FileReport} (h : Desk.Matches start place more d e) (hlist : d.work.report = .list records)
  (hprinted : Printable (reportPieces records)) (hfile : e.work.report = .file g)
include h hlist hprinted hfile

/-- What is left to do when all files have been copied. -/
theorem finish_matches
    (hsites : ∀ site ∈ sites, site.Misses start place ∧
      ∃ goal, Movable fresh goal d.work.disk site)
    (hclear : sites.Pairwise fun a b => a.place ≠ b.temp ∧ a.temp ≠ b.temp) (keepTemp : Bool) :
    ∃ result d' e', (finish keepTemp (sites.map (·.copy))).run d = (result, d') ∧
      (finish keepTemp (sites.map (·.copy))).run e = (result, e') ∧
      Desk.Matches start place more d' e' := by
  obtain ⟨serial, hwork⟩ := h.work
  rw [finish, run_bind, run_bind, run_writeReport_list hlist hprinted, run_writeReport_file hfile]
  cases keepTemp with
  | true =>
      simp only [if_true, run_remarkCopies]
      exact ⟨_, _, _, rfl, rfl, congrArg (· ++ _) h.remarks, h.results, serial, hwork⟩
  | false =>
      obtain ⟨result, w, v, hput, hput', hworks⟩ := hwork.putAllInPlace sites hsites hclear
      simp only [Bool.false_eq_true, if_false, run_bind, run_act, hput, hput']
      cases result with
      | error err => exact ⟨_, _, _, rfl, rfl, h.remarks, h.results, serial, hworks⟩
      | ok paths => exact ⟨_, _, _, rfl, rfl, h.remarks, h.results, serial, hworks⟩

end Sites

/-- The copies of a run that has copied all files can be put in place, and have nothing to do with
the file of the report. -/
theorem copyBy_sites (hjob : job.Ready) {noted : List Event} {files : List Path}
    {copies : List FileCopy} {records : List Record} {w w' : Workspace}
    (hlist : w.report = .list records)
    (hrun : (copyBy job noted files).run w = (.ok copies, w'))
    (hdirectories : Disk.SameDirectories start w'.disk)
    (hfiles : ∀ file ∈ files, file.Normal ∧ start.Misses place file)
    (hmiss : CopiesMiss start place [] (.ok copies)) :
    ∃ sites : List Site, copies = sites.map (·.copy) ∧
      (∀ site ∈ sites, site.Misses start place ∧
        ∃ goal, Movable w.disk.nextSerial goal w'.disk site) ∧
      sites.Pairwise fun a b => a.place ≠ b.temp ∧ a.temp ≠ b.temp := by
  rw [copyBy, run_bind, run_noteAll] at hrun
  obtain ⟨-, sites, hsites, hmade, hclear⟩ := copyEach_made hjob (by rw [hlist]; trivial)
    (by rw [hlist]; rintro serial ⟨⟩) hrun
  rw [List.nil_append] at hsites
  subst hsites
  refine ⟨sites, rfl, fun site hsite => ?_, hclear⟩
  obtain ⟨hsource, hsitemade⟩ := hmade site hsite
  obtain ⟨text, -, hmovable, -⟩ := hsitemade.redaction
  obtain ⟨token, hfinished, htemp⟩ := hmovable.finished
  have hmisses := (hfiles _ hsource).2
  have hnamed : site.copy.temp = some (tempPath token site.copy.source) := by
    rw [FileCopy.finished?] at hfinished
    split at hfinished
    · exact hfinished
    · cases hfinished
  have htempMisses := (hmiss site.copy (List.mem_map_of_mem hsite)).resolve_left
    List.not_mem_nil _ hnamed
  refine ⟨⟨fun hname => ?_, fun hname => ?_⟩, _, hmovable⟩
  · exact hmisses.end _ hname ((Disk.names_congr hdirectories).mpr hmovable.source)
  · exact htempMisses.end _ hname ((Disk.names_congr hdirectories).mpr htemp)

end Parts

section Redact

variable {work : Workspace} {text : Text} {place : Location} {files : List Text}
  (hnumbered : work.disk.Numbered) (htakes : work.disk.TakesReport text place)
include hnumbered htakes

/-- The work begins in the same way with the report in the file. -/
theorem openReport_parallel (noted : List Event) : ∃ desk : Desk,
    (openReport (some text)).run (Desk.start work noted) = (.ok ⟨⟩, desk) ∧
    Parallel work.disk place (Desk.start work noted).work desk.work ∧
    desk.remarks = "" ∧ desk.results = "" := by
  obtain ⟨f, opened, hopen, hkeeps, hbeside⟩ := FileReport.open?_ok htakes hnumbered
  have hopen' : FileReport.open? (Desk.start work noted).work.disk text true =
      (.ok f, opened) := hopen
  rw [run_openReport_some, hopen']
  exact ⟨_, rfl, ⟨[], f, [], rfl, rfl, hkeeps, rfl, rfl, rfl, hbeside⟩, rfl, rfl⟩

/-- Redacting by a job comes to the same with the report in a file, if it returns and what it writes
out has bytes. -/
theorem redactBy_matches (hfiles : ∀ file ∈ files, work.disk.Misses place (Path.ofText file))
    {job : Job} (hjob : job.Ready) {noted : List Event} {keepTemp : Bool}
    {result : Except CommandError Unit} {d : Desk}
    (hrun : (redactBy job noted none keepTemp files).run (Desk.start work noted) = (result, d))
    (htemps : ∀ temp ∈ tempPaths work.clock work.nextToken ((files.map Path.ofText).take
        (d.work.nextToken - work.nextToken)),
      ∀ location, work.disk.NameOf place location → ¬work.disk.Names temp location)
    (hreturned : ∀ err, errorOf result = some err → err.isReported)
    (hwritable : d.results.Writable) :
    ∃ e, (redactBy job noted (some text) keepTemp files).run (Desk.start work noted) = (result, e) ∧
      Desk.Matches work.disk place (encodeUtf8 d.results.chars) d e := by
  have hmisses : ∀ file ∈ files.map Path.ofText,
      file.Normal ∧ work.disk.Misses place file := by
    rw [List.forall_mem_map]
    exact fun file hfile => ⟨Path.normal_ofText file, hfiles file hfile⟩
  obtain ⟨⟨records, hlist, hprinted, hresults⟩, hfailed⟩ := redactBy_written hjob hrun hreturned
  have hencodable : ((copyBy job noted (files.map Path.ofText)).run
      (Desk.start work noted).work).2.report.Encodable := by
    rw [hlist]
    rintro _ ⟨⟩
    exact writable_reportText.mp (hresults ▸ hwritable)
  obtain ⟨desk, hopen, hparallel, hremarks, hempty⟩ := openReport_parallel hnumbered htakes noted
  have hmemory : (openReport none).run (Desk.start work noted) =
      (.ok ⟨⟩, Desk.start work noted) := rfl
  have htoken := nextToken_redactBy job noted keepTemp files (Desk.start work noted)
  rw [hrun] at htoken
  rw [show d.work.nextToken = _ from htoken] at htemps
  obtain ⟨hcopy, hmiss⟩ := copyBy_parallel hjob hparallel hmisses htemps hencodable
  rw [hresults, chars_reportText]
  rw [redactBy, run_bind, hmemory] at hrun
  rw [redactBy, run_bind, hopen]
  simp only [run_bind] at hrun ⊢
  rcases hcopied : (copyBy job noted (files.map Path.ofText)).run (Desk.start work noted).work
    with ⟨err | copies, w⟩
  · rw [hcopied] at hlist hmiss
    obtain ⟨failure, done, rfl⟩ := hfailed err w hcopied
    obtain ⟨err', d', e, hd, he, hmatches⟩ :=
      conclude_failed hcopy hcopied hmiss hlist hprinted hremarks hempty
    rw [hd] at hrun
    obtain ⟨rfl, rfl⟩ := Prod.mk.inj hrun
    rw [he]
    exact ⟨e, rfl, hmatches⟩
  · rw [hcopied] at hlist hmiss
    obtain ⟨g, e, hfile, hd, he, hmatches⟩ := conclude_copied hcopy hcopied hlist hremarks hempty
    have hdirectories : Disk.SameDirectories work.disk w.disk := by
      obtain ⟨serial, hwork⟩ := hmatches.work
      exact hwork.disk.left
    obtain ⟨sites, rfl, hsites, hclear⟩ :=
      copyBy_sites hjob (by rfl) hcopied hdirectories hmisses hmiss
    obtain ⟨result', d', e', hfinish, hfinish', hmatches'⟩ :=
      finish_matches hmatches hlist hprinted hfile hsites hclear keepTemp
    simp only [hd] at hrun
    obtain ⟨rfl, rfl⟩ := Prod.mk.inj (hrun.symm.trans hfinish)
    simp only [he]
    exact ⟨e', hfinish', hmatches'⟩

/-- If the command returns and what it writes out has bytes, then without a file for the report this
is what is added at the end of the file if one is named, and nothing else is. Whether the command
succeeds or fails, it ends in the same way, says the same, and leaves the same behind everywhere
else. If the rules or the user are rejected, the file is not even made. -/
theorem redact_same_report {common : Common} {keepTemp verbose : Bool} {stamp : Text}
    {a : Outcome}
    (hfiles : ∀ file ∈ files, work.disk.Misses place (Path.ofText file))
    (hrun : Invocation.execute ⟨verbose, .redact common none keepTemp files⟩ stamp work = a)
    (htemps : ∀ temp ∈ tempPaths work.clock work.nextToken
        ((files.map Path.ofText).take (a.work.nextToken - work.nextToken)),
      ∀ location, work.disk.NameOf place location → ¬work.disk.Names temp location)
    (hreturned : ∀ e, a.error = some e → e.isReported) (hwritable : a.results.Writable) :
    ∃ b : Outcome,
      Invocation.execute ⟨verbose, .redact common (some text) keepTemp files⟩ stamp work = b ∧
      b.error = a.error ∧ b.exitCode = a.exitCode ∧ b.remarks = a.remarks ∧ b.results = "" ∧
      (∀ location, ¬work.disk.NameOf place location →
        (b.work.disk.get? location).map Entry.content? =
          (a.work.disk.get? location).map Entry.content?) ∧
      ((∃ rules identity compiled, Accepted common work.disk rules identity compiled) →
        ∀ location, work.disk.NameOf place location → ∃ serial, b.work.disk.get? location =
          some (.file serial (work.disk.bytesAt location ++ encodeUtf8 a.results.chars))) ∧
      ((∀ rules identity compiled, ¬Accepted common work.disk rules identity compiled) →
        a.results = "" ∧ b.work.disk = work.disk) := by
  by_cases haccepted : ∃ rules identity compiled,
      Accepted common work.disk rules identity compiled
  · obtain ⟨rules, identity, compiled, h⟩ := haccepted
    have hredact := fun report =>
      @run_redactFiles_accepted _ common (Desk.start work []) _ _ _ h report keepTemp files
    rcases hmemory : (redactBy ⟨compiled, identity.mapping, identity.pseudonym⟩
      (preparing identity.mapping rules) none keepTemp files).run
        (Desk.start work (preparing identity.mapping rules)) with ⟨result, d⟩
    have hexecute := execute_run (.redact common none keepTemp files)
      ((hredact none).trans hmemory) verbose stamp
    obtain rfl := hexecute.symm.trans hrun
    obtain ⟨e, he, hmatches⟩ := redactBy_matches hnumbered htakes hfiles
      (Rule.ready_of_compileAll h.compile) hmemory htemps hreturned hwritable
    obtain ⟨serial, hwork⟩ := hmatches.work
    have hexecute' := execute_run (.redact common (some text) keepTemp files)
      ((hredact (some text)).trans he) verbose stamp
    refine ⟨_, hexecute', rfl, rfl, ?_, hmatches.results, hwork.disk.same,
      fun _ location hname => ⟨serial, hwork.disk.grown location hname⟩,
      fun hnone => absurd h (hnone _ _ _)⟩
    rw [hwork.log, hmatches.remarks]
  · have hnone := fun rules identity compiled h => haccepted ⟨rules, identity, compiled, h⟩
    obtain ⟨-, e, log, -, hredact⟩ := @rejected _ common (Desk.start work []) hnone
    have hexecute := fun report => execute_run (.redact common report keepTemp files)
      (hredact report keepTemp files) verbose stamp
    obtain rfl := (hexecute none).symm.trans hrun
    exact ⟨_, hexecute (some text), rfl, rfl, rfl, rfl, fun _ _ => rfl,
      fun h => absurd h haccepted, fun _ => ⟨rfl, rfl⟩⟩

end Redact

end CommandLine

end ReportFile

namespace CommandLine

section Sample

attribute [local instance] sampleHost

/-- The key of the rule has no bytes, and standard output takes it all the same. A file does not: with
the report in one the command fails. -/
theorem redact_report_unencodable :
    oddKeyWorkspace.disk.TakesReport "/report" ["report"] ∧
    (Invocation.execute ⟨false, .redact ⟨jdoeForm, some "/rules.yaml"⟩ none false ["/a.log"]⟩ ""
      oddKeyWorkspace).exitCode = 0 ∧
    (Invocation.execute ⟨false, .redact ⟨jdoeForm, some "/rules.yaml"⟩ (some "/report") false
      ["/a.log"]⟩ "" oddKeyWorkspace).exitCode = 1 :=
  ⟨⟨⟨⟨"/", ["report"]⟩, by decide +kernel, by decide +kernel, by decide +kernel, by rfl⟩,
    by decide +kernel⟩, by decide +kernel, by decide +kernel⟩

/-- What is said about the log in the login directory goes to a new file just as it would be written
out. -/
theorem redact_same_report_login : ∃ a b : Outcome, ∃ serial,
    Invocation.execute ⟨false, .redact ⟨jdoeForm, some "/rules.yaml"⟩ none false ["/a.log"]⟩ ""
      loginWorkspace = a ∧
    Invocation.execute ⟨false, .redact ⟨jdoeForm, some "/rules.yaml"⟩ (some "/report") false
      ["/a.log"]⟩ "" loginWorkspace = b ∧
    a.results = "=== /a.log\nReplaced, 1, true, rule 'plain-username'\n--- Completed /a.log\n" ∧
    b.results = "" ∧ b.exitCode = a.exitCode ∧
    b.work.disk.get? ["report"] = some (.file serial (encodeUtf8 a.results.chars)) := by
  have hnumbered : loginWorkspace.disk.Numbered := by
    simp [Disk.Numbered, loginWorkspace]
  have htakes : loginWorkspace.disk.TakesReport "/report" ["report"] :=
    ⟨⟨⟨"/", ["report"]⟩, by decide +kernel, by decide +kernel, by decide +kernel, by rfl⟩,
      by decide +kernel⟩
  have hname : ∀ {path location}, loginWorkspace.disk.NameOf ["report"] location →
      loginWorkspace.disk.Names path location → path.name = "report" := by
    intro path location hname hnames
    obtain rfl := hname.eq_of_none (by decide +kernel)
    exact (Option.some.inj (Disk.getLast?_of_names hnames)).symm
  have hfiles : ∀ file ∈ (["/a.log"] : List Text),
      loginWorkspace.disk.Misses ["report"] (Path.ofText file) := by
    intro file hfile
    obtain rfl := List.mem_singleton.mp hfile
    constructor
    · rintro location - ⟨before, part, rest, base, hparts, -⟩
      have hempty : (Path.ofText "/a.log").parts.dropLast = [] := by decide +kernel
      simp [hempty] at hparts
    · intro location hlocation hnames
      exact absurd (hname hlocation hnames) (by decide +kernel)
  have hsuccess : (Invocation.execute ⟨false, .redact ⟨jdoeForm, some "/rules.yaml"⟩ none false
      ["/a.log"]⟩ "" loginWorkspace).error.isNone := by decide +kernel
  obtain ⟨b, hb, -, hcode, -, hresults, -, hreport, -⟩ :=
    @redact_same_report _ loginWorkspace "/report" ["report"] ["/a.log"] hnumbered htakes
      ⟨jdoeForm, some "/rules.yaml"⟩ false false "" _ hfiles rfl (by
        intro temp htemp location hlocation hnames
        have hmem := mem_tempPaths_of_take htemp
        obtain rfl := List.mem_singleton.mp hmem
        exact absurd (hname hlocation hnames) (by decide +kernel))
      (by rw [Option.isNone_iff_eq_none.mp hsuccess]; simp) (by decide +kernel)
  obtain ⟨compiled, hcompile⟩ := Rule.compileAll_jdoe
  have haccepted : Accepted ⟨jdoeForm, some "/rules.yaml"⟩ loginWorkspace.disk
      [.username "plain-username"] jdoe compiled :=
    ⟨⟨_, rfl, eq_ok_of_toOption (by decide +kernel)⟩, rfl, hcompile⟩
  obtain ⟨serial, hget⟩ := hreport ⟨_, _, _, haccepted⟩ ["report"] (.inl rfl)
  exact ⟨_, b, serial, rfl, hb, by decide +kernel, hresults, hcode, hget⟩

end Sample

end CommandLine

end LogRedaction
