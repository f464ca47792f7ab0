/-
LogRedaction.Proofs.Growth — copying loses nothing, whatever it meets.

Nothing is asked here of the files that are copied, nor of what stands where their copies go: a file
may be listed twice, be the copy of one before it, or be the very file that the report is written
to, and the run may end at any of them. From one workspace to the next there is `Growth`: what was
there stays, and the report gets longer at its end.

That is enough to put the copies of a complete run in place. A copy is made where nothing was, and
at that time its source was there, as were the sources and the copies before it; so none is in the
way of a later one (`copyEach_made`), which is what `putAllInPlace_moves` asks for.

When a run ends at a file that has a name for its copy, either the copy is new, or it could not be
made because something else has the name (`copyFile_unfinished`).

## §1 Reports that grow at their end
## §2 Growth of workspaces
## §3 Copies that have been made
## §4 All files
-/
import LogRedaction.Proofs.Disk.Growth
import LogRedaction.Proofs.Interruption

namespace LogRedaction

open Text

/-! ## §1 Reports that grow at their end -/

namespace Report

/-- What is written to the report goes to its end. -/
def appends : Report → Prop
  | list _ => True
  | file f => f.mode = .append

end Report

theorem FileReport.flush_append {f : FileReport} (h : f.mode = .append) (disk : Disk) :
    f.flush disk = ({ f with buffer := [] }, disk.modify f.serial (· ++ f.buffer)) := by
  rw [flush, h]

namespace Report

variable {report next : Report} {disk disk' : Disk}

theorem add?_grown (h : report.appends) {record : Record}
    (hadd : report.add? disk record = .ok (next, disk')) :
    next.appends ∧ next.serial? = report.serial? ∧ Disk.Grown report.serial? disk disk' := by
  cases report with
  | list records =>
      obtain ⟨rfl, rfl⟩ := Prod.mk.inj (Except.ok.inj hadd)
      exact ⟨trivial, rfl, .refl _ _⟩
  | file f =>
      rw [add?_file (takes_of_add? hadd), FileReport.add] at hadd
      by_cases hkind : record.kind = .finish
      · rw [if_pos hkind, FileReport.flush_append (by exact h)] at hadd
        obtain ⟨rfl, rfl⟩ := Prod.mk.inj (Except.ok.inj hadd)
        exact ⟨h, rfl, Disk.grown_modify _ _ _⟩
      · rw [if_neg hkind] at hadd
        obtain ⟨rfl, rfl⟩ := Prod.mk.inj (Except.ok.inj hadd)
        exact ⟨h, rfl, .refl _ _⟩

theorem addAll?_grown (h : report.appends) {records : List Record}
    (hadd : report.addAll? disk records = .ok (next, disk')) :
    next.appends ∧ Disk.Grown report.serial? disk disk' := by
  induction records generalizing report disk with
  | nil =>
      obtain ⟨rfl, rfl⟩ := Prod.mk.inj (Except.ok.inj hadd)
      exact ⟨h, .refl _ _⟩
  | cons record records ih =>
      rw [addAll?] at hadd
      split at hadd
      · rename_i between disk₁ hfirst
        obtain ⟨happends, hserial, hgrown⟩ := add?_grown h hfirst
        obtain ⟨hlast, hmore⟩ := ih happends hadd
        exact ⟨hlast, hgrown.trans (hserial ▸ hmore)⟩
      · cases hadd

theorem GrowsBy.appends {records : List Record} (h : report.GrowsBy records next)
    (happends : report.appends) : next.appends := by
  obtain ⟨disk', hadd⟩ := h ⟨[], 0, []⟩
  exact (addAll?_grown happends hadd).1

/-- What has not reached the file of the report does so when the report is closed. -/
theorem close_written (report : Report) (disk : Disk) :
    Disk.Written report.serial? disk (report.close disk).2 := by
  cases report with
  | list records => exact .inl rfl
  | file f =>
      change Disk.Written _ disk (f.close disk).2
      rw [FileReport.close]
      split
      · exact .inl rfl
      · rw [FileReport.flush]
        cases f.mode with
        | append => exact .inr ⟨_, _, rfl, rfl⟩
        | «at» position => exact .inr ⟨_, _, rfl, rfl⟩

theorem close_grown (h : report.appends) (disk : Disk) :
    Disk.Grown report.serial? disk (report.close disk).2 := by
  cases report with
  | list records => exact .refl _ _
  | file f =>
      change Disk.Grown _ disk (f.close disk).2
      rw [FileReport.close]
      split
      · exact .refl _ _
      · rw [FileReport.flush_append (by exact h)]
        exact Disk.grown_modify _ _ _

end Report

namespace FileReport

variable [Host] {disk disk' : Disk} {text : Text}

/-- Nothing is lost when a report is opened that is to grow, also if it cannot be opened. -/
theorem open?_grown {result : Except ReportError FileReport}
    (h : open? disk text true = (result, disk')) : Disk.Grown none disk disk' := by
  rw [open?] at h
  iterate 3
    split at h
    · exact (Prod.mk.inj h).2 ▸ .refl _ _
  rename_i between hmade
  have hgrown := (Disk.directoriesMade hmade).grown none
  split at h
  · exact (Prod.mk.inj h).2 ▸ hgrown
  split at h
  · exact (Prod.mk.inj h).2 ▸ hgrown
  · rename_i serial opened hopen
    rw [← (Prod.mk.inj h).2]
    rcases Disk.openToWrite_eq_ok hopen with ⟨rfl, -⟩ | ⟨-, hcreate⟩
    · exact hgrown
    · exact hgrown.trans (Disk.grown_create none hcreate)

/-- A report that has been opened grows at its end. If its file is none of the new ones, then it was
where the path of the report leads. -/
theorem open?_eq_ok {f : FileReport} (h : open? disk text true = (.ok f, disk'))
    (hnumbered : disk.Numbered) : f.closed = false ∧ f.mode = .append ∧
      f.serial < disk'.nextSerial ∧ (f.serial < disk.nextSerial → ∃ path place content,
        (Path.ofText text).expandHome? Host.home? = some path ∧ disk'.Names path place ∧
        disk.get? place = some (.file f.serial content)) := by
  rw [open?] at h
  split at h
  · cases h
  rename_i path hpath
  split at h
  · cases h
  split at h
  · cases h
  rename_i between hmade
  have hmade := Disk.directoriesMade hmade
  split at h
  · cases h
  split at h
  · cases h
  · rename_i serial opened hopen
    obtain ⟨hf, rfl⟩ := Prod.mk.inj h
    obtain rfl := Except.ok.inj hf
    rcases Disk.openToWrite_eq_ok hopen with ⟨rfl, place, content, hnames, hfile⟩ | ⟨rfl, hcreate⟩
    · have hbefore := hmade.get?_file hfile
      refine ⟨rfl, rfl, ?_, fun _ => ⟨path, place, content, hpath, hnames, hbefore⟩⟩
      rw [hmade.nextSerial]
      exact hnumbered.lt hbefore
    · refine ⟨rfl, rfl, ?_, fun hold => ?_⟩
      · obtain ⟨_, -, -, rfl⟩ := Disk.create_eq_ok_iff.mp hcreate
        exact Nat.lt_succ_self _
      · rw [hmade.nextSerial] at hold
        exact absurd hold (Nat.lt_irrefl _)

end FileReport

/-! ## §2 Growth of workspaces -/

/-- From one workspace to the other nothing has been lost. The report takes records at its end, and
its file is the only one that may have changed. -/
structure Growth (w w' : Workspace) : Prop where
  alike : Report.Alike w.report w'.report
  appends : w'.report.appends
  directories : Disk.SameDirectories w.disk w'.disk
  disk : Disk.Grown w.report.serial? w.disk w'.disk

theorem Growth.refl {w : Workspace} (happends : w.report.appends) : Growth w w :=
  ⟨.refl _, happends, .refl _, .refl _ _⟩

theorem Growth.serial {w w' : Workspace} (h : Growth w w') :
    w'.report.serial? = w.report.serial? := h.alike.serial?

theorem Growth.trans {w w₁ w₂ : Workspace} (h : Growth w w₁) (h' : Growth w₁ w₂) :
    Growth w w₂ where
  alike := h.alike.trans h'.alike
  appends := h'.appends
  directories := h.directories.trans h'.directories
  disk := h.disk.trans (h.serial ▸ h'.disk)

/-- The same goes for the closing of the report, whatever has been done to the disk. -/
theorem Growth.close {w w' : Workspace} (h : Growth w w') (disk : Disk) :
    Disk.SameDirectories disk (w'.report.close disk).2 ∧
      Disk.Grown w.report.serial? disk (w'.report.close disk).2 :=
  ⟨(Report.close_written w'.report disk).sameDirectories,
    h.serial ▸ Report.close_grown h.appends disk⟩

variable [Host]

section File

variable {job : Job} (hjob : job.Ready) {source : Path} {w w' : Workspace}
include hjob

/-- However the copying of a file ends, nothing is lost. -/
theorem copyFile_growth (happends : w.report.appends) {result : Except FileError FileCopy}
    (hrun : (copyFile job source).run w = (result, w')) : Growth w w' := by
  have hcourse := copyFile_course hjob source w
  rw [hrun] at hcourse
  cases hcourse with
  | unannounced => exact .refl happends
  | unopened _ halike hgrows => exact ⟨halike, hgrows.appends happends, .refl _, .refl _ _⟩
  | unmade _ _ _ halike hgrows => exact ⟨halike, hgrows.appends happends, .refl _, .refl _ _⟩
  | unfinished _ _ _ _ hcreate hadd halike =>
      exact ⟨halike, (Report.addAll?_grown happends hadd).1,
        Disk.sameDirectories_create hcreate, Disk.grown_create _ hcreate⟩
  | completed _ _ _ hcreate hadd halike hwritten =>
      obtain ⟨happends', hgrown⟩ := Report.addAll?_grown happends hadd
      exact ⟨halike, happends', (Disk.sameDirectories_create hcreate).trans hwritten.sameDirectories,
        (Disk.grown_create _ hcreate).trans hgrown⟩

/-- If the copy of a file that failed has a name, then it is new, or it could not be made because
something else has the name. -/
theorem copyFile_unfinished {failure : FileFailure} {temp : Path}
    (hrun : (copyFile job source).run w = (.error (.failure failure), w'))
    (htemp : failure.temp = some temp) :
    temp = tempPath (w.tokenAt w.nextToken) source ∧ ∀ location, w.disk.Names temp location →
      w.disk.get? location = none ∨ failure.cause = .disk ⟨.exists, temp.toText, none⟩ := by
  have hcourse := copyFile_course hjob source w
  rw [hrun] at hcourse
  cases hcourse with
  | unopened hunopened => cases hunopened <;> cases htemp
  | unmade _ _ hrefused =>
      obtain rfl := Option.some.inj htemp
      refine ⟨rfl, fun location hnames => .inr ?_⟩
      obtain rfl := (Disk.create_eq_error hrefused).2 location hnames
      rfl
  | unfinished _ _ _ _ hcreate =>
      obtain rfl := Option.some.inj htemp
      obtain ⟨place, hplace, hnone, -⟩ := Disk.create_eq_ok_iff.mp hcreate
      exact ⟨rfl, fun location hnames => .inl (hnames.unique hplace ▸ hnone)⟩

end File

/-! ## §3 Copies that have been made -/

section Movable

variable {fresh fresh' : Nat} {goal : Location → List UInt8} {a b : Disk} {site : Site}

omit [Host] in
theorem Movable.mono (h : Movable fresh goal a site) (hle : fresh' ≤ fresh) :
    Movable fresh' goal a site := by
  obtain ⟨serial, hfresh, hcontent⟩ := h.content
  exact { h with content := ⟨serial, Nat.le_trans hle hfresh, hcontent⟩ }

omit [Host] in
/-- A copy stays movable while nothing is lost, if it is not what is written to. -/
theorem Movable.grown (h : Movable fresh goal a site) {serial? : Option Nat}
    (hserial : ∀ serial, serial? = some serial → serial < fresh)
    (hsame : Disk.SameDirectories a b) (hgrown : Disk.Grown serial? a b) :
    Movable fresh goal b site := by
  obtain ⟨token, hfinished, htemp⟩ := h.finished
  obtain ⟨serial, hfresh, hcontent⟩ := h.content
  refine ⟨⟨token, hfinished, (Disk.names_congr hsame).mp htemp⟩, h.sound,
    (Disk.names_congr hsame).mp h.source,
    fun hdirectory => h.space ((hsame.directory site.place).mpr hdirectory), serial, hfresh,
    hgrown.get?_file hcontent fun hsome => ?_⟩
  exact absurd (hserial serial hsome) (Nat.not_lt.mpr hfresh)

end Movable

/-- From one disk to the other a copy has been made where nothing was, and can be moved over its
source. It is the redaction of a text into which the file at the place of its source has grown, and
whose redacted lines have bytes. -/
structure Site.Made (job : Job) (serial? : Option Nat) (a b : Disk) (site : Site) : Prop where
  new : a.get? site.temp = none
  redaction : ∃ text,
    (∀ outcome ∈ job.outcomes (a.label site.copy.source) 1 (lines text),
      outcome.text.Writable) ∧
    Movable a.nextSerial (fun _ => job.redaction (a.label site.copy.source) text) b site ∧
    ∀ entry, a.get? site.place = some entry →
      ∃ serial, entry.Grows serial? (.file serial (encodeUtf8 text))

section Made

variable {job : Job} {serial? : Option Nat} {a b c : Disk} {site : Site}

/-- The copy stays while nothing is lost. -/
theorem Site.Made.later (h : site.Made job serial? a b)
    (hserial : ∀ serial, serial? = some serial → serial < a.nextSerial)
    (hsame : Disk.SameDirectories b c) (hgrown : Disk.Grown serial? b c) :
    site.Made job serial? a c where
  new := h.new
  redaction := by
    obtain ⟨text, hwritable, hmovable, hgrows⟩ := h.redaction
    exact ⟨text, hwritable, hmovable.grown hserial hsame hgrown, hgrows⟩

/-- The copy of a file that is copied after others. -/
theorem Site.Made.earlier (h : site.Made job serial? b c) (hsame : Disk.SameDirectories a b)
    (hgrown : Disk.Grown serial? a b) : site.Made job serial? a c where
  new := hgrown.none_of_none h.new
  redaction := by
    obtain ⟨text, hwritable, hmovable, hgrows⟩ := h.redaction
    rw [← label_congr hsame] at hwritable hmovable
    refine ⟨text, hwritable, hmovable.mono hgrown.nextSerial, fun entry hget => ?_⟩
    obtain ⟨between, hbetween, hfirst⟩ := hgrown.kept _ entry hget
    obtain ⟨serial, hlast⟩ := hgrows between hbetween
    exact ⟨serial, hfirst.trans hlast⟩

end Made

theorem copyFile_made {job : Job} (hjob : job.Ready) {source : Path} {w w' : Workspace}
    {copy : FileCopy}
    (hserial : ∀ serial, w.report.serial? = some serial → serial < w.disk.nextSerial)
    (hrun : (copyFile job source).run w = (.ok copy, w')) :
    ∃ place temp, copy.source = source ∧
      Site.Made job w.report.serial? w.disk w'.disk ⟨copy, place, temp⟩ ∧
      w.disk.get? place ≠ none ∧ w'.disk.get? temp ≠ none := by
  have hcourse := copyFile_course hjob source w
  rw [hrun] at hcourse
  cases hcourse with
  | @completed text created disk report log hsound hread hwritable hcreate _ _ hwritten =>
      have hsame := (Disk.sameDirectories_create hcreate).trans hwritten.sameDirectories
      obtain ⟨place, serial, hplace, hfile⟩ := Disk.read_eq_ok_iff.mp hread
      obtain ⟨temp, htemp, hnone, rfl⟩ := Disk.create_eq_ok_iff.mp hcreate
      have hnew := hwritten.get?_new htemp.ne_nil hserial
      refine ⟨place, temp, rfl, ⟨hnone, text, hwritable, ?_, ?_⟩, by simp [hfile], by simp [hnew]⟩
      · exact ⟨⟨_, rfl, (Disk.names_congr hsame).mp htemp⟩, hsound,
          (Disk.names_congr hsame).mp hplace,
          fun hdirectory => by simp [(hsame.directory place).mpr hdirectory] at hfile,
          w.disk.nextSerial, Nat.le_refl _, hnew⟩
      · intro entry hget
        obtain rfl := Option.some.inj (hget.symm.trans hfile)
        exact ⟨serial, .same _⟩

/-! ## §4 All files -/

section Files

variable {job : Job} (hjob : job.Ready)
include hjob

/-- When all files have been copied, all copies can be moved, and none is in the way of a later
one. -/
theorem copyEach_made : ∀ {files : List Path} {completed copies : List FileCopy}
    {w w' : Workspace}, w.report.appends →
      (∀ serial, w.report.serial? = some serial → serial < w.disk.nextSerial) →
      (copyEach job completed files).run w = (.ok copies, w') →
      Growth w w' ∧ ∃ sites : List Site, copies = completed ++ sites.map (·.copy) ∧
        (∀ site ∈ sites, site.copy.source ∈ files ∧
          site.Made job w.report.serial? w.disk w'.disk) ∧
        sites.Pairwise fun a b => a.place ≠ b.temp ∧ a.temp ≠ b.temp
  | [], completed, copies, w, w', happends, _, hrun => by
      obtain ⟨hcopies, rfl⟩ := Prod.mk.inj hrun
      obtain rfl := Except.ok.inj hcopies
      exact ⟨.refl happends, [], (List.append_nil _).symm, by simp, .nil⟩
  | source :: rest, completed, copies, w, w', happends, hserial, hrun => by
      rw [run_copyEach_cons] at hrun
      rcases hfirst : (copyFile job source).run w with ⟨e | copy, w₁⟩
      · rw [hfirst] at hrun
        cases hrun
      rw [hfirst] at hrun
      have hgrowth := copyFile_growth hjob happends hfirst
      obtain ⟨place, temp, hsource, hmade, hplace, htemp⟩ := copyFile_made hjob hserial hfirst
      obtain ⟨hmore, sites, rfl, hsites, hclear⟩ := copyEach_made hgrowth.appends
        (fun serial hsome => Nat.lt_of_lt_of_le (hserial serial (hgrowth.serial ▸ hsome))
          hgrowth.disk.nextSerial) hrun
      refine ⟨hgrowth.trans hmore, ⟨copy, place, temp⟩ :: sites, ?_, ?_, ?_⟩
      · rw [List.append_assoc, List.map_cons, List.singleton_append]
      · refine List.forall_mem_cons.mpr
          ⟨⟨?_, hmade.later hserial hmore.directories (hgrowth.serial ▸ hmore.disk)⟩, ?_⟩
        · rw [hsource]
          exact List.mem_cons_self ..
        · intro site hsite
          exact ⟨List.mem_cons_of_mem _ (hsites site hsite).1,
            (hgrowth.serial ▸ (hsites site hsite).2).earlier hgrowth.directories hgrowth.disk⟩
      · refine List.pairwise_cons.mpr ⟨fun site hsite => ⟨?_, ?_⟩, hclear⟩
        · rintro rfl
          exact hplace (hgrowth.disk.none_of_none (hsites site hsite).2.new)
        · rintro rfl
          exact htemp (hsites site hsite).2.new

/-- However the copying of files ends, nothing is lost. If the copy of the file at which it ended
has a name, then it is new, or it could not be made because something else has the name. -/
theorem copyEach_growth {files : List Path} {w w' : Workspace}
    {result : Except RunError (List FileCopy)} (happends : w.report.appends)
    (hserial : ∀ serial, w.report.serial? = some serial → serial < w.disk.nextSerial)
    (hrun : (copyEach job [] files).run w = (result, w')) :
    Growth w w' ∧ ∀ failure completed temp, result = .error (.file failure completed) →
      failure.temp = some temp → (∃ token, ∃ source ∈ files, temp = tempPath token source) ∧
        ∀ location, w.disk.Names temp location → w.disk.get? location = none ∨
          failure.cause = .disk ⟨.exists, temp.toText, none⟩ := by
  cases result with
  | ok copies => exact ⟨(copyEach_made hjob happends hserial hrun).1, nofun⟩
  | error e =>
      obtain ⟨before, source, after, copies, w₁, e', rfl, hbefore, hfile, rfl⟩ :=
        copyEach_ended hrun
      have hgrowth := (copyEach_made hjob happends hserial hbefore).1
      refine ⟨hgrowth.trans (copyFile_growth hjob hgrowth.appends hfile), ?_⟩
      intro failure completed temp heq htemp
      cases e' with
      | failure failure' =>
          obtain ⟨rfl, rfl⟩ : failure' = failure ∧ copies = completed := by
            simpa [RunError.ofFile] using heq
          obtain ⟨rfl, hcause⟩ := copyFile_unfinished hjob hfile htemp
          refine ⟨⟨_, source, by simp, rfl⟩, fun location hnames => ?_⟩
          exact (hcause location ((Disk.names_congr hgrowth.directories).mp hnames)).imp_left
            hgrowth.disk.none_of_none
      | line e => cases heq
      | nulInPath => cases heq
      | report _ => cases heq

end Files

end LogRedaction
