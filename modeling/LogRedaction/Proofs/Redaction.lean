/-
LogRedaction.Proofs.Redaction — all files copied, then all copies put in place.

If every file can be read as text and nothing stands where the temporary copies go, the copying
cannot fail (`copyEach_ok`). All copies are made before the first is moved, so each is made from
what was there at the start, also when a file is listed twice or under two names.

What a place has to hold in the end therefore depends on the place alone: `Job.redactedAt`. The
copies left behind by the first pass are `Movable` with this goal, and moving them one by one keeps
it so for those that are left, as long as none is in the way of a later one: `putAllInPlace_moves`,
and `putAllInPlace_ok` when none is in the way of any other.

## §1 Copying all files
## §2 Putting all copies in place
## §3 Both
-/
import LogRedaction.Proofs.Progress

namespace LogRedaction

open Text

/-! ## §1 Copying all files -/

/-- The file can be read as this text. -/
def Disk.Holds (disk : Disk) (file : Path) (text : List Char) : Prop :=
  file.fault? = none ∧ disk.read file = .ok (encodeUtf8 text)

/-- The records of complete copies, whose tokens have the numbers from the given one on. -/
def completeCopies (clock : Nat → Int) (outcomes : Path → List RedactedLine) :
    (number : Nat) → List Path → List FileCopy
  | _, [] => []
  | number, file :: files =>
    completeCopy file (tempPath ⟨clock number, number⟩ file) (outcomes file) ::
      completeCopies clock outcomes (number + 1) files

theorem tempPaths_numbers (clock : Nat → Int) (files : List Path) (number : Nat) :
    ∀ temp ∈ tempPaths clock number files, ∃ token source, temp = tempPath token source ∧
      number ≤ token.number := by
  induction files generalizing number with
  | nil => simp [tempPaths]
  | cons file files ih =>
      intro temp h
      rcases List.mem_cons.mp h with rfl | h
      · exact ⟨_, _, rfl, Nat.le_refl _⟩
      · obtain ⟨token, source, rfl, hle⟩ := ih (number + 1) temp h
        exact ⟨token, source, rfl, by omega⟩

theorem tempPaths_append (clock : Nat → Int) (files more : List Path) (number : Nat) :
    tempPaths clock number (files ++ more) =
      tempPaths clock number files ++ tempPaths clock (number + files.length) more := by
  induction files generalizing number with
  | nil => rfl
  | cons file files ih =>
      have hnumber : number + 1 + files.length = number + (file :: files).length := by
        rw [List.length_cons]
        omega
      rw [List.cons_append, tempPaths, ih, hnumber]
      rfl

/-- What is written about files, in order. -/
def runRecords (disk : Disk) (outcomes : Path → List RedactedLine) (files : List Path) :
    List Record :=
  files.flatMap fun file => fileSection (disk.label file) (outcomes file)

theorem runRecords_congr {a b : Disk} (h : Disk.SameDirectories a b)
    (outcomes : Path → List RedactedLine) (files : List Path) :
    runRecords a outcomes files = runRecords b outcomes files := by
  simp only [runRecords, label_congr h]

/-- What can be read is not where a copy can be made. -/
theorem apart_of_free {disk : Disk} {text : Path → List Char} {files temps : List Path}
    (hfiles : ∀ file ∈ files, disk.Holds file (text file))
    (hfree : ∀ temp ∈ temps, disk.Free temp) : Apart disk files temps := by
  intro file hfile temp htemp location hplace hlocation
  obtain ⟨place, serial, hplace', hget⟩ := Disk.read_eq_ok_iff.mp (hfiles file hfile).2
  obtain ⟨free, hfree', hnone⟩ := hfree temp htemp
  rw [← hplace.unique hplace', hlocation.unique hfree', hnone] at hget
  cases hget

section Copying

variable [Host]

/-- The outcomes for a file that is called as the disk says. -/
def Job.fileOutcomes (job : Job) (disk : Disk) (text : Path → List Char) (file : Path) :
    List RedactedLine :=
  job.outcomes (disk.label file) 1 (lines (text file))

theorem fileOutcomes_congr {a b : Disk} (h : Disk.SameDirectories a b) (job : Job)
    (text : Path → List Char) : job.fileOutcomes a text = job.fileOutcomes b text := by
  funext file
  rw [Job.fileOutcomes, Job.fileOutcomes, label_congr h]

section Kept

variable {job : Job} {w w' : Workspace} {temps : List Path} {copies : List FileCopy}
  (h : Progress job w w' temps copies)
include h

/-- What can be read stays as it is while copies are made elsewhere. -/
theorem Progress.holds {sources : List Path} (hclear : Clear w.report.serial? w.disk sources)
    (hapart : Apart w.disk sources temps) {source : Path} (hsource : source ∈ sources)
    {text : List Char} (hholds : w.disk.Holds source text) : w'.disk.Holds source text := by
  obtain ⟨hsound, hread⟩ := hholds
  obtain ⟨place, serial, hplace, hget⟩ := Disk.read_eq_ok_iff.mp hread
  refine ⟨hsound, Disk.read_eq_ok_iff.mpr
    ⟨place, serial, (Disk.names_congr h.directories).mp hplace, ?_⟩⟩
  rw [h.source_eq hclear hapart hsource hplace, hget]

/-- A path stays free if no copy is made there. -/
theorem Progress.free {path : Path} (hpath : ∀ temp ∈ temps, ∀ location,
    w.disk.Names path location → ¬w.disk.Names temp location) (hfree : w.disk.Free path) :
    w'.disk.Free path := by
  obtain ⟨location, hnames, hnone⟩ := hfree
  refine ⟨location, (Disk.names_congr h.directories).mp hnames, ?_⟩
  rw [h.elsewhere location (fun temp htemp => hpath temp htemp location hnames), hnone]
  intro serial content hfile
  rw [hnone] at hfile
  cases hfile

end Kept

/-- All that is written when files are copied that hold these texts has bytes. -/
def Job.CanWriteAll (job : Job) (report : Report) (disk : Disk) (text : Path → List Char)
    (files : List Path) : Prop :=
  ∀ file ∈ files, CanWrite report (disk.label file) (job.fileOutcomes disk text file)

/-- Nothing stops the copying of files that can be read, if their copies have room, what is written
has bytes and the report is written into none of them. -/
theorem copyEach_ok {job : Job} (hjob : job.Ready) {text : Path → List Char} :
    ∀ (files : List Path) (completed : List FileCopy) (w : Workspace),
      job.CanWriteAll w.report w.disk text files → Clear w.report.serial? w.disk files →
      (∀ file ∈ files, w.disk.Holds file (text file)) →
      (∀ temp ∈ tempPaths w.clock w.nextToken files, w.disk.Free temp) →
      ∃ w', (copyEach job completed files).run w =
          (.ok (completed ++
            completeCopies w.clock (job.fileOutcomes w.disk text) w.nextToken files), w') ∧
        w'.nextToken = w.nextToken + files.length ∧ Report.Alike w.report w'.report ∧
        w.report.GrowsBy (runRecords w.disk (job.fileOutcomes w.disk text) files) w'.report
  | [], completed, w, _, _, _, _ => by
      refine ⟨w, ?_, rfl, .refl _, fun disk => ⟨disk, rfl⟩⟩
      rw [completeCopies, List.append_nil]
      rfl
  | file :: files, completed, w, hwrites, hclear, hfiles, hfree => by
      obtain ⟨hsound, hread⟩ := hfiles file (by simp)
      obtain ⟨location, hlocation, hnone⟩ := hfree _ (List.mem_cons_self ..)
      obtain ⟨report, disk, log, hrun, hadd, halike, -⟩ :=
        copyFile_ok hjob hsound hread (hwrites file (by simp)) hlocation hnone
      obtain ⟨made, hprogress, -⟩ :=
        copyFile_progress hjob file files hrun fun serial hserial => (hclear serial hserial).1
      simp only [tempPaths_one] at hprogress
      have hapart : Apart w.disk (file :: files)
          [tempPath ⟨w.clock w.nextToken, w.nextToken⟩ file] :=
        apart_mono (apart_of_free hfiles hfree) (fun _ h => h)
          (fun temp htemp => List.mem_cons.mpr (.inl (List.mem_singleton.mp htemp)))
      rw [run_copyEach_cons, hrun]
      obtain ⟨w', hmore, htoken, halike', hgrows⟩ := copyEach_ok hjob files
        (completed ++ [completeCopy file (tempPath (w.tokenAt w.nextToken) file)
          (job.outcomes (w.disk.label file) 1 (lines (text file)))])
        { w with disk, report, log, nextToken := w.nextToken + 1 }
        (fun other hother => by
          rw [← fileOutcomes_congr hprogress.directories, ← label_congr hprogress.directories]
          exact (hwrites other (List.mem_cons_of_mem _ hother)).alike halike)
        (clear_mono (hprogress.clear hclear hapart) fun _ => List.mem_cons_of_mem _)
        (fun other hother => hprogress.holds hclear hapart (List.mem_cons_of_mem _ hother)
          (hfiles other (List.mem_cons_of_mem _ hother)))
        (by
          intro temp htemp
          refine hprogress.free ?_ (hfree temp (List.mem_cons_of_mem _ htemp))
          intro first hfirst place hnames hplace
          obtain rfl := List.mem_singleton.mp hfirst
          obtain ⟨token, source, rfl, hle⟩ := tempPaths_numbers _ _ _ temp htemp
          refine Disk.tempPath_ne hplace hnames ?_ rfl
          rintro rfl
          exact absurd hle (Nat.not_succ_le_self _))
      rw [← fileOutcomes_congr hprogress.directories] at hmore hgrows
      rw [← runRecords_congr hprogress.directories] at hgrows
      refine ⟨w', ?_, ?_, halike.trans halike', (Report.growsBy_of_addAll? hadd).trans hgrows⟩
      · rw [completeCopies, ← List.singleton_append, ← List.append_assoc]
        exact hmore
      · rw [htoken, List.length_cons]
        simp only
        omega

/-- The same with what has been done by then: every copy holds the redaction of its source. -/
theorem copyEach_complete {job : Job} (hjob : job.Ready) {text : Path → List Char}
    {files : List Path} {w : Workspace} (hwrites : job.CanWriteAll w.report w.disk text files)
    (hclear : Clear w.report.serial? w.disk files)
    (hfiles : ∀ file ∈ files, w.disk.Holds file (text file))
    (hfree : ∀ temp ∈ tempPaths w.clock w.nextToken files, w.disk.Free temp) :
    ∃ w' made, (copyEach job [] files).run w =
        (.ok (completeCopies w.clock (job.fileOutcomes w.disk text) w.nextToken files), w') ∧
      w'.nextToken = w.nextToken + files.length ∧ Report.Alike w.report w'.report ∧
      w.report.GrowsBy (runRecords w.disk (job.fileOutcomes w.disk text) files) w'.report ∧
      Progress job w w' (tempPaths w.clock w.nextToken files) made ∧
      (∀ copy ∈ made, copy.source ∈ files) ∧
      ∀ copy ∈ completeCopies w.clock (job.fileOutcomes w.disk text) w.nextToken files,
        copy ∈ made := by
  obtain ⟨w', hcopy, htoken, halike, hgrows⟩ :=
    copyEach_ok hjob files [] w hwrites hclear hfiles hfree
  rw [List.nil_append] at hcopy
  have htemps : files.take (w'.nextToken - w.nextToken) = files := by
    rw [htoken, Nat.add_sub_cancel_left, List.take_length]
  obtain ⟨made, hprogress, hsources, hresult⟩ := copyEach_progress hjob files hcopy
    (fun _ h => h) hclear (htemps.symm ▸ apart_of_free hfiles hfree)
  rw [htemps] at hprogress
  exact ⟨w', made, hcopy, htoken, halike, hgrows, hprogress, hsources,
    fun copy hmem => (hresult copy hmem).resolve_left List.not_mem_nil⟩

end Copying

/-! ## §2 Putting all copies in place -/

/-- A complete copy, the place of its source, and its own. -/
structure Site where
  copy : FileCopy
  place : Location
  temp : Location

/-- The copy can be moved to the place of its source, and is what that place has to hold. It is a
new file: its serial number is not below the given one. -/
structure Movable (fresh : Nat) (goal : Location → List UInt8) (disk : Disk) (site : Site) :
    Prop where
  finished : ∃ token, site.copy.finished? = some (tempPath token site.copy.source) ∧
    disk.Names (tempPath token site.copy.source) site.temp
  sound : site.copy.source.fault? = none
  source : disk.Names site.copy.source site.place
  space : disk.get? site.place ≠ some .directory
  content : ∃ serial, fresh ≤ serial ∧
    disk.get? site.temp = some (.file serial (goal site.place))

section Moving

variable {fresh : Nat} {goal : Location → List UInt8} {w : Workspace} {site : Site}

/-- Moving a copy cannot fail if it is movable, and is noted with the name of the copy. -/
theorem run_putInPlace_movable (h : Movable fresh goal w.disk site) {temp : Path}
    (hfinished : site.copy.finished? = some temp) :
    ∃ serial, w.disk.get? site.temp = some (.file serial (goal site.place)) ∧
      (putInPlace site.copy).run w = (.ok site.copy.source,
        { w with
          disk := w.disk.moved site.temp site.place serial (goal site.place)
          log := w.log ++ [.swapped site.copy.source.toText temp.name] }) := by
  obtain ⟨token, hfinished', htemp⟩ := h.finished
  obtain ⟨serial, -, hcontent⟩ := h.content
  obtain rfl := Option.some.inj (hfinished'.symm.trans hfinished)
  rw [run_putInPlace, hfinished]
  simp only [h.sound, fault?_tempPath token h.sound, Option.or_none]
  rw [Disk.rename_tempPath h.source htemp hcontent h.space]
  exact ⟨serial, hcontent, rfl⟩

theorem putInPlace_ok (h : Movable fresh goal w.disk site) :
    ∃ serial log, w.disk.get? site.temp = some (.file serial (goal site.place)) ∧
      (putInPlace site.copy).run w = (.ok site.copy.source,
        { w with disk := w.disk.moved site.temp site.place serial (goal site.place), log }) := by
  obtain ⟨token, hfinished, -⟩ := h.finished
  obtain ⟨serial, hcontent, hrun⟩ := run_putInPlace_movable h hfinished
  exact ⟨serial, _, hcontent, hrun⟩

theorem Movable.temp_ne_nil (h : Movable fresh goal w.disk site) : site.temp ≠ [] := by
  obtain ⟨token, -, htemp⟩ := h.finished
  exact htemp.ne_nil

theorem Movable.sameDirectories (h : Movable fresh goal w.disk site) (serial : Nat) :
    Disk.SameDirectories w.disk
      (w.disk.moved site.temp site.place serial (goal site.place)) := by
  obtain ⟨_, -, hcontent⟩ := h.content
  exact Disk.sameDirectories_moved h.temp_ne_nil h.source.ne_nil (by simp [hcontent]) h.space

/-- Another copy is still movable after one has been moved. -/
theorem Movable.other {fresh' : Nat} {goal' : Location → List UInt8} {other : Site}
    (h : Movable fresh goal w.disk site) (hother : Movable fresh' goal' w.disk other)
    (htemps : other.temp ≠ site.temp) (hplace : other.temp ≠ site.place) (serial : Nat) :
    Movable fresh' goal' (w.disk.moved site.temp site.place serial (goal site.place)) other := by
  have hsame := h.sameDirectories serial
  obtain ⟨token, hfinished, htemp⟩ := hother.finished
  obtain ⟨serial', hfresh, hcontent⟩ := hother.content
  refine ⟨⟨token, hfinished, (Disk.names_congr hsame).mp htemp⟩, hother.sound,
    (Disk.names_congr hsame).mp hother.source,
    fun hdirectory => hother.space ((hsame.directory other.place).mpr hdirectory),
    serial', hfresh, ?_⟩
  rw [Disk.get?_moved _ h.temp_ne_nil h.source.ne_nil, if_neg hplace, if_neg htemps]
  exact hcontent

end Moving

/-- Movable copies are all put in place if none is in the way of a later one. Each place then has
the last copy that was for it, and nothing else has changed but that the copies are gone. -/
theorem putAllInPlace_moves {fresh : Nat} :
    ∀ (sites : List Site) (w : Workspace),
      (∀ site ∈ sites, ∃ goal, Movable fresh goal w.disk site) →
      sites.Pairwise (fun a b => a.place ≠ b.temp ∧ a.temp ≠ b.temp) →
      ∃ paths disk log, (putAllInPlace (sites.map (·.copy))).run w =
          (.ok paths, { w with disk, log }) ∧
        Disk.SameDirectories w.disk disk ∧ disk.nextSerial = w.disk.nextSerial ∧
        (∀ location, (∀ site ∈ sites, site.temp ≠ location) →
          (∃ site ∈ sites, site.place = location ∧
            disk.get? location = w.disk.get? site.temp) ∨
          (∀ site ∈ sites, site.place ≠ location) ∧
            disk.get? location = w.disk.get? location) ∧
        ∀ site ∈ sites, (∀ other ∈ sites, other.place ≠ site.temp) → disk.get? site.temp = none
  | [], w, _, _ => ⟨[], w.disk, w.log, rfl, .refl _, rfl, fun _ _ => .inr (by simp), by simp⟩
  | site :: sites, w, hmovable, hclear => by
      obtain ⟨goal, hfirst⟩ := hmovable site (by simp)
      obtain ⟨serial, log, hcontent, hrun⟩ := putInPlace_ok hfirst
      have hget : ∀ location,
          (w.disk.moved site.temp site.place serial (goal site.place)).get? location =
            if location = site.place then some (.file serial (goal site.place))
            else if location = site.temp then none else w.disk.get? location :=
        fun location => Disk.get?_moved _ hfirst.temp_ne_nil hfirst.source.ne_nil
      obtain ⟨hlaters, hrest⟩ := List.pairwise_cons.mp hclear
      obtain ⟨paths, disk, log', hmore, hdirectories, hnext, hmoved, hgone⟩ :=
        putAllInPlace_moves sites
          { w with disk := w.disk.moved site.temp site.place serial (goal site.place), log }
          (fun other hother => by
            obtain ⟨goal', hmovable'⟩ := hmovable other (List.mem_cons_of_mem _ hother)
            obtain ⟨hplace, htemp⟩ := hlaters other hother
            exact ⟨goal', hfirst.other hmovable' htemp.symm hplace.symm serial⟩)
          hrest
      refine ⟨site.copy.source :: paths, disk, log', ?_,
        (hfirst.sameDirectories serial).trans hdirectories, hnext, ?_, ?_⟩
      · rw [List.map_cons, run_putAllInPlace_cons, hrun]
        simp only [hmore]
      · intro location hlocation
        obtain ⟨htemp, htemps⟩ := List.forall_mem_cons.mp hlocation
        rcases hmoved location htemps with ⟨other, hother, hplace, hput⟩ | ⟨hplaces, hput⟩
        · obtain ⟨hapart, hdistinct⟩ := hlaters other hother
          rw [hget, if_neg hapart.symm, if_neg hdistinct.symm] at hput
          exact .inl ⟨other, List.mem_cons_of_mem _ hother, hplace, hput⟩
        · rw [hget] at hput
          by_cases hplace : location = site.place
          · -- The copy that is moved now is the last one for its place.
            rw [if_pos hplace, ← hcontent] at hput
            exact .inl ⟨site, List.mem_cons_self .., hplace.symm, hput⟩
          · rw [if_neg hplace, if_neg htemp.symm] at hput
            exact .inr ⟨List.forall_mem_cons.mpr ⟨Ne.symm hplace, hplaces⟩, hput⟩
      · intro other hother hapart
        obtain ⟨hplace, hplaces⟩ := List.forall_mem_cons.mp hapart
        rcases List.mem_cons.mp hother with rfl | hother
        · rcases hmoved other.temp fun later hlater => (hlaters later hlater).2.symm with
            ⟨later, hlater, heq, -⟩ | ⟨-, hput⟩
          · exact absurd heq (hplaces later hlater)
          · rw [hput, hget, if_neg hplace.symm, if_pos rfl]
        · exact hgone other hother hplaces

/-- The same for one goal, if no copy is in the way of any other. Each place then holds what it has
to hold, the copies are gone, and nothing else has changed. -/
theorem putAllInPlace_ok {fresh : Nat} {goal : Location → List UInt8} {sites : List Site}
    {w : Workspace} (hmovable : ∀ site ∈ sites, Movable fresh goal w.disk site)
    (hdistinct : sites.Pairwise fun a b => a.temp ≠ b.temp)
    (hapart : ∀ a ∈ sites, ∀ b ∈ sites, a.place ≠ b.temp) :
    ∃ paths disk log, (putAllInPlace (sites.map (·.copy))).run w =
        (.ok paths, { w with disk, log }) ∧
      Disk.SameDirectories w.disk disk ∧ disk.nextSerial = w.disk.nextSerial ∧
      (∀ site ∈ sites, ∃ serial, fresh ≤ serial ∧
        disk.get? site.place = some (.file serial (goal site.place))) ∧
      (∀ site ∈ sites, disk.get? site.temp = none) ∧
      ∀ location, (∀ site ∈ sites, location ≠ site.place ∧ location ≠ site.temp) →
        disk.get? location = w.disk.get? location := by
  obtain ⟨paths, disk, log, hrun, hdirectories, hnext, hmoved, hgone⟩ :=
    putAllInPlace_moves sites w (fun site hsite => ⟨goal, hmovable site hsite⟩)
      (hdistinct.imp_of_mem fun ha hb hne => ⟨hapart _ ha _ hb, hne⟩)
  refine ⟨paths, disk, log, hrun, hdirectories, hnext, ?_, ?_, ?_⟩
  · intro site hsite
    rcases hmoved site.place fun other hother => (hapart site hsite other hother).symm with
      ⟨last, hlast, hplace, hput⟩ | ⟨hplaces, -⟩
    · obtain ⟨serial, hfresh, hcontent⟩ := (hmovable last hlast).content
      exact ⟨serial, hfresh, by rw [hput, hcontent, hplace]⟩
    · exact absurd rfl (hplaces site hsite)
  · exact fun site hsite => hgone site hsite fun other hother => hapart other hother site hsite
  · intro location hlocation
    rcases hmoved location fun site hsite => (hlocation site hsite).2.symm with
      ⟨site, hsite, hplace, -⟩ | ⟨-, hput⟩
    · exact absurd hplace.symm (hlocation site hsite).1
    · exact hput

/-! ## §3 Both -/

section Copies

variable {clock : Nat → Int} (outcomes : Path → List RedactedLine)

theorem exists_copy_of_file {file : Path} {files : List Path} {n : Nat} (h : file ∈ files) :
    ∃ copy ∈ completeCopies clock outcomes n files, copy.source = file := by
  induction files generalizing n with
  | nil => simp at h
  | cons other files ih =>
      rcases List.mem_cons.mp h with rfl | h
      · exact ⟨_, List.mem_cons_self .., rfl⟩
      · obtain ⟨copy, hcopy, hsource⟩ := ih h (n := n + 1)
        exact ⟨copy, List.mem_cons_of_mem _ hcopy, hsource⟩

theorem exists_copy_of_temp {temp : Path} {files : List Path} {n : Nat}
    (h : temp ∈ tempPaths clock n files) :
    ∃ copy ∈ completeCopies clock outcomes n files, copy.temp = some temp := by
  induction files generalizing n with
  | nil => simp [tempPaths] at h
  | cons other files ih =>
      rcases List.mem_cons.mp h with rfl | h
      · exact ⟨_, List.mem_cons_self .., rfl⟩
      · obtain ⟨copy, hcopy, htemp⟩ := ih h
        exact ⟨copy, List.mem_cons_of_mem _ hcopy, htemp⟩

theorem temp_of_mem_completeCopies {copy : FileCopy} {files : List Path} {n : Nat}
    (h : copy ∈ completeCopies clock outcomes n files) :
    ∃ token source, copy.temp = some (tempPath token source) ∧ n ≤ token.number := by
  induction files generalizing n with
  | nil => simp [completeCopies] at h
  | cons file files ih =>
      rcases List.mem_cons.mp h with rfl | h
      · exact ⟨_, _, rfl, Nat.le_refl _⟩
      · obtain ⟨token, source, htemp, hle⟩ := ih h
        exact ⟨token, source, htemp, by omega⟩

/-- The copies of one pass are at different places. -/
theorem completeCopies_pairwise (disk : Disk) (files : List Path) (n : Nat) :
    (completeCopies clock outcomes n files).Pairwise fun a b =>
      ∀ s t, a.temp = some s → b.temp = some t → ∀ location, disk.Names s location →
        ¬disk.Names t location := by
  induction files generalizing n with
  | nil => exact .nil
  | cons file files ih =>
      rw [completeCopies, List.pairwise_cons]
      refine ⟨?_, ih (n + 1)⟩
      intro copy hcopy s t hs ht location hold hnew
      obtain ⟨token, source, htemp, hle⟩ := temp_of_mem_completeCopies outcomes hcopy
      rw [htemp] at ht
      obtain rfl := Option.some.inj ht
      obtain rfl := Option.some.inj hs
      refine Disk.tempPath_ne hold hnew ?_ rfl
      rintro rfl
      exact absurd hle (Nat.not_succ_le_self _)

end Copies

theorem exists_sites {P : Site → Prop} (copies : List FileCopy)
    (h : ∀ copy ∈ copies, ∃ place temp, P ⟨copy, place, temp⟩) :
    ∃ sites : List Site, sites.map (·.copy) = copies ∧ ∀ site ∈ sites, P site := by
  induction copies with
  | nil => exact ⟨[], rfl, by simp⟩
  | cons copy copies ih =>
      obtain ⟨place, temp, hfirst⟩ := h copy (by simp)
      obtain ⟨sites, hsites, hrest⟩ := ih (fun c hc => h c (List.mem_cons_of_mem _ hc))
      refine ⟨⟨copy, place, temp⟩ :: sites, by rw [List.map_cons, hsites], ?_⟩
      intro site hsite
      rcases List.mem_cons.mp hsite with rfl | hsite
      · exact hfirst
      · exact hrest site hsite

section Redacting

variable [Host]

/-- What a place has to hold when the file that is there has been redacted. -/
def Job.redactedAt (job : Job) (disk : Disk) (place : Location) : List UInt8 :=
  match disk.get? place with
  | some (.file _ content) => encodeUtf8 (writtenText (job.outcomes "" 1 (readLines content).1))
  | _ => []

/-- It does not matter how the file is called. -/
theorem redactedAt_eq {job : Job} {disk : Disk} {place : Location}
    {serial : Nat} {text : List Char}
    (h : disk.get? place = some (.file serial (encodeUtf8 text))) (label : Text) :
    job.redactedAt disk place = job.redaction label text := by
  rw [Job.redactedAt, h]
  simp only
  rw [readLines_encode, Job.redaction, writtenText_outcomes_label]

/-- The site is that of one of the files, and its copy has one of the names. -/
structure Site.Belongs (disk : Disk) (files temps : List Path) (site : Site) : Prop where
  file : site.copy.source ∈ files
  place : disk.Names site.copy.source site.place
  temp : ∃ path ∈ temps, site.copy.temp = some path ∧ disk.Names path site.temp

/-- The copies that have been made are all movable, and none is in the way of another. -/
theorem exists_movable {job : Job} {outcomes : Path → List RedactedLine}
    {files temps : List Path} {n : Nat} {w w' : Workspace} {made : List FileCopy}
    (hprogress : Progress job w w' temps made)
    (hclear : Clear w.report.serial? w.disk files) (hapart : Apart w.disk files temps)
    (hmade : ∀ copy ∈ completeCopies w.clock outcomes n files, copy ∈ made)
    (hsources : ∀ copy ∈ made, copy.source ∈ files) :
    ∃ sites : List Site, sites.map (·.copy) = completeCopies w.clock outcomes n files ∧
      (∀ site ∈ sites, Movable w.disk.nextSerial (job.redactedAt w.disk) w'.disk site) ∧
      (∀ site ∈ sites, site.Belongs w.disk files temps) ∧
      sites.Pairwise (fun a b => a.temp ≠ b.temp) ∧
      ∀ a ∈ sites, ∀ b ∈ sites, a.place ≠ b.temp := by
  obtain ⟨sites, hsites, hsite⟩ := exists_sites (P := fun site =>
    Movable w.disk.nextSerial (job.redactedAt w.disk) w'.disk site ∧
      site.Belongs w.disk files temps)
    (completeCopies w.clock outcomes n files) (by
      intro copy hmem
      obtain ⟨token, place, location, serial, content, newSerial, hstate, htemp, hin, hsound, hplace,
        hget, -, hlocation, hfresh, hcontent⟩ := hprogress.copies copy (hmade copy hmem)
      have hsource := hsources copy (hmade copy hmem)
      refine ⟨place, location, ⟨⟨token, ?_, (Disk.names_congr hprogress.directories).mp hlocation⟩,
        hsound, (Disk.names_congr hprogress.directories).mp hplace, ?_, newSerial, hfresh, ?_⟩,
        hsource, hplace, _, hin, htemp, hlocation⟩
      · rw [FileCopy.finished?, if_pos hstate, htemp]
      · rw [hprogress.source_eq hclear hapart hsource hplace, hget]
        simp
      · rw [hcontent, redactedAt_eq hget])
  refine ⟨sites, hsites, fun site h => (hsite site h).1, fun site h => (hsite site h).2, ?_, ?_⟩
  · have hpairwise := @completeCopies_pairwise w.clock outcomes w.disk files n
    rw [← hsites, List.pairwise_map] at hpairwise
    refine hpairwise.imp_of_mem ?_
    intro a b ha hb hne heq
    obtain ⟨s, -, hs, hslocation⟩ := (hsite a ha).2.temp
    obtain ⟨t, -, ht, htlocation⟩ := (hsite b hb).2.temp
    exact hne s t hs ht a.temp hslocation (heq ▸ htlocation)
  · intro a ha b hb heq
    obtain ⟨path, hin, -, hlocation⟩ := (hsite b hb).2.temp
    exact hapart a.copy.source (hsite a ha).2.file path hin a.place (hsite a ha).2.place
      (heq ▸ hlocation)

section Sites

variable {outcomes : Path → List RedactedLine} {disk : Disk} {files temps : List Path}
  {clock : Nat → Int} {n : Nat} {sites : List Site}
  (hsites : sites.map (·.copy) = completeCopies clock outcomes n files)
  (hbelongs : ∀ site ∈ sites, site.Belongs disk files temps)
include hsites hbelongs

omit [Host] in
/-- Where one of the copies is there is a site. -/
theorem exists_site_of_temp {temp : Path} (htemp : temp ∈ tempPaths clock n files)
    {location : Location} (hnames : disk.Names temp location) :
    ∃ site ∈ sites, site.temp = location := by
  obtain ⟨copy, hmem, hcopytemp⟩ := exists_copy_of_temp outcomes htemp
  rw [← hsites] at hmem
  obtain ⟨site, hin, rfl⟩ := List.mem_map.mp hmem
  obtain ⟨path, -, hpath, hlocation⟩ := (hbelongs site hin).temp
  rw [hcopytemp] at hpath
  obtain rfl := Option.some.inj hpath
  exact ⟨site, hin, hlocation.unique hnames⟩

omit [Host] in
/-- Each of the files has a site at its place. -/
theorem exists_site_of_file {file : Path} (hfile : file ∈ files) {place : Location}
    (hplace : disk.Names file place) : ∃ site ∈ sites, site.place = place := by
  obtain ⟨copy, hmem, rfl⟩ : ∃ copy ∈ completeCopies clock outcomes n files, copy.source = file :=
    exists_copy_of_file outcomes hfile
  rw [← hsites] at hmem
  obtain ⟨site, hin, rfl⟩ := List.mem_map.mp hmem
  exact ⟨site, hin, (hbelongs site hin).place.unique hplace⟩

end Sites

/-- All files are copied and all copies put in place. Each file then holds the redaction of what it
held before, no copy is left, and nothing else has changed but the report, which is still written
into none of the files. The next token is the one after those of the copies. -/
theorem redactAll_open {job : Job} (hjob : job.Ready) {text : Path → List Char} {files : List Path}
    {w : Workspace} (hwrites : job.CanWriteAll w.report w.disk text files)
    (hclear : Clear w.report.serial? w.disk files)
    (hfiles : ∀ file ∈ files, w.disk.Holds file (text file))
    (hfree : ∀ temp ∈ tempPaths w.clock w.nextToken files, w.disk.Free temp) :
    ∃ copies w₁ paths disk log, (copyEach job [] files).run w = (.ok copies, w₁) ∧
      w.report.GrowsBy (runRecords w.disk (job.fileOutcomes w.disk text) files) w₁.report ∧
      (putAllInPlace copies).run w₁ = (.ok paths, { w₁ with disk, log }) ∧
      (∀ file ∈ files, disk.read file =
        .ok (encodeUtf8 (writtenText (job.fileOutcomes w.disk text file)))) ∧
      (∀ temp ∈ tempPaths w.clock w.nextToken files, disk.Free temp) ∧
      (∀ location, (∀ file ∈ files, ¬w.disk.Names file location) →
        (∀ serial content, w.disk.get? location = some (.file serial content) →
          w.report.serial? ≠ some serial) → disk.get? location = w.disk.get? location) ∧
      w₁.clock = w.clock ∧ w₁.nextToken = w.nextToken + files.length ∧
      Report.Alike w.report w₁.report ∧
      Disk.SameDirectories w.disk disk ∧ Clear w₁.report.serial? disk files := by
  obtain ⟨w₁, made, hcopy, htoken, halike, hgrows, hprogress, hsources, hmade⟩ :=
    copyEach_complete hjob hwrites hclear hfiles hfree
  obtain ⟨sites, hsites, hmovable, hbelongs, hdistinct, hplaces⟩ :=
    exists_movable hprogress hclear (apart_of_free hfiles hfree) hmade hsources
  obtain ⟨paths, disk, log, hput, hdirectories, hnext, hdone, hgone, helsewhere⟩ :=
    putAllInPlace_ok hmovable hdistinct hplaces
  rw [hsites] at hput
  have hsame := hprogress.directories.trans hdirectories
  -- Where a copy was made, nothing is in the end.
  have hcleared : ∀ temp ∈ tempPaths w.clock w.nextToken files, ∀ location,
      w.disk.Names temp location → disk.get? location = none := by
    intro temp htemp location hnames
    obtain ⟨site, hin, rfl⟩ := exists_site_of_temp hsites hbelongs htemp hnames
    exact hgone site hin
  -- Where a file was, the new file is that has been moved there.
  have hmoved : ∀ file ∈ files, ∀ place, w.disk.Names file place → ∃ serial,
      w.disk.nextSerial ≤ serial ∧
        disk.get? place = some (.file serial (job.redactedAt w.disk place)) := by
    intro file hfile place hplace
    obtain ⟨site, hin, rfl⟩ := exists_site_of_file hsites hbelongs hfile hplace
    exact hdone site hin
  refine ⟨_, w₁, paths, disk, log, hcopy, hgrows, hput, ?_, ?_, ?_, hprogress.clock, htoken, halike,
    hsame, ?_⟩
  · intro file hfile
    obtain ⟨place, serial', hplace, hbefore⟩ := Disk.read_eq_ok_iff.mp (hfiles file hfile).2
    obtain ⟨serial, -, hget⟩ := hmoved file hfile place hplace
    rw [redactedAt_eq hbefore (w.disk.label file)] at hget
    exact Disk.read_eq_ok_iff.mpr ⟨_, serial, (Disk.names_congr hsame).mp hplace, hget⟩
  · intro temp htemp
    obtain ⟨location, hnames, -⟩ := hfree temp htemp
    exact ⟨location, (Disk.names_congr hsame).mp hnames, hcleared temp htemp location hnames⟩
  · intro location hlocation hserial
    by_cases htemp : ∃ temp ∈ tempPaths w.clock w.nextToken files, w.disk.Names temp location
    · obtain ⟨temp, hin, hnames⟩ := htemp
      obtain ⟨free, hfree', hnone⟩ := hfree temp hin
      rw [hcleared temp hin location hnames, hnames.unique hfree', hnone]
    · rw [helsewhere location, hprogress.elsewhere location]
      · exact fun temp hin hnames => htemp ⟨temp, hin, hnames⟩
      · exact hserial
      · intro site hin
        obtain ⟨path, hpath, -, hsitetemp⟩ := (hbelongs site hin).temp
        constructor
        · rintro rfl
          exact hlocation _ (hbelongs site hin).file (hbelongs site hin).place
        · rintro rfl
          exact htemp ⟨path, hpath, hsitetemp⟩
  · intro serial hserial
    rw [hprogress.serial] at hserial
    have hold := (hclear serial hserial).1
    refine ⟨Nat.lt_of_lt_of_le hold (hnext ▸ hprogress.nextSerial), ?_⟩
    intro file hfile place hplace content hget
    obtain ⟨newSerial, hnew, hput⟩ :=
      hmoved file hfile place ((Disk.names_congr hsame).mpr hplace)
    rw [hput] at hget
    injection hget with hget
    injection hget with hget
    omega

/-- The same for a report in memory, where nothing else has changed on the disk. -/
theorem redactAll_ok {job : Job} (hjob : job.Ready) {text : Path → List Char} {files : List Path}
    {w : Workspace} {records : List Record} (hreport : w.report = .list records)
    (hwrites : job.CanWriteAll w.report w.disk text files)
    (hfiles : ∀ file ∈ files, w.disk.Holds file (text file))
    (hfree : ∀ temp ∈ tempPaths w.clock w.nextToken files, w.disk.Free temp) :
    ∃ copies w₁ paths w₂, (copyEach job [] files).run w = (.ok copies, w₁) ∧
      w₁.report = .list (records ++ runRecords w.disk (job.fileOutcomes w.disk text) files) ∧
      (putAllInPlace copies).run w₁ = (.ok paths, w₂) ∧
      (∀ file ∈ files, w₂.disk.read file =
        .ok (encodeUtf8 (writtenText (job.fileOutcomes w.disk text file)))) ∧
      (∀ temp ∈ tempPaths w.clock w.nextToken files, w₂.disk.Free temp) ∧
      ∀ location, (∀ file ∈ files, ¬w.disk.Names file location) →
        w₂.disk.get? location = w.disk.get? location := by
  obtain ⟨copies, w₁, paths, disk, log, hcopy, hgrows, hput, hread, hgone, helsewhere, -⟩ :=
    redactAll_open hjob hwrites (clear_list hreport w.disk files) hfiles hfree
  rw [hreport, Report.growsBy_list_iff] at hgrows
  refine ⟨copies, w₁, paths, _, hcopy, hgrows, hput, hread, hgone, fun location hlocation => ?_⟩
  refine helsewhere location hlocation fun serial _ _ hserial => ?_
  rw [hreport] at hserial
  cases hserial

end Redacting

end LogRedaction
