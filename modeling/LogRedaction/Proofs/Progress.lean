/-
LogRedaction.Proofs.Progress — what copying several files does to the disk.

The files are copied one after the other, and the copying can end at any of them. `Progress` says
all that is true then: the temporary copies are new and have the numbers of the tokens that were
taken, whatever is elsewhere is as it was, and each copy that is recorded as complete holds the
redaction of what its source held before. It composes (`Progress.trans`), so a statement about one
file (`copyFile_progress`) becomes one about any number of them (`copyEach_progress`).

Two assumptions are needed for this and nothing else: no source is at the place of a temporary copy
(`Apart`), and the report is not written into a source (`Clear`).
-/
import LogRedaction.Proofs.Placement
import LogRedaction.Proofs.TempCopy

namespace LogRedaction

open Text

/-! ## Assumptions -/

/-- None of the sources is at the place of one of the temporary copies. -/
def Apart (disk : Disk) (sources temps : List Path) : Prop :=
  ∀ source ∈ sources, ∀ temp ∈ temps, ∀ location, disk.Names source location →
    ¬disk.Names temp location

/-- The file with the serial number, if there is one, is none of these. -/
def Clear (serial? : Option Nat) (disk : Disk) (paths : List Path) : Prop :=
  ∀ serial, serial? = some serial → serial < disk.nextSerial ∧
    ∀ path ∈ paths, ∀ location, disk.Names path location →
      ∀ content, disk.get? location ≠ some (.file serial content)

/-- The temporary copies of files, whose tokens have the numbers from the given one on. -/
def tempPaths (clock : Nat → Int) : (number : Nat) → List Path → List Path
  | _, [] => []
  | number, file :: files =>
    tempPath ⟨clock number, number⟩ file :: tempPaths clock (number + 1) files

theorem apart_mono {disk : Disk} {sources sources' temps temps' : List Path}
    (h : Apart disk sources temps) (hsources : ∀ source ∈ sources', source ∈ sources)
    (htemps : ∀ temp ∈ temps', temp ∈ temps) : Apart disk sources' temps' :=
  fun source hsource temp htemp => h source (hsources source hsource) temp (htemps temp htemp)

theorem clear_mono {serial? : Option Nat} {disk : Disk} {paths paths' : List Path}
    (h : Clear serial? disk paths) (hpaths : ∀ path ∈ paths', path ∈ paths) :
    Clear serial? disk paths' :=
  fun serial hserial => ⟨(h serial hserial).1, fun path hpath =>
    (h serial hserial).2 path (hpaths path hpath)⟩

/-- A report that is kept in memory is in nobody's way. -/
theorem clear_list {report : Report} {records : List Record} (h : report = .list records)
    (disk : Disk) (paths : List Path) : Clear report.serial? disk paths := by
  intro serial hserial
  rw [h] at hserial
  cases hserial

theorem apart_congr {a b : Disk} (h : Disk.SameDirectories a b) {sources temps : List Path}
    (hapart : Apart a sources temps) : Apart b sources temps := by
  intro source hsource temp htemp location hnames
  rw [← Disk.names_congr h] at hnames ⊢
  exact hapart source hsource temp htemp location hnames

/-! ## Progress -/

section Progress

variable [Host]

/-- The record is that of a complete copy, which holds the redaction of what its source held. -/
def MadeFrom (job : Job) (w w' : Workspace) (temps : List Path) (copy : FileCopy) : Prop :=
  ∃ token place location serial text newSerial,
    copy.state = .completed ∧ copy.temp = some (tempPath token copy.source) ∧
    tempPath token copy.source ∈ temps ∧ copy.source.fault? = none ∧
    w.disk.Names copy.source place ∧
    w.disk.get? place = some (.file serial (encodeUtf8 text)) ∧
    (∀ outcome ∈ job.outcomes (w.disk.label copy.source) 1 (lines text), outcome.text.Writable) ∧
    w.disk.Names (tempPath token copy.source) location ∧ w.disk.nextSerial ≤ newSerial ∧
    w'.disk.get? location =
      some (.file newSerial (job.redaction (w.disk.label copy.source) text))

/-- What has been done from one workspace to another by copying files. -/
structure Progress (job : Job) (w w' : Workspace) (temps : List Path) (copies : List FileCopy) :
    Prop where
  clock : w'.clock = w.clock
  serial : w'.report.serial? = w.report.serial?
  nextToken : w.nextToken ≤ w'.nextToken
  nextSerial : w.disk.nextSerial ≤ w'.disk.nextSerial
  directories : Disk.SameDirectories w.disk w'.disk
  numbers : ∀ temp ∈ temps, ∃ token source, temp = tempPath token source ∧
    w.nextToken ≤ token.number ∧ token.number < w'.nextToken
  elsewhere : ∀ location, (∀ temp ∈ temps, ¬w.disk.Names temp location) →
    (∀ serial content, w.disk.get? location = some (.file serial content) →
      w.report.serial? ≠ some serial) →
    w'.disk.get? location = w.disk.get? location
  copies : ∀ copy ∈ copies, MadeFrom job w w' temps copy

/-- Tokens may have been taken, and nothing else done. -/
theorem Progress.none (job : Job) (temps : List Path) {w w' : Workspace}
    (hdisk : w'.disk = w.disk) (hclock : w'.clock = w.clock)
    (hserial : w'.report.serial? = w.report.serial?) (htoken : w.nextToken ≤ w'.nextToken)
    (hnumbers : ∀ temp ∈ temps, ∃ token source, temp = tempPath token source ∧
      w.nextToken ≤ token.number ∧ token.number < w'.nextToken) :
    Progress job w w' temps [] where
  clock := hclock
  serial := hserial
  nextToken := htoken
  nextSerial := Nat.le_of_eq (by rw [hdisk])
  directories := by rw [hdisk]; exact .refl _
  numbers := hnumbers
  elsewhere := by
    intro location _ _
    rw [hdisk]
  copies := by simp

/-- The same path is elsewhere if it has the place of no copy. -/
theorem Progress.source_eq {job : Job} {w w' : Workspace} {temps : List Path}
    {copies : List FileCopy} {sources : List Path} (h : Progress job w w' temps copies)
    (hclear : Clear w.report.serial? w.disk sources) (hapart : Apart w.disk sources temps)
    {source : Path} (hsource : source ∈ sources) {place : Location}
    (hplace : w.disk.Names source place) : w'.disk.get? place = w.disk.get? place := by
  refine h.elsewhere place (fun temp htemp => hapart source hsource temp htemp place hplace) ?_
  intro serial content hget hserial
  exact (hclear serial hserial).2 source hsource place hplace content hget

theorem Progress.clear {job : Job} {w w' : Workspace} {temps : List Path}
    {copies : List FileCopy} {sources : List Path} (h : Progress job w w' temps copies)
    (hclear : Clear w.report.serial? w.disk sources) (hapart : Apart w.disk sources temps) :
    Clear w'.report.serial? w'.disk sources := by
  intro serial hserial
  rw [h.serial] at hserial
  obtain ⟨hlt, hother⟩ := hclear serial hserial
  refine ⟨Nat.lt_of_lt_of_le hlt h.nextSerial, ?_⟩
  intro path hpath location hnames content
  have hbefore := (Disk.names_congr h.directories).mpr hnames
  rw [h.source_eq hclear hapart hpath hbefore]
  exact hother path hpath location hbefore content

omit [Host] in
theorem label_congr {a b : Disk} (h : Disk.SameDirectories a b) (source : Path) :
    a.label source = b.label source := by
  rw [Disk.label, Disk.label, Disk.workingPath, Disk.workingPath, h.workingDirectory]

/-- A copy stays when other files are copied after it. -/
theorem MadeFrom.later {job : Job} {w w₁ w₂ : Workspace} {temps₁ temps₂ : List Path}
    {copies₁ copies₂ : List FileCopy} {copy : FileCopy} (h : MadeFrom job w w₁ temps₁ copy)
    (h₁ : Progress job w w₁ temps₁ copies₁) (h₂ : Progress job w₁ w₂ temps₂ copies₂)
    (hserial : ∀ serial, w.report.serial? = some serial → serial < w.disk.nextSerial) :
    MadeFrom job w w₂ (temps₁ ++ temps₂) copy := by
  obtain ⟨token, place, location, serial, text, newSerial, hstate, htemp, hmem, hsound, hplace, hget,
    hwritable, hlocation, hnew, hcopy⟩ := h
  refine ⟨token, place, location, serial, text, newSerial, hstate, htemp,
    List.mem_append_left _ hmem, hsound, hplace, hget, hwritable, hlocation, hnew, ?_⟩
  rw [h₂.elsewhere location, hcopy]
  · intro temp htemp' hnames
    -- The later copy has a greater number, so it has another name.
    obtain ⟨token', source', rfl, hle, -⟩ := h₂.numbers temp htemp'
    obtain ⟨token'', source'', heq, -, hlt⟩ := h₁.numbers _ hmem
    rw [heq] at hlocation
    refine Disk.tempPath_ne hlocation hnames ?_ rfl
    rintro rfl
    omega
  · intro n content hfile hreport
    rw [hcopy] at hfile
    injection hfile with hfile
    injection hfile with hsame
    rw [h₁.serial] at hreport
    have := hserial n hreport
    omega

/-- A copy that is made later is made from what was there before. -/
theorem MadeFrom.earlier {job : Job} {w w₁ w₂ : Workspace} {temps₁ temps₂ : List Path}
    {copies₁ : List FileCopy} {sources : List Path} {copy : FileCopy}
    (h : MadeFrom job w₁ w₂ temps₂ copy) (h₁ : Progress job w w₁ temps₁ copies₁)
    (hclear : Clear w.report.serial? w.disk sources) (hapart : Apart w.disk sources temps₁)
    (hsource : copy.source ∈ sources) : MadeFrom job w w₂ (temps₁ ++ temps₂) copy := by
  obtain ⟨token, place, location, serial, text, newSerial, hstate, htemp, hmem, hsound, hplace, hget,
    hwritable, hlocation, hnew, hcopy⟩ := h
  rw [← Disk.names_congr h₁.directories] at hplace hlocation
  rw [h₁.source_eq hclear hapart hsource hplace] at hget
  rw [← label_congr h₁.directories] at hwritable hcopy
  exact ⟨token, place, location, serial, text, newSerial, hstate, htemp,
    List.mem_append_right _ hmem, hsound, hplace, hget, hwritable, hlocation,
    Nat.le_trans h₁.nextSerial hnew, hcopy⟩

theorem Progress.trans {job : Job} {w w₁ w₂ : Workspace} {temps₁ temps₂ : List Path}
    {copies₁ copies₂ : List FileCopy} {sources : List Path}
    (h₁ : Progress job w w₁ temps₁ copies₁) (h₂ : Progress job w₁ w₂ temps₂ copies₂)
    (hclear : Clear w.report.serial? w.disk sources) (hapart : Apart w.disk sources temps₁)
    (hsources : ∀ copy ∈ copies₂, copy.source ∈ sources) :
    Progress job w w₂ (temps₁ ++ temps₂) (copies₁ ++ copies₂) where
  clock := h₂.clock.trans h₁.clock
  serial := h₂.serial.trans h₁.serial
  nextToken := Nat.le_trans h₁.nextToken h₂.nextToken
  nextSerial := Nat.le_trans h₁.nextSerial h₂.nextSerial
  directories := h₁.directories.trans h₂.directories
  numbers := by
    intro temp htemp
    rcases List.mem_append.mp htemp with htemp | htemp
    · obtain ⟨token, source, rfl, hle, hlt⟩ := h₁.numbers temp htemp
      exact ⟨token, source, rfl, hle, Nat.lt_of_lt_of_le hlt h₂.nextToken⟩
    · obtain ⟨token, source, rfl, hle, hlt⟩ := h₂.numbers temp htemp
      exact ⟨token, source, rfl, Nat.le_trans h₁.nextToken hle, hlt⟩
  elsewhere := by
    intro location htemps hserial
    have hfirst := h₁.elsewhere location
      (fun temp htemp => htemps temp (List.mem_append_left _ htemp)) hserial
    rw [h₂.elsewhere location, hfirst]
    · intro temp htemp hnames
      exact htemps temp (List.mem_append_right _ htemp)
        ((Disk.names_congr h₁.directories).mpr hnames)
    · intro serial content hget
      rw [hfirst] at hget
      rw [h₁.serial]
      exact hserial serial content hget
  copies := by
    intro copy hcopy
    rcases List.mem_append.mp hcopy with hcopy | hcopy
    · exact (h₁.copies copy hcopy).later h₁ h₂ (fun serial hserial => (hclear serial hserial).1)
    · exact (h₂.copies copy hcopy).earlier h₁ hclear hapart (hsources copy hcopy)

/-! ## One file -/

/-- A new file in the place of a temporary copy, and then perhaps something in the report. -/
theorem Progress.made (job : Job) {source : Path} {w : Workspace} {bytes : List UInt8}
    {created disk : Disk} {report : Report} {log : List Event} {copies : List FileCopy}
    (hcreate : w.disk.create (tempPath (w.tokenAt w.nextToken) source) bytes = .ok created)
    (hserial : report.serial? = w.report.serial?)
    (hwritten : Disk.Written w.report.serial? created disk)
    (hcopies : ∀ copy ∈ copies, MadeFrom job w
      { w with disk, report, log, nextToken := w.nextToken + 1 }
      [tempPath (w.tokenAt w.nextToken) source] copy) :
    Progress job w { w with disk, report, log, nextToken := w.nextToken + 1 }
      [tempPath (w.tokenAt w.nextToken) source] copies := by
  have hnew := Disk.sameDirectories_create hcreate
  obtain ⟨location, hnames, -, rfl⟩ := Disk.create_eq_ok_iff.mp hcreate
  refine ⟨rfl, hserial, Nat.le_succ _, ?_, hnew.trans hwritten.sameDirectories, ?_, ?_, hcopies⟩
  · rw [hwritten.nextSerial]
    exact Nat.le_succ _
  · intro temp htemp
    obtain rfl := List.mem_singleton.mp htemp
    exact ⟨w.tokenAt w.nextToken, source, rfl, Nat.le_refl _, Nat.lt_succ_self _⟩
  · intro other htemps hother
    have hne : other ≠ location := by
      rintro rfl
      exact htemps _ (List.mem_singleton.mpr rfl) hnames
    have hget : (w.disk.putNew location bytes).get? other = w.disk.get? other := by
      rw [Disk.get?_putNew _ _ hnames.ne_nil, if_neg hne]
    rw [hwritten.get?_eq, hget]
    intro serial content hfile
    rw [hget] at hfile
    exact hother serial content hfile

omit [Host] in
theorem tempPaths_none (clock : Nat → Int) (n : Nat) (files : List Path) :
    tempPaths clock n (files.take (n - n)) = [] := by
  rw [Nat.sub_self]
  rfl

omit [Host] in
theorem tempPaths_one (clock : Nat → Int) (n : Nat) (source : Path) (rest : List Path) :
    tempPaths clock n ((source :: rest).take (n + 1 - n)) = [tempPath ⟨clock n, n⟩ source] := by
  rw [Nat.add_sub_cancel_left]
  rfl

omit [Host] in
/-- The first file takes one token, and the rest take those after it. -/
theorem tempPaths_next {w w₁ : Workspace} {n : Nat} (source : Path) (rest : List Path)
    (hclock : w₁.clock = w.clock) (htoken : w₁.nextToken = w.nextToken + 1)
    (hlater : w₁.nextToken ≤ n) :
    tempPaths w.clock w.nextToken ((source :: rest).take (n - w.nextToken)) =
      [tempPath ⟨w.clock w.nextToken, w.nextToken⟩ source] ++
        tempPaths w₁.clock w₁.nextToken (rest.take (n - w₁.nextToken)) := by
  have hcount : n - w.nextToken = (n - w₁.nextToken) + 1 := by omega
  rw [hcount, List.take_succ_cons, tempPaths, hclock, htoken]
  rfl

/-- What has been done when the copying of a file ends. A copy that is returned has been made. -/
theorem copyFile_progress {job : Job} (hjob : job.Ready) (source : Path) (rest : List Path)
    {w w' : Workspace} {result : Except FileError FileCopy}
    (hrun : (copyFile job source).run w = (result, w'))
    (hserial : ∀ serial, w.report.serial? = some serial → serial < w.disk.nextSerial) :
    ∃ copies, Progress job w w' (tempPaths w.clock w.nextToken
      ((source :: rest).take (w'.nextToken - w.nextToken))) copies ∧
      (∀ copy ∈ copies, copy.source = source) ∧
      ∀ copy, result = .ok copy → copy ∈ copies ∧ w'.nextToken = w.nextToken + 1 := by
  have hcourse := copyFile_course hjob source w
  rw [hrun] at hcourse
  cases hcourse with
  | unannounced =>
      refine ⟨[], ?_, by simp, by simp⟩
      rw [tempPaths_none]
      exact .none job [] rfl rfl rfl (Nat.le_refl _) (by simp)
  | unopened _ halike =>
      refine ⟨[], ?_, by simp, by simp⟩
      rw [tempPaths_none]
      exact .none job [] rfl rfl halike.serial? (Nat.le_refl _) (by simp)
  | unmade _ _ _ halike =>
      refine ⟨[], ?_, by simp, by simp⟩
      rw [tempPaths_one]
      refine .none job _ rfl rfl halike.serial? (Nat.le_succ _) ?_
      intro temp htemp
      exact ⟨_, _, List.mem_singleton.mp htemp, Nat.le_refl _, Nat.lt_succ_self _⟩
  | unfinished _ _ _ _ hcreate _ halike =>
      refine ⟨[], ?_, by simp, by simp⟩
      rw [tempPaths_one]
      exact .made job hcreate halike.serial? (.inl rfl) (by simp)
  | @completed text created disk report log hsound hread hwritable hcreate _ halike hwritten =>
      refine ⟨[completeCopy source (tempPath (w.tokenAt w.nextToken) source)
        (job.outcomes (w.disk.label source) 1 (lines text))], ?_, by simp [completeCopy], ?_⟩
      · rw [tempPaths_one]
        refine .made job hcreate halike.serial? hwritten ?_
        intro copy hcopy
        obtain rfl := List.mem_singleton.mp hcopy
        obtain ⟨place, serial, hplace, hget⟩ := Disk.read_eq_ok_iff.mp hread
        obtain ⟨location, hlocation, -, rfl⟩ := Disk.create_eq_ok_iff.mp hcreate
        exact ⟨w.tokenAt w.nextToken, place, location, serial, text, w.disk.nextSerial, rfl, rfl,
          List.mem_singleton.mpr rfl, hsound, hplace, hget, hwritable, hlocation, Nat.le_refl _,
          hwritten.get?_new hlocation.ne_nil hserial⟩
      · intro copy hcopy
        exact ⟨List.mem_singleton.mpr (Except.ok.inj hcopy).symm, rfl⟩

/-! ## All files -/

/-- The complete copies that come with the result of a call, also if it fails. -/
def completedCopies : Except RunError (List FileCopy) → List FileCopy
  | .ok copies => copies
  | .error (.file _ completed) => completed
  | .error _ => []

/-- Why the copying of files ends early when that of one file does. -/
def RunError.ofFile (completed : List FileCopy) : FileError → RunError
  | .failure e => .file e completed
  | .line e => .line e
  | .nulInPath => .nulInPath
  | .report fault => .report fault

theorem run_copyEach_cons (job : Job) (completed : List FileCopy) (source : Path)
    (rest : List Path) (w : Workspace) :
    (copyEach job completed (source :: rest)).run w =
      match (copyFile job source).run w with
      | (.ok copy, w) => (copyEach job (completed ++ [copy]) rest).run w
      | (.error e, w) => (.error (RunError.ofFile completed e), w) := by
  rw [ExceptT.run, copyEach]
  beta_reduce
  rcases (copyFile job source).run w with ⟨e | copy, w'⟩
  · cases e <;> rfl
  · rfl

omit [Host] in
theorem completedCopies_ofFile {completed : List FileCopy} (e : FileError) :
    ∀ copy ∈ completedCopies (.error (RunError.ofFile completed e)), copy ∈ completed := by
  cases e <;> simp [completedCopies, RunError.ofFile]

theorem copyEach_nextToken (job : Job) (files : List Path)
    (completed : List FileCopy) (w : Workspace) :
    w.nextToken ≤ ((copyEach job completed files).run w).2.nextToken := by
  induction files generalizing completed w with
  | nil => exact Nat.le_refl _
  | cons source rest ih =>
      have hfirst := le_nextToken_copyFile job source w
      rw [run_copyEach_cons]
      rcases hrun : (copyFile job source).run w with ⟨e | copy, w₁⟩
      · rw [hrun] at hfirst
        exact hfirst
      · rw [hrun] at hfirst
        exact Nat.le_trans hfirst (ih (completed ++ [copy]) w₁)

/-- What has been done when the copying of files ends, wherever it ends. -/
theorem copyEach_progress {job : Job} (hjob : job.Ready) {sources : List Path} :
    ∀ (files : List Path) {completed : List FileCopy} {w w' : Workspace}
      {result : Except RunError (List FileCopy)},
      (copyEach job completed files).run w = (result, w') →
      (∀ file ∈ files, file ∈ sources) → Clear w.report.serial? w.disk sources →
      Apart w.disk sources
        (tempPaths w.clock w.nextToken (files.take (w'.nextToken - w.nextToken))) →
      ∃ copies, Progress job w w'
        (tempPaths w.clock w.nextToken (files.take (w'.nextToken - w.nextToken))) copies ∧
        (∀ copy ∈ copies, copy.source ∈ sources) ∧
        ∀ copy ∈ completedCopies result, copy ∈ completed ∨ copy ∈ copies
  | [], completed, w, w', result, hrun, _, _, _ => by
      obtain ⟨rfl, rfl⟩ : .ok completed = result ∧ w = w' := Prod.mk.injEq .. ▸ hrun
      refine ⟨[], ?_, by simp, by simp [completedCopies]⟩
      rw [tempPaths_none]
      exact .none job [] rfl rfl rfl (Nat.le_refl _) (by simp)
  | source :: rest, completed, w, w', result, hrun, hfiles, hclear, hapart => by
      have hsource : source ∈ sources := hfiles source (by simp)
      have hserial := fun serial h => (hclear serial h).1
      rcases hfirst : (copyFile job source).run w with ⟨e | copy, w₁⟩
      · rw [run_copyEach_cons, hfirst] at hrun
        obtain ⟨rfl, rfl⟩ : .error (RunError.ofFile completed e) = result ∧ w₁ = w' :=
          Prod.mk.injEq .. ▸ hrun
        obtain ⟨copies, hprogress, hcopies, -⟩ :=
          copyFile_progress hjob source rest hfirst hserial
        refine ⟨copies, hprogress, fun copy hcopy => hcopies copy hcopy ▸ hsource, ?_⟩
        intro copy hcopy
        exact .inl (completedCopies_ofFile e copy hcopy)
      · obtain ⟨copies, hprogress, hcopies, hcopy⟩ :=
          copyFile_progress hjob source rest hfirst hserial
        obtain ⟨hmem, htoken⟩ := hcopy copy rfl
        rw [htoken, tempPaths_one] at hprogress
        rw [run_copyEach_cons, hfirst] at hrun
        simp only at hrun
        have hlater : w₁.nextToken ≤ w'.nextToken := by
          have hlater := copyEach_nextToken job rest (completed ++ [copy]) w₁
          rw [hrun] at hlater
          exact hlater
        have htemps := tempPaths_next source rest hprogress.clock htoken hlater
        rw [htemps] at hapart ⊢
        have hbefore := apart_mono hapart (fun _ h => h) (fun _ h => List.mem_append_left _ h)
        have hafter := apart_mono hapart (fun _ h => h) (fun _ h => List.mem_append_right _ h)
        obtain ⟨more, hmore, hsources, hresult⟩ := copyEach_progress hjob rest hrun
          (fun file hfile => hfiles file (List.mem_cons_of_mem _ hfile))
          (hprogress.clear hclear hbefore) (apart_congr hprogress.directories hafter)
        refine ⟨copies ++ more, hprogress.trans hmore hclear hbefore hsources, ?_, ?_⟩
        · intro made hmade
          rcases List.mem_append.mp hmade with hmade | hmade
          · exact hcopies made hmade ▸ hsource
          · exact hsources made hmade
        · intro made hmade
          rcases hresult made hmade with hmade | hmade
          · rcases List.mem_append.mp hmade with hmade | hmade
            · exact .inl hmade
            · obtain rfl := List.mem_singleton.mp hmade
              exact .inr (List.mem_append_left _ hmem)
          · exact .inr (List.mem_append_right _ hmade)

/-! ## Calls -/

open LogRedaction.Action in
theorem run_copyFiles (form : IdentityForm) (rules : List Rule) (files : List Path)
    (w : Workspace) : (copyFiles form rules files).run w =
      match form.check with
      | .error e => (.error (.identity e), w)
      | .ok identity =>
        let log := w.log ++
          (Rule.examined identity.mapping rules).map fun rule => .compiling rule.key
        match Rule.compileAll identity.mapping rules with
        | .error e => (.error (.rule e), { w with log })
        | .ok compiled =>
          (copyEach ⟨compiled, identity.mapping, identity.pseudonym⟩ [] files).run
            { w with log } := by
  rw [copyFiles]
  cases form.check with
  | error e => rfl
  | ok identity =>
      simp only [prepare, run_bind, run_noteAll]
      cases Rule.compileAll identity.mapping rules with
      | error e => rfl
      | ok compiled => rfl

theorem run_copyFiles_ok {form : IdentityForm} {identity : Identity} {rules : List Rule}
    {compiled : List CompiledRule} (hcheck : form.check = .ok identity)
    (hcompile : Rule.compileAll identity.mapping rules = .ok compiled) (files : List Path)
    (w : Workspace) :
    ∃ log, (copyFiles form rules files).run w =
      (copyEach ⟨compiled, identity.mapping, identity.pseudonym⟩ [] files).run { w with log } := by
  rw [run_copyFiles, hcheck]
  simp only [hcompile]
  exact ⟨_, rfl⟩

end Progress

end LogRedaction
