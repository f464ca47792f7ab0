/-
LogRedaction.Proofs.Independence — the files of a run do not influence each other.

The files of a run share the disk, the report, the tokens and the list of what has been copied. None
of these comes back into what becomes of a file: a copy is made from what its source holds, which no
other copy changes, and from nothing else but the rules. So for each file that has been copied the
run has the same to show as a run for this file alone on the disk as it was at the start
(`AsAlone`), wherever the file is listed. The number of its token may be another one, and with it
the name of the copy.

A run ends at the first file that cannot be copied, and this too can be told from the disk as it was
at the start (`Copyable`). Nothing is asked of the names of the copies but that no listed file
is one of them.

## §1 What a run has to show for a file
## §2 A file alone
## §3 The file that cannot be copied
## §4 Runs
-/
import LogRedaction.Proofs.Interruption

namespace LogRedaction

open Text

section Independence

variable [Host]

/-! ## §1 What a run has to show for a file -/

/-- The file can be redacted, and its copy with the token has room. -/
def Copyable (job : Job) (disk : Disk) (token : Token) (file : Path) : Prop :=
  Redactable job disk file ∧ disk.Free (tempPath token file)

/-- The record of a copy, and the part of the report about its source. -/
structure Share where
  copy : FileCopy
  records : List Record

/-- Two complete copies of a file that have come out the same, each on its disk. -/
structure SameCopies (a b : Disk) (copy other : FileCopy) : Prop where
  source : other.source = copy.source
  state : copy.state = .completed ∧ other.state = .completed
  counts : other.lines = copy.lines ∧ other.matchedLines = copy.matchedLines ∧
    other.substitutions = copy.substitutions
  content : ∃ temp temp' bytes, copy.temp = some temp ∧ other.temp = some temp' ∧
    a.read temp = .ok bytes ∧ b.read temp' = .ok bytes

/-- What a run has to show for the file in the end is what a run has to show for it that copies this
file alone, from the disk at the start, with whatever token. -/
structure AsAlone (form : IdentityForm) (rules : List Rule) (start last : Disk) (file : Path)
    (share : Share) : Prop where
  source : share.copy.source = file
  /-- The section is closed, and has only entries in it. -/
  section_eq : ∃ entries, (∀ record ∈ entries, record.kind = .entry) ∧
    share.records = ⟨.start, start.label file⟩ :: entries ++ [⟨.finish, start.label file⟩]
  alone : ∀ (w : Workspace) (records : List Record), w.disk = start → w.report = .list records →
    start.Free (tempPath (w.tokenAt w.nextToken) file) → ∃ copy w',
      (copyFiles form rules [file]).run w = (.ok [copy], w') ∧
      SameCopies last w'.disk share.copy copy ∧ w'.report = .list (records ++ share.records)

/-- How a run ends that has these files to show, and these are left. -/
inductive RunEnd (job : Job) (w w' : Workspace) (records : List Record) (shares : List Share) :
    List Path → Except RunError (List FileCopy) → Prop where
  | finished : w'.report = .list (records ++ shares.flatMap (·.records)) →
      w'.nextToken = w.nextToken + shares.length →
      RunEnd job w w' records shares [] (.ok (shares.map (·.copy)))
  /-- The first of the files that are left cannot be copied. Its section is not closed, and of the
  files after it there is nothing: neither a record nor a token. -/
  | stopped {bad : Path} {after : List Path} {failure : FileFailure} {entries : List Record} :
      ¬Copyable job w.disk (w.tokenAt (w.nextToken + shares.length)) bad → failure.source = bad →
      (∀ record ∈ entries, record.kind = .entry) →
      w'.report = .list
        (records ++ shares.flatMap (·.records) ++ ⟨.start, w.disk.label bad⟩ :: entries) →
      w'.nextToken = w.nextToken + shares.length ∨
        w'.nextToken = w.nextToken + shares.length + 1 →
      RunEnd job w w' records shares (bad :: after) (.error (.file failure (shares.map (·.copy))))

/-- What the job has to show for a file on a disk. -/
def Job.share (job : Job) (disk : Disk) (token : Token) (file : Path) : Share where
  copy := completeCopy file (tempPath token file) (job.outcomesOn disk file)
  records := fileSection (disk.label file) (job.outcomesOn disk file)

/-- The same for files whose tokens have the numbers from the given one on. -/
def Job.shares (job : Job) (disk : Disk) (clock : Nat → Int) : (number : Nat) → List Path →
    List Share
  | _, [] => []
  | number, file :: files =>
    job.share disk ⟨clock number, number⟩ file :: job.shares disk clock (number + 1) files

section Shares

variable (job : Job) (disk : Disk) (clock : Nat → Int)

theorem length_shares (number : Nat) (files : List Path) :
    (job.shares disk clock number files).length = files.length := by
  induction files generalizing number with
  | nil => rfl
  | cons file files ih => rw [Job.shares, List.length_cons, List.length_cons, ih]

theorem copies_shares (number : Nat) (files : List Path) :
    (job.shares disk clock number files).map (·.copy) =
      completeCopies clock (job.outcomesOn disk) number files := by
  induction files generalizing number with
  | nil => rfl
  | cons file files ih =>
      rw [Job.shares, List.map_cons, ih, completeCopies]
      rfl

theorem records_shares (number : Nat) (files : List Path) :
    (job.shares disk clock number files).flatMap (·.records) =
      runRecords disk (job.outcomesOn disk) files := by
  induction files generalizing number with
  | nil => rfl
  | cons file files ih =>
      rw [Job.shares, List.flatMap_cons, ih, runRecords, runRecords, List.flatMap_cons]
      rfl

end Shares

omit [Host] in
theorem completeCopies_congr {clock : Nat → Int} {a b : Path → List RedactedLine}
    {files : List Path} (h : ∀ file ∈ files, a file = b file) (number : Nat) :
    completeCopies clock a number files = completeCopies clock b number files := by
  induction files generalizing number with
  | nil => rfl
  | cons file files ih =>
      obtain ⟨hfile, hmore⟩ := List.forall_mem_cons.mp h
      rw [completeCopies, completeCopies, hfile, ih hmore]

omit [Host] in
theorem runRecords_outcomes {disk : Disk} {a b : Path → List RedactedLine} {files : List Path}
    (h : ∀ file ∈ files, a file = b file) : runRecords disk a files = runRecords disk b files :=
  List.flatMap_congr fun file hfile => by rw [h file hfile]

omit [Host] in
/-- The copy of a file has the token whose number is by its index greater than the first. -/
theorem mem_tempPaths (clock : Nat → Int) (number : Nat) {files : List Path} {i : Nat}
    {file : Path} (h : files[i]? = some file) :
    tempPath ⟨clock (number + i), number + i⟩ file ∈ tempPaths clock number files := by
  induction files generalizing number i with
  | nil => simp at h
  | cons first files ih =>
      cases i with
      | zero =>
          obtain rfl : first = file := by simpa using h
          exact List.mem_cons_self ..
      | succ i =>
          have hmem := ih (number + 1) (by simpa using h)
          rw [Nat.add_assoc, Nat.add_comm 1 i] at hmem
          exact List.mem_cons_of_mem _ hmem

omit [Host] in
/-- The records that entries become. -/
theorem kind_of_mem_records (entries : List AuditEntry) :
    ∀ record ∈ entries.map AuditEntry.record, record.kind = .entry := by
  rw [List.forall_mem_map]
  exact fun _ _ => rfl

/-! ## §2 A file alone -/

section Alone

variable {form : IdentityForm} {identity : Identity} {rules : List Rule}
  {compiled : List CompiledRule} (hcheck : form.check = .ok identity)
  (hcompile : Rule.compileAll identity.mapping rules = .ok compiled)
include hcheck hcompile

theorem copyFiles_alone {w : Workspace} {records : List Record} {file : Path}
    (hreport : w.report = .list records)
    (hfile : Redactable ⟨compiled, identity.mapping, identity.pseudonym⟩ w.disk file)
    (hfree : w.disk.Free (tempPath (w.tokenAt w.nextToken) file)) :
    ∃ w', (copyFiles form rules [file]).run w =
        (.ok [(Job.share ⟨compiled, identity.mapping, identity.pseudonym⟩ w.disk
          (w.tokenAt w.nextToken) file).copy], w') ∧
      w'.report = .list (records ++ (Job.share ⟨compiled, identity.mapping, identity.pseudonym⟩
        w.disk (w.tokenAt w.nextToken) file).records) ∧
      w'.disk.read (tempPath (w.tokenAt w.nextToken) file) = .ok (encodeUtf8 (writtenText
        (Job.outcomesOn ⟨compiled, identity.mapping, identity.pseudonym⟩ w.disk file))) := by
  have hjob : Job.Ready ⟨compiled, identity.mapping, identity.pseudonym⟩ :=
    Rule.ready_of_compileAll hcompile
  obtain ⟨log, hfiles⟩ := run_copyFiles_ok hcheck hcompile [file] w
  obtain ⟨location, hnames, hnone⟩ := hfree
  obtain ⟨text, hholds⟩ := hfile.holds
  have hwrites := hfile.canWrite records
  rw [Job.outcomesOn_of_holds _ hholds, ← hreport] at hwrites
  obtain ⟨report, disk, log', hrun, hadd, -⟩ :=
    copyFile_ok (w := { w with log }) hjob hholds.1 hholds.2 hwrites hnames hnone
  have hadded := hadd
  rw [show ({ w with log } : Workspace).report = .list records from hreport, Report.addAll?_list]
    at hadded
  obtain ⟨rfl, rfl⟩ := Prod.mk.inj (Except.ok.inj hadded)
  rw [hfiles, run_copyEach_cons, hrun, Job.share, Job.outcomesOn_of_holds _ hholds]
  exact ⟨_, rfl, rfl, Disk.read_created
    (Disk.create_eq_ok_iff.mpr ⟨location, hnames, hnone, rfl⟩)⟩

/-- A copy that holds what the job makes of the file is as if the file had been copied alone. -/
theorem asAlone_share {start last : Disk} {token : Token} {file : Path}
    (hfile : Redactable ⟨compiled, identity.mapping, identity.pseudonym⟩ start file)
    (hread : last.read (tempPath token file) = .ok (encodeUtf8 (writtenText
      (Job.outcomesOn ⟨compiled, identity.mapping, identity.pseudonym⟩ start file)))) :
    AsAlone form rules start last file
      (Job.share ⟨compiled, identity.mapping, identity.pseudonym⟩ start token file) where
  source := rfl
  section_eq := ⟨_, kind_of_mem_records _, rfl⟩
  alone := by
    rintro w records rfl hreport hfree
    obtain ⟨w', hrun, hreport', hread'⟩ :=
      copyFiles_alone hcheck hcompile hreport hfile hfree
    exact ⟨_, w', hrun,
      ⟨rfl, ⟨rfl, rfl⟩, ⟨rfl, rfl, rfl⟩, _, _, _, rfl, rfl, hread, hread'⟩, hreport'⟩

theorem asAlone_shares {start last : Disk} {clock : Nat → Int} {files : List Path} {number : Nat}
    (hredactable : ∀ file ∈ files,
      Redactable ⟨compiled, identity.mapping, identity.pseudonym⟩ start file)
    (hcopies : List.Forall₂ (fun file temp => last.read temp = .ok (encodeUtf8 (writtenText
      (Job.outcomesOn ⟨compiled, identity.mapping, identity.pseudonym⟩ start file))))
        files (tempPaths clock number files)) :
    List.Forall₂ (AsAlone form rules start last) files
      (Job.shares ⟨compiled, identity.mapping, identity.pseudonym⟩ start clock number files) := by
  induction files generalizing number with
  | nil => exact .nil
  | cons file files ih =>
      obtain ⟨hfile, hmore⟩ := List.forall_mem_cons.mp hredactable
      obtain ⟨hread, hrest⟩ := List.forall₂_cons.mp hcopies
      exact .cons (asAlone_share hcheck hcompile hfile hread) (ih hmore hrest)

end Alone

/-! ## §3 The file that cannot be copied -/

/-- What is left of a file that cannot be copied: a section of the report that is not closed, and
perhaps a token that has been taken and an unfinished copy. -/
structure Uncopied (job : Job) (w w' : Workspace) (source : Path) (failure : FileFailure) : Prop where
  source_eq : failure.source = source
  uncopyable : ¬Copyable job w.disk (w.tokenAt w.nextToken) source
  report : ∃ entries, (∀ record ∈ entries, record.kind = .entry) ∧
    w.report.GrowsBy (⟨.start, w.disk.label source⟩ :: entries) w'.report
  token : w'.nextToken = w.nextToken ∨ w'.nextToken = w.nextToken + 1
  disk : w'.disk = w.disk ∨
    ∃ bytes, w.disk.create (tempPath (w.tokenAt w.nextToken) source) bytes = .ok w'.disk

theorem copyFile_uncopied {job : Job} (hjob : job.Ready) {source : Path} {w w' : Workspace}
    {e : FileError} (hmemory : w.report.serial? = none) (hnul : source.hasNul = false)
    (hrun : (copyFile job source).run w = (.error e, w')) :
    ∃ failure, e = .failure failure ∧ Uncopied job w w' source failure := by
  have hcourse := copyFile_course hjob source w
  rw [hrun] at hcourse
  cases hcourse with
  | unannounced hfault => cases hfault.symm.trans (Report.takes_of_memory hmemory _)
  | unopened hunopened _ hgrows =>
      obtain ⟨failure, rfl, hsource, -⟩ := hunopened.failure hnul
      refine ⟨failure, rfl, hsource, fun hcopyable => ?_, ⟨[], by simp, hgrows⟩, .inl rfl, .inl rfl⟩
      obtain ⟨text, hholds⟩ := hcopyable.1.holds
      exact hunopened.not_opened hholds.1 hholds.2
  | unmade _ _ hrefused _ hgrows =>
      exact ⟨_, rfl, rfl, fun hcopyable => (Disk.create_eq_error hrefused).1 hcopyable.2,
        ⟨[], by simp, hgrows⟩, .inr rfl, .inl rfl⟩
  | unfinished _ hread hreaches hbreak hcreate hadd =>
      refine ⟨_, rfl, rfl, fun hcopyable => ?_,
        ⟨_, kind_of_mem_records _, Report.growsBy_of_addAll? hadd⟩, .inr rfl, .inr ⟨_, hcreate⟩⟩
      rw [hcopyable.1.breakOf_eq_none (Report.takes_of_memory hmemory) hread hreaches] at hbreak
      cases hbreak

section Uncopied

variable {job : Job} {w w' : Workspace} {source : Path} {failure : FileFailure}
  (h : Uncopied job w w' source failure)
include h

theorem Uncopied.read {path : Path} {bytes : List UInt8} (hread : w.disk.read path = .ok bytes) :
    w'.disk.read path = .ok bytes := by
  rcases h.disk with hdisk | ⟨_, hcreate⟩
  · rw [hdisk, hread]
  · exact Disk.read_create hcreate hread

theorem Uncopied.kept {location : Location} {entry : Entry}
    (hget : w.disk.get? location = some entry) : w'.disk.get? location = some entry := by
  rcases h.disk with hdisk | ⟨_, hcreate⟩
  · rw [hdisk, hget]
  · exact Disk.get?_create hcreate hget

/-- Only the unfinished copy is new. -/
theorem Uncopied.names_of_new {location : Location} (hnone : w.disk.get? location = none)
    (hnew : w'.disk.get? location ≠ none) :
    w.disk.Names (tempPath (w.tokenAt w.nextToken) source) location := by
  rcases h.disk with hdisk | ⟨bytes, hcreate⟩
  · exact absurd (hdisk ▸ hnone) hnew
  · exact Disk.names_of_create hcreate hnone hnew

end Uncopied

/-! ## §4 Runs -/

section Copied

variable {job : Job} {w w₁ : Workspace} {files : List Path} (h : AllCopied job w w₁ files)
include h

/-- A file that has been copied could be redacted at the start, if it is not a copy itself. -/
theorem AllCopied.redactable_start (hapart : Apart w.disk files
    (tempPaths w.clock w.nextToken files)) : ∀ file ∈ files, Redactable job w.disk file :=
  fun file hfile => h.redactable_before (h.sources file hfile) fun temp htemp location =>
    hapart file hfile temp htemp location

/-- So its outcomes can be told from the disk at the start. -/
theorem AllCopied.outcomesOn_start (hapart : Apart w.disk files
    (tempPaths w.clock w.nextToken files)) :
    ∀ file ∈ files, job.outcomesOn w₁.disk file = job.outcomesOn w.disk file := by
  intro file hfile
  obtain ⟨text, hholds⟩ := (h.redactable_start hapart file hfile).holds
  obtain ⟨made, hmade, -⟩ := h.additions
  exact hmade.outcomesOn_eq job hholds

theorem AllCopied.copies_eq (hapart : Apart w.disk files
    (tempPaths w.clock w.nextToken files)) :
    completeCopies w.clock (job.outcomesOn w₁.disk) w.nextToken files =
      (job.shares w.disk w.clock w.nextToken files).map (·.copy) := by
  rw [copies_shares, completeCopies_congr (h.outcomesOn_start hapart)]

theorem AllCopied.report_eq (hapart : Apart w.disk files (tempPaths w.clock w.nextToken files))
    {records : List Record} (hreport : w.report = .list records) :
    w₁.report = .list
      (records ++ (job.shares w.disk w.clock w.nextToken files).flatMap (·.records)) := by
  have hgrows := h.report
  rw [hreport, Report.growsBy_list_iff] at hgrows
  rw [hgrows, records_shares, runRecords_outcomes (h.outcomesOn_start hapart)]

/-- What cannot be copied when others have been copied could not have been copied before. -/
theorem AllCopied.uncopyable {bad : Path}
    (hbad : ¬Copyable job w₁.disk (w₁.tokenAt w₁.nextToken) bad) :
    ¬Copyable job w.disk (w.tokenAt (w.nextToken + files.length)) bad := by
  have htoken : w₁.tokenAt w₁.nextToken = w.tokenAt (w.nextToken + files.length) := by
    rw [Workspace.tokenAt, Workspace.tokenAt, h.clock, h.nextToken]
  rintro ⟨hfile, hfree⟩
  obtain ⟨made, hmade, -⟩ := h.additions
  exact hbad ⟨hmade.redactable hfile, h.free (htoken ▸ hfree)⟩

/-- Each file that has been copied could be copied from the start. -/
theorem AllCopied.copyable (hapart : Apart w.disk files (tempPaths w.clock w.nextToken files))
    {i : Nat} {file : Path} (hfile : files[i]? = some file) :
    Copyable job w.disk (w.tokenAt (w.nextToken + i)) file := by
  obtain ⟨made, hmade, htemps⟩ := h.additions
  have hmem := mem_tempPaths w.clock w.nextToken hfile
  rw [← htemps] at hmem
  obtain ⟨a, ha, htemp⟩ := List.mem_map.mp hmem
  have hnames := (hmade.made a ha).names
  rw [htemp] at hnames
  exact ⟨h.redactable_start hapart file (List.mem_of_getElem? hfile), a.location, hnames,
    (hmade.made a ha).new⟩

end Copied

section Run

variable {form : IdentityForm} {identity : Identity} {rules : List Rule}
  {compiled : List CompiledRule} (hcheck : form.check = .ok identity)
  (hcompile : Rule.compileAll identity.mapping rules = .ok compiled)
include hcheck hcompile

/-- Files that have been copied, also when the disk has changed since and the copies are left. -/
theorem AllCopied.asAlone {w w₁ : Workspace} {files : List Path}
    (h : AllCopied ⟨compiled, identity.mapping, identity.pseudonym⟩ w w₁ files)
    (hapart : Apart w.disk files (tempPaths w.clock w.nextToken files)) {last : Disk}
    (hlast : ∀ path bytes, w₁.disk.read path = .ok bytes → last.read path = .ok bytes) :
    List.Forall₂ (AsAlone form rules w.disk last) files
      (Job.shares ⟨compiled, identity.mapping, identity.pseudonym⟩ w.disk w.clock w.nextToken
        files) := by
  refine asAlone_shares hcheck hcompile (h.redactable_start hapart) ?_
  refine List.Forall₂.imp ?_ ((List.forall₂_and_left _ _).mpr
    ⟨h.outcomesOn_start hapart, h.copies⟩)
  rintro file temp ⟨houtcomes, -, hread⟩
  exact houtcomes ▸ hlast temp _ hread

/-- The files of a run are copied and reported as if each was alone on the disk at the start, up to
the first that cannot be copied. The report is made of their sections in order. Of the files after
the one at which the run ended there is no copy, no token and no section. -/
theorem copyFiles_independent {w w' : Workspace} {records : List Record} {files : List Path}
    {result : Except RunError (List FileCopy)} (hreport : w.report = .list records)
    (hnul : ∀ file ∈ files, file.hasNul = false)
    (hapart : Apart w.disk files
      (tempPaths w.clock w.nextToken (files.take (w'.nextToken - w.nextToken))))
    (hrun : (copyFiles form rules files).run w = (result, w')) :
    ∃ before after shares, files = before ++ after ∧
      (∀ (i : Nat) (file : Path), before[i]? = some file →
        Copyable ⟨compiled, identity.mapping, identity.pseudonym⟩ w.disk
          (w.tokenAt (w.nextToken + i)) file) ∧
      List.Forall₂ (AsAlone form rules w.disk w'.disk) before shares ∧
      RunEnd ⟨compiled, identity.mapping, identity.pseudonym⟩ w w' records shares after result ∧
      (∀ location entry, w.disk.get? location = some entry →
        w'.disk.get? location = some entry) ∧
      ∀ location, w.disk.get? location = none → w'.disk.get? location ≠ none →
        ∃ temp ∈ tempPaths w.clock w.nextToken (files.take (shares.length + 1)),
          w.disk.Names temp location := by
  have hjob : Job.Ready ⟨compiled, identity.mapping, identity.pseudonym⟩ :=
    Rule.ready_of_compileAll hcompile
  obtain ⟨log, hfiles⟩ := run_copyFiles_ok hcheck hcompile files w
  rw [hfiles] at hrun
  have hmemory : w.report.serial? = none := by rw [hreport]; rfl
  cases result with
  | ok copies =>
      obtain ⟨hcopied, rfl⟩ := copyEach_copied (w := { w with log }) hjob hmemory hrun
      have hcount : files.take (w'.nextToken - w.nextToken) = files := by
        rw [hcopied.nextToken, Nat.add_sub_cancel_left, List.take_length]
      rw [hcount] at hapart
      refine ⟨files, [], _, (List.append_nil files).symm, fun i file => hcopied.copyable hapart,
        hcopied.asAlone hcheck hcompile hapart fun _ _ hread => hread, ?_, ?_, ?_⟩
      · rw [List.nil_append, hcopied.copies_eq hapart]
        exact .finished (hcopied.report_eq hapart hreport) (by rw [length_shares, hcopied.nextToken])
      · obtain ⟨made, hmade, -⟩ := hcopied.additions
        exact hmade.kept
      · intro location hnone hnew
        rw [length_shares, List.take_of_length_le (Nat.le_succ _)]
        exact (hcopied.get?_ne_none_iff hnone).mp hnew
  | error e =>
      obtain ⟨before, bad, after, copies, w₁, e', rfl, hbefore, hbad, rfl⟩ := copyEach_ended hrun
      obtain ⟨hcopied, rfl⟩ := copyEach_copied (w := { w with log }) hjob hmemory hbefore
      obtain ⟨failure, rfl, hleft⟩ :=
        copyFile_uncopied hjob hcopied.memory (hnul bad (by simp)) hbad
      have hapart : Apart w.disk before (tempPaths w.clock w.nextToken before) := by
        refine apart_mono hapart (fun _ h => List.mem_append_left _ h) fun temp htemp => ?_
        have htoken : w₁.nextToken = w.nextToken + before.length := hcopied.nextToken
        have hcount : before.length ≤ w'.nextToken - w.nextToken := by
          rcases hleft.token with hlast | hlast <;> omega
        rw [List.take_append, List.take_of_length_le hcount, tempPaths_append]
        exact List.mem_append_left _ htemp
      obtain ⟨entries, hentries, hgrows⟩ := hleft.report
      obtain ⟨made, hmade, -⟩ := hcopied.additions
      rw [hcopied.report_eq hapart hreport, Report.growsBy_list_iff, ← label_congr hmade.directories]
        at hgrows
      refine ⟨before, bad :: after, _, rfl, fun i file => hcopied.copyable hapart,
        hcopied.asAlone hcheck hcompile hapart fun _ _ hread => hleft.read hread, ?_,
        fun location entry hget => hleft.kept (hmade.kept location entry hget), ?_⟩
      · rw [List.nil_append, hcopied.copies_eq hapart]
        refine .stopped ?_ hleft.source_eq hentries hgrows ?_
        · rw [length_shares]
          exact hcopied.uncopyable hleft.uncopyable
        · rw [length_shares]
          exact hleft.token.imp (fun h => h.trans hcopied.nextToken)
            fun h => h.trans (congrArg (· + 1) hcopied.nextToken)
      · intro location hnone hnew
        rw [length_shares, List.take_length_add_append, tempPaths_append]
        by_cases hbetween : w₁.disk.get? location = none
        · have hnames := hleft.names_of_new hbetween hnew
          rw [← Disk.names_congr hmade.directories, Workspace.tokenAt, hcopied.clock,
            hcopied.nextToken] at hnames
          exact ⟨_, List.mem_append_right _ (List.mem_cons_self ..), hnames⟩
        · obtain ⟨temp, htemp, hnames⟩ := (hcopied.get?_ne_none_iff hnone).mp hbetween
          exact ⟨temp, List.mem_append_left _ htemp, hnames⟩

end Run

end Independence

theorem apart_of_name_ne {disk : Disk} {sources temps : List Path}
    (h : ∀ source ∈ sources, ∀ temp ∈ temps, source.name ≠ temp.name) :
    Apart disk sources temps := by
  intro source hsource temp htemp location hnames htempNames
  refine h source hsource temp htemp (Option.some.inj ?_)
  rw [← Disk.getLast?_of_names hnames, ← Disk.getLast?_of_names htempNames]

theorem mem_tempPaths_of_take {clock : Nat → Int} {number k : Nat} {files : List Path}
    {temp : Path} (h : temp ∈ tempPaths clock number (files.take k)) :
    temp ∈ tempPaths clock number files := by
  rw [← List.take_append_drop k files, tempPaths_append]
  exact List.mem_append_left _ h

/-- The log under two names, a file that is missing, and the log again. -/
def loginBatch : List Path := [loginLog, ⟨"", ["a.log"]⟩, ⟨"", ["b.log"]⟩, loginLog]

section Sample

attribute [local instance] sampleHost

theorem copyFiles_independent_login : ∃ compiled before after shares result w',
    Rule.compileAll jdoe.mapping [.username "plain-username"] = .ok compiled ∧
    (copyFiles jdoeForm [.username "plain-username"] loginBatch).run loginWorkspace =
      (result, w') ∧ loginBatch = before ++ after ∧ shares.length = 2 ∧
    List.Forall₂ (AsAlone jdoeForm [.username "plain-username"] loginWorkspace.disk w'.disk) before
      shares ∧ RunEnd ⟨compiled, jdoe.mapping, jdoe.pseudonym⟩ loginWorkspace w' [] shares after
      result := by
  obtain ⟨compiled, hcompile⟩ := Rule.compileAll_jdoe
  rcases hrun : (copyFiles jdoeForm [.username "plain-username"] loginBatch).run loginWorkspace with
    ⟨result, w'⟩
  have hapart : Apart loginWorkspace.disk loginBatch
      (tempPaths loginWorkspace.clock loginWorkspace.nextToken
        (loginBatch.take (w'.nextToken - loginWorkspace.nextToken))) :=
    apart_mono (apart_of_name_ne (by decide +kernel)) (fun _ h => h)
      fun _ => mem_tempPaths_of_take
  obtain ⟨before, after, shares, hsplit, -, hshares, hend, -⟩ :=
    @copyFiles_independent _ jdoeForm jdoe _ compiled rfl hcompile loginWorkspace w' [] loginBatch
      result rfl (by decide +kernel) hapart hrun
  have hcount : (completedCopies result).length = 2 := by
    rw [← show _ = result from congrArg Prod.fst hrun]
    decide +kernel
  refine ⟨compiled, before, after, shares, result, w', hcompile, rfl, hsplit, ?_, hshares, hend⟩
  cases hend <;> simpa [completedCopies] using hcount

end Sample

end LogRedaction
