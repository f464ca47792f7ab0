/-
LogRedaction.Proofs.CommandLine.Interruption — the command when one of the files cannot be redacted.

The command ends at some file, and accounts for all that it leaves: the unfinished copy is
discarded, the copies of the files before are listed, and the report is written as far as it goes.
What was there before is as it was, also the files that have been copied. `Interrupted` says this
field by field, and `redact_interrupted` that it is so whenever a file cannot be read as text, or a
redacted line of it has no bytes. What the command says of all this is another matter, as the report
comes before the list of copies: it is said only if standard output takes the report (`Told`).
-/
import LogRedaction.Proofs.CommandLine.Execution
import LogRedaction.Proofs.Interruption

namespace LogRedaction.CommandLine

open Text LogRedaction.Action

section Interruption

variable [Host]

/-! ## Listing copies -/

/-- The line about a file and its copy. -/
def listedCopy (source temp : Path) : Text := source.toText ++ " -> " ++ temp.toText ++ "\n"

omit [Host] in
theorem copyRemarks_completeCopies (clock : Nat → Int) (outcomes : Path → List RedactedLine)
    (files : List Path) (n : Nat) :
    (completeCopies clock outcomes n files).map copyRemark =
      List.zipWith listedCopy files (tempPaths clock n files) := by
  induction files generalizing n with
  | nil => rfl
  | cons file files ih =>
      rw [completeCopies, List.map_cons, ih, tempPaths, List.zipWith_cons_cons]
      rfl

/-! ## Commands that end at a file -/

/-- The report of a run that has ended at the bad file: the sections of the files before, and the
bad file's as far as its redacted lines could be written. -/
def interruptedRecords (disk : Disk) (outcomes : Path → List RedactedLine) (before : List Path)
    (bad : Path) : List Record :=
  runRecords disk outcomes before ++ begunSection (disk.label bad)
    (allEntries ((outcomes bad).takeWhile fun outcome => outcome.text.Writable))

/-- What a command says that has ended at the bad file. -/
structure Told (work : Workspace) (before : List Path) (bad : Path)
    (outcomes : Path → List RedactedLine) (verbose : Bool) (stamp : Text) (outcome : Outcome) :
    Prop where
  exitCode : outcome.exitCode = 1
  results : outcome.results = reportText (interruptedRecords work.disk outcomes before bad)
  /-- The bad file is the error that is noted and reported, its copy is gone, and the copies of the
  files before are listed. -/
  failure : ∃ failure completed, outcome.error = some (.run (.file failure completed)) ∧
    failure.source = bad ∧ (∀ temp, failure.temp = some temp → outcome.work.disk.Free temp) ∧
    shownEvents false outcome.work.log = [.failed bad.toText failure.cause.message] ∧
    outcome.remarks =
      Text.join ((shownEvents verbose outcome.work.log).map (eventText stamp)) ++
        Text.join (List.zipWith listedCopy before
          (tempPaths work.clock work.nextToken before)) ++ ("error: " ++ failure.message ++ "\n")

/-- What a command leaves that has ended at the bad file, when those before it had been copied. -/
structure Interrupted (job : Job) (work : Workspace) (before : List Path) (bad : Path)
    (outcomes : Path → List RedactedLine) (verbose : Bool) (stamp : Text) (outcome : Outcome) :
    Prop where
  unredactable : ¬Redactable job outcome.work.disk bad
  /-- Nothing that was there has changed. -/
  kept : ∀ location entry, work.disk.get? location = some entry →
    outcome.work.disk.get? location = some entry
  /-- What is new are the copies of the files before. -/
  added : ∀ location, work.disk.get? location = none →
    (outcome.work.disk.get? location ≠ none ↔
      ∃ temp ∈ tempPaths work.clock work.nextToken before, work.disk.Names temp location)
  /-- They hold the redactions of their sources. -/
  copies : List.Forall₂ (fun file temp => ∃ text ls,
    outcome.work.disk.read file = .ok (encodeUtf8 text) ∧ LinesOf text ls ∧
    LineByLine job (work.disk.label file) 1 ls (outcomes file) ∧
    outcome.work.disk.read temp = .ok (encodeUtf8 (writtenText (outcomes file))))
      before (tempPaths work.clock work.nextToken before)
  /-- The bad file as far as its lines can be read. -/
  begun : LineByLine job (work.disk.label bad) 1 (outcome.work.disk.seenLines bad) (outcomes bad)
  told : Printable (reportPieces (interruptedRecords work.disk outcomes before bad)) →
    Told work before bad outcomes verbose stamp outcome

theorem errorsIn_preparing (mapping : Mapping) (rules : List Rule) :
    errorsIn (preparing mapping rules) = [] := by
  rw [errorsIn, List.filter_eq_nil_iff]
  intro event hevent
  obtain ⟨rule, -, rfl⟩ := List.mem_map.mp hevent
  simp [Event.level]

/-- If copying files fails, so does the command; and it takes no token after that. -/
theorem copyAll_of_error {form : IdentityForm} {rules : List Rule} {files : List Path} {desk : Desk}
    {e : RunError} {w : Workspace}
    (hrun : (copyFiles form rules files).run desk.work = (.error e, w)) :
    ∃ e' desk', (copyAll form rules files).run desk = (.error e', desk') ∧
      desk'.work.nextToken = w.nextToken := by
  have hcourse := copyAll_course form rules files desk
  rcases hcopy : (copyAll form rules files).run desk with ⟨result, desk'⟩
  rw [hcopy] at hcourse
  cases hcourse with
  | copied hcopied => cases hrun.symm.trans hcopied
  | failed hfailed =>
      obtain ⟨-, rfl⟩ := Prod.mk.inj (hrun.symm.trans hfailed)
      exact ⟨_, _, rfl, rfl⟩
  | discarded hfailed =>
      obtain ⟨-, rfl⟩ := Prod.mk.inj (hrun.symm.trans hfailed)
      exact ⟨_, _, rfl, rfl⟩

/-- The copies of files, also on a disk that has the same as the one on which they were made. -/
theorem copies_of_allCopied {job : Job} (hjob : job.Ready) {w w' : Workspace} {files : List Path}
    (h : AllCopied job w w' files) {disk : Disk} (hsame : Disk.Same w'.disk disk) :
    List.Forall₂ (fun file temp => ∃ text ls,
      disk.read file = .ok (encodeUtf8 text) ∧ LinesOf text ls ∧
      LineByLine job (w.disk.label file) 1 ls (job.outcomesOn disk file) ∧
      disk.read temp = .ok (encodeUtf8 (writtenText (job.outcomesOn disk file))))
        files (tempPaths w.clock w.nextToken files) := by
  obtain ⟨made, hmade, -⟩ := h.additions
  refine h.copies.imp ?_
  rintro file temp ⟨⟨⟨text, hholds⟩, -⟩, hread⟩
  rw [hsame.outcomesOn] at hread
  have hlater : disk.Holds file text := ⟨hholds.1, hsame.read hholds.2⟩
  refine ⟨text, lines text, hlater.2, linesOf_iff.mpr rfl, ?_, hsame.read hread⟩
  rw [lineByLine_iff hjob, job.outcomesOn_of_holds hlater,
    label_congr (hmade.directories.trans hsame.sameDirectories)]

/-- What the copying of files leaves on the desk, and what it was that ended it. -/
structure LeftBy (job : Job) (w : Workspace) (desk : Desk)
    (result : Except CommandError (List FileCopy)) (desk' : Desk) (before : List Path)
    (bad : Path) : Prop where
  copied : ∃ w₁, AllCopied job w w₁ before ∧ Disk.Same w₁.disk desk'.work.disk
  unredactable : ¬Redactable job desk'.work.disk bad
  told : Printable (reportPieces
      (interruptedRecords w.disk (job.outcomesOn desk'.work.disk) before bad)) →
    ∃ failure completed, result = .error (.run (.file failure completed)) ∧ failure.source = bad ∧
      (∀ temp, failure.temp = some temp → desk'.work.disk.Free temp) ∧
      errorsIn desk'.work.log = errorsIn w.log ++ [.failed bad.toText failure.cause.message] ∧
      desk'.results = desk.results ++ reportText
        (interruptedRecords w.disk (job.outcomesOn desk'.work.disk) before bad) ∧
      desk'.remarks = desk.remarks ++ Text.join (List.zipWith listedCopy before
        (tempPaths w.clock w.nextToken before))

section CopyAll

variable {job : Job} (hjob : job.Ready) {form : IdentityForm} {rules : List Rule}
  {files : List Path} {desk desk' : Desk} {w : Workspace}
  (hfiles : (copyFiles form rules files).run desk.work = (copyEach job [] files).run w)
  (hreport : w.report = .list []) (hbad : HasUnredactable job w files)
include hjob hfiles hreport hbad

variable (desk) in
theorem copyAll_fails : ∃ e desk', (copyAll form rules files).run desk = (.error e, desk') ∧
    desk'.work.nextToken = ((copyEach job [] files).run w).2.nextToken := by
  rcases hcopy : (copyEach job [] files).run w with ⟨e | copies, w'⟩
  · exact copyAll_of_error (hfiles.trans hcopy)
  · exact absurd hcopy (copyEach_ne_ok hjob (by rw [hreport]; rfl) hbad)

/-- A file cannot be redacted, so the copying ends at some file. -/
theorem copyAll_interrupted {result : Except CommandError (List FileCopy)}
    (hnul : ∀ file ∈ files, file.hasNul = false) (hnormal : ∀ file ∈ files, file.Normal)
    (hrun : (copyAll form rules files).run desk = (result, desk'))
    (hfree : ∀ temp ∈ tempPaths w.clock w.nextToken
      (files.take (desk'.work.nextToken - w.nextToken)), w.disk.Free temp) :
    ∃ before bad after, files = before ++ bad :: after ∧
      LeftBy job w desk result desk' before bad := by
  -- How many tokens were taken is known before it is known where the copying ended.
  obtain ⟨e, failed, hfailed, htoken⟩ := copyAll_fails hjob desk hfiles hreport hbad
  rw [← (Prod.mk.inj (hrun.symm.trans hfailed)).2] at htoken
  rcases hcopy : (copyEach job [] files).run w with ⟨copied, w'⟩
  rw [htoken, hcopy] at hfree
  obtain ⟨before, bad, after, w₁, failure, rfl, hcopied, hstopped, rfl⟩ :=
    copyEach_interrupted hjob (by rw [hreport]; rfl) hnul hbad hfree hcopy
  obtain ⟨found, disk, log, hdiscard, hsame, hdiscarded, hlog⟩ :=
    run_discardCopy_stopped hstopped (hnormal bad (by simp))
  obtain ⟨made, hmade, -⟩ := hcopied.additions
  have hrecords : w'.report =
      .list (interruptedRecords w.disk (job.outcomesOn disk) before bad) := by
    have hgrows := hcopied.report.trans hstopped.report
    rw [hreport, Report.growsBy_list_iff, Job.writtenOn, hsame.outcomesOn,
      ← label_congr hmade.directories] at hgrows
    exact hgrows
  have hunredactable : ¬Redactable job disk bad := fun hredactable =>
    hstopped.unredactable (hsame.symm.redactable hredactable)
  rw [copyAll_eq_conclude, run_conclude, hfiles.trans hcopy] at hrun
  simp only [hdiscard, hrecords, reportOutput] at hrun
  refine ⟨before, bad, after, rfl, ?_⟩
  by_cases hprinted :
    Printable (reportPieces (interruptedRecords w.disk (job.outcomesOn disk) before bad))
  · rw [printed_of_printable hprinted] at hrun
    simp only [Desk.reported, reportOutput, printed_of_printable hprinted] at hrun
    rw [Desk.closed_list rfl] at hrun
    obtain ⟨rfl, rfl⟩ := Prod.mk.inj hrun
    refine ⟨⟨w₁, hcopied, hsame⟩, hunredactable, fun _ => ⟨failure, _, rfl, hstopped.source_eq,
      hdiscarded, ?_, rfl, ?_⟩⟩
    · exact hlog.trans (hstopped.noted.trans (congrArg (· ++ _) hcopied.noted))
    · rw [copyRemarks_completeCopies]
  · cases hfault : (printed (reportPieces
        (interruptedRecords w.disk (job.outcomesOn disk) before bad))).2 with
    | none => exact absurd (printable_of_printed hfault) hprinted
    | some complaint =>
        simp only [hfault, Desk.reported] at hrun
        rw [Desk.closed_list rfl] at hrun
        obtain ⟨rfl, rfl⟩ := Prod.mk.inj hrun
        exact ⟨⟨w₁, hcopied, hsame⟩, hunredactable, fun h => absurd h hprinted⟩

end CopyAll

/-- A file among those that are listed cannot be redacted, and the copies have room. Then the command
ends at some file, and leaves the copies of the files before it and nothing else. -/
theorem redact_interrupted {common : Common} {patterns : Text} {rules : List Rule}
    {identity : Identity} {compiled : List CompiledRule} {files : List Text} {work : Workspace}
    {keepTemp verbose : Bool} {stamp : Text} {outcome : Outcome}
    (hpatterns : common.patterns = some patterns)
    (hrules : Rule.ofFile work.disk patterns = .ok rules)
    (hcheck : common.identity.check = .ok identity)
    (hcompile : Rule.compileAll identity.mapping rules = .ok compiled)
    (hnul : ∀ file ∈ files.map Path.ofText, file.hasNul = false)
    (hbad : HasUnredactable ⟨compiled, identity.mapping, identity.pseudonym⟩ work
      (files.map Path.ofText))
    (hexecute : Invocation.execute ⟨verbose, .redact common none keepTemp files⟩ stamp work =
      outcome)
    (hfree : ∀ temp ∈ tempPaths work.clock work.nextToken
      ((files.map Path.ofText).take (outcome.work.nextToken - work.nextToken)),
      work.disk.Free temp) :
    ∃ before bad after outcomes, files.map Path.ofText = before ++ bad :: after ∧
      Interrupted ⟨compiled, identity.mapping, identity.pseudonym⟩ work before bad outcomes verbose
        stamp outcome := by
  have hjob : Job.Ready ⟨compiled, identity.mapping, identity.pseudonym⟩ :=
    Rule.ready_of_compileAll hcompile
  let prepared : Workspace :=
    { work with report := .list [], log := [] ++ preparing identity.mapping rules }
  let w : Workspace := { prepared with log := prepared.log ++ preparing identity.mapping rules }
  have hnoted : errorsIn w.log = [] := by
    simp only [w, prepared, errorsIn_append, errorsIn_preparing]
    rfl
  have hfiles : (copyFiles common.identity rules (files.map Path.ofText)).run prepared =
      (copyEach ⟨compiled, identity.mapping, identity.pseudonym⟩ []
        (files.map Path.ofText)).run w := by
    rw [run_copyFiles, hcheck]
    simp only [hcompile]
    rfl
  have hreport : w.report = .list [] := rfl
  have hnormal : ∀ file ∈ files.map Path.ofText, file.Normal := by
    rw [List.forall_mem_map]
    exact fun file _ => Path.normal_ofText file
  obtain ⟨e, desk, hcopy, -⟩ :=
    copyAll_fails hjob { work := prepared } hfiles hreport hbad
  have hredact : (redactFiles common none keepTemp files).run
      { work := { work with log := [], report := .list [] } } = (.error e, desk) := by
    rw [run_redactFiles_eq, hpatterns]
    simp only [hrules, hcheck, hcompile, run_openReport_none]
    rw [hcopy]
  rw [Invocation.execute] at hexecute
  simp only [Command.execute, hredact] at hexecute
  subst hexecute
  obtain ⟨before, bad, after, hsplit, hleft⟩ :=
    copyAll_interrupted hjob hfiles hreport hbad hnul hnormal hcopy hfree
  obtain ⟨w₁, hcopied, hsame⟩ := hleft.copied
  obtain ⟨made, hmade, -⟩ := hcopied.additions
  refine ⟨before, bad, after, _, hsplit, hleft.unredactable, ?_, ?_,
    copies_of_allCopied hjob hcopied hsame, ?_, fun hprinted => ?_⟩
  · intro location entry hget
    rw [← hsame.get?]
    exact hmade.kept location entry hget
  · intro location hnone
    rw [← hsame.get?]
    exact hcopied.get?_ne_none_iff hnone
  · rw [lineByLine_iff hjob, Job.outcomesOn,
      ← label_congr (hmade.directories.trans hsame.sameDirectories)]
  · obtain ⟨failure, completed, herror, hsource, hdiscarded, hlog, hresults, hremarks⟩ :=
      hleft.told hprinted
    obtain rfl := Except.error.inj herror
    refine ⟨rfl, hresults.trans (Text.empty_append _), failure, completed, rfl, hsource, hdiscarded,
      ?_, ?_⟩
    · refine Eq.trans ?_ (hlog.trans (congrArg (· ++ _) hnoted))
      rw [shownEvents, if_neg Bool.false_ne_true]
      rfl
    · rw [hremarks, Text.empty_append]
      rfl

end Interruption

section Sample

attribute [local instance] sampleHost

/-- Two commands with a file that is missing. The missing file of the first is the copy of the file
before it, which is there when its turn comes: the command succeeds. The second has a rule whose key
has no bytes, and a standard output that takes only what has bytes: the failure is not reported, and
the copy that is left is not listed. -/
theorem redact_missing :
    ((loginWorkspace.disk.read ⟨"/", ["anon-7-0-a.log"]⟩).toOption = none ∧
      (∀ temp ∈ tempPaths loginWorkspace.clock loginWorkspace.nextToken
        [loginLog, ⟨"/", ["anon-7-0-a.log"]⟩], loginWorkspace.disk.Free temp) ∧
      (Invocation.execute ⟨false, .redact ⟨jdoeForm, some "/rules.yaml"⟩ none false
        ["/a.log", "/anon-7-0-a.log"]⟩ "" loginWorkspace).exitCode = 0) ∧
    ∃ outcome, @Invocation.execute strictHost ⟨false, .redact ⟨jdoeForm, some "/rules.yaml"⟩ none
        false ["/a.log", "/b.log"]⟩ "" oddKeyWorkspace = outcome ∧
      outcome.error.map CommandError.isReported = some false ∧
      (outcome.work.disk.get? ["anon-7-0-a.log"]).isSome := by
  refine ⟨⟨by decide +kernel, by decide +kernel, by decide +kernel⟩, _, rfl, by decide +kernel,
    by decide +kernel⟩

/-- The second of these files is missing. -/
def loginFiles : List Text := ["/a.log", "b.log", "a.log"]

theorem hasUnredactable_login (job : Job) :
    HasUnredactable job loginWorkspace (loginFiles.map Path.ofText) := by
  refine ⟨[loginLog], ⟨"", ["b.log"]⟩, [⟨"", ["a.log"]⟩], by decide +kernel, ?_, ?_⟩
  · rintro ⟨⟨text, -, hread⟩, -⟩
    have hmissing : (loginWorkspace.disk.read ⟨"", ["b.log"]⟩).toOption = none := by decide +kernel
    rw [hread] at hmissing
    cases hmissing
  · intro temp htemp location hplace hnames
    obtain rfl := List.mem_singleton.mp htemp
    obtain ⟨-, last, base, hlast, -, -, -, rfl⟩ := Disk.names_iff.mp hplace
    obtain rfl : ("b.log" : Text) = last := Option.some.inj hlast
    have hname := Disk.names_tempPath hnames
    rw [List.getLast?_concat] at hname
    exact absurd (Option.some.inj hname) (by decide +kernel)

theorem redact_interrupted_login : ∃ compiled before bad after outcomes,
    Rule.compileAll jdoe.mapping [.username "plain-username"] = .ok compiled ∧
    loginFiles.map Path.ofText = before ++ bad :: after ∧
    Interrupted ⟨compiled, jdoe.mapping, jdoe.pseudonym⟩ loginWorkspace before bad outcomes false ""
      (Invocation.execute ⟨false, .redact ⟨jdoeForm, some "/rules.yaml"⟩ none false loginFiles⟩ ""
        loginWorkspace) ∧
    Told loginWorkspace before bad outcomes false ""
      (Invocation.execute ⟨false, .redact ⟨jdoeForm, some "/rules.yaml"⟩ none false loginFiles⟩ ""
        loginWorkspace) := by
  obtain ⟨compiled, hcompile⟩ := Rule.compileAll_jdoe
  obtain ⟨before, bad, after, outcomes, hsplit, hleft⟩ :=
    @redact_interrupted _ ⟨jdoeForm, some "/rules.yaml"⟩ _ [.username "plain-username"] jdoe compiled
      loginFiles loginWorkspace false false "" _ rfl (eq_ok_of_toOption (by decide +kernel)) rfl
      hcompile (by decide +kernel) (hasUnredactable_login _) rfl (by decide +kernel)
  exact ⟨compiled, before, bad, after, outcomes, hcompile, hsplit, hleft, hleft.told fun _ _ => rfl⟩

end Sample

end LogRedaction.CommandLine
