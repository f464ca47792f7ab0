/-
LogRedaction.Proofs.CommandLine.Preflight — what listing the rules tells about redacting.

Both commands need the same of the rules and of the user (`Accepted`), though they look at it in
different orders. Where it is given, listing succeeds, and redacting runs with the rules that are
listed: from then on it is `redactBy`, which knows the compiled rules and nothing of where they come
from. Where it is not given, both fail, and redacting has done nothing by then. Listing can fail in
one way more, which tells nothing about redacting: standard output may not take the list.

## §1 Redacting with rules that are ready
## §2 What both commands need
## §3 Listing before redacting
-/
import LogRedaction.Proofs.CommandLine.Preservation
import LogRedaction.Proofs.Listing

namespace LogRedaction.CommandLine

open Text LogRedaction.Action

section Preflight

variable [Host]

/-! ## §1 Redacting with rules that are ready -/

/-- Copying files by a job. What compiling its rules would note is noted before. -/
def copyBy (job : Job) (noted : List Event) (files : List Path) :
    Action RunError (List FileCopy) := do
  Action.noteAll noted
  copyEach job [] files

/-- Redacting files by a job. -/
def redactBy (job : Job) (noted : List Event) (report : Option Text) (keepTemp : Bool)
    (files : List Text) : Run Unit := do
  openReport report
  let copies ← conclude (copyBy job noted (files.map Path.ofText))
  finish keepTemp copies

/-- With rules that are ready the copying of files fails only at a file, or when the report does not
take a record about one. -/
theorem copyEach_error {job : Job} (hjob : job.Ready) {files : List Path} {e : RunError}
    {w w' : Workspace} (hrun : (copyEach job [] files).run w = (.error e, w')) :
    e = .nulInPath ∨ (∃ fault, e = .report fault) ∨ ∃ failure done, e = .file failure done := by
  obtain ⟨before, bad, after, copies, w₁, e', rfl, -, hbad, rfl⟩ := copyEach_ended hrun
  have hcourse := copyFile_course hjob bad w₁
  rw [hbad] at hcourse
  cases hcourse with
  | unannounced => exact .inr (.inl ⟨_, rfl⟩)
  | unopened hunopened =>
      cases hunopened with
      | nul => exact .inl rfl
      | unnamed => exact .inr (.inr ⟨_, _, rfl⟩)
      | unread => exact .inr (.inr ⟨_, _, rfl⟩)
  | unmade => exact .inr (.inr ⟨_, _, rfl⟩)
  | unfinished => exact .inr (.inr ⟨_, _, rfl⟩)

/-- The error is about the rules or the user, or about a line for which a rule is not ready. -/
def CommandError.isRejection : CommandError → Bool
  | noPatterns | rules _ => true
  | run (.identity _) | run (.rule _) | run (.line _) => true
  | _ => false

theorem run_openReport_error {desk : Desk} {text : Text} {e : ReportError} {disk : Disk}
    (h : FileReport.open? desk.work.disk text true = (.error e, disk)) :
    (openReport (some text)).run desk =
      (.error (.report e), { desk with work := { desk.work with disk } }) := by
  rw [run_openReport_some, h]

/-- The report is opened, or its path is no use. -/
theorem openReport_cases (report : Option Text) (desk : Desk) :
    (∃ desk', (openReport report).run desk = (.ok ⟨⟩, desk')) ∨
      ∃ text e disk, report = some text ∧
        FileReport.open? desk.work.disk text true = (.error e, disk) := by
  cases report with
  | none => exact .inl ⟨_, run_openReport_none desk⟩
  | some text =>
      rcases hopen : FileReport.open? desk.work.disk text true with ⟨e | f, disk⟩
      · exact .inr ⟨text, e, disk, rfl, hopen⟩
      · rw [run_openReport_some, hopen]
        exact .inl ⟨_, rfl⟩

/-- What redacting by a job comes to: it ends when the report cannot be opened, or at the copying of
the files, or later. -/
inductive RedactedBy (job : Job) (noted : List Event) (report : Option Text) (keepTemp : Bool)
    (files : List Text) (desk : Desk) : Except CommandError Unit → Desk → Prop where
  | unopened {text : Text} {e : ReportError} {disk : Disk} : report = some text →
      FileReport.open? desk.work.disk text true = (.error e, disk) →
      RedactedBy job noted report keepTemp files desk (.error (.report e))
        { desk with work := { desk.work with disk } }
  | stopped {desk₁ last : Desk} {e : CommandError} :
      (openReport report).run desk = (.ok ⟨⟩, desk₁) →
      (conclude (copyBy job noted (files.map Path.ofText))).run desk₁ = (.error e, last) →
      RedactedBy job noted report keepTemp files desk (.error e) last
  | finished {desk₁ desk₂ last : Desk} {copies : List FileCopy}
      {result : Except CommandError Unit} : (openReport report).run desk = (.ok ⟨⟩, desk₁) →
      (conclude (copyBy job noted (files.map Path.ofText))).run desk₁ = (.ok copies, desk₂) →
      (finish keepTemp copies).run desk₂ = (result, last) →
      RedactedBy job noted report keepTemp files desk result last

theorem redactedBy {job : Job} {noted : List Event} {report : Option Text} {keepTemp : Bool}
    {files : List Text} {desk last : Desk} {result : Except CommandError Unit}
    (hrun : (redactBy job noted report keepTemp files).run desk = (result, last)) :
    RedactedBy job noted report keepTemp files desk result last := by
  rw [redactBy, run_bind] at hrun
  rcases openReport_cases report desk with ⟨desk₁, hopen⟩ | ⟨text, e, disk, rfl, hopen⟩
  · rw [hopen] at hrun
    simp only [run_bind] at hrun
    rcases hcopy : (conclude (copyBy job noted (files.map Path.ofText))).run desk₁ with
      ⟨e | copies, desk₂⟩
    · rw [hcopy] at hrun
      obtain ⟨rfl, rfl⟩ := Prod.mk.inj hrun
      exact .stopped hopen hcopy
    · rw [hcopy] at hrun
      exact .finished hopen hcopy hrun
  · rw [run_openReport_error hopen] at hrun
    obtain ⟨rfl, rfl⟩ := Prod.mk.inj hrun
    exact .unopened rfl hopen

theorem finish_error {keepTemp : Bool} {copies : List FileCopy} {desk desk' : Desk}
    {e : CommandError} (h : (finish keepTemp copies).run desk = (.error e, desk')) :
    (∃ complaint, e = .output complaint) ∨ ∃ e', e = .placement e' := by
  cases finished h with
  | unprinted => exact .inl ⟨_, rfl⟩
  | misplaced => exact .inr ⟨_, rfl⟩

theorem conclude_error {copying : Action RunError (List FileCopy)} {desk desk' : Desk}
    {e : CommandError} (h : (conclude copying).run desk = (.error e, desk')) :
    (∃ e', e = .discard e') ∨ (∃ complaint, e = .output complaint) ∨
      ∃ e' work, e = .run e' ∧ copying.run desk.work = (.error e', work) := by
  cases concluded h with
  | failed hcopy => exact .inr (.inr ⟨_, _, rfl, hcopy⟩)
  | undiscarded => exact .inl ⟨_, rfl⟩
  | unprinted => exact .inr (.inl ⟨_, rfl⟩)
  | listed hcopy => exact .inr (.inr ⟨_, _, rfl, hcopy⟩)

/-- With rules that are ready nothing is rejected. -/
theorem redactBy_error {job : Job} (hjob : job.Ready) {noted : List Event} {report : Option Text}
    {keepTemp : Bool} {files : List Text} {desk desk' : Desk} {e : CommandError}
    (h : (redactBy job noted report keepTemp files).run desk = (.error e, desk')) :
    e.isRejection = false := by
  cases redactedBy h with
  | unopened => rfl
  | stopped _ hcopy =>
      obtain ⟨e, rfl⟩ | ⟨complaint, rfl⟩ | ⟨e, work, rfl, hrun⟩ := conclude_error hcopy
      · rfl
      · rfl
      rw [copyBy, run_bind, run_noteAll] at hrun
      obtain rfl | ⟨fault, rfl⟩ | ⟨failure, done, rfl⟩ := copyEach_error hjob hrun <;> rfl
  | finished _ _ hfinish =>
      obtain ⟨complaint, rfl⟩ | ⟨e', rfl⟩ := finish_error hfinish <;> rfl

/-! ## §2 What both commands need -/

/-- The identity is valid, and the rules in the file compile for it. -/
structure Accepted (common : Common) (disk : Disk) (rules : List Rule) (identity : Identity)
    (compiled : List CompiledRule) : Prop where
  read : ∃ patterns, common.patterns = some patterns ∧ Rule.ofFile disk patterns = .ok rules
  checked : common.identity.check = .ok identity
  compile : Rule.compileAll identity.mapping rules = .ok compiled

/-- What is wrong with the rules or the user. -/
inductive Rejection (common : Common) (disk : Disk) : CommandError → Prop where
  | noPatterns : common.patterns = none → Rejection common disk .noPatterns
  | rules {patterns : Text} {e : RulesFileError} : common.patterns = some patterns →
      Rule.ofFile disk patterns = .error e → Rejection common disk (.rules e)
  | identity {e : IdentityError} : common.identity.check = .error e →
      Rejection common disk (.run (.identity e))
  | rule {patterns : Text} {rules : List Rule} {identity : Identity} {e : CompileError} :
      common.patterns = some patterns → Rule.ofFile disk patterns = .ok rules →
      common.identity.check = .ok identity →
      Rule.compileAll identity.mapping rules = .error e →
      Rejection common disk (.run (.rule e))

theorem Accepted.unique {common : Common} {disk : Disk} {rules rules' : List Rule}
    {identity identity' : Identity} {compiled compiled' : List CompiledRule}
    (h : Accepted common disk rules identity compiled)
    (h' : Accepted common disk rules' identity' compiled') :
    rules = rules' ∧ identity = identity' ∧ compiled = compiled' := by
  obtain ⟨⟨patterns, hpatterns, hrules⟩, hcheck, hcompile⟩ := h
  obtain ⟨⟨patterns', hpatterns', hrules'⟩, hcheck', hcompile'⟩ := h'
  obtain rfl := Option.some.inj (hpatterns.symm.trans hpatterns')
  obtain rfl := Except.ok.inj (hrules.symm.trans hrules')
  obtain rfl := Except.ok.inj (hcheck.symm.trans hcheck')
  exact ⟨rfl, rfl, Except.ok.inj (hcompile.symm.trans hcompile')⟩

section Commands

variable {common : Common} {desk : Desk}

variable (common desk) in
/-- The steps of listing, each with the error that ends it there. -/
theorem run_listCompiled : (listCompiled common).run desk =
    match common.identity.check with
    | .error e => (.error (.run (.identity e)), desk)
    | .ok identity =>
      match common.patterns with
      | none => (.error .noPatterns, desk)
      | some patterns =>
        match Rule.ofFile desk.work.disk patterns with
        | .error e => (.error (.rules e), desk)
        | .ok rules =>
          let desk := { desk with work :=
            { desk.work with log := desk.work.log ++ preparing identity.mapping rules } }
          match Rule.compileAll identity.mapping rules with
          | .error e => (.error (.run (.rule e)), desk)
          | .ok compiled =>
            (written (printed (listPieces rules compiled)).2,
              { desk with results :=
                desk.results ++ (printed (listPieces rules compiled)).1 }) := by
  rw [listCompiled, run_bind]
  cases common.identity.check with
  | error e => rfl
  | ok identity =>
  simp only [Run.get, run_pure, run_bind]
  cases common.patterns with
  | none => rfl
  | some patterns =>
  cases hrules : Rule.ofFile desk.work.disk patterns with
  | error e =>
      rw [loadRules, run_bind, run_get]
      simp only [hrules]
      rfl
  | ok rules =>
  simp only [run_loadRules hrules, hrules, run_act, run_prepare_eq]
  cases Rule.compileAll identity.mapping rules with
  | error e => rfl
  | ok compiled => exact run_write _ _

section Accepted

variable {rules : List Rule} {identity : Identity} {compiled : List CompiledRule}
  (h : Accepted common desk.work.disk rules identity compiled)
include h

theorem run_listCompiled_accepted : (listCompiled common).run desk =
    (written (printed (listPieces rules compiled)).2, { desk with
      work := { desk.work with log := desk.work.log ++ preparing identity.mapping rules }
      results := desk.results ++ (printed (listPieces rules compiled)).1 }) := by
  obtain ⟨⟨patterns, hpatterns, hrules⟩, hcheck, hcompile⟩ := h
  rw [run_listCompiled, hcheck, hpatterns]
  simp only [hrules, hcompile]

theorem copyFiles_eq_copyBy (files : List Path) : copyFiles common.identity rules files =
    copyBy ⟨compiled, identity.mapping, identity.pseudonym⟩ (preparing identity.mapping rules)
      files := by
  funext w
  refine (run_copyFiles common.identity rules files w).trans ?_
  rw [h.checked]
  simp only [h.compile]
  rfl

theorem run_redactFiles_accepted (report : Option Text) (keepTemp : Bool) (files : List Text) :
    (redactFiles common report keepTemp files).run desk =
      (redactBy ⟨compiled, identity.mapping, identity.pseudonym⟩
        (preparing identity.mapping rules) report keepTemp files).run { desk with work :=
          { desk.work with log := desk.work.log ++ preparing identity.mapping rules } } := by
  have hcopy := copyFiles_eq_copyBy h (files.map Path.ofText)
  obtain ⟨⟨patterns, hpatterns, hrules⟩, hcheck, hcompile⟩ := h
  rw [run_redactFiles_eq, hpatterns]
  simp only [hrules, hcheck, hcompile, redactBy, run_bind, copyAll_eq_conclude, hcopy]
  rcases (openReport report).run _ with ⟨e | opened, desk₁⟩
  · rfl
  simp only
  rcases (conclude _).run desk₁ with ⟨e | copies, desk₂⟩
  · rfl
  · rfl

end Accepted

/-- What is missing for the one command is missing for the other, and nothing but the log has
changed when that is noticed. -/
theorem rejected (h : ∀ rules identity compiled,
      ¬Accepted common desk.work.disk rules identity compiled) :
    (∃ e log, Rejection common desk.work.disk e ∧
      (listCompiled common).run desk = (.error e, { desk with work := { desk.work with log } })) ∧
    ∃ e log, Rejection common desk.work.disk e ∧ ∀ report keepTemp files,
      (redactFiles common report keepTemp files).run desk =
        (.error e, { desk with work := { desk.work with log } }) := by
  rw [run_listCompiled]
  simp only [run_redactFiles_eq]
  cases hpatterns : common.patterns with
  | none =>
      refine ⟨?_, _, _, .noPatterns hpatterns, fun _ _ _ => rfl⟩
      cases hcheck : common.identity.check with
      | error e => exact ⟨_, _, .identity hcheck, rfl⟩
      | ok identity => exact ⟨_, _, .noPatterns hpatterns, rfl⟩
  | some patterns =>
  simp only
  cases hrules : Rule.ofFile desk.work.disk patterns with
  | error e =>
      refine ⟨?_, _, _, .rules hpatterns hrules, fun _ _ _ => rfl⟩
      cases hcheck : common.identity.check with
      | error e => exact ⟨_, _, .identity hcheck, rfl⟩
      | ok identity => exact ⟨_, _, .rules hpatterns hrules, rfl⟩
  | ok rules =>
  cases hcheck : common.identity.check with
  | error e =>
      exact ⟨⟨_, _, .identity hcheck, rfl⟩, _, _, .identity hcheck, fun _ _ _ => rfl⟩
  | ok identity =>
  simp only
  cases hcompile : Rule.compileAll identity.mapping rules with
  | error e =>
      have hrejection := Rejection.rule hpatterns hrules hcheck hcompile
      exact ⟨⟨_, _, hrejection, rfl⟩, _, _, hrejection, fun _ _ _ => rfl⟩
  | ok compiled => exact absurd ⟨⟨patterns, hpatterns, hrules⟩, hcheck, hcompile⟩ (h _ _ _)

end Commands

/-! ## §3 Listing before redacting -/

/-- The desk at which a command starts, when something has been noted already. -/
def Desk.start (work : Workspace) (noted : List Event) : Desk :=
  { work := { work with log := noted, report := .list [] } }

/-- What a command leaves is what its run leaves. -/
theorem execute_run (command : Command) {work : Workspace}
    {result : Except CommandError Unit} {desk : Desk}
    (h : command.execute.run (Desk.start work []) = (result, desk)) (verbose : Bool)
    (stamp : Text) : Invocation.execute ⟨verbose, command⟩ stamp work =
      { results := desk.results
        remarks := Text.join ((shownEvents verbose desk.work.log).map (eventText stamp)) ++
          desk.remarks ++ errorText (errorOf result)
        error := errorOf result
        work := desk.work } := by
  have hrun : command.execute.run
    { work := { work with log := [], report := .list [] } } = (result, desk) := h
  rw [Invocation.execute]
  simp only [hrun]
  cases result with
  | ok _ => rfl
  | error e => rfl

/-- Rules that are accepted are listed if standard output takes the list. -/
theorem exitCode_check {common : Common} {work : Workspace} {rules : List Rule}
    {identity : Identity} {compiled : List CompiledRule}
    (h : Accepted common work.disk rules identity compiled)
    (hprinted : Printable (listPieces rules compiled)) (verbose : Bool) (stamp : Text) :
    (Invocation.execute ⟨verbose, .check common⟩ stamp work).exitCode = 0 := by
  rw [execute_run (.check common) (@run_listCompiled_accepted _ common (Desk.start work []) _ _ _ h),
    printed_of_printable hprinted]
  rfl

/-- The rules and the user are accepted, and redacting is redacting by the job with these rules,
whatever its other options are. It does not fail for the rules or the user. -/
structure Foretold (common : Common) (work : Workspace) (rules : List Rule) (identity : Identity)
    (compiled : List CompiledRule) : Prop where
  accepted : Accepted common work.disk rules identity compiled
  run : ∀ report keepTemp files,
    (Command.redact common report keepTemp files).execute.run (Desk.start work []) =
      (redactBy ⟨compiled, identity.mapping, identity.pseudonym⟩ (preparing identity.mapping rules)
        report keepTemp files).run (Desk.start work (preparing identity.mapping rules))
  error : ∀ report keepTemp files verbose stamp e,
    (Invocation.execute ⟨verbose, .redact common report keepTemp files⟩ stamp work).error = some e →
      e.isRejection = false

theorem Accepted.foretold {common : Common} {work : Workspace} {rules : List Rule}
    {identity : Identity} {compiled : List CompiledRule}
    (h : Accepted common work.disk rules identity compiled) :
    Foretold common work rules identity compiled := by
  have hredact := @run_redactFiles_accepted _ common (Desk.start work []) _ _ _ h
  refine ⟨h, hredact, fun report keepTemp files verbose stamp e herror => ?_⟩
  rcases hrun : (redactFiles common report keepTemp files).run (Desk.start work []) with
    ⟨result, desk⟩
  rw [execute_run (.redact common report keepTemp files) hrun] at herror
  cases result with
  | ok _ => cases herror
  | error e' =>
      obtain rfl := Option.some.inj herror
      exact redactBy_error (Rule.ready_of_compileAll h.compile)
        ((hredact report keepTemp files).symm.trans hrun)

/-- Listing the rules foretells what becomes of redacting with the same options in the same
directory. If it succeeds, redacting searches with what has been listed, and does not fail for the
rules or the user. Nor does it if standard output has not taken the list, which has nothing to do
with them. If listing fails in another way, so does redacting, and leaves the disk as it was, also
where a report should have been. -/
theorem check_foretells_redact (common : Common) (work : Workspace) (verbose : Bool)
    (stamp : Text) : ∃ check : Outcome,
      Invocation.execute ⟨verbose, .check common⟩ stamp work = check ∧
      (check.exitCode = 0 → ∃ rules identity compiled,
        Foretold common work rules identity compiled ∧
        check.results = listRules rules compiled ∧ rules.length = compiled.length ∧
        List.Forall₂ (fun text rule => Regex.read text = .ok rule.detect)
          (listedDetections check.results) compiled) ∧
      (∀ complaint, check.error = some (.output complaint) →
        ∃ rules identity compiled, Foretold common work rules identity compiled) ∧
      (check.exitCode ≠ 0 → (∀ complaint, check.error ≠ some (.output complaint)) →
        ∀ report keepTemp files verbose stamp, ∃ outcome : Outcome,
          Invocation.execute ⟨verbose, .redact common report keepTemp files⟩ stamp work = outcome ∧
          outcome.exitCode ≠ 0 ∧ outcome.work.disk = work.disk) := by
  by_cases haccepted : ∃ rules identity compiled,
      Accepted common work.disk rules identity compiled
  · obtain ⟨rules, identity, compiled, h⟩ := haccepted
    have hcheck := execute_run (.check common)
      (@run_listCompiled_accepted _ common (Desk.start work []) _ _ _ h) verbose stamp
    refine ⟨_, hcheck, fun hcode => ?_, fun _ _ => ⟨rules, identity, compiled, h.foretold⟩,
      fun hcode houtput => ?_⟩
    · have hprinted : Printable (listPieces rules compiled) := printable_of_printed (by
        cases hfault : (printed (listPieces rules compiled)).2 with
        | none => rfl
        | some complaint =>
            rw [hfault] at hcode
            cases hcode)
      have hresults : (Desk.start work []).results ++ (printed (listPieces rules compiled)).1 =
          listRules rules compiled := by
        rw [printed_of_printable hprinted, join_listPieces]
        exact Text.empty_append _
      refine ⟨rules, identity, compiled, h.foretold, hresults,
        (Rule.compileAll_eq_ok_iff.mp h.compile).length_eq, ?_⟩
      rw [hresults]
      exact listed_of_compileAll h.compile
    · cases hfault : (printed (listPieces rules compiled)).2 with
      | none =>
          rw [hfault] at hcode
          exact absurd rfl hcode
      | some complaint =>
          rw [hfault] at houtput
          exact absurd rfl (houtput complaint)
  · obtain ⟨⟨e, log, hrejection, hlist⟩, e', log', -, hredact⟩ :=
      @rejected _ common (Desk.start work [])
        fun rules identity compiled h => haccepted ⟨rules, identity, compiled, h⟩
    refine ⟨_, execute_run (.check common) hlist verbose stamp,
      fun hcode => absurd hcode Nat.one_ne_zero, fun complaint houtput => ?_,
      fun _ _ report keepTemp files verbose stamp => ?_⟩
    · obtain rfl := Option.some.inj houtput
      cases hrejection
    · exact ⟨_, execute_run (.redact common report keepTemp files) (hredact report keepTemp files)
        verbose stamp, by simp [Outcome.exitCode, errorOf], rfl⟩

end Preflight

section Sample

attribute [local instance] sampleHost

/-- The key of the rule has no bytes, and standard output takes only what has bytes: listing the rule
fails. A log in which the user does not occur is redacted all the same. -/
theorem check_unprintable : ∃ check outcome : Outcome,
    @Invocation.execute strictHost ⟨false, .check ⟨{ jdoeForm with username := .text "bob" },
      some "/rules.yaml"⟩⟩ "" oddKeyWorkspace = check ∧
    @Invocation.execute strictHost ⟨false, .redact ⟨{ jdoeForm with username := .text "bob" },
      some "/rules.yaml"⟩ none false ["/a.log"]⟩ "" oddKeyWorkspace = outcome ∧
    check.exitCode ≠ 0 ∧ outcome.exitCode = 0 ∧
    outcome.work.disk.read loginLog = .ok (encodeUtf8 "User jdoe logged in\nbye\n".toList) :=
  ⟨_, _, rfl, rfl, by decide +kernel, by decide +kernel, by decide +kernel⟩

/-- The rule of the login directory is listed and used; for a user without a name it is neither. -/
theorem check_foretells_redact_login : (∃ check rules identity compiled,
      Invocation.execute ⟨false, .check ⟨jdoeForm, some "/rules.yaml"⟩⟩ "" loginWorkspace = check ∧
      Accepted ⟨jdoeForm, some "/rules.yaml"⟩ loginWorkspace.disk rules identity compiled ∧
      List.Forall₂ (fun text rule => Regex.read text = .ok rule.detect)
        (listedDetections check.results) compiled ∧
      listedDetections check.results = (["jdoe"] : List Text)) ∧
    ∃ outcome : Outcome, Invocation.execute ⟨false, .redact ⟨{ jdoeForm with username := .text "" },
        some "/rules.yaml"⟩ (some "/audit/report") false ["/a.log"]⟩ "" loginWorkspace = outcome ∧
      outcome.exitCode ≠ 0 ∧ outcome.work.disk = loginWorkspace.disk := by
  constructor
  · obtain ⟨compiled, hcompile⟩ := Rule.compileAll_jdoe
    have hlogin : Accepted ⟨jdoeForm, some "/rules.yaml"⟩ loginWorkspace.disk
        [.username "plain-username"] jdoe compiled :=
      ⟨⟨_, rfl, eq_ok_of_toOption (by decide +kernel)⟩, rfl, hcompile⟩
    obtain ⟨check, rfl, hok, -⟩ :=
      check_foretells_redact ⟨jdoeForm, some "/rules.yaml"⟩ loginWorkspace false ""
    obtain ⟨rules, identity, compiled', hforetold, hresults, hlength, hlisted⟩ :=
      hok (exitCode_check hlogin (fun _ _ => rfl) false "")
    obtain ⟨rfl, rfl, rfl⟩ := hlogin.unique hforetold.accepted
    refine ⟨_, _, _, _, rfl, hlogin, hlisted, ?_⟩
    have hsources : ((Rule.compileAll jdoe.mapping [.username "plain-username"]).toOption.map
        fun compiled => compiled.map (·.detect.source)) = some (["jdoe"] : List Text) := by
      decide +kernel
    rw [hcompile] at hsources
    rw [hresults, listedDetections_listRules hlength]
    exact Option.some.inj hsources
  · obtain ⟨check, rfl, -, -, hrejected⟩ :=
      check_foretells_redact ⟨{ jdoeForm with username := .text "" }, some "/rules.yaml"⟩
        loginWorkspace false ""
    have herror : ((Invocation.execute ⟨false, .check ⟨{ jdoeForm with username := .text "" },
        some "/rules.yaml"⟩⟩ "" loginWorkspace).error.map CommandError.isRejection) =
          some true := by decide +kernel
    refine hrejected (by decide +kernel) (fun complaint houtput => ?_) _ _ _ _ _
    rw [houtput] at herror
    cases herror

end Sample

end LogRedaction.CommandLine
