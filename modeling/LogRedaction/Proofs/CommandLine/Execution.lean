/-
LogRedaction.Proofs.CommandLine.Execution — the steps of the command that redacts files.

Each part of the command is run once and for all: what it does to the desk, and with which error it
ends. `run_redactFiles_eq` puts the parts together, so that what the command does can be followed
from one step to the next without opening the parts again. Two of them can end in many ways: the
copying of the files (`Concluded`), and what is done with the copies (`Finished`). Whatever is to be
known of all ways is read off these; `copyAll_course` sorts those of the copying by what is discarded
in the end. Writing results may fail at any piece, since standard output may not take it; `printed`
says what has been written by then.

When every file can be read, every redacted line has bytes and standard output takes the report,
none of the steps fails (`run_redactFiles`), and what is left is what `redactAll_ok` says: the files
are redacted in place.
-/
import LogRedaction.CommandLine.Execution
import LogRedaction.Proofs.Redaction

namespace LogRedaction.CommandLine

open Text LogRedaction.Action

/-! ## Parts of commands -/

section Parts

variable {ε α : Type} [Host]

omit [Host] in
theorem run_act (wrap : ε → CommandError) (action : Action ε α) (desk : Desk) :
    (Run.act wrap action).run desk = match action.run desk.work with
      | (.ok a, work) => (.ok a, { desk with work })
      | (.error e, work) => (.error (wrap e), { desk with work }) := rfl

theorem run_loadRules {desk : Desk} {patterns : Text} {rules : List Rule}
    (h : Rule.ofFile desk.work.disk patterns = .ok rules) :
    (loadRules (some patterns)).run desk = (.ok rules, desk) := by
  rw [loadRules, run_bind, run_get]
  simp only
  rw [h]
  rfl

/-- What is noted about rules that are prepared. -/
def preparing (mapping : Mapping) (rules : List Rule) : List Event :=
  (Rule.examined mapping rules).map fun rule => .compiling rule.key

theorem run_prepare_eq (identity : Identity) (rules : List Rule) (w : Workspace) :
    (prepare identity rules).run w =
      match Rule.compileAll identity.mapping rules with
      | .error e => (.error (.rule e), { w with log := w.log ++ preparing identity.mapping rules })
      | .ok compiled => (.ok ⟨compiled, identity.mapping, identity.pseudonym⟩,
          { w with log := w.log ++ preparing identity.mapping rules }) := by
  simp only [prepare, run_bind, run_noteAll]
  cases Rule.compileAll identity.mapping rules with
  | error e => rfl
  | ok compiled => rfl

theorem run_openReport_none (desk : Desk) : (openReport none).run desk =
    (.ok ⟨⟩, { desk with work := { desk.work with report := .list [] } }) := rfl

theorem run_openReport_some (text : Text) (desk : Desk) : (openReport (some text)).run desk =
    match FileReport.open? desk.work.disk text true with
    | (.ok f, disk) => (.ok ⟨⟩, { desk with work := { desk.work with disk, report := .file f } })
    | (.error e, disk) =>
      (.error (.report e), { desk with work := { desk.work with disk } }) := by
  rw [openReport, run_bind, run_get]
  simp only
  rcases FileReport.open? desk.work.disk text true with ⟨e | f, disk⟩
  · rfl
  · rfl

/-- What standard output takes of some pieces, and what is said about the first that it does not
take. -/
def printed : List Text → Text × Option Text
  | [] => ("", none)
  | piece :: rest =>
    match Host.outputFault? piece with
    | some complaint => ("", some complaint)
    | none => (piece ++ (printed rest).1, (printed rest).2)

/-- Standard output takes all pieces. -/
def Printable (pieces : List Text) : Prop := ∀ piece ∈ pieces, Host.outputFault? piece = none

theorem printed_of_printable {pieces : List Text} (h : Printable pieces) :
    printed pieces = (Text.join pieces, none) := by
  induction pieces with
  | nil => rw [printed, Text.join_nil]
  | cons piece rest ih =>
      rw [printed, h piece (List.mem_cons_self ..), Text.join_cons,
        ih fun other hother => h other (List.mem_cons_of_mem _ hother)]

theorem printable_of_printed {pieces : List Text} (h : (printed pieces).2 = none) :
    Printable pieces := by
  induction pieces with
  | nil => exact nofun
  | cons piece rest ih =>
      rw [printed] at h
      cases hfault : Host.outputFault? piece with
      | some complaint =>
          rw [hfault] at h
          cases h
      | none =>
          rw [hfault] at h
          exact List.forall_mem_cons.mpr ⟨hfault, ih h⟩

/-- How the writing of results ends. -/
def written : Option Text → Except CommandError Unit
  | none => .ok ⟨⟩
  | some complaint => .error (.output complaint)

theorem run_write (pieces : List Text) (desk : Desk) : (pieces.forM Run.write).run desk =
    (written (printed pieces).2, { desk with results := desk.results ++ (printed pieces).1 }) := by
  induction pieces generalizing desk with
  | nil =>
      rw [printed, Text.append_empty]
      rfl
  | cons piece rest ih =>
      rw [List.forM_eq_forM, List.forM_cons, run_bind, Run.write, printed]
      cases hfault : Host.outputFault? piece with
      | some complaint =>
          rw [Text.append_empty]
          rfl
      | none =>
          rw [run_modify]
          refine (ih _).trans ?_
          rw [Text.append_assoc]

/-- The lines of a report as they are written. -/
def reportPieces (records : List Record) : List Text := (reportLines records).map (· ++ "\n")

/-- The report as it is written. -/
def reportText (records : List Record) : Text := Text.join (reportPieces records)

/-- What comes of writing a report out; one in a file is not written out. -/
def reportOutput : Report → Text × Option Text
  | .list records => printed (reportPieces records)
  | .file _ => ("", none)

/-- The desk when a report in memory has been written. -/
def Desk.reported (desk : Desk) : Desk :=
  { desk with results := desk.results ++ (reportOutput desk.work.report).1 }

theorem run_writeReport (desk : Desk) :
    writeReport.run desk = (written (reportOutput desk.work.report).2, desk.reported) := by
  rw [writeReport, run_bind, run_get, Desk.reported]
  rcases hreport : desk.work.report with records | f
  · have hpieces : ((reportLines records).forM fun line => Run.write (line ++ "\n")) =
        (reportPieces records).forM Run.write := by
      rw [reportPieces, List.forM_eq_forM, List.forM_map]
    simp only [hreport, hpieces, run_write]
    rfl
  · simp only [hreport, reportOutput, Text.append_empty]
    rfl

/-- The report is written to its end if standard output takes its lines. -/
theorem run_writeReport_list {desk : Desk} {records : List Record}
    (h : desk.work.report = .list records) (hprinted : Printable (reportPieces records)) :
    writeReport.run desk =
      (.ok ⟨⟩, { desk with results := desk.results ++ reportText records }) := by
  rw [run_writeReport, Desk.reported, h, reportOutput, printed_of_printable hprinted]
  rfl

theorem run_writeReport_file {desk : Desk} {f : FileReport} (h : desk.work.report = .file f) :
    writeReport.run desk = (.ok ⟨⟩, desk) := by
  rw [run_writeReport, Desk.reported, h, reportOutput, Text.append_empty]
  rfl

/-- The desk when the report has been closed. -/
def Desk.closed (desk : Desk) : Desk :=
  { desk with work := { desk.work with
      report := (desk.work.report.close desk.work.disk).1
      disk := (desk.work.report.close desk.work.disk).2 } }

omit [Host] in
/-- Nothing is done to close a report in memory. -/
theorem Desk.closed_list {desk : Desk} {records : List Record}
    (h : desk.work.report = .list records) : desk.closed = desk := by
  rw [closed, h, Report.close, ← h]

/-- How a copy is listed. -/
def copyRemark (copy : FileCopy) : Text :=
  copy.source.toText ++ " -> " ++ (copy.temp.map Path.toText).getD "None" ++ "\n"

omit [Host] in
theorem run_remarkCopies (copies : List FileCopy) (desk : Desk) :
    (remarkCopies copies).run desk =
      (.ok ⟨⟩, { desk with remarks := desk.remarks ++ Text.join (copies.map copyRemark) }) := by
  induction copies generalizing desk with
  | nil =>
      rw [List.map_nil, Text.join_nil, Text.append_empty]
      rfl
  | cons copy copies ih =>
      rw [remarkCopies, List.forM_eq_forM, List.forM_cons, run_bind, Run.remark, run_modify]
      refine (ih _).trans ?_
      simp [copyRemark, Text.append_assoc]

/-- The copying of files, with what is done when it has ended. -/
def conclude (copying : Action RunError (List FileCopy)) : Run (List FileCopy) := fun desk =>
  match Run.act .run copying desk with
  | (.ok files, desk) =>
    let (_, desk) := closeReport.run desk
    (.ok files, desk)
  | (.error (.run (.file failure completed)), desk) =>
    let cleanUp : Run Unit := do
      let _ ← Run.act .discard (discardCopy (failure.temp.map Path.toText))
      writeReport
      remarkCopies completed
    let (result, desk) := cleanUp.run desk
    let (_, desk) := closeReport.run desk
    match result with
    | .error e => (.error e, desk)
    | .ok _ => (.error (.run (.file failure completed)), desk)
  | (.error e, desk) =>
    let (_, desk) := closeReport.run desk
    (.error e, desk)

/-- After a failure the unfinished copy is discarded and the complete ones are listed, unless
standard output does not take the report. -/
theorem run_conclude (copying : Action RunError (List FileCopy)) (desk : Desk) :
    (conclude copying).run desk =
      match copying.run desk.work with
      | (.ok copies, work) => (.ok copies, Desk.closed { desk with work })
      | (.error (.file failure completed), work) =>
        match (discardCopy (failure.temp.map Path.toText)).run work with
        | (.error e, work) => (.error (.discard e), Desk.closed { desk with work })
        | (.ok _, work) =>
          match (reportOutput work.report).2 with
          | some complaint =>
            (.error (.output complaint), Desk.closed (Desk.reported { desk with work }))
          | none =>
            (.error (.run (.file failure completed)),
              Desk.closed { Desk.reported { desk with work } with
                remarks := desk.remarks ++ Text.join (completed.map copyRemark) })
      | (.error e, work) => (.error (.run e), Desk.closed { desk with work }) := by
  have hclose : ∀ desk, closeReport.run desk = (.ok ⟨⟩, desk.closed) := fun _ => rfl
  rw [ExceptT.run, conclude, Run.act]
  rcases copying.run desk.work with ⟨e | copies, work⟩
  · cases e with
    | file failure completed =>
        simp only [run_bind, run_act]
        rcases (discardCopy (failure.temp.map Path.toText)).run work with ⟨e | found, work⟩
        · rfl
        · simp only [run_writeReport]
          cases (reportOutput work.report).2 with
          | some complaint => rfl
          | none => simp only [written, run_remarkCopies, hclose, Desk.reported]
    | _ => rfl
  · rfl

/-- What the copying of files comes to, with what is done when it has ended. -/
inductive Concluded (copying : Action RunError (List FileCopy)) (desk : Desk) :
    Except CommandError (List FileCopy) → Desk → Prop where
  | copied {copies : List FileCopy} {work : Workspace} :
      copying.run desk.work = (.ok copies, work) →
      Concluded copying desk (.ok copies) (Desk.closed { desk with work })
  /-- It has failed, but not at a file. -/
  | failed {e : RunError} {work : Workspace} : copying.run desk.work = (.error e, work) →
      (∀ failure completed, e ≠ .file failure completed) →
      Concluded copying desk (.error (.run e)) (Desk.closed { desk with work })
  /-- It has failed at a file, and what has the name of the copy cannot be discarded. -/
  | undiscarded {failure : FileFailure} {completed : List FileCopy} {e : DiscardError}
      {work work' : Workspace} :
      copying.run desk.work = (.error (.file failure completed), work) →
      (discardCopy (failure.temp.map Path.toText)).run work = (.error e, work') →
      Concluded copying desk (.error (.discard e)) (Desk.closed { desk with work := work' })
  /-- It has failed at a file, and standard output does not take the report. -/
  | unprinted {failure : FileFailure} {completed : List FileCopy} {found : Bool} {complaint : Text}
      {work work' : Workspace} :
      copying.run desk.work = (.error (.file failure completed), work) →
      (discardCopy (failure.temp.map Path.toText)).run work = (.ok found, work') →
      (reportOutput work'.report).2 = some complaint →
      Concluded copying desk (.error (.output complaint))
        (Desk.closed (Desk.reported { desk with work := work' }))
  /-- It has failed at a file, and the complete copies have been listed. -/
  | listed {failure : FileFailure} {completed : List FileCopy} {found : Bool}
      {work work' : Workspace} :
      copying.run desk.work = (.error (.file failure completed), work) →
      (discardCopy (failure.temp.map Path.toText)).run work = (.ok found, work') →
      (reportOutput work'.report).2 = none →
      Concluded copying desk (.error (.run (.file failure completed)))
        (Desk.closed { Desk.reported { desk with work := work' } with
          remarks := desk.remarks ++ Text.join (completed.map copyRemark) })

theorem concluded {copying : Action RunError (List FileCopy)} {desk desk' : Desk}
    {result : Except CommandError (List FileCopy)}
    (hrun : (conclude copying).run desk = (result, desk')) :
    Concluded copying desk result desk' := by
  rw [run_conclude] at hrun
  rcases hcopy : copying.run desk.work with ⟨e | copies, work⟩
  · rw [hcopy] at hrun
    cases e with
    | file failure completed =>
        simp only at hrun
        rcases hdiscard : (discardCopy (failure.temp.map Path.toText)).run work with
          ⟨e | found, work'⟩
        · rw [hdiscard] at hrun
          obtain ⟨rfl, rfl⟩ := Prod.mk.inj hrun
          exact .undiscarded hcopy hdiscard
        rw [hdiscard] at hrun
        simp only at hrun
        cases hfault : (reportOutput work'.report).2 with
        | some complaint =>
            rw [hfault] at hrun
            obtain ⟨rfl, rfl⟩ := Prod.mk.inj hrun
            exact .unprinted hcopy hdiscard hfault
        | none =>
            rw [hfault] at hrun
            obtain ⟨rfl, rfl⟩ := Prod.mk.inj hrun
            exact .listed hcopy hdiscard hfault
    | _ =>
        obtain ⟨rfl, rfl⟩ := Prod.mk.inj hrun
        exact .failed hcopy (by simp)
  · rw [hcopy] at hrun
    obtain ⟨rfl, rfl⟩ := Prod.mk.inj hrun
    exact .copied hcopy

/-- What is done after a failure does not make up for it. -/
theorem conclude_fails {copying : Action RunError (List FileCopy)} {desk : Desk} {e : RunError}
    {w : Workspace} (hcopy : copying.run desk.work = (.error e, w)) :
    ∃ err desk', (conclude copying).run desk = (.error err, desk') := by
  rcases hrun : (conclude copying).run desk with ⟨err | copies, desk'⟩
  · exact ⟨err, desk', rfl⟩
  · cases concluded hrun with
    | copied hcopied => cases hcopy.symm.trans hcopied

theorem copyAll_eq_conclude (form : IdentityForm) (rules : List Rule) (files : List Path) :
    copyAll form rules files = conclude (copyFiles form rules files) := rfl

/-- The error after a failure at a file: the failure itself, unless standard output does not take a
report that is written out then. -/
def FailsWith (report : Report) (failure : FileFailure) (completed : List FileCopy)
    (e : CommandError) : Prop :=
  e = .run (.file failure completed) ∨
    report.serial? = none ∧ ∃ complaint, e = .output complaint

/-- What is not written out cannot be refused. -/
theorem serial?_of_output {report : Report} {complaint : Text}
    (h : (reportOutput report).2 = some complaint) : report.serial? = none := by
  cases report with
  | list records => rfl
  | file f => cases h

/-- What the part of the command comes to that copies the files. -/
inductive CopyingCourse (form : IdentityForm) (rules : List Rule) (files : List Path)
    (desk : Desk) : Except CommandError (List FileCopy) → Desk → Prop where
  | copied {copies : List FileCopy} {work : Workspace} :
      (copyFiles form rules files).run desk.work = (.ok copies, work) →
      CopyingCourse form rules files desk (.ok copies) (Desk.closed { desk with work })
  | failed {e : RunError} {e' : CommandError} {work : Workspace} {log : List Event}
      {results remarks : Text} :
      (copyFiles form rules files).run desk.work = (.error e, work) →
      CopyingCourse form rules files desk (.error e')
        (Desk.closed { desk with work := { work with log }, results, remarks })
  /-- The copying has failed at a file, and what has the name of its copy has been discarded. -/
  | discarded {failure : FileFailure} {completed : List FileCopy} {e' : CommandError}
      {work : Workspace} {temp : Path} {location : Location} {serial : Nat} {content : List UInt8}
      {log : List Event} {results remarks : Text} :
      (copyFiles form rules files).run desk.work = (.error (.file failure completed), work) →
      failure.temp = some temp → work.disk.Names (Path.ofText temp.toText) location →
      work.disk.get? location = some (.file serial content) →
      FailsWith work.report failure completed e' →
      CopyingCourse form rules files desk (.error e')
        (Desk.closed { desk with
          work := { work with disk := work.disk.erase location, log }, results, remarks })

theorem copyAll_course (form : IdentityForm) (rules : List Rule) (files : List Path)
    (desk : Desk) : CopyingCourse form rules files desk
      ((copyAll form rules files).run desk).1 ((copyAll form rules files).run desk).2 := by
  rw [copyAll_eq_conclude]
  rcases hrun : (conclude (copyFiles form rules files)).run desk with ⟨result, desk'⟩
  cases concluded hrun with
  | copied hcopy => exact .copied hcopy
  | failed hcopy => exact .failed hcopy
  | undiscarded hcopy hdiscard =>
      rcases discardCopy_cases hdiscard with ⟨log, rfl⟩ | ⟨_, _, _, _, _, hfound, -⟩
      · exact .failed hcopy
      · cases hfound
  | unprinted hcopy hdiscard hfault =>
      rcases discardCopy_cases hdiscard with ⟨log, rfl⟩ |
        ⟨given, location, serial, content, log, -, hgiven, hnames, hfile, rfl⟩
      · exact .failed hcopy
      · obtain ⟨temp, htemp, rfl⟩ := Option.map_eq_some_iff.mp hgiven
        exact .discarded hcopy htemp hnames hfile (.inr ⟨serial?_of_output hfault, _, rfl⟩)
  | listed hcopy hdiscard =>
      rcases discardCopy_cases hdiscard with ⟨log, rfl⟩ |
        ⟨given, location, serial, content, log, -, hgiven, hnames, hfile, rfl⟩
      · exact .failed hcopy
      · obtain ⟨temp, htemp, rfl⟩ := Option.map_eq_some_iff.mp hgiven
        exact .discarded hcopy htemp hnames hfile (.inl rfl)

/-- What is done when files have been copied. -/
def finish (keepTemp : Bool) (copies : List FileCopy) : Run Unit := do
  writeReport
  if keepTemp then remarkCopies copies
  else
    let _ ← Run.act .placement (putAllInPlace copies)

/-- What is done comes to this when files have been copied. -/
inductive Finished (keepTemp : Bool) (copies : List FileCopy) (desk : Desk) :
    Except CommandError Unit → Desk → Prop where
  /-- Standard output does not take the report. -/
  | unprinted {complaint : Text} : (reportOutput desk.work.report).2 = some complaint →
      Finished keepTemp copies desk (.error (.output complaint)) desk.reported
  /-- The copies are kept, and listed. -/
  | listed : (reportOutput desk.work.report).2 = none → keepTemp = true →
      Finished keepTemp copies desk (.ok ⟨⟩)
        { desk.reported with remarks := desk.remarks ++ Text.join (copies.map copyRemark) }
  /-- One of the copies cannot be put in place. -/
  | misplaced {e : PlacementError} {work : Workspace} :
      (reportOutput desk.work.report).2 = none → keepTemp = false →
      (putAllInPlace copies).run desk.work = (.error e, work) →
      Finished keepTemp copies desk (.error (.placement e)) { desk.reported with work }
  | placed {paths : List Path} {work : Workspace} : (reportOutput desk.work.report).2 = none →
      keepTemp = false → (putAllInPlace copies).run desk.work = (.ok paths, work) →
      Finished keepTemp copies desk (.ok ⟨⟩) { desk.reported with work }

theorem finished {keepTemp : Bool} {copies : List FileCopy} {desk desk' : Desk}
    {result : Except CommandError Unit}
    (hrun : (finish keepTemp copies).run desk = (result, desk')) :
    Finished keepTemp copies desk result desk' := by
  rw [finish, run_bind, run_writeReport] at hrun
  cases hfault : (reportOutput desk.work.report).2 with
  | some complaint =>
      rw [hfault] at hrun
      obtain ⟨rfl, rfl⟩ := Prod.mk.inj hrun
      exact .unprinted hfault
  | none =>
  simp only [hfault, written] at hrun
  cases keepTemp with
  | true =>
      simp only [if_true, run_remarkCopies] at hrun
      obtain ⟨rfl, rfl⟩ := Prod.mk.inj hrun
      exact .listed hfault rfl
  | false =>
      have hwork : desk.reported.work = desk.work := rfl
      simp only [Bool.false_eq_true, if_false, run_bind, run_act, hwork] at hrun
      rcases hput : (putAllInPlace copies).run desk.work with ⟨e | paths, work⟩
      · rw [hput] at hrun
        obtain ⟨rfl, rfl⟩ := Prod.mk.inj hrun
        exact .misplaced hfault rfl hput
      · rw [hput] at hrun
        obtain ⟨rfl, rfl⟩ := Prod.mk.inj hrun
        exact .placed hfault rfl hput

/-- The steps of the command, each with the error that ends it there. -/
theorem run_redactFiles_eq (common : Common) (report : Option Text) (keepTemp : Bool)
    (files : List Text) (desk : Desk) : (redactFiles common report keepTemp files).run desk =
      match common.patterns with
      | none => (.error .noPatterns, desk)
      | some patterns =>
        match Rule.ofFile desk.work.disk patterns with
        | .error e => (.error (.rules e), desk)
        | .ok rules =>
          match common.identity.check with
          | .error e => (.error (.run (.identity e)), desk)
          | .ok identity =>
            let desk := { desk with work :=
              { desk.work with log := desk.work.log ++ preparing identity.mapping rules } }
            match Rule.compileAll identity.mapping rules with
            | .error e => (.error (.run (.rule e)), desk)
            | .ok _ =>
              match (openReport report).run desk with
              | (.error e, desk) => (.error e, desk)
              | (.ok _, desk) =>
                match (copyAll common.identity rules (files.map Path.ofText)).run desk with
                | (.error e, desk) => (.error e, desk)
                | (.ok copies, desk) => (finish keepTemp copies).run desk := by
  rw [redactFiles]
  cases common.patterns with
  | none => rfl
  | some patterns =>
  cases hrules : Rule.ofFile desk.work.disk patterns with
  | error e =>
      rw [run_bind, loadRules, run_bind, run_get]
      simp only [hrules]
      rfl
  | ok rules =>
  simp only [run_bind, run_loadRules hrules, hrules]
  cases common.identity.check with
  | error e => rfl
  | ok identity =>
  simp only [Run.get, run_pure, run_act, run_prepare_eq]
  cases Rule.compileAll identity.mapping rules with
  | error e => rfl
  | ok compiled =>
  simp only [finish, run_bind]
  rcases (openReport report).run _ with ⟨e | opened, desk₁⟩
  · rfl
  simp only
  rcases (copyAll common.identity rules (files.map Path.ofText)).run desk₁ with
    ⟨e | copies, desk₂⟩
  · rfl
  · rfl

/-! ## Redacting in place -/

/-- The steps of the command when none of them fails. -/
theorem run_redactFiles {common : Common} {patterns : Text} {rules : List Rule}
    {identity : Identity} {compiled : List CompiledRule} (files : List Text) {desk : Desk}
    (hpatterns : common.patterns = some patterns)
    (hrules : Rule.ofFile desk.work.disk patterns = .ok rules)
    (hcheck : common.identity.check = .ok identity)
    (hcompile : Rule.compileAll identity.mapping rules = .ok compiled) :
    ∃ log, ∀ copies w₁ records paths w₂,
      (copyEach ⟨compiled, identity.mapping, identity.pseudonym⟩ [] (files.map Path.ofText)).run
        { desk.work with report := .list [], log } = (.ok copies, w₁) →
      w₁.report = .list records → Printable (reportPieces records) →
      (putAllInPlace copies).run w₁ = (.ok paths, w₂) →
      (redactFiles common none false files).run desk =
        (.ok ⟨⟩, { desk with work := w₂, results := desk.results ++ reportText records }) := by
  obtain ⟨log, hfiles⟩ := run_copyFiles_ok hcheck hcompile (files.map Path.ofText)
    { desk.work with report := .list [], log := desk.work.log ++ preparing identity.mapping rules }
  refine ⟨log, ?_⟩
  intro copies w₁ records paths w₂ hcopy hreport hprinted hput
  rw [run_redactFiles_eq, hpatterns]
  simp only [hrules, hcheck, hcompile, run_openReport_none, copyAll_eq_conclude, run_conclude,
    hfiles.trans hcopy]
  rw [Desk.closed_list hreport, finish, run_bind, run_writeReport_list hreport hprinted]
  simp only [Bool.false_eq_true, if_false, run_bind, run_act, hput, run_pure]

theorem execute_eq {common : Common} {report : Option Text} {keepTemp : Bool}
    {files : List Text} {work : Workspace} {desk : Desk} (verbose : Bool) (stamp : Text)
    (h : (redactFiles common report keepTemp files).run
      { work := { work with log := [], report := .list [] } } = (.ok ⟨⟩, desk)) :
    ∃ remarks, Invocation.execute ⟨verbose, .redact common report keepTemp files⟩ stamp work =
      { results := desk.results, remarks, error := none, work := desk.work } := by
  rw [Invocation.execute]
  simp only [Command.execute, h]
  exact ⟨_, rfl⟩

/-- If every redacted line has bytes and standard output takes the report, the command redacts every
listed file in place, once, from what it held before; it leaves no temporary copy, touches nothing
else, and writes the report of the whole run. -/
theorem redact_in_place {common : Common} {patterns : Text} {rules : List Rule}
    {identity : Identity} {compiled : List CompiledRule} {files : List Text}
    {text : Path → List Char} {work : Workspace} (verbose : Bool) (stamp : Text)
    (hpatterns : common.patterns = some patterns)
    (hrules : Rule.ofFile work.disk patterns = .ok rules)
    (hcheck : common.identity.check = .ok identity)
    (hcompile : Rule.compileAll identity.mapping rules = .ok compiled)
    (hfiles : ∀ file ∈ files.map Path.ofText, file.fault? = none ∧
      work.disk.read file = .ok (encodeUtf8 (text file)))
    (hfree : ∀ temp ∈ tempPaths work.clock work.nextToken (files.map Path.ofText),
      work.disk.Free temp) :
    ∃ outcomes : Path → List RedactedLine,
      (∀ file ∈ files.map Path.ofText, ∃ ls, LinesOf (text file) ls ∧
        LineByLine ⟨compiled, identity.mapping, identity.pseudonym⟩ (work.disk.label file) 1 ls
          (outcomes file)) ∧
      ((∀ file ∈ files.map Path.ofText, ∀ outcome ∈ outcomes file, outcome.text.Writable) →
        Printable (reportPieces (runRecords work.disk outcomes (files.map Path.ofText))) →
        ∃ outcome : Outcome,
          Invocation.execute ⟨verbose, .redact common none false files⟩ stamp work = outcome ∧
          outcome.error.isNone ∧ outcome.exitCode = 0 ∧
          (∀ file ∈ files.map Path.ofText,
            outcome.work.disk.read file = .ok (encodeUtf8 (writtenText (outcomes file)))) ∧
          (∀ temp ∈ tempPaths work.clock work.nextToken (files.map Path.ofText),
            outcome.work.disk.Free temp) ∧
          (∀ location, (∀ file ∈ files.map Path.ofText, ¬work.disk.Names file location) →
            outcome.work.disk.get? location = work.disk.get? location) ∧
          outcome.results = Text.join ((reportLines ((files.map Path.ofText).flatMap fun file =>
            ⟨.start, work.disk.label file⟩ ::
              (allEntries (outcomes file)).map (fun entry => ⟨.entry, entry.format⟩) ++
                [⟨.finish, work.disk.label file⟩])).map (· ++ "\n"))) := by
  have hjob : Job.Ready ⟨compiled, identity.mapping, identity.pseudonym⟩ :=
    Rule.ready_of_compileAll hcompile
  refine ⟨Job.fileOutcomes ⟨compiled, identity.mapping, identity.pseudonym⟩ work.disk text,
    fun file _ => ⟨lines (text file), linesOf_iff.mpr rfl, (lineByLine_iff hjob).mpr rfl⟩,
    fun hwritable hprinted => ?_⟩
  obtain ⟨log, hsteps⟩ := @run_redactFiles _ common patterns rules identity compiled files
    { work := { work with log := [], report := .list [] } } hpatterns hrules hcheck hcompile
  obtain ⟨copies, w₁, paths, w₂, hcopy, hreport, hput, hread, hgone, helsewhere⟩ :=
    redactAll_ok hjob (w := { work with report := .list [], log }) rfl
      (fun file hfile => ⟨hwritable file hfile, fun _ _ => rfl⟩) hfiles hfree
  rw [List.nil_append] at hreport
  obtain ⟨remarks, hexecute⟩ :=
    execute_eq verbose stamp (hsteps copies w₁ _ paths w₂ hcopy hreport hprinted hput)
  refine ⟨_, hexecute, rfl, rfl, hread, hgone, helsewhere, ?_⟩
  simp only [Text.empty_append]
  rfl

end Parts

/-- The login directory, with rules whose key is half of a surrogate pair. -/
def oddKeyWorkspace : Workspace :=
  { loginWorkspace with disk :=
    { loginWorkspace.disk with entries := [(["a.log"], .file 0 (encodeUtf8 loginText)),
      (["rules.yaml"], .file 1 (encodeUtf8 ("patterns:\n- key: \"\\ud800\"\n" ++
        "  detect: $\x7busername\x7d\n  replace: $\x7busername\x7d\n").toList))] } }

/-- A host whose standard output takes only what has bytes. -/
@[reducible] def strictHost : Host :=
  { sampleHost with outputFault? := fun text =>
      (Text.encodeError? text.toList).map Text.EncodeError.message }

section Sample

attribute [local instance] sampleHost

/-- Two commands that have all that they need, and fail. The pseudonym of the first has no bytes, so
neither has the redacted line. The second has a rule whose key has none, and a standard output that
takes only what has bytes. -/
theorem redact_unencodable :
    (unwritableForm.check = .ok unwritable ∧
      Rule.ofFile loginWorkspace.disk "/rules.yaml" = .ok [.username "plain-username"] ∧
      (∃ compiled, Rule.compileAll unwritable.mapping [.username "plain-username"] = .ok compiled) ∧
      loginWorkspace.disk.read loginLog = .ok (encodeUtf8 loginText) ∧
      loginWorkspace.disk.Free (tempPath ⟨7, 0⟩ loginLog) ∧
      (Invocation.execute ⟨false, .redact ⟨unwritableForm, some "/rules.yaml"⟩ none false
        ["/a.log"]⟩ "" loginWorkspace).exitCode = 1) ∧
    (@Rule.ofFile strictHost oddKeyWorkspace.disk "/rules.yaml" =
        .ok [.username (Text.ofList [.surrogate 0])] ∧
      ∃ outcome, @Invocation.execute strictHost ⟨false, .redact ⟨jdoeForm, some "/rules.yaml"⟩ none
          false ["/a.log"]⟩ "" oddKeyWorkspace = outcome ∧
        outcome.error.map CommandError.isReported = some false ∧
        outcome.work.disk.read loginLog = .ok (encodeUtf8 loginText)) := by
  have hcompile : (Rule.compileAll unwritable.mapping
      [.username "plain-username"]).toOption.isSome := by decide +kernel
  obtain ⟨compiled, hcompiled⟩ := Option.isSome_iff_exists.mp hcompile
  refine ⟨⟨rfl, eq_ok_of_toOption (by decide +kernel), ⟨compiled, eq_ok_of_toOption hcompiled⟩,
    by decide +kernel, by decide +kernel, by decide +kernel⟩,
    eq_ok_of_toOption (by decide +kernel), _, rfl, by decide +kernel, by decide +kernel⟩

theorem redact_login : ∃ compiled outcomes outcome,
    Rule.compileAll jdoe.mapping [.username "plain-username"] = .ok compiled ∧
    Invocation.execute ⟨false, .redact ⟨jdoeForm, some "/rules.yaml"⟩ none false
      ["/a.log", "a.log"]⟩ "" loginWorkspace = outcome ∧
    outcome.exitCode = 0 ∧
    LineByLine ⟨compiled, jdoe.mapping, jdoe.pseudonym⟩ "/a.log" 1
      ["User jdoe logged in".toList, "bye".toList] outcomes ∧
    outcome.work.disk.read loginLog = .ok (encodeUtf8 (writtenText outcomes)) := by
  obtain ⟨compiled, hcompile⟩ := Rule.compileAll_jdoe
  obtain ⟨outcomes, hlines, hredact⟩ :=
    @redact_in_place _ ⟨jdoeForm, some "/rules.yaml"⟩ _ [.username "plain-username"] jdoe compiled
      ["/a.log", "a.log"] (fun _ => loginText) loginWorkspace false "" rfl
      (eq_ok_of_toOption (by decide +kernel)) rfl hcompile (by decide +kernel) (by decide +kernel)
  have hjob : Job.Ready ⟨compiled, jdoe.mapping, jdoe.pseudonym⟩ :=
    Rule.ready_of_compileAll hcompile
  obtain ⟨outcome, hexecute, -, hcode, hread, -⟩ := hredact (fun file hfile => by
    obtain ⟨ls, -, hlines⟩ := hlines file hfile
    rw [(lineByLine_iff hjob).mp hlines]
    exact (canWrite_list (show jdoe.pseudonym.Writable by decide +kernel) [] _ _ _).lines)
    fun _ _ => rfl
  obtain ⟨ls, hls, hlines⟩ := hlines loginLog (by decide +kernel)
  obtain rfl : ["User jdoe logged in".toList, "bye".toList] = ls :=
    (show lines loginText = _ by decide +kernel).symm.trans (linesOf_iff.mp hls)
  exact ⟨compiled, outcomes loginLog, outcome, hcompile, hexecute, hcode, hlines,
    hread loginLog (by decide +kernel)⟩

end Sample

end LogRedaction.CommandLine
