/-
LogRedaction.Proofs.TempCopy — what becomes of the temporary copy of a file.

A copy gets its name when the file has been opened, and the name takes one token
(`nextToken_copyFile`). After that the copy is refused or made, however the copying ends.
`TempCourse` lists the cases; `copyFile_temp` says that there are no others. Unlike `CopyCourse` it
asks nothing of the rules or of the report, and says nothing of what they do.
-/
import LogRedaction.Proofs.Copying

namespace LogRedaction

variable [Host]

open Text

/-- The path of the temporary copy of a file that is to be copied, if it can be opened. -/
def Workspace.temp? (w : Workspace) (source : Path) : Option Path :=
  if w.report.Takes ⟨.start, w.disk.label source⟩ ∧ source.fault? = none then
    match w.disk.read source with
    | .ok _ => some (tempPath (w.tokenAt w.nextToken) source)
    | .error _ => none
  else none

omit [Host] in
theorem Workspace.temp?_eq_some_iff {w : Workspace} {source temp : Path} :
    w.temp? source = some temp ↔
      (w.report.Takes ⟨.start, w.disk.label source⟩ ∧ source.fault? = none) ∧
      (∃ content, w.disk.read source = .ok content) ∧
        temp = tempPath (w.tokenAt w.nextToken) source := by
  rw [temp?]
  split
  · rename_i hopen
    cases w.disk.read source with
    | error e => simp
    | ok content => simp [hopen, eq_comm]
  · rename_i hclosed
    simp [hclosed]

/-- What copying a file comes to for its temporary copy: the result, and the workspace that is left.
Nothing is asked of the rules or of the report. -/
inductive TempCourse (source : Path) (w : Workspace) :
    Except FileError FileCopy → Workspace → Prop where
  /-- The file has not been opened. -/
  | unopened {e : FileError} {report : Report} {log : List Event} : w.temp? source = none →
      (∀ failure, e = .failure failure → failure.temp = none) →
      TempCourse source w (.error e) { w with report, log }
  /-- The copy cannot be made. -/
  | refused {temp : Path} {bytes : List UInt8} {refusal : DiskRefusal} {report : Report}
      {log : List Event} : w.temp? source = some temp →
      w.disk.create temp bytes = .error refusal →
      TempCourse source w
        (.error (.failure ⟨source, some temp, .disk ⟨refusal, temp.toText, none⟩⟩))
        { w with report, log, nextToken := w.nextToken + 1 }
  /-- The copy is made, but not to its end. -/
  | unfinished {temp : Path} {bytes : List UInt8} {created : Disk} {e : FileError}
      {report : Report} {log : List Event} : w.temp? source = some temp →
      w.disk.create temp bytes = .ok created →
      (∀ failure, e = .failure failure →
        failure.temp = some temp ∧ ∀ e, failure.cause ≠ .disk e) →
      TempCourse source w (.error e)
        { w with disk := created, report, log, nextToken := w.nextToken + 1 }
  /-- The copy is complete. -/
  | completed {temp : Path} {bytes : List UInt8} {created disk : Disk} {copy : FileCopy}
      {report : Report} {log : List Event} : w.temp? source = some temp →
      w.disk.create temp bytes = .ok created → Disk.Written w.report.serial? created disk →
      copy.temp = some temp →
      TempCourse source w (.ok copy) { w with disk, report, log, nextToken := w.nextToken + 1 }

theorem copyFile_temp (job : Job) (source : Path) (w : Workspace) :
    TempCourse source w ((copyFile job source).run w).1 ((copyFile job source).run w).2 := by
  rw [run_copyFile]
  cases hstart : w.report.fault? ⟨.start, w.disk.label source⟩ with
  | some fault =>
      rw [Report.add?_eq_error_iff.mpr hstart]
      exact .unopened (by simp [Workspace.temp?, Report.Takes, hstart]) (by rintro failure ⟨⟩)
  | none =>
    obtain ⟨started, hadd, hstarted⟩ := Report.add?_unfinished hstart (by simp)
    rw [hadd]
    simp only
    rcases hsound : source.fault? with _ | (e | _)
    · simp only
      cases hread : w.disk.read source with
      | error e =>
          refine .unopened (by simp [Workspace.temp?, hread]) ?_
          rintro failure ⟨⟩
          rfl
      | ok content =>
          have htemp : w.temp? source = some (tempPath (w.tokenAt w.nextToken) source) :=
            Workspace.temp?_eq_some_iff.mpr ⟨⟨hstart, hsound⟩, ⟨content, hread⟩, rfl⟩
          obtain ⟨noted, -, hnoted, halike⟩ :=
            exists_noted job (w.disk.label source) (readLines content).1 started
          simp only [run_copyLines]
          generalize courseFrom job started (w.disk.label source) 1 (readLines content).1 = course
            at *
          cases hcreate : w.disk.create (tempPath (w.tokenAt w.nextToken) source)
            (encodeUtf8 course.text) with
          | error e => exact .refused htemp hcreate
          | ok created =>
              simp only [hnoted]
              have hfailure : ∀ (cause : FileFault), (∀ e, cause ≠ .disk e) → ∀ failure,
                  FileError.failure ⟨source, some (tempPath (w.tokenAt w.nextToken) source), cause⟩ =
                    .failure failure →
                  failure.temp = some (tempPath (w.tokenAt w.nextToken) source) ∧
                    ∀ e, failure.cause ≠ .disk e := by
                rintro cause hcause failure ⟨⟩
                exact ⟨rfl, hcause⟩
              rcases course.stop with _ | ⟨hits, e | e | (_ | e)⟩
              · cases (readLines content).2 with
                | some e => exact .unfinished htemp hcreate (hfailure _ (by rintro e ⟨⟩))
                | none =>
                    have htakes : noted.Takes ⟨.start, w.disk.label source⟩ :=
                      (hstarted.trans halike).takes.mpr hstart
                    obtain ⟨last, disk, hfinish, -, hwritten⟩ :=
                      Report.add?_eq_ok (Report.takes_finish htakes) created
                    simp only [hfinish]
                    exact .completed htemp hcreate ((hstarted.trans halike).serial? ▸ hwritten) rfl
              · exact .unfinished htemp hcreate (by rintro failure ⟨⟩)
              · exact .unfinished htemp hcreate (hfailure _ (by rintro e ⟨⟩))
              · exact .unfinished htemp hcreate (by rintro failure ⟨⟩)
              · exact .unfinished htemp hcreate (hfailure _ (by rintro e ⟨⟩))
    · refine .unopened (by simp [Workspace.temp?, hsound]) ?_
      rintro failure ⟨⟩
      rfl
    · exact .unopened (by simp [Workspace.temp?, hsound]) (by rintro failure ⟨⟩)

section Copied

variable {job : Job} {source : Path} {w w' : Workspace}

/-- A token is taken if the copy gets a name, and none otherwise. -/
theorem nextToken_copyFile (job : Job) (source : Path) (w : Workspace) :
    ((copyFile job source).run w).2.nextToken =
      w.nextToken + if (w.temp? source).isSome then 1 else 0 := by
  have hcourse := copyFile_temp job source w
  generalize (copyFile job source).run w = ended at hcourse ⊢
  obtain ⟨result, w'⟩ := ended
  cases hcourse with
  | unopened htemp => simp [htemp]
  | refused htemp => simp [htemp]
  | unfinished htemp => simp [htemp]
  | completed htemp => simp [htemp]

theorem nextToken_of_temp (job : Job) {temp : Path} (h : w.temp? source = some temp) :
    ((copyFile job source).run w).2.nextToken = w.nextToken + 1 := by
  rw [nextToken_copyFile, h]
  rfl

theorem le_nextToken_copyFile (job : Job) (source : Path) (w : Workspace) :
    w.nextToken ≤ ((copyFile job source).run w).2.nextToken := by
  rw [nextToken_copyFile]
  exact Nat.le_add_right ..

/-- The record of a complete copy tells its path. -/
theorem temp_of_copy {copy : FileCopy} (h : (copyFile job source).run w = (.ok copy, w')) :
    copy.temp = w.temp? source := by
  have hcourse := copyFile_temp job source w
  rw [h] at hcourse
  cases hcourse with
  | completed htemp _ _ hcopy => rw [hcopy, htemp]

/-- A failure tells the path of the copy if there is one. -/
theorem temp_of_failure {failure : FileFailure}
    (h : (copyFile job source).run w = (.error (.failure failure), w')) :
    failure.temp = w.temp? source := by
  have hcourse := copyFile_temp job source w
  rw [h] at hcourse
  cases hcourse with
  | unopened htemp hnone => rw [hnone failure rfl, htemp]
  | refused htemp => exact htemp.symm
  | unfinished htemp _ hfailure => rw [(hfailure failure rfl).1, htemp]

end Copied

end LogRedaction
