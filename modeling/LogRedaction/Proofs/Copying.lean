/-
LogRedaction.Proofs.Copying — what copying a file comes to.

`CopyCourse` lists all the ways in which the copying of a file can end, each with what it has done
to the workspace by then. `copyFile_course` says that there are no others when the rules are ready
and the report is open; later proofs look at these five cases and never at the steps. That the
copy of a text is complete, and what its record and the report say of it, is
`copyFile_redacts_line_by_line`.

The name of a temporary copy tells the token and the name that it was made from (`tempName_inj`).
Numbers of tokens are used once, so no two copies have the same name.

## §1 Names of temporary copies
## §2 Running the steps
## §3 All that can happen to a file
## §4 Complete copies
-/
import LogRedaction.Proofs.Course
import LogRedaction.Proofs.Disk.Fault
import LogRedaction.Proofs.Workspace
import LogRedaction.Proofs.Text.Lines
import LogRedaction.Proofs.Disk.Operations

namespace LogRedaction

open Text

/-! ## §1 Names of temporary copies -/

/-- A number and what follows its hyphen are found again. -/
theorem eq_of_digits {a b : List Char} {x y : List CodePoint} (ha : ∀ c ∈ a, c.isDigit)
    (hb : ∀ c ∈ b, c.isDigit)
    (h : a.map .scalar ++ .scalar '-' :: x = b.map .scalar ++ .scalar '-' :: y) :
    a = b ∧ x = y := by
  induction a generalizing b with
  | nil =>
      cases b with
      | nil => simpa using h
      | cons c b =>
          have hc : c.isDigit := hb c (by simp)
          obtain ⟨rfl, -⟩ : '-' = c ∧ x = b.map .scalar ++ .scalar '-' :: y := by simpa using h
          exact absurd hc (by decide)
  | cons c a ih =>
      have hc : c.isDigit := ha c (by simp)
      cases b with
      | nil =>
          obtain ⟨rfl, -⟩ : c = '-' ∧ a.map .scalar ++ .scalar '-' :: x = y := by simpa using h
          exact absurd hc (by decide)
      | cons d b =>
          obtain ⟨rfl, hmore⟩ : c = d ∧
              a.map .scalar ++ .scalar '-' :: x = b.map .scalar ++ .scalar '-' :: y := by
            simpa using h
          obtain ⟨rfl, rfl⟩ :=
            ih (fun e he => ha e (by simp [he])) (fun e he => hb e (by simp [he])) hmore
          exact ⟨rfl, rfl⟩

theorem isDigit_of_mem (n : Nat) : ∀ c ∈ Nat.toDigits 10 n, c.isDigit :=
  fun _ hc => Nat.isDigit_of_mem_toDigits (by omega) (by omega) hc

theorem eq_of_toDigits {m n : Nat} (h : Nat.toDigits 10 m = Nat.toDigits 10 n) : m = n := by
  rw [← Nat.ofDigitChars_ten_toDigits (n := m), h, Nat.ofDigitChars_ten_toDigits]

theorem eq_of_numeral {m n : Nat} {x y : List CodePoint}
    (h : (Nat.toDigits 10 m).map .scalar ++ .scalar '-' :: x =
      (Nat.toDigits 10 n).map .scalar ++ .scalar '-' :: y) : m = n ∧ x = y := by
  obtain ⟨hdigits, hrest⟩ := eq_of_digits (isDigit_of_mem m) (isDigit_of_mem n) h
  exact ⟨eq_of_toDigits hdigits, hrest⟩

/-- A numeral has no sign. -/
theorem numeral_ne_signed (n : Nat) (x y : List CodePoint) :
    (Nat.toDigits 10 n).map .scalar ++ x ≠ .scalar '-' :: y := by
  intro h
  cases hdigits : Nat.toDigits 10 n with
  | nil => exact Nat.toDigits_ne_nil hdigits
  | cons c rest =>
      have hc : c.isDigit := isDigit_of_mem n c (by simp [hdigits])
      rw [hdigits, List.map_cons, List.cons_append] at h
      rw [CodePoint.scalar.inj (List.cons.inj h).1] at hc
      exact absurd hc (by decide)

/-- A number that may have a sign, and what follows its hyphen, are found again. -/
theorem eq_of_integer {m n : Int} {x y : List CodePoint}
    (h : m.repr.toList.map .scalar ++ .scalar '-' :: x =
      n.repr.toList.map .scalar ++ .scalar '-' :: y) : m = n ∧ x = y := by
  cases m with
  | ofNat m =>
      cases n with
      | ofNat n =>
          obtain ⟨rfl, hrest⟩ := eq_of_numeral (by simpa [Int.repr] using h)
          exact ⟨rfl, hrest⟩
      | negSucc n => exact absurd (by simpa [Int.repr] using h) (numeral_ne_signed m _ _)
  | negSucc m =>
      cases n with
      | ofNat n => exact absurd (by simpa [Int.repr] using h.symm) (numeral_ne_signed n _ _)
      | negSucc n =>
          obtain ⟨hsucc, hrest⟩ := eq_of_numeral (by simpa [Int.repr] using h)
          exact ⟨congrArg Int.negSucc (Nat.succ.inj hsucc), hrest⟩

theorem toList_tempName (token : Token) (name : Text) : (tempName token name).toList =
    tempMark.toList ++ (token.time.repr.toList.map .scalar ++ .scalar '-' ::
      ((Nat.toDigits 10 token.number).map .scalar ++ .scalar '-' :: name.toList)) := by
  simp [tempName, Token.text]

/-- The name of a temporary copy tells the token and the name that it was made from. -/
theorem tempName_inj {s t : Token} {a b : Text} (h : tempName s a = tempName t b) :
    s = t ∧ a = b := by
  have hlist := congrArg Text.toList h
  rw [toList_tempName, toList_tempName] at hlist
  have hmark := List.append_cancel_left hlist
  obtain ⟨htime, hrest⟩ := eq_of_integer hmark
  obtain ⟨hnumber, hname⟩ := eq_of_numeral hrest
  obtain ⟨time, number⟩ := s
  obtain ⟨time', number'⟩ := t
  obtain rfl : time = time' := htime
  obtain rfl : number = number' := hnumber
  exact ⟨rfl, Text.toList_inj.mp hname⟩

theorem not_mem_digits {c : Char} (hc : c.isDigit = false) (n : Nat) : c ∉ Nat.toDigits 10 n := by
  intro h
  simp [isDigit_of_mem n c h] at hc

theorem not_mem_integer {c : Char} (hc : c.isDigit = false) (hsign : c ≠ '-') (n : Int) :
    c ∉ n.repr.toList := by
  cases n with
  | ofNat n => simpa [Int.repr] using not_mem_digits hc n
  | negSucc n => simpa [Int.repr, hsign] using not_mem_digits hc (n + 1)

/-- The characters of a temporary name are those of the mark, of the token and of the name. -/
theorem isSound_tempName {name : Text} (h : Path.IsSound name) (token : Token) :
    Path.IsSound (tempName token name) := by
  intro c hc
  rw [toList_tempName] at hc
  have hchar : ∀ d : Char, d ≠ '\x00' →
      Text.hasNameBytes (.scalar d) = true ∧ CodePoint.scalar d ≠ .scalar '\x00' :=
    fun d hd => ⟨rfl, fun heq => hd (CodePoint.scalar.inj heq)⟩
  have hmark : ∀ c ∈ tempMark.toList, Text.hasNameBytes c = true ∧ c ≠ .scalar '\x00' := by
    simp [tempMark, hchar]
  rcases List.mem_append.mp hc with hc | hc
  · exact hmark c hc
  rcases List.mem_append.mp hc with hc | hc
  · obtain ⟨d, hd, rfl⟩ := List.mem_map.mp hc
    exact hchar d fun hzero => not_mem_integer (by rfl) (by decide) token.time (hzero ▸ hd)
  rcases List.mem_cons.mp hc with rfl | hc
  · exact hchar '-' (by decide)
  rcases List.mem_append.mp hc with hc | hc
  · obtain ⟨d, hd, rfl⟩ := List.mem_map.mp hc
    exact hchar d fun hzero => not_mem_digits (by rfl) token.number (hzero ▸ hd)
  rcases List.mem_cons.mp hc with rfl | hc
  · exact hchar '-' (by decide)
  · exact h c hc

/-- A temporary copy beside a file can be a file too. -/
theorem fault?_tempPath {source : Path} (token : Token) (h : source.fault? = none) :
    (tempPath token source).fault? = none :=
  Path.fault?_sibling h (isSound_tempName (Path.isSound_name h) token)

theorem tempName_ne (token : Token) (name : Text) : tempName token name ≠ name := by
  intro h
  have hlength := congrArg (fun s => s.toList.length) h
  rw [toList_tempName] at hlength
  simp [tempMark] at hlength
  omega

theorem tempName_ne_dots (token : Token) (name : Text) : tempName token name ≠ ".." := by
  intro h
  have hchars := congrArg (fun s => s.toList.head?) h
  rw [toList_tempName] at hchars
  exact absurd hchars (by simp [tempMark])

@[simp] theorem name_tempPath (token : Token) (source : Path) :
    (tempPath token source).name = tempName token source.name := Path.name_sibling ..

/-- The path of a temporary copy tells the directory and the name of its source, and the token. -/
theorem tempPath_eq_iff {s t : Token} {p q : Path} :
    tempPath s p = tempPath t q ↔ p.parent = q.parent ∧ s = t ∧ p.name = q.name := by
  rw [tempPath, tempPath, Path.sibling_eq_iff]
  constructor
  · rintro ⟨hparent, hname⟩
    exact ⟨hparent, tempName_inj hname⟩
  · rintro ⟨hparent, rfl, hname⟩
    exact ⟨hparent, by rw [hname]⟩

theorem tempPath_ne_source (token : Token) (source : Path) : tempPath token source ≠ source := by
  intro h
  have hname := congrArg Path.name h
  rw [name_tempPath] at hname
  exact tempName_ne token source.name hname

/-! ## §2 Running the steps -/

/-- How a file is called in the report. -/
def Disk.label (disk : Disk) (source : Path) : Text :=
  (Path.absolute disk.workingPath source).toText

section Copying

variable [Host]

omit [Host] in
@[simp] theorem run_fail {α : Type} (failure : FileFailure) (w : Workspace) :
    (fail failure : Action FileError α).run w = (.error (.failure failure),
      { w with log := w.log ++ [.failed failure.source.toText failure.cause.message] }) := rfl

open LogRedaction.Action in
theorem run_copyLines (job : Job) (label : Text) (source temp : Path) (content : List UInt8)
    (w : Workspace) : (copyLines job label source temp content).run w =
      let course := courseFrom job w.report label 1 (readLines content).1
      match w.disk.create temp (encodeUtf8 course.text) with
      | .error e => (fail ⟨source, some temp, .disk ⟨e, temp.toText, none⟩⟩).run w
      | .ok disk =>
        let w := { w with disk, log := w.log ++ course.events label }
        match w.report.addEntries? w.disk (course.entries label) with
        | .error fault => (.error (.report fault), w)
        | .ok (report, disk) =>
          let w := { w with report, disk }
          match course.stop, (readLines content).2 with
          | some (_, .rule e), _ => (.error (.line e), w)
          | some (_, .text e), _ => (fail ⟨source, some temp, .unencodable e⟩).run w
          | some (_, .entry (.unencodable e)), _ =>
            (fail ⟨source, some temp, .unencodable e⟩).run w
          | some (_, .entry .closed), _ => (.error (.report .closed), w)
          | none, some e => (fail ⟨source, some temp, .undecodable e⟩).run w
          | none, none => (.ok {
            source
            temp := some temp
            state := .completed
            lines := course.lines.length
            matchedLines := course.matched
            substitutions := course.substitutions }, w) := by
  rw [copyLines, run_bind, run_get]
  simp only [run_bind, run_get]
  change _ = let course := courseFrom job w.report label 1 (readLines content).1; _
  rw [← courseFrom]
  generalize courseFrom job w.report label 1 (readLines content).1 = course
  cases w.disk.create temp (encodeUtf8 course.text) with
  | error e => rfl
  | ok disk =>
    simp only [run_bind, run_modify, run_noteAll, run_reportEntries]
    cases w.report.addEntries? disk (course.entries label) with
    | error fault => rfl
    | ok next =>
      simp only
      rcases course.stop with _ | ⟨hits, e | e | (_ | e)⟩
      · cases (readLines content).2 <;> rfl
      all_goals rfl

open LogRedaction.Action in
theorem run_copyFile (job : Job) (source : Path) (w : Workspace) :
    (copyFile job source).run w =
      match w.report.add? w.disk ⟨.start, w.disk.label source⟩ with
      | .error fault => (.error (.report fault), w)
      | .ok (report, disk) =>
        let label := w.disk.label source
        let temp := tempPath (w.tokenAt w.nextToken) source
        let w := { w with report, disk, log := w.log ++ [.reading source.name] }
        match source.fault? with
        | some .nul => (.error .nulInPath, w)
        | some (.unencodable e) => (fail ⟨source, none, .unencodable e⟩).run w
        | none =>
          match w.disk.read source with
          | .error e => (fail ⟨source, none, .disk ⟨e, source.toText, none⟩⟩).run w
          | .ok content =>
            match (copyLines job label source temp content).run
                { w with nextToken := w.nextToken + 1 } with
            | (.error e, w) => (.error e, w)
            | (.ok copy, w) =>
              let log := w.log ++ [.completed source.toText copy.lines copy.matchedLines
                copy.substitutions]
              match w.report.add? w.disk ⟨.finish, label⟩ with
              | .error fault => (.error (.report fault), { w with log })
              | .ok (report, disk) => (.ok copy, { w with report, disk, log }) := by
  rw [copyFile, run_bind, run_get]
  simp only [run_bind, run_report]
  rw [Disk.label]
  cases w.report.add? w.disk ⟨.start, (w.disk.workingPath.absolute source).toText⟩ with
  | error fault => rfl
  | ok next =>
    simp only [run_note]
    rcases source.fault? with _ | (e | _)
    · simp only [run_bind, run_get]
      cases next.2.read source with
      | error e => rfl
      | ok content =>
        simp only [run_bind, run_token, Workspace.tokenAt]
        split
        · rename_i copy w' hlines
          simp only [hlines, run_note, run_report]
          cases w'.report.add? w'.disk ⟨.finish, (w.disk.workingPath.absolute source).toText⟩ with
          | error fault => rfl
          | ok last => rfl
        · rename_i e w' hlines
          simp only [hlines]
    · rfl
    · rfl

/-! ## §3 All that can happen to a file -/

/-- The section of the report about a file as far as it goes before its end. -/
def begunSection (label : Text) (entries : List AuditEntry) : List Record :=
  ⟨.start, label⟩ :: entries.map AuditEntry.record

/-- The section of the report about a file. -/
def fileSection (label : Text) (outcomes : List RedactedLine) : List Record :=
  begunSection label (allEntries outcomes) ++ [⟨.finish, label⟩]

/-- The record of a complete copy. -/
def completeCopy (source temp : Path) (outcomes : List RedactedLine) : FileCopy where
  source
  temp := some temp
  state := .completed
  lines := outcomes.length
  matchedLines := outcomes.countP (·.matched)
  substitutions := (allEntries outcomes).countP (·.substituted)

/-- A file that cannot be opened, and what follows. -/
inductive Unopened (disk : Disk) (source : Path) : FileError → Prop where
  /-- The path cannot be that of a file. -/
  | nul : source.fault? = some .nul → Unopened disk source .nulInPath
  /-- The path has no bytes. -/
  | unnamed {e : EncodeError} : source.fault? = some (.unencodable e) →
      Unopened disk source (.failure ⟨source, none, .unencodable e⟩)
  /-- The file cannot be read. -/
  | unread {e : DiskRefusal} : source.fault? = none → disk.read source = .error e →
      Unopened disk source (.failure ⟨source, none, .disk ⟨e, source.toText, none⟩⟩)

omit [Host] in
theorem Unopened.not_opened {disk : Disk} {source : Path} {e : FileError} {content : List UInt8}
    (h : Unopened disk source e) (hsound : source.fault? = none)
    (hread : disk.read source = .ok content) : False := by
  cases h with
  | nul hfault => cases hfault.symm.trans hsound
  | unnamed hfault => cases hfault.symm.trans hsound
  | unread _ hunread => cases hunread.symm.trans hread

omit [Host] in
/-- A file that is not opened fails without a copy, if its path can be passed on at all. -/
theorem Unopened.failure {disk : Disk} {source : Path} {e : FileError}
    (h : Unopened disk source e) (hnul : source.hasNul = false) :
    ∃ failure, e = .failure failure ∧ failure.source = source ∧ failure.temp = none := by
  cases h with
  | nul hfault => exact absurd hfault (Path.fault?_ne_nul hnul)
  | unnamed => exact ⟨_, rfl, rfl, rfl⟩
  | unread => exact ⟨_, rfl, rfl, rfl⟩

/-- Why a copy is not complete: why the redaction stops, or where the file is no text. -/
def breakOf : Option LineStop → Option Utf8Error → Option FileFault
  | some (.text e), _ => some (.unencodable e)
  | some (.entry (.unencodable e)), _ => some (.unencodable e)
  | none, some e => some (.undecodable e)
  | _, _ => none

omit [Host] in
theorem breakOf_ne_disk {stop : Option LineStop} {fault : Option Utf8Error} {cause : FileFault}
    (h : breakOf stop fault = some cause) (e : DiskError) : cause ≠ .disk e := by
  rintro rfl
  rw [breakOf.eq_def] at h
  split at h <;> cases h

/-- What copying a file comes to: the result, and what has changed. -/
inductive CopyCourse (job : Job) (source : Path) (w : Workspace) :
    Except FileError FileCopy → Workspace → Prop where
  /-- The report does not take the start of a section. -/
  | unannounced {fault : ReportFault} :
      w.report.fault? ⟨.start, w.disk.label source⟩ = some fault →
      CopyCourse job source w (.error (.report fault)) w
  | unopened {e : FileError} {report : Report} {log : List Event} : Unopened w.disk source e →
      Report.Alike w.report report →
      w.report.GrowsBy [⟨.start, w.disk.label source⟩] report →
      CopyCourse job source w (.error e) { w with report, log }
  /-- The copy cannot be made. -/
  | unmade {e : DiskRefusal} {content bytes : List UInt8} {report : Report} {log : List Event} :
      source.fault? = none → w.disk.read source = .ok content →
      w.disk.create (tempPath (w.tokenAt w.nextToken) source) bytes = .error e →
      Report.Alike w.report report →
      w.report.GrowsBy [⟨.start, w.disk.label source⟩] report →
      CopyCourse job source w
        (.error (.failure ⟨source, some (tempPath (w.tokenAt w.nextToken) source),
          .disk ⟨e, (tempPath (w.tokenAt w.nextToken) source).toText, none⟩⟩))
        { w with report, log, nextToken := w.nextToken + 1 }
  /-- The file is no text, or something about its redaction has no bytes; what comes before has
  been copied. -/
  | unfinished {content : List UInt8} {outcomes : List RedactedLine} {entries : List AuditEntry}
      {stop : Option LineStop} {cause : FileFault} {created : Disk} {report : Report}
      {log : List Event} :
      source.fault? = none → w.disk.read source = .ok content →
      Reaches job w.report (w.disk.label source) 1 (readLines content).1 outcomes entries stop →
      breakOf stop (readLines content).2 = some cause →
      w.disk.create (tempPath (w.tokenAt w.nextToken) source) (encodeUtf8 (writtenText outcomes)) =
        .ok created →
      w.report.addAll? created (begunSection (w.disk.label source) entries) =
        .ok (report, created) →
      Report.Alike w.report report →
      CopyCourse job source w
        (.error (.failure ⟨source, some (tempPath (w.tokenAt w.nextToken) source), cause⟩))
        { w with disk := created, report, log, nextToken := w.nextToken + 1 }
  /-- The copy is complete. -/
  | completed {text : List Char} {created disk : Disk} {report : Report} {log : List Event} :
      source.fault? = none → w.disk.read source = .ok (encodeUtf8 text) →
      (∀ outcome ∈ job.outcomes (w.disk.label source) 1 (lines text), outcome.text.Writable) →
      w.disk.create (tempPath (w.tokenAt w.nextToken) source)
        (encodeUtf8 (writtenText (job.outcomes (w.disk.label source) 1 (lines text)))) =
          .ok created →
      w.report.addAll? created
        (fileSection (w.disk.label source) (job.outcomes (w.disk.label source) 1 (lines text))) =
          .ok (report, disk) →
      Report.Alike w.report report → Disk.Written w.report.serial? created disk →
      CopyCourse job source w
        (.ok (completeCopy source (tempPath (w.tokenAt w.nextToken) source)
          (job.outcomes (w.disk.label source) 1 (lines text))))
        { w with disk, report, log, nextToken := w.nextToken + 1 }

omit [Host] in
/-- The end of a section has bytes if its start has. -/
theorem writable_finish {label : Text} (h : (Record.mk .start label).render.Writable) :
    (Record.mk .finish label).render.Writable :=
  writable_append.mpr ⟨writable_ofChars _, (writable_append.mp h).2⟩

omit [Host] in
/-- A report that takes the start of a section takes its end. -/
theorem Report.takes_finish {report : Report} {label : Text} (h : report.Takes ⟨.start, label⟩) :
    report.Takes ⟨.finish, label⟩ := by
  cases report with
  | list records => rfl
  | file f =>
      obtain ⟨hopen, hstart⟩ := takes_file_iff.mp h
      exact takes_file_iff.mpr ⟨hopen, writable_finish hstart⟩

/-- What is reached does not depend on what has been added to the report. -/
theorem Reaches.alike {job : Job} {report next : Report} (halike : Report.Alike report next)
    {label : Text} {n : Nat} {lines : List (List Char)} {outcomes : List RedactedLine}
    {entries : List AuditEntry} {stop : Option LineStop}
    (h : Reaches job next label n lines outcomes entries stop) :
    Reaches job report label n lines outcomes entries stop := by
  induction h with
  | all => exact .all
  | unwritable herror => exact .unwritable herror
  | unreported hwritable hentries htaken hfault =>
      exact .unreported hwritable hentries (fun entry hentry => halike.takes.mp (htaken entry hentry))
        ((halike.fault? _).symm.trans hfault)
  | line hwritable htakes _ ih =>
      exact .line hwritable (fun entry hentry => halike.takes.mp (htakes entry hentry)) ih

omit [Host] in
/-- The texts of the entries of a course, as records. -/
theorem records_course (course : FileCourse) (label : Text) :
    (course.entries label).map (Record.mk .entry) =
      (entriesFrom label 1 course.lines).map AuditEntry.record := by
  rw [FileCourse.entries, entriesFrom, List.map_map, List.map_map]
  rfl

omit [Host] in
theorem substitutions_course (course : FileCourse) (label : Text) :
    course.substitutions = (entriesFrom label 1 course.lines).countP (·.substituted) := by
  rw [FileCourse.substitutions, ← List.countP_eq_length_filter, entriesFrom, List.countP_map]
  rfl

/-- The report takes the entries of a course, since it has been cut for this report. -/
theorem exists_noted (job : Job) (label : Text) (lines : List (List Char)) (report : Report) :
    ∃ noted, (∀ disk, report.addAll? disk ((entriesFrom label 1
        (courseFrom job report label 1 lines).lines).map AuditEntry.record) = .ok (noted, disk)) ∧
      (∀ disk, report.addEntries? disk ((courseFrom job report label 1 lines).entries label) =
        .ok (noted, disk)) ∧ Report.Alike report noted := by
  have htakes : ∀ record ∈ (entriesFrom label 1
      (courseFrom job report label 1 lines).lines).map AuditEntry.record,
      report.Takes record ∧ record.kind ≠ .finish := by
    intro record hrecord
    obtain ⟨entry, hentry, rfl⟩ := List.mem_map.mp hrecord
    exact ⟨takes_reportedIn _ _ _ _ _ entry hentry, nofun⟩
  obtain ⟨noted, hnoted, halike⟩ := Report.addAll?_unfinished htakes
  exact ⟨noted, hnoted, fun disk => by rw [Report.addEntries?_eq, records_course, hnoted], halike⟩

/-- The copying of the lines of a file, by how far their redaction goes. -/
theorem run_copyLines_reaches {job : Job} (hjob : job.Ready) (label : Text) (source temp : Path)
    (content : List UInt8) {w : Workspace} (hopen : w.report.isOpen) :
    ∃ outcomes entries stop events noted,
      Reaches job w.report label 1 (readLines content).1 outcomes entries stop ∧
      (∀ disk, w.report.addAll? disk (entries.map AuditEntry.record) = .ok (noted, disk)) ∧
      Report.Alike w.report noted ∧
      (copyLines job label source temp content).run w =
        match w.disk.create temp (encodeUtf8 (writtenText outcomes)) with
        | .error e => (fail ⟨source, some temp, .disk ⟨e, temp.toText, none⟩⟩).run w
        | .ok disk =>
          let w := { w with disk, report := noted, log := w.log ++ events }
          match breakOf stop (readLines content).2 with
          | some cause => (fail ⟨source, some temp, cause⟩).run w
          | none => (.ok (completeCopy source temp outcomes), w) := by
  obtain ⟨outcomes, entries, stop, hreaches, hstop, htext, hentries, hlength, hmatched⟩ :=
    exists_reaches hjob w.report label 1 (readLines content).1
  obtain ⟨noted, hnoted, hadd, halike⟩ := exists_noted job label (readLines content).1 w.report
  rw [hentries] at hnoted
  refine ⟨outcomes, entries, stop,
    (courseFrom job w.report label 1 (readLines content).1).events label, noted, hreaches, hnoted,
    halike, ?_⟩
  rw [run_copyLines]
  generalize courseFrom job w.report label 1 (readLines content).1 = course at *
  simp only [hadd, htext]
  cases w.disk.create temp (encodeUtf8 (writtenText outcomes)) with
  | error e => rfl
  | ok disk =>
      simp only
      rcases hcourse : course.stop with _ | ⟨hits, e | e | (_ | e)⟩
      · obtain rfl : none = stop := by rw [← hstop, hcourse]; rfl
        cases (readLines content).2 with
        | some e => rfl
        | none =>
            simp only [breakOf, completeCopy, hlength, hmatched rfl, substitutions_course course label,
              hentries, hreaches.complete.2]
      · obtain rfl : some (.rule e) = stop := by rw [← hstop, hcourse]; rfl
        exact absurd rfl (hreaches.stop_ne_rule e)
      · obtain rfl : some (.text e) = stop := by rw [← hstop, hcourse]; rfl
        rfl
      · obtain rfl : some (.entry .closed) = stop := by rw [← hstop, hcourse]; rfl
        obtain ⟨entry, _, -, hfault⟩ := hreaches.unreported_next
        exact absurd hfault (Report.fault?_ne_closed hopen entry.record)
      · obtain rfl : some (.entry (.unencodable e)) = stop := by rw [← hstop, hcourse]; rfl
        rfl

/-- Only what reaches the end of a text is complete. -/
theorem Reaches.eq_none_of_breakOf {job : Job} {report : Report} {label : Text} {n : Nat}
    {lines : List (List Char)} {outcomes : List RedactedLine} {entries : List AuditEntry}
    {stop : Option LineStop} {fault : Option Utf8Error}
    (h : Reaches job report label n lines outcomes entries stop) (hopen : report.isOpen)
    (hbreak : breakOf stop fault = none) : stop = none ∧ fault = none := by
  rcases stop with _ | (e | e | (_ | e))
  · cases fault with
    | none => exact ⟨rfl, rfl⟩
    | some e => cases hbreak
  · exact absurd rfl (h.stop_ne_rule e)
  · cases hbreak
  · obtain ⟨entry, _, -, hfault⟩ := h.unreported_next
    exact absurd hfault (Report.fault?_ne_closed hopen entry.record)
  · cases hbreak

theorem copyFile_course {job : Job} (hjob : job.Ready) (source : Path) (w : Workspace) :
    CopyCourse job source w ((copyFile job source).run w).1 ((copyFile job source).run w).2 := by
  rw [run_copyFile]
  cases hstart : w.report.fault? ⟨.start, w.disk.label source⟩ with
  | some fault =>
      rw [Report.add?_eq_error_iff.mpr hstart]
      exact .unannounced hstart
  | none =>
      obtain ⟨started, hadd, hstarted⟩ := Report.add?_unfinished hstart (by simp)
      have hannounced : w.report.GrowsBy [⟨.start, w.disk.label source⟩] started :=
        Report.growsBy_of_addAll? (by rw [Report.addAll?_cons (hadd w.disk)]; rfl)
      rw [hadd]
      simp only
      rcases hsound : source.fault? with _ | (e | _)
      · simp only
        cases hread : w.disk.read source with
        | error e => exact .unopened (.unread hsound hread) hstarted hannounced
        | ok content =>
            have htakes : started.Takes ⟨.start, w.disk.label source⟩ := hstarted.takes.mpr hstart
            obtain ⟨outcomes, entries, stop, events, noted, hreaches, hnoted, halike, hrun⟩ :=
              run_copyLines_reaches hjob (w.disk.label source) source
                (tempPath (w.tokenAt w.nextToken) source) content
                (w := { w with report := started, log := w.log ++ [.reading source.name],
                               nextToken := w.nextToken + 1 }) (Report.isOpen_of_takes htakes)
            have hbegun : ∀ disk, w.report.addAll? disk (begunSection (w.disk.label source) entries) =
                .ok (noted, disk) := fun disk => by
              rw [begunSection, Report.addAll?_cons (hadd disk), hnoted]
            simp only [hrun]
            cases hcreate : w.disk.create (tempPath (w.tokenAt w.nextToken) source)
              (encodeUtf8 (writtenText outcomes)) with
            | error e => exact .unmade hsound hread hcreate hstarted hannounced
            | ok created =>
                simp only
                cases hbreak : breakOf stop (readLines content).2 with
                | some cause =>
                    exact .unfinished hsound hread (hreaches.alike hstarted) hbreak hcreate
                      (hbegun created) (hstarted.trans halike)
                | none =>
                    obtain ⟨rfl, hfault⟩ :=
                      hreaches.eq_none_of_breakOf (Report.isOpen_of_takes htakes) hbreak
                    obtain ⟨rfl, rfl⟩ := hreaches.complete
                    obtain ⟨text, rfl⟩ := encode_of_readLines hfault
                    obtain ⟨last, disk, hfinish, hlast, hwritten⟩ :=
                      Report.add?_eq_ok (Report.takes_finish (halike.takes.mpr htakes)) created
                    simp only [hfinish]
                    rw [readLines_encode] at hcreate hbegun hreaches ⊢
                    refine .completed hsound hread hreaches.writable hcreate ?_
                      ((hstarted.trans halike).trans hlast)
                      ((hstarted.trans halike).serial? ▸ hwritten)
                    rw [fileSection, Report.addAll?_append _ (hbegun created),
                      Report.addAll?_cons hfinish]
                    rfl
      · exact .unopened (.unnamed hsound) hstarted hannounced
      · exact .unopened (.nul hsound) hstarted hannounced

/-- Nothing is done about a file if the report does not take the start of its section. -/
theorem copyFile_unannounced (job : Job) {source : Path} {w : Workspace} {fault : ReportFault}
    (h : w.report.fault? ⟨.start, w.disk.label source⟩ = some fault) :
    (copyFile job source).run w = (.error (.report fault), w) := by
  rw [run_copyFile, Report.add?_eq_error_iff.mpr h]

/-! ## §4 Complete copies -/

/-- What copying lines with these outcomes writes has bytes: the redacted lines, and the section of
the report, unless it is kept in memory. -/
structure CanWrite (report : Report) (label : Text) (outcomes : List RedactedLine) : Prop where
  lines : ∀ outcome ∈ outcomes, outcome.text.Writable
  records : ∀ record ∈ fileSection label outcomes, report.Takes record

omit [Host] in
theorem CanWrite.alike {report next : Report} {label : Text} {outcomes : List RedactedLine}
    (h : CanWrite report label outcomes) (halike : Report.Alike report next) :
    CanWrite next label outcomes :=
  ⟨h.lines, fun record hrecord => halike.takes.mpr (h.records record hrecord)⟩

omit [Host] in
theorem CanWrite.entries {report : Report} {label : Text} {outcomes : List RedactedLine}
    (h : CanWrite report label outcomes) :
    ∀ entry ∈ allEntries outcomes, report.Takes entry.record := fun _ hentry =>
  h.records _ (List.mem_append_left _ (List.mem_cons_of_mem _ (List.mem_map_of_mem hentry)))

/-- All is reached exactly when all that is to be written has bytes, for a report that takes the
start of the section. -/
theorem Reaches.canWrite_iff {job : Job} {report : Report} {label : Text} {n : Nat}
    {lines : List (List Char)} {outcomes : List RedactedLine} {entries : List AuditEntry}
    {stop : Option LineStop} (h : Reaches job report label n lines outcomes entries stop)
    (hstart : report.Takes ⟨.start, label⟩) :
    CanWrite report label (job.outcomes label n lines) ↔ stop = none := by
  constructor
  · exact fun hwrites => h.stop_eq_none hwrites.lines hwrites.entries
  · rintro rfl
    obtain ⟨rfl, rfl⟩ := h.complete
    refine ⟨h.writable, fun record hrecord => ?_⟩
    rcases List.mem_append.mp hrecord with hrecord | hrecord
    · rcases List.mem_cons.mp hrecord with rfl | hrecord
      · exact hstart
      · obtain ⟨entry, hentry, rfl⟩ := List.mem_map.mp hrecord
        exact h.takes entry hentry
    · rw [List.mem_singleton.mp hrecord]
      exact Report.takes_finish hstart

/-- So all is reached if it has bytes. -/
theorem CanWrite.reaches {job : Job} (hjob : job.Ready) {report : Report} {label : Text} {n : Nat}
    {lines : List (List Char)} (h : CanWrite report label (job.outcomes label n lines)) :
    Reaches job report label n lines (job.outcomes label n lines)
      (allEntries (job.outcomes label n lines)) none := by
  obtain ⟨outcomes, entries, stop, hreaches, -⟩ := exists_reaches hjob report label n lines
  obtain rfl := hreaches.stop_eq_none h.lines h.entries
  obtain ⟨rfl, rfl⟩ := hreaches.complete
  exact hreaches

/-- A report that is kept in memory takes everything. -/
theorem canWrite_list {job : Job} (h : job.pseudonym.Writable) (records : List Record)
    (label : Text) (n : Nat) (lines : List (List Char)) :
    CanWrite (.list records) label (job.outcomes label n lines) := by
  refine ⟨fun outcome houtcome => ?_, fun record _ => Report.takes_list records record⟩
  obtain ⟨m, line, -, rfl⟩ := Job.mem_outcomes houtcome
  exact Job.writable_outcome h label m line

/-- The redaction of a text by rules that are ready, as the bytes of a file. -/
def Job.redaction (job : Job) (label : Text) (text : List Char) : List UInt8 :=
  encodeUtf8 (writtenText (job.outcomes label 1 (lines text)))

/-- A file that can be read as text is copied, if all that is to be written has bytes and nothing
stands where its copy goes. -/
theorem copyFile_ok {job : Job} (hjob : job.Ready) {source : Path} {w : Workspace}
    {text : List Char} {location : Location} (hsound : source.fault? = none)
    (hread : w.disk.read source = .ok (encodeUtf8 text))
    (hwrites : CanWrite w.report (w.disk.label source)
      (job.outcomes (w.disk.label source) 1 (lines text)))
    (hnames : w.disk.Names (tempPath (w.tokenAt w.nextToken) source) location)
    (hnone : w.disk.get? location = none) :
    ∃ report disk log,
      (copyFile job source).run w =
        (.ok (completeCopy source (tempPath (w.tokenAt w.nextToken) source)
          (job.outcomes (w.disk.label source) 1 (lines text))),
          { w with disk, report, log, nextToken := w.nextToken + 1 }) ∧
      w.report.addAll? (w.disk.putNew location (job.redaction (w.disk.label source) text))
        (fileSection (w.disk.label source) (job.outcomes (w.disk.label source) 1 (lines text))) =
          .ok (report, disk) ∧
      Report.Alike w.report report ∧
      Disk.Written w.report.serial?
        (w.disk.putNew location (job.redaction (w.disk.label source) text)) disk := by
  have hcourse := copyFile_course hjob source w
  rcases hrun : (copyFile job source).run w with ⟨result, w'⟩
  rw [hrun] at hcourse
  cases hcourse with
  | unannounced hfault =>
      have hstart := hwrites.records _ (List.mem_cons_self ..)
      rw [Report.Takes, hfault] at hstart
      cases hstart
  | unopened hunopened => exact (hunopened.not_opened hsound hread).elim
  | unmade _ _ hrefused => exact absurd ⟨location, hnames, hnone⟩ (Disk.create_eq_error hrefused).1
  | unfinished _ hread' hreaches hbreak =>
      obtain rfl := Except.ok.inj (hread.symm.trans hread')
      rw [readLines_encode] at hreaches hbreak
      rw [hreaches.stop_eq_none hwrites.lines hwrites.entries] at hbreak
      cases hbreak
  | completed _ hread' _ hcreate hadd halike hwritten =>
      rw [hread] at hread'
      obtain rfl := encodeUtf8_inj (Except.ok.inj hread')
      obtain ⟨location', hnames', -, rfl⟩ := Disk.create_eq_ok_iff.mp hcreate
      obtain rfl := hnames.unique hnames'
      exact ⟨_, _, _, rfl, hadd, halike, hwritten⟩

/-- A text is copied line by line, wherever its chunks end: the temporary copy holds the redacted
lines, the record counts them, and the report grows by one section about them. Opening and writing
succeed: the path can be that of a file, nothing stands where the copy goes, and what is written has
bytes. If the report is a file, it is one that the disk has numbered before. -/
theorem copyFile_redacts_line_by_line {identity : Identity} {rules : List Rule}
    {compiled : List CompiledRule} {source : Path} {w : Workspace} {text : List Char}
    {ls : List (List Char)}
    (hcompile : Rule.compileAll identity.mapping rules = .ok compiled)
    (hserial : ∀ serial, w.report.serial? = some serial → serial < w.disk.nextSerial)
    (hsound : source.fault? = none)
    (hread : w.disk.read source = .ok (encodeUtf8 text))
    (hfree : w.disk.Free (tempPath (w.tokenAt w.nextToken) source))
    (hlines : LinesOf text ls)
    (hwrites : ∀ outcomes, LineByLine ⟨compiled, identity.mapping, identity.pseudonym⟩
      (w.disk.label source) 1 ls outcomes → CanWrite w.report (w.disk.label source) outcomes) :
    ∃ outcomes created w',
      LineByLine ⟨compiled, identity.mapping, identity.pseudonym⟩ (w.disk.label source) 1 ls
        outcomes ∧
      (copyFile ⟨compiled, identity.mapping, identity.pseudonym⟩ source).run w =
        (.ok {
          source
          temp := some (tempPath (w.tokenAt w.nextToken) source)
          state := .completed
          lines := ls.length
          matchedLines := outcomes.countP (·.matched)
          substitutions := (allEntries outcomes).countP (·.substituted) }, w') ∧
      w'.disk.read (tempPath (w.tokenAt w.nextToken) source) =
        .ok (encodeUtf8 (writtenText outcomes)) ∧
      w.disk.create (tempPath (w.tokenAt w.nextToken) source) (encodeUtf8 (writtenText outcomes)) =
        .ok created ∧
      w.report.addAll? created
        (⟨.start, w.disk.label source⟩ ::
          (allEntries outcomes).map (fun entry => ⟨.entry, entry.format⟩) ++
            [⟨.finish, w.disk.label source⟩]) = .ok (w'.report, w'.disk) := by
  have hjob : Job.Ready ⟨compiled, identity.mapping, identity.pseudonym⟩ :=
    Rule.ready_of_compileAll hcompile
  obtain rfl : lines text = ls := linesOf_iff.mp hlines
  have hline := (@lineByLine_iff _ _ hjob (w.disk.label source)).mpr
    (rfl : Job.outcomes _ _ 1 (lines text) = _)
  obtain ⟨location, hnames, hnone⟩ := hfree
  obtain ⟨report, disk, log, hrun, hadd, -, hwritten⟩ :=
    copyFile_ok hjob hsound hread (hwrites _ hline) hnames hnone
  refine ⟨_, _, { w with disk, report, log, nextToken := w.nextToken + 1 }, hline, ?_, ?_,
    Disk.create_eq_ok_iff.mpr ⟨location, hnames, hnone, rfl⟩, hadd⟩
  · rw [hrun, completeCopy, length_of_lineByLine hline]
  · have hdirectories : Disk.SameDirectories w.disk disk :=
      (Disk.sameDirectories_putNew hnames.ne_nil (by simp [hnone])).trans hwritten.sameDirectories
    exact Disk.read_eq_ok_iff.mpr ⟨location, w.disk.nextSerial,
      (Disk.names_congr hdirectories).mp hnames, hwritten.get?_new hnames.ne_nil hserial⟩

end Copying

/-- A text with a name in its first line. -/
def loginText : List Char := "User jdoe logged in\r\nbye".toList

/-- A log that holds the text. -/
def loginLog : Path := ⟨"/", ["a.log"]⟩

/-- A directory with the log and a file of rules. -/
def loginWorkspace : Workspace where
  disk := ⟨[(["a.log"], .file 0 (encodeUtf8 loginText)),
    (["rules.yaml"], .file 1 (encodeUtf8 ("patterns:\n- key: plain-username\n" ++
      "  detect: $\x7busername\x7d\n  replace: $\x7busername\x7d\n").toList))], 2, []⟩
  report := .list []
  nextToken := 0
  clock := fun _ => 7
  log := []

section Sample

attribute [local instance] sampleHost

theorem copyFile_redacts_login : ∃ compiled outcomes w',
    Rule.compileAll jdoe.mapping [.username "plain-username"] = .ok compiled ∧
    LineByLine ⟨compiled, jdoe.mapping, jdoe.pseudonym⟩ "/a.log" 1
      ["User jdoe logged in".toList, "bye".toList] outcomes ∧
    w' = ((copyFile ⟨compiled, jdoe.mapping, jdoe.pseudonym⟩ loginLog).run loginWorkspace).2 ∧
    w'.disk.read (tempPath ⟨7, 0⟩ loginLog) = .ok (encodeUtf8 (writtenText outcomes)) := by
  obtain ⟨compiled, hcompile⟩ := Rule.compileAll_jdoe
  obtain ⟨outcomes, created, w', hlines, hrun, hread, -⟩ :=
    @copyFile_redacts_line_by_line _ jdoe _ compiled loginLog loginWorkspace loginText
      ["User jdoe logged in".toList, "bye".toList] hcompile nofun (by decide +kernel) rfl
      (by decide +kernel) (linesOf_iff.mpr (by decide +kernel)) fun outcomes h => by
        rw [(lineByLine_iff (Rule.ready_of_compileAll hcompile)).mp h]
        exact canWrite_list (show jdoe.pseudonym.Writable by decide +kernel) _ _ _ _
  exact ⟨compiled, outcomes, w', hcompile, hlines, by rw [hrun], hread⟩

end Sample

end LogRedaction
