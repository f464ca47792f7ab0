/-
LogRedaction.Proofs.Report — what adding to a report does to the report and to the disk.

A report in memory grows by a record; a report in a file grows by bytes in a buffer, which reach
the file at the end of a section. It does not take every record: it has to be open, and the line has
to consist of characters (`takes_file_iff`). What it takes does not depend on what it has taken
before (`Report.Alike`), and on the disk at most its file changes (`add?_eq_ok`, `Disk.Written`).

`Report.addAll?` adds records one by one, and so do entries that arrive together: `addEntries?_eq`.
What becomes of the report itself does not depend on the disk; `Report.GrowsBy` says it without one,
so that growth adds up over files that are made in between.
-/
import LogRedaction.Report
import LogRedaction.Proofs.Disk.Table
import LogRedaction.Proofs.Text.Encoding
import LogRedaction.Proofs.Text.Utf8

namespace LogRedaction

/-! ## Files that are written to -/

/-- At most the file with the serial number, if there is one, has other content. -/
def Disk.Written (serial? : Option Nat) (a b : Disk) : Prop :=
  b = a ∨ ∃ serial change, serial? = some serial ∧ b = a.modify serial change

namespace Disk.Written

variable {serial? : Option Nat} {a b : Disk}

theorem sameDirectories (h : Written serial? a b) : SameDirectories a b := by
  rcases h with rfl | ⟨serial, change, -, rfl⟩
  · exact .refl _
  · exact sameDirectories_modify _ _ _

theorem nextSerial (h : Written serial? a b) : b.nextSerial = a.nextSerial := by
  rcases h with rfl | ⟨serial, change, -, rfl⟩ <;> rfl

/-- What is not in the file stays. -/
theorem get?_eq (h : Written serial? a b) {location : Location}
    (hother : ∀ serial content, a.get? location = some (.file serial content) →
      serial? ≠ some serial) : b.get? location = a.get? location := by
  rcases h with rfl | ⟨serial, change, hserial, rfl⟩
  · rfl
  rw [get?_modify]
  cases hget : a.get? location with
  | none => rfl
  | some entry =>
      cases entry with
      | directory => rfl
      | file n content =>
          have hne : n ≠ serial := by
            rintro rfl
            exact hother n content hget hserial
          rw [Option.map_some, changed, if_neg hne]

/-- Writing makes no file. -/
theorem get?_none (h : Written serial? a b) {location : Location}
    (hnone : a.get? location = none) : b.get? location = none := by
  rw [h.get?_eq, hnone]
  intro serial content hget
  rw [hnone] at hget
  cases hget

/-- Writing takes no file away. -/
theorem get?_ne_none (h : Written serial? a b) {location : Location}
    (hsome : a.get? location ≠ none) : b.get? location ≠ none := by
  rcases h with rfl | ⟨serial, change, -, rfl⟩
  · exact hsome
  · rw [get?_modify]
    simpa using hsome

/-- A new file is none that was written to before it. -/
theorem get?_new {disk : Disk} {location : Location} {content : List UInt8}
    (h : Written serial? (disk.putNew location content) b) (hroot : location ≠ [])
    (hserial : ∀ serial, serial? = some serial → serial < disk.nextSerial) :
    b.get? location = some (.file disk.nextSerial content) := by
  have hnew : (disk.putNew location content).get? location =
      some (.file disk.nextSerial content) := by
    rw [get?_putNew disk content hroot, if_pos rfl]
  rw [h.get?_eq, hnew]
  intro serial content' hget hwritten
  rw [hnew] at hget
  injection hget with hget
  injection hget with hsame
  have := hserial serial hwritten
  omega

end Disk.Written

/-! ## Records -/

namespace Report

/-- The serial number of the file that the report is in. -/
def serial? : Report → Option Nat
  | list _ => none
  | file f => some f.serial

/-- The report is not closed. -/
def isOpen : Report → Bool
  | list _ => true
  | file f => !f.closed

/-- The report takes the record. -/
def Takes (report : Report) (record : Record) : Prop := report.fault? record = none

instance (report : Report) (record : Record) : Decidable (report.Takes record) :=
  inferInstanceAs (Decidable (_ = none))

/-- The report with more records, added one by one up to the first that it does not take. -/
def addAll? (report : Report) (disk : Disk) : List Record → Except ReportFault (Report × Disk)
  | [] => .ok (report, disk)
  | record :: records =>
    match report.add? disk record with
    | .ok (report, disk) => report.addAll? disk records
    | .error fault => .error fault

theorem addAll?_cons {report next : Report} {disk between : Disk} {record : Record}
    (h : report.add? disk record = .ok (next, between)) (records : List Record) :
    report.addAll? disk (record :: records) = next.addAll? between records := by
  rw [addAll?, h]

theorem addAll?_append {report next : Report} {disk between : Disk} :
    ∀ {before : List Record} (after : List Record),
      report.addAll? disk before = .ok (next, between) →
        report.addAll? disk (before ++ after) = next.addAll? between after
  | [], after, h => by
      obtain ⟨rfl, rfl⟩ : report = next ∧ disk = between := by simpa [addAll?] using h
      rfl
  | record :: before, after, h => by
      rw [addAll?] at h
      split at h
      · rename_i hadd
        rw [List.cons_append, addAll?_cons hadd, addAll?_append after h]
      · cases h

/-- In memory the records are there as they were added. -/
theorem addAll?_list (disk : Disk) : ∀ (records more : List Record),
    (list records).addAll? disk more = .ok (list (records ++ more), disk)
  | records, [] => by rw [List.append_nil]; rfl
  | records, record :: more => by
      have hadd : (list records).add? disk record = .ok (list (records ++ [record]), disk) := rfl
      rw [addAll?_cons hadd, addAll?_list disk _ more, List.append_assoc]
      rfl

/-- Entries are added like other records, one by one. -/
theorem addEntries?_eq (report : Report) (disk : Disk) (texts : List Text) :
    report.addEntries? disk texts = report.addAll? disk (texts.map (Record.mk .entry)) := by
  induction texts generalizing report disk with
  | nil => rfl
  | cons text texts ih =>
      rw [addEntries?, List.map_cons, addAll?]
      rcases report.add? disk ⟨.entry, text⟩ with fault | ⟨next, disk'⟩
      · rfl
      · exact ih next disk'

/-- The report is as ready for records as the other one, and in the same file. -/
structure Alike (report next : Report) : Prop where
  fault? : ∀ record, next.fault? record = report.fault? record
  serial? : next.serial? = report.serial?

theorem Alike.refl (report : Report) : Alike report report := ⟨fun _ => rfl, rfl⟩

theorem Alike.trans {report between next : Report} (h : Alike report between)
    (hnext : Alike between next) : Alike report next :=
  ⟨fun record => (hnext.fault? record).trans (h.fault? record), hnext.serial?.trans h.serial?⟩

theorem Alike.takes {report next : Report} (h : Alike report next) {record : Record} :
    next.Takes record ↔ report.Takes record := by
  rw [Takes, Takes, h.fault?]

/-- A report that takes anything is open. -/
theorem isOpen_of_takes {report : Report} {record : Record} (h : report.Takes record) :
    report.isOpen := by
  cases report with
  | list records => rfl
  | file f =>
      rw [Takes, Report.fault?] at h
      split at h
      · cases h
      · rename_i hclosed
        simpa [isOpen] using hclosed

/-- An open report takes what can be written. -/
theorem takes_of_writable {report : Report} (h : report.isOpen) {record : Record}
    (hrecord : record.render.Writable) : report.Takes record := by
  cases report with
  | list records => rfl
  | file f =>
      have hopen : f.closed = false := by simpa [isOpen] using h
      have hline : Text.encodeError? record.line = none := by
        rw [Text.Writable, Text.encodeError?_eq_none_iff] at hrecord
        rw [Record.line, Text.encodeError?_eq_none_iff]
        simpa [CodePoint.isSurrogate, or_imp, forall_and] using hrecord
      simp [Takes, Report.fault?, hopen, hline]

/-- What an open report does not take has no bytes. -/
theorem fault?_ne_closed {report : Report} (h : report.isOpen) (record : Record) :
    report.fault? record ≠ some .closed := by
  cases report with
  | list records => nofun
  | file f =>
      have hopen : f.closed = false := by simpa [isOpen] using h
      simp [Report.fault?, hopen]

/-- A report in memory takes everything. -/
theorem takes_of_memory {report : Report} (h : report.serial? = none) (record : Record) :
    report.Takes record := by
  cases report with
  | list records => rfl
  | file f => cases h

theorem takes_list (records : List Record) (record : Record) : (list records).Takes record := rfl

/-- A report in a file takes a record if it is open and the line can be written. -/
theorem takes_file_iff {f : FileReport} {record : Record} :
    (file f).Takes record ↔ f.closed = false ∧ record.render.Writable := by
  constructor
  · intro h
    have hopen : f.closed = false := by simpa [isOpen] using isOpen_of_takes h
    refine ⟨hopen, ?_⟩
    simp only [Takes, Report.fault?, hopen, Bool.false_eq_true, if_false, Option.map_eq_none_iff,
      Record.line, Text.encodeError?_eq_none_iff, List.mem_append] at h
    exact Text.writable_iff_forall.mpr fun c hc => h c (.inl hc)
  · rintro ⟨hopen, hrecord⟩
    exact takes_of_writable (by simp [isOpen, hopen]) hrecord

theorem add?_eq_error_iff {report : Report} {disk : Disk} {record : Record} {fault : ReportFault} :
    report.add? disk record = .error fault ↔ report.fault? record = some fault := by
  cases report with
  | list records => simp [add?, Report.fault?]
  | file f =>
      rw [add?, Report.fault?]
      by_cases hclosed : f.closed
      · simp [hclosed]
      · simp only [hclosed, Bool.false_eq_true, if_false, Text.characters]
        cases Text.encodeError? record.line <;> simp

/-- What a report takes up of a record does not depend on the disk. -/
theorem fst_add (f : FileReport) (disk other : Disk) (kind : RecordKind) (line : List Char) :
    (f.add disk kind line).1 = (f.add other kind line).1 := by
  rw [FileReport.add, FileReport.add]
  by_cases hkind : kind = .finish
  · rw [if_pos hkind, if_pos hkind, FileReport.flush, FileReport.flush]
    cases f.mode <;> rfl
  · rw [if_neg hkind, if_neg hkind]

/-- The line of a record that a report in a file takes. -/
theorem characters_of_takes {f : FileReport} {record : Record} (h : (file f).Takes record) :
    Text.characters record.line = .ok (record.render.chars ++ ['\n']) := by
  obtain ⟨-, hrecord⟩ := takes_file_iff.mp h
  rw [Text.characters_eq_ok_iff, List.map_append]
  exact congrArg (· ++ [.scalar '\n']) (congrArg Text.toList (Text.ofChars_chars hrecord)).symm

theorem add?_file {f : FileReport} {record : Record} (h : (file f).Takes record) (disk : Disk) :
    (file f).add? disk record =
      .ok (file (f.add disk record.kind (record.render.chars ++ ['\n'])).1,
        (f.add disk record.kind (record.render.chars ++ ['\n'])).2) := by
  obtain ⟨hopen, -⟩ := takes_file_iff.mp h
  rw [add?, if_neg (by simp [hopen]), characters_of_takes h]

/-- What it takes is added, and the report goes on as before; at most its file is written to. -/
theorem add?_eq_ok {report : Report} {record : Record} (h : report.Takes record) (disk : Disk) :
    ∃ next disk', report.add? disk record = .ok (next, disk') ∧ Alike report next ∧
      Disk.Written report.serial? disk disk' := by
  cases report with
  | list records => exact ⟨_, _, rfl, ⟨fun _ => rfl, rfl⟩, .inl rfl⟩
  | file f =>
      rw [add?_file h, FileReport.add]
      by_cases hkind : record.kind = .finish
      · rw [if_pos hkind, FileReport.flush]
        cases hmode : f.mode with
        | append => exact ⟨_, _, rfl, ⟨fun _ => rfl, rfl⟩, .inr ⟨_, _, rfl, rfl⟩⟩
        | «at» position => exact ⟨_, _, rfl, ⟨fun _ => rfl, rfl⟩, .inr ⟨_, _, rfl, rfl⟩⟩
      · rw [if_neg hkind]
        exact ⟨_, _, rfl, ⟨fun _ => rfl, rfl⟩, .inl rfl⟩

/-- Only the end of a section reaches the disk. -/
theorem add?_unfinished {report : Report} {record : Record} (h : report.Takes record)
    (hkind : record.kind ≠ .finish) :
    ∃ next, (∀ disk, report.add? disk record = .ok (next, disk)) ∧ Alike report next := by
  cases report with
  | list records => exact ⟨_, fun _ => rfl, fun _ => rfl, rfl⟩
  | file f =>
      refine ⟨file { f with
        buffer := f.buffer ++ Text.encodeUtf8 (record.render.chars ++ ['\n']) }, fun disk => ?_,
        fun _ => rfl, rfl⟩
      rw [add?_file h, FileReport.add, if_neg hkind]

theorem takes_of_add? {report : Report} {disk : Disk} {record : Record}
    {result : Report × Disk} (h : report.add? disk record = .ok result) : report.Takes record := by
  rw [Takes]
  cases hfault : report.fault? record with
  | none => rfl
  | some fault =>
      rw [add?_eq_error_iff.mpr hfault] at h
      cases h

theorem add?_congr {report next : Report} {disk between : Disk} {record : Record}
    (h : report.add? disk record = .ok (next, between)) (other : Disk) :
    ∃ between', report.add? other record = .ok (next, between') := by
  have htakes := takes_of_add? h
  cases report with
  | list records =>
      obtain ⟨rfl, -⟩ := Prod.mk.inj (Except.ok.inj h)
      exact ⟨other, rfl⟩
  | file f =>
      rw [add?_file htakes] at h ⊢
      obtain ⟨rfl, -⟩ := Prod.mk.inj (Except.ok.inj h)
      exact ⟨_, by rw [fst_add f other disk]⟩

/-- The records turn the one report into the other, whatever disk they are added on. -/
def GrowsBy (report : Report) (records : List Record) (next : Report) : Prop :=
  ∀ disk, ∃ disk', report.addAll? disk records = .ok (next, disk')

theorem growsBy_of_addAll? {report next : Report} {disk disk' : Disk} {records : List Record}
    (h : report.addAll? disk records = .ok (next, disk')) : report.GrowsBy records next := by
  induction records generalizing report disk with
  | nil =>
      obtain ⟨rfl, -⟩ := Prod.mk.inj (Except.ok.inj h)
      exact fun other => ⟨other, rfl⟩
  | cons record records ih =>
      intro other
      rw [addAll?] at h
      split at h
      · rename_i between _ hadd
        obtain ⟨disk'', hadd'⟩ := add?_congr hadd other
        rw [addAll?_cons hadd']
        exact ih h disk''
      · cases h

theorem GrowsBy.trans {report between next : Report} {before after : List Record}
    (h : report.GrowsBy before between) (hnext : between.GrowsBy after next) :
    report.GrowsBy (before ++ after) next := by
  intro disk
  obtain ⟨disk', hbefore⟩ := h disk
  obtain ⟨disk'', hafter⟩ := hnext disk'
  exact ⟨disk'', by rw [addAll?_append after hbefore, hafter]⟩

/-- A report in memory grows by the records themselves. -/
theorem growsBy_list_iff {records more : List Record} {next : Report} :
    (list records).GrowsBy more next ↔ next = list (records ++ more) := by
  simp only [GrowsBy, addAll?_list, Except.ok.injEq, Prod.mk.injEq]
  constructor
  · intro h
    obtain ⟨_, rfl, -⟩ := h ⟨[], 0, []⟩
    rfl
  · rintro rfl disk
    exact ⟨disk, rfl, rfl⟩

/-- Records that are no ends of sections are added without a change on the disk. -/
theorem addAll?_unfinished {report : Report} {records : List Record}
    (h : ∀ record ∈ records, report.Takes record ∧ record.kind ≠ .finish) :
    ∃ next, (∀ disk, report.addAll? disk records = .ok (next, disk)) ∧ Alike report next := by
  induction records generalizing report with
  | nil => exact ⟨report, fun _ => rfl, .refl report⟩
  | cons record records ih =>
      obtain ⟨htakes, hkind⟩ := h record (List.mem_cons_self ..)
      obtain ⟨between, hadd, halike⟩ := add?_unfinished htakes hkind
      obtain ⟨next, hmore, halike'⟩ := ih fun other hother =>
        ⟨halike.takes.mpr (h other (List.mem_cons_of_mem _ hother)).1,
          (h other (List.mem_cons_of_mem _ hother)).2⟩
      exact ⟨next, fun disk => by rw [addAll?_cons (hadd disk), hmore], halike.trans halike'⟩

/-- What is added has been taken. -/
theorem takes_of_addAll? {report next : Report} {disk disk' : Disk} {records : List Record}
    (h : report.addAll? disk records = .ok (next, disk')) :
    ∀ record ∈ records, report.Takes record := by
  induction records generalizing report disk with
  | nil => simp
  | cons record records ih =>
      rw [addAll?] at h
      split at h
      · rename_i between middle hadd
        have htakes := takes_of_add? hadd
        obtain ⟨between', _, hadd', halike, -⟩ := add?_eq_ok htakes disk
        obtain ⟨rfl, rfl⟩ := Prod.mk.inj (Except.ok.inj (hadd.symm.trans hadd'))
        intro other hother
        rcases List.mem_cons.mp hother with rfl | hother
        · exact htakes
        · exact halike.takes.mp (ih h other hother)
      · cases h

end Report

end LogRedaction
