/-
LogRedaction.Proofs.Course — how far the redaction of a file goes.

By rules that are ready every line can be redacted, but not every redacted line can be written, nor
does the report take every entry. `Reaches` follows the lines in order and says where it ends: at a
line that has no bytes, or at one of the entries about a line that has been written. What is written
belongs to the first lines (`Reaches.outcomes_eq`) and what is reported is what there is to say about
them, of the last line perhaps only the beginning (`Reaches.entries_isPrefix`). If nothing is in the
way nothing stops it (`Reaches.stop_eq_none`), and then it reaches all (`Reaches.complete`).

What a file is copied by is `redactLines`, cut where the report refuses an entry. That it goes as
far as `Reaches` says, and what its text, its entries and its counts are, is `exists_reaches`.

## §1 How far
## §2 What is reached
## §3 The course of a file
-/
import LogRedaction.Proofs.Line
import LogRedaction.Proofs.Report

namespace LogRedaction

/-- The entry as a record of the report. -/
def AuditEntry.record (entry : AuditEntry) : Record := ⟨.entry, entry.format⟩

variable [Host]

/-! ## §1 How far -/

/-- The redaction of lines, the first of which has the given number, goes this far: so much is
written, these entries are reported, and this is why it stops before the end of the lines. -/
inductive Reaches (job : Job) (report : Report) (label : Text) : (number : Nat) →
    List (List Char) → List RedactedLine → List AuditEntry → Option LineStop → Prop where
  | all {n : Nat} : Reaches job report label n [] [] [] none
  /-- The line has no bytes. -/
  | unwritable {n : Nat} {line : List Char} {rest : List (List Char)} {e : Text.EncodeError} :
      Text.encodeError? (job.outcome label n line).text.toList = some e →
      Reaches job report label n (line :: rest) [] [] (some (.text e))
  /-- The line is written, but one of the entries about it is not taken. -/
  | unreported {n : Nat} {line : List Char} {rest : List (List Char)} {taken more : List AuditEntry}
      {entry : AuditEntry} {fault : ReportFault} :
      (job.outcome label n line).text.Writable →
      (job.outcome label n line).entries = taken ++ entry :: more →
      (∀ entry ∈ taken, report.Takes entry.record) → report.fault? entry.record = some fault →
      Reaches job report label n (line :: rest) [job.outcome label n line] taken
        (some (.entry fault))
  | line {n : Nat} {line : List Char} {rest : List (List Char)} {outcomes : List RedactedLine}
      {entries : List AuditEntry} {stop : Option LineStop} :
      (job.outcome label n line).text.Writable →
      (∀ entry ∈ (job.outcome label n line).entries, report.Takes entry.record) →
      Reaches job report label (n + 1) rest outcomes entries stop →
      Reaches job report label n (line :: rest) (job.outcome label n line :: outcomes)
        ((job.outcome label n line).entries ++ entries) stop

/-! ## §2 What is reached -/

section Reaches

variable {job : Job} {report : Report} {label : Text} {n : Nat} {lines : List (List Char)}
  {outcomes : List RedactedLine} {entries : List AuditEntry} {stop : Option LineStop}

/-- The lines that are written are the first ones. -/
theorem Reaches.outcomes_eq (h : Reaches job report label n lines outcomes entries stop) :
    outcomes.length ≤ lines.length ∧
      outcomes = job.outcomes label n (lines.take outcomes.length) := by
  induction h with
  | all => exact ⟨Nat.le_refl _, rfl⟩
  | unwritable => exact ⟨Nat.zero_le _, rfl⟩
  | unreported => exact ⟨Nat.succ_le_succ (Nat.zero_le _), rfl⟩
  | line _ _ _ ih =>
      obtain ⟨hlength, heq⟩ := ih
      refine ⟨Nat.succ_le_succ hlength, ?_⟩
      rw [List.length_cons, List.take_succ_cons, Job.outcomes, ← heq]

theorem Reaches.entries_isPrefix (h : Reaches job report label n lines outcomes entries stop) :
    entries <+: allEntries outcomes := by
  induction h with
  | all => exact List.prefix_refl _
  | unwritable => exact List.prefix_refl _
  | unreported _ hentries =>
      rw [allEntries_cons, hentries, List.append_assoc]
      exact List.prefix_append ..
  | line _ _ _ ih =>
      rw [allEntries_cons]
      exact (List.prefix_append_right_inj _).mpr ih

theorem Reaches.writable (h : Reaches job report label n lines outcomes entries stop) :
    ∀ outcome ∈ outcomes, outcome.text.Writable := by
  induction h with
  | all => simp
  | unwritable => simp
  | unreported hwritable => simpa using hwritable
  | line hwritable _ _ ih => simpa [hwritable] using ih

theorem Reaches.takes (h : Reaches job report label n lines outcomes entries stop) :
    ∀ entry ∈ entries, report.Takes entry.record := by
  induction h with
  | all => simp
  | unwritable => simp
  | unreported _ _ htaken => exact htaken
  | line _ hentries _ ih =>
      intro entry hentry
      rcases List.mem_append.mp hentry with hentry | hentry
      · exact hentries entry hentry
      · exact ih entry hentry

/-- If it does not stop, all lines are written and everything about them is reported. -/
theorem Reaches.complete (h : Reaches job report label n lines outcomes entries none) :
    outcomes = job.outcomes label n lines ∧ entries = allEntries outcomes := by
  generalize hstop : (none : Option LineStop) = stop at h
  induction h with
  | all => exact ⟨rfl, rfl⟩
  | unwritable => cases hstop
  | unreported => cases hstop
  | line _ _ _ ih =>
      obtain ⟨houtcomes, hentries⟩ := ih hstop
      refine ⟨?_, ?_⟩
      · rw [Job.outcomes, ← houtcomes]
      · rw [allEntries_cons, hentries]

/-- The redaction does not stop at a rule. -/
theorem Reaches.stop_ne_rule (h : Reaches job report label n lines outcomes entries stop)
    (e : LineError) : stop ≠ some (.rule e) := by
  induction h with
  | all => nofun
  | unwritable => nofun
  | unreported => nofun
  | line _ _ _ ih => exact ih

/-- Where an entry stops it: the next entry about the lines that are written is not taken. -/
theorem Reaches.unreported_next {fault : ReportFault}
    (h : Reaches job report label n lines outcomes entries (some (.entry fault))) :
    ∃ entry more, allEntries outcomes = entries ++ entry :: more ∧
      report.fault? entry.record = some fault := by
  generalize hstop : some (LineStop.entry fault) = stop at h
  induction h with
  | all => cases hstop
  | unwritable => cases hstop
  | unreported _ hentries _ hfault =>
      injection hstop with hstop
      injection hstop with hstop
      subst hstop
      exact ⟨_, _, by rw [allEntries_cons, hentries, allEntries, List.flatMap_nil, List.append_nil],
        hfault⟩
  | line _ _ _ ih =>
      obtain ⟨entry, more, hentries, hfault⟩ := ih hstop
      refine ⟨entry, more, ?_, hfault⟩
      rw [allEntries_cons, List.append_assoc, ← hentries]

omit [Host] in
/-- The entries before the first that is refused are those that are taken. -/
theorem takeWhile_taken {taken more : List AuditEntry} {entry : AuditEntry} {fault : ReportFault}
    (htaken : ∀ entry ∈ taken, report.Takes entry.record)
    (hfault : report.fault? entry.record = some fault) :
    (taken ++ entry :: more).takeWhile (fun entry => report.Takes entry.record) = taken := by
  rw [List.takeWhile_append_of_pos (by simpa using htaken),
    List.takeWhile_cons_of_neg (by simp [Report.Takes, hfault]), List.append_nil]

/-- How far it goes is determined. -/
theorem Reaches.unique {outcomes' : List RedactedLine} {entries' : List AuditEntry}
    {stop' : Option LineStop} (h : Reaches job report label n lines outcomes entries stop)
    (h' : Reaches job report label n lines outcomes' entries' stop') :
    outcomes = outcomes' ∧ entries = entries' ∧ stop = stop' := by
  induction h generalizing outcomes' entries' stop' with
  | all =>
      cases h'
      exact ⟨rfl, rfl, rfl⟩
  | unwritable herror =>
      cases h' with
      | unwritable herror' =>
          obtain rfl := Option.some.inj (herror.symm.trans herror')
          exact ⟨rfl, rfl, rfl⟩
      | unreported hwritable => cases herror.symm.trans hwritable
      | line hwritable => cases herror.symm.trans hwritable
  | @unreported n line rest taken more entry fault hwritable hentries htaken hfault =>
      cases h' with
      | unwritable herror => cases herror.symm.trans hwritable
      | unreported _ hentries' htaken' hfault' =>
          have hsame := hentries.symm.trans hentries'
          obtain rfl : taken = entries' := by
            rw [← @takeWhile_taken report taken more entry fault htaken hfault, hsame,
              takeWhile_taken htaken' hfault']
          obtain ⟨rfl, -⟩ := List.cons.inj (List.append_cancel_left hsame)
          obtain rfl := Option.some.inj (hfault.symm.trans hfault')
          exact ⟨rfl, rfl, rfl⟩
      | line _ htakes =>
          cases hfault.symm.trans (htakes _ (hentries ▸ List.mem_append_right _
            (List.mem_cons_self ..)))
  | line hwritable htakes _ ih =>
      cases h' with
      | unwritable herror => cases herror.symm.trans hwritable
      | unreported _ hentries _ hfault =>
          cases hfault.symm.trans (htakes _ (hentries ▸ List.mem_append_right _
            (List.mem_cons_self ..)))
      | line _ _ hrest =>
          obtain ⟨rfl, rfl, rfl⟩ := ih hrest
          exact ⟨rfl, rfl, rfl⟩

/-- If all lines can be written and the report takes all entries, all is reached. -/
theorem Reaches.stop_eq_none (h : Reaches job report label n lines outcomes entries stop)
    (hwritable : ∀ outcome ∈ job.outcomes label n lines, outcome.text.Writable)
    (htakes : ∀ entry ∈ allEntries (job.outcomes label n lines), report.Takes entry.record) :
    stop = none := by
  induction h with
  | all => rfl
  | unwritable herror =>
      have hline := hwritable _ (List.mem_cons_self ..)
      rw [Text.Writable, herror] at hline
      cases hline
  | unreported _ hentries _ hfault =>
      have hentry := htakes _ (List.mem_flatMap.mpr ⟨_, List.mem_cons_self .., by
        rw [hentries]; exact List.mem_append_right _ (List.mem_cons_self ..)⟩)
      rw [Report.Takes, hfault] at hentry
      cases hentry
  | line _ _ _ ih =>
      refine ih (fun outcome houtcome => hwritable outcome (List.mem_cons_of_mem _ houtcome))
        fun entry hentry => htakes entry ?_
      rw [Job.outcomes, allEntries_cons]
      exact List.mem_append_right _ hentry

end Reaches

/-! ## §3 The course of a file -/

omit [Host] in
/-- The entries that the report takes come first, and a refused one is the first after them. -/
theorem splitRefused_cases (report : Report) (label : Text) (n : Nat) (hits : List Hit) :
    ((∀ hit ∈ hits, report.Takes (hit.entry label n).record) ∧
      splitRefused report label n hits = (hits, none)) ∨
    ∃ taken hit more fault, hits = taken ++ hit :: more ∧
      (∀ hit ∈ taken, report.Takes (hit.entry label n).record) ∧
      report.fault? (hit.entry label n).record = some fault ∧
      splitRefused report label n hits = (taken, some (hit :: more, fault)) := by
  induction hits with
  | nil => exact .inl ⟨by simp, rfl⟩
  | cons hit rest ih =>
      cases hfault : report.fault? (hit.entry label n).record with
      | some fault =>
          refine .inr ⟨[], hit, rest, fault, rfl, by simp, hfault, ?_⟩
          rw [AuditEntry.record] at hfault
          simp only [splitRefused, hfault]
      | none =>
          have hsplit := hfault
          rw [AuditEntry.record] at hsplit
          rcases ih with ⟨htakes, ih⟩ | ⟨taken, other, more, fault, rfl, htaken, hother, ih⟩
          · refine .inl ⟨?_, ?_⟩
            · simpa [hfault, Report.Takes] using htakes
            · simp only [splitRefused, hsplit, ih]
          · refine .inr ⟨hit :: taken, other, more, fault, rfl, ?_, hother, ?_⟩
            · simpa [hfault, Report.Takes] using htaken
            · simp only [splitRefused, hsplit, ih]

/-- The hits, each with the number of its line; the first line has the given number. -/
def numberedFrom (n : Nat) (lines : List (List Char × List Hit)) : List (Nat × Hit) :=
  (lines.mapIdx fun i line => line.2.map fun hit => (i + n, hit)).flatten

omit [Host] in
theorem numberedFrom_cons (n : Nat) (line : List Char × List Hit)
    (lines : List (List Char × List Hit)) :
    numberedFrom n (line :: lines) =
      (line.2.map fun hit => (n, hit)) ++ numberedFrom (n + 1) lines := by
  simp only [numberedFrom, List.mapIdx_cons, List.flatten_cons, Nat.zero_add]
  congr 3
  funext i line
  simp only [Nat.add_assoc, Nat.add_comm 1 n]

/-- The entries about lines, the first of which has the given number. -/
def entriesFrom (label : Text) (n : Nat) (lines : List (List Char × List Hit)) : List AuditEntry :=
  (numberedFrom n lines).map fun hit => hit.2.entry label hit.1

omit [Host] in
theorem entriesFrom_cons (label : Text) (n : Nat) (line : List Char × List Hit)
    (lines : List (List Char × List Hit)) :
    entriesFrom label n (line :: lines) =
      line.2.map (Hit.entry label n) ++ entriesFrom label (n + 1) lines := by
  rw [entriesFrom, numberedFrom_cons, List.map_append, List.map_map]
  rfl

omit [Host] in
/-- What is left of the lines is what the report takes. -/
theorem takes_reportedIn (report : Report) (label : Text) (stop : Option (List Hit × LineStop))
    (n : Nat) (lines : List (List Char × List Hit)) :
    ∀ entry ∈ entriesFrom label n (FileCourse.reportedIn report label stop n lines).lines,
      report.Takes entry.record := by
  induction lines generalizing n with
  | nil => simp [FileCourse.reportedIn, entriesFrom, numberedFrom]
  | cons line rest ih =>
      obtain ⟨text, hits⟩ := line
      rw [FileCourse.reportedIn]
      rcases splitRefused_cases report label n hits with
        ⟨htakes, hsplit⟩ | ⟨taken, hit, more, fault, -, htaken, -, hsplit⟩
      · rw [hsplit]
        intro entry hentry
        rcases List.mem_append.mp (entriesFrom_cons label n .. ▸ hentry) with hentry | hentry
        · obtain ⟨hit, hhit, rfl⟩ := List.mem_map.mp hentry
          exact htakes hit hhit
        · exact ih (n + 1) entry hentry
      · rw [hsplit]
        intro entry hentry
        rcases List.mem_append.mp (entriesFrom_cons label n .. ▸ hentry) with hentry | hentry
        · obtain ⟨hit, hhit, rfl⟩ := List.mem_map.mp hentry
          exact htaken hit hhit
        · simp [entriesFrom, numberedFrom] at hentry

omit [Host] in
/-- If a report takes all entries, the course is what it is without one. -/
theorem reportedIn_eq {report : Report} {label : Text} (stop : Option (List Hit × LineStop)) {n : Nat}
    {lines : List (List Char × List Hit)}
    (htakes : ∀ entry ∈ entriesFrom label n lines, report.Takes entry.record) :
    FileCourse.reportedIn report label stop n lines = ⟨lines, stop⟩ := by
  induction lines generalizing n with
  | nil => rfl
  | cons line rest ih =>
      obtain ⟨text, hits⟩ := line
      rw [entriesFrom_cons, List.forall_mem_append] at htakes
      obtain ⟨hhits, hrest⟩ := htakes
      rw [FileCourse.reportedIn]
      rcases splitRefused_cases report label n hits with
        ⟨-, hsplit⟩ | ⟨taken, hit, more, fault, rfl, -, hfault, -⟩
      · rw [hsplit]
        simp only [ih hrest]
      · have htaken := hhits (hit.entry label n)
          (List.mem_map_of_mem (List.mem_append_right _ (List.mem_cons_self ..)))
        cases hfault.symm.trans htaken

/-- The course that is left after the report has had its say. -/
def courseFrom (job : Job) (report : Report) (label : Text) (n : Nat) (lines : List (List Char)) :
    FileCourse :=
  FileCourse.reportedIn report label (redactLines job lines).stop n (redactLines job lines).lines

/-- The course of the rest, with a line before it. -/
theorem courseFrom_cons {job : Job} (hjob : job.Ready) (report : Report) (label : Text) (n : Nat)
    (line : List Char) (rest : List (List Char)) :
    courseFrom job report label n (line :: rest) =
      let course := applyRules job.mapping job.pseudonym.toList job.rules (line.map .scalar)
      match Text.characters course.text with
      | .error e => ⟨[], some (course.hits, .text e)⟩
      | .ok text =>
        match splitRefused report label n course.hits with
        | (taken, some (refused, fault)) => ⟨[(text, taken)], some (refused, .entry fault)⟩
        | (taken, none) =>
          let course := courseFrom job report label (n + 1) rest
          { course with lines := (text, taken) :: course.lines } := by
  have hready := applyRules_ready job.pseudonym.toList hjob (line.map .scalar)
  simp only [courseFrom, redactLines, hready]
  cases Text.characters
    (applyRules job.mapping job.pseudonym.toList job.rules (line.map .scalar)).text with
  | error e => rfl
  | ok text => rfl

/-- How far the copying of lines goes, and what it has written, reported and counted there. -/
theorem exists_reaches {job : Job} (hjob : job.Ready) (report : Report) (label : Text) (n : Nat)
    (lines : List (List Char)) :
    let course := courseFrom job report label n lines
    ∃ outcomes entries stop, Reaches job report label n lines outcomes entries stop ∧
      course.stop.map Prod.snd = stop ∧ course.text = writtenText outcomes ∧
      entriesFrom label n course.lines = entries ∧ course.lines.length = outcomes.length ∧
      (stop = none → course.matched = outcomes.countP (·.matched)) := by
  induction lines generalizing n with
  | nil => exact ⟨[], [], none, .all, rfl, rfl, rfl, rfl, fun _ => rfl⟩
  | cons line rest ih =>
      rw [courseFrom_cons hjob]
      have hentries : (job.outcome label n line).entries = (applyRules job.mapping
        job.pseudonym.toList job.rules (line.map .scalar)).hits.map (Hit.entry label n) := rfl
      have htext : (job.outcome label n line).text.toList = (applyRules job.mapping
        job.pseudonym.toList job.rules (line.map .scalar)).text := rfl
      have hmatched : (job.outcome label n line).matched = !(applyRules job.mapping
        job.pseudonym.toList job.rules (line.map .scalar)).hits.isEmpty := rfl
      simp only
      generalize applyRules job.mapping job.pseudonym.toList job.rules (line.map .scalar) = course
        at hentries htext hmatched
      rw [← htext]
      cases hwritable : Text.encodeError? (job.outcome label n line).text.toList with
      | some e =>
          rw [Text.characters_eq_error_iff.mpr hwritable]
          exact ⟨[], [], some (.text e), .unwritable hwritable, rfl, rfl, rfl, rfl, by rintro ⟨⟩⟩
      | none =>
          rw [Text.characters_of_writable hwritable]
          simp only
          rcases splitRefused_cases report label n course.hits with
            ⟨htakes, hsplit⟩ | ⟨taken, hit, more, fault, hhits, htaken, hfault, hsplit⟩
          · obtain ⟨outcomes, entries, stop, hreaches, hstop, hwritten, hreported, hlength, hcount⟩ :=
              ih (n + 1)
            rw [hsplit]
            refine ⟨_, _, stop, .line hwritable ?_ hreaches, hstop, ?_, ?_, ?_, fun hnone => ?_⟩
            · rw [hentries]
              simpa using htakes
            · rw [writtenText, List.flatMap_cons, ← writtenText, ← hwritten]
              rfl
            · rw [entriesFrom_cons, hreported, hentries]
            · rw [List.length_cons, List.length_cons, hlength]
            · have hcount := hcount hnone
              rw [FileCourse.matched, ← List.countP_eq_length_filter] at hcount ⊢
              rw [List.countP_cons, List.countP_cons, hcount, hmatched]
          · rw [hsplit]
            have hsplits : (job.outcome label n line).entries = taken.map (Hit.entry label n) ++
                hit.entry label n :: more.map (Hit.entry label n) := by
              rw [hentries, hhits, List.map_append, List.map_cons]
            refine ⟨_, taken.map (Hit.entry label n), _,
              .unreported hwritable hsplits ?_ hfault, rfl, ?_, ?_, rfl, by rintro ⟨⟩⟩
            · simpa using htaken
            · simp [FileCourse.text, writtenText]
            · rw [entriesFrom_cons]
              exact List.append_nil _

end LogRedaction
