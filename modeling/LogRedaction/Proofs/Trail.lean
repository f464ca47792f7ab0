/-
LogRedaction.Proofs.Trail — the report tells the audit trail.

The audit trail of a run has a section for every file that was begun, with the hits that
were reported; a section has ended if its file was copied to its end, as it was for all but
perhaps the last (`runTrail`). The report grows by just these sections, however the run ends
(`copyFiles_trail`). Since the text of a report can be read back, runs with different trails have
reports with different texts (`report_tells_trail`). No choice of keys changes this, not even of
keys that look like a part of a report.

## §1 Trails
## §2 Keys
## §3 Runs
-/
import LogRedaction.Proofs.Progress
import LogRedaction.Proofs.Trail.Reading

namespace LogRedaction

open Text LogRedaction.Action

section Trail

variable [Host]

/-! ## §1 Trails -/

namespace Job

/-- The hits on the lines of a file that are reported, each with the number of its line. -/
def hits (job : Job) (source : Path) (w : Workspace) : List (Nat × Hit) :=
  if source.fault? = none then
    match w.disk.read source with
    | .error _ => []
    | .ok content =>
      let course := courseFrom job w.report (w.disk.label source) 1 (readLines content).1
      match w.disk.create (tempPath (w.tokenAt w.nextToken) source) (encodeUtf8 course.text) with
      | .error _ => []
      | .ok _ => FileCourse.numbered course.lines
  else []

/-- The section about a file. -/
def fileTrail (job : Job) (source : Path) (w : Workspace) : TrailSection where
  label := w.disk.label source
  hits := job.hits source w
  ended := ((copyFile job source).run w).1.toOption.isSome

/-- The sections about files that are copied in order, up to the first that fails. There is none about
a file if the report does not take its start. -/
def trail (job : Job) : List Path → Workspace → List TrailSection
  | [], _ => []
  | source :: rest, w =>
    if w.report.Takes ⟨.start, w.disk.label source⟩ then
      job.fileTrail source w ::
        match (copyFile job source).run w with
        | (.ok _, next) => job.trail rest next
        | (.error _, _) => []
    else []

end Job

/-- The audit trail of a run. -/
def runTrail (form : IdentityForm) (rules : List Rule) (files : List Path) (w : Workspace) :
    List TrailSection :=
  match form.check with
  | .error _ => []
  | .ok identity =>
    match (prepare identity rules).run w with
    | (.error _, _) => []
    | (.ok job, w) => job.trail files w

section Files

variable {job : Job} {source : Path} {w : Workspace}

/-- If nothing was copied there are no hits. -/
theorem Job.hits_eq_nil (h : ∀ content created bytes, source.fault? = none →
    w.disk.read source = .ok content →
      w.disk.create (tempPath (w.tokenAt w.nextToken) source) bytes ≠ .ok created) :
    job.hits source w = [] := by
  rw [hits]
  split
  · rename_i hsound
    split
    · rfl
    rename_i content hread
    simp only
    split
    · rfl
    · rename_i created hcreate
      exact absurd hcreate (h content created _ hsound hread)
  · rfl

/-- The hits make the entries of the report. -/
theorem Job.records_hits (hjob : job.Ready) {content : List UInt8} {outcomes : List RedactedLine}
    {entries : List AuditEntry} {stop : Option LineStop} {created : Disk}
    (hsound : source.fault? = none) (hread : w.disk.read source = .ok content)
    (hreaches : Reaches job w.report (w.disk.label source) 1 (readLines content).1 outcomes entries
      stop)
    (hcreate : w.disk.create (tempPath (w.tokenAt w.nextToken) source)
      (encodeUtf8 (writtenText outcomes)) = .ok created) :
    (job.hits source w).map (fun (n, hit) => (hit.entry (w.disk.label source) n).record) =
      entries.map AuditEntry.record := by
  obtain ⟨_, _, _, hcourse, -, htext, hentries, -⟩ :=
    exists_reaches hjob w.report (w.disk.label source) 1 (readLines content).1
  obtain ⟨rfl, rfl, rfl⟩ := hreaches.unique hcourse
  rw [← htext] at hcreate
  rw [hits, if_pos hsound, hread]
  simp only [hcreate]
  rw [← hentries, entriesFrom, List.map_map]
  rfl

/-- The report grows by the section about a file, as far as the copying goes. -/
theorem copyFile_trail (hjob : job.Ready) (source : Path)
    (hstart : w.report.Takes ⟨.start, w.disk.label source⟩) :
    w.report.GrowsBy (job.fileTrail source w).records ((copyFile job source).run w).2.report := by
  have hcourse := copyFile_course hjob source w
  rw [TrailSection.records, Job.fileTrail]
  rcases hrun : (copyFile job source).run w with ⟨result, w'⟩
  rw [hrun] at hcourse
  cases hcourse with
  | unannounced hfault => cases hfault.symm.trans hstart
  | unopened hunopened _ hgrows =>
      rw [Job.hits_eq_nil fun content _ _ hsound hread _ => (hunopened.not_opened hsound hread).elim]
      exact hgrows
  | @unmade _ _ bytes _ _ _ _ hrefused _ hgrows =>
      -- A copy that cannot be made with one content cannot be made with another.
      rw [Job.hits_eq_nil fun _ _ _ _ _ hok => by
        cases (Disk.create_error_congr hrefused).symm.trans hok]
      exact hgrows
  | unfinished hsound hread hreaches _ hcreate hadd =>
      rw [Job.records_hits hjob hsound hread hreaches hcreate]
      have hgrows := Report.growsBy_of_addAll? hadd
      rw [← List.append_nil (begunSection _ _)] at hgrows
      exact hgrows
  | @completed text _ _ _ _ hsound hread hwritable hcreate hadd =>
      have hwrites : CanWrite w.report (w.disk.label source)
          (job.outcomes (w.disk.label source) 1 (lines text)) :=
        ⟨hwritable, Report.takes_of_addAll? hadd⟩
      have hreaches := hwrites.reaches hjob
      rw [Job.records_hits hjob hsound hread (by rw [readLines_encode]; exact hreaches) hcreate]
      exact Report.growsBy_of_addAll? hadd

end Files

/-- Copying files, the report grows by their sections. -/
theorem copyEach_trail {job : Job} (hjob : job.Ready) (files : List Path)
    (completed : List FileCopy) (w : Workspace) :
    w.report.GrowsBy (trailRecords (job.trail files w))
      ((copyEach job completed files).run w).2.report := by
  induction files generalizing completed w with
  | nil => exact fun disk => ⟨disk, rfl⟩
  | cons source rest ih =>
      rw [run_copyEach_cons, Job.trail]
      cases hstart : w.report.fault? ⟨.start, w.disk.label source⟩ with
      | none =>
        have hgrows := copyFile_trail hjob source hstart
        rw [if_pos (by exact hstart), trailRecords, List.flatMap_cons, ← trailRecords]
        rcases hrun : (copyFile job source).run w with ⟨e | copy, next⟩
        · rw [hrun] at hgrows
          simp only [trailRecords, List.flatMap_nil, List.append_nil]
          exact hgrows
        · rw [hrun] at hgrows
          exact hgrows.trans (ih (completed ++ [copy]) next)
      | some fault =>
        rw [if_neg (by rw [Report.Takes, hstart]; rintro ⟨⟩), copyFile_unannounced job hstart]
        exact fun disk => ⟨disk, rfl⟩

/-! ## §2 Keys -/

/-- A hit has the key of its rule. -/
theorem key_of_applyRules {mapping : Mapping} {pseudonym text : List CodePoint}
    {rules : List CompiledRule} {hit : Hit}
    (h : hit ∈ (applyRules mapping pseudonym rules text).hits) :
    ∃ rule ∈ rules, hit.key = rule.key := by
  induction rules generalizing text with
  | nil => simp [applyRules] at h
  | cons rule rules ih =>
      rcases happly : rule.apply mapping pseudonym text with e | found
      · simp [applyRules, happly] at h
      rw [applyRules_cons_ok happly] at h
      rcases List.mem_append.mp h with hfirst | hlater
      · cases found with
        | none => simp at hfirst
        | some found =>
            obtain rfl : hit = found.2 := by simpa using hfirst
            obtain ⟨-, ⟨-, -, hhit⟩ | ⟨_, -, -, hhit⟩⟩ := CompiledRule.apply_eq_some_iff.mp happly
            · exact ⟨rule, by simp, by rw [hhit]⟩
            · exact ⟨rule, by simp, by rw [hhit]⟩
      · obtain ⟨other, hother, hkey⟩ := ih hlater
        exact ⟨other, by simp [hother], hkey⟩

theorem key_of_redactLines (job : Job) (ls : List (List Char)) :
    ∀ line ∈ (redactLines job ls).lines, ∀ hit ∈ line.2, ∃ rule ∈ job.rules, hit.key = rule.key := by
  induction ls with
  | nil => simp [redactLines]
  | cons line rest ih =>
      rw [redactLines]
      simp only
      split
      · simp
      split
      · simp
      · exact List.forall_mem_cons.mpr ⟨fun hit hhit => key_of_applyRules hhit, ih⟩

omit [Host] in
/-- The hits of a course are among those that there are. -/
theorem hits_reportedIn {P : Hit → Prop} (report : Report) (label : Text)
    (stop : Option (List Hit × LineStop)) (n : Nat) {lines : List (List Char × List Hit)}
    (h : ∀ line ∈ lines, ∀ hit ∈ line.2, P hit) :
    ∀ line ∈ (FileCourse.reportedIn report label stop n lines).lines, ∀ hit ∈ line.2, P hit := by
  induction lines generalizing n with
  | nil => simp [FileCourse.reportedIn]
  | cons line rest ih =>
      obtain ⟨hline, hrest⟩ := List.forall_mem_cons.mp h
      obtain ⟨text, hits⟩ := line
      rw [FileCourse.reportedIn]
      rcases splitRefused_cases report label n hits with
        ⟨-, hsplit⟩ | ⟨taken, hit, more, fault, rfl, -, -, hsplit⟩
      · rw [hsplit]
        exact List.forall_mem_cons.mpr ⟨hline, ih (n + 1) hrest⟩
      · rw [hsplit]
        simpa using fun hit hhit => hline hit (List.mem_append_left _ hhit)

theorem Job.key_of_hits (job : Job) (source : Path) (w : Workspace) :
    ∀ hit ∈ job.hits source w, ∃ rule ∈ job.rules, hit.2.key = rule.key := by
  intro hit hhit
  rw [hits] at hhit
  split at hhit
  · split at hhit
    · simp at hhit
    simp only at hhit
    split at hhit
    · simp at hhit
    · obtain ⟨numbered, hnumbered, hmem⟩ := List.mem_flatten.mp hhit
      obtain ⟨i, hi, rfl⟩ := List.mem_mapIdx.mp hnumbered
      obtain ⟨found, hfound, rfl⟩ := List.mem_map.mp hmem
      exact hits_reportedIn _ _ _ _ (key_of_redactLines job _) _ (List.getElem_mem hi) found hfound
  · simp at hhit

/-- All keys in a trail are keys of rules. -/
theorem Job.key_of_trail (job : Job) (files : List Path) (w : Workspace) :
    ∀ s ∈ job.trail files w, ∀ hit ∈ s.hits, ∃ rule ∈ job.rules, hit.2.key = rule.key := by
  induction files generalizing w with
  | nil => simp [trail]
  | cons source rest ih =>
      intro s hs
      rw [trail] at hs
      split at hs
      · rcases List.mem_cons.mp hs with rfl | hs
        · exact Job.key_of_hits job source w
        · split at hs
          · rename_i next _
            exact ih next s hs
          · simp at hs
      · simp at hs

/-! ## §3 Runs -/

theorem report_prepare (identity : Identity) (rules : List Rule) (w : Workspace) :
    ((prepare identity rules).run w).2.report = w.report := by
  rw [prepare, run_bind, run_noteAll]
  simp only
  cases Rule.compileAll identity.mapping rules with
  | error e => rfl
  | ok compiled => rfl

/-- A run that gets as far as the files copies them by rules that are ready. -/
theorem ready_of_prepare {identity : Identity} {rules : List Rule} {w w' : Workspace} {job : Job}
    (h : (prepare identity rules).run w = (.ok job, w')) :
    job.Ready ∧ ∀ c ∈ job.rules, ∃ rule ∈ rules, c.key = rule.key := by
  rw [prepare, run_bind, run_noteAll] at h
  simp only at h
  cases hcompile : Rule.compileAll identity.mapping rules with
  | error e =>
      rw [hcompile] at h
      cases h
  | ok compiled =>
      rw [hcompile] at h
      obtain rfl := Except.ok.inj (Prod.mk.inj h).1
      refine ⟨Rule.ready_of_compileAll hcompile, fun c hc => ?_⟩
      obtain ⟨rule, hrule, hc⟩ := Rule.mem_of_compileAll hcompile c hc
      obtain ⟨_, _, -, -, -, -, rfl⟩ := Rule.compile_eq_ok_iff.mp hc
      exact ⟨rule, hrule, rfl⟩

section Runs

variable {form : IdentityForm} {rules : List Rule} {files : List Path} {w : Workspace}

/-- However a run ends, the report grows by its trail. -/
theorem copyFiles_trail :
    w.report.GrowsBy (trailRecords (runTrail form rules files w))
      ((copyFiles form rules files).run w).2.report := by
  rw [copyFiles, runTrail]
  cases form.check with
  | error e => exact fun disk => ⟨disk, rfl⟩
  | ok identity =>
      have hreport := report_prepare identity rules w
      simp only [run_bind]
      rcases hprepare : (prepare identity rules).run w with ⟨e | job, w'⟩
      · rw [hprepare] at hreport
        rw [← hreport]
        exact fun disk => ⟨disk, rfl⟩
      · rw [hprepare] at hreport
        rw [← hreport]
        exact copyEach_trail (ready_of_prepare hprepare).1 files [] w'

/-- All keys in the trail of a run are keys of its rules. -/
theorem key_of_runTrail : ∀ s ∈ runTrail form rules files w, ∀ hit ∈ s.hits,
    ∃ rule ∈ rules, hit.2.key = rule.key := by
  rw [runTrail]
  split
  · simp
  split
  · simp
  rename_i job w' hprepare
  obtain ⟨-, hkeys⟩ := ready_of_prepare hprepare
  intro s hs hit hhit
  obtain ⟨c, hc, hkey⟩ := Job.key_of_trail job files w' s hs hit hhit
  obtain ⟨rule, hrule, hkept⟩ := hkeys c hc
  exact ⟨rule, hrule, hkey.trans hkept⟩

theorem onLines_runTrail
    (hlabels : ∀ s ∈ runTrail form rules files w, .scalar '\n' ∉ s.label.toList)
    (hkeys : ∀ rule ∈ rules, .scalar '\n' ∉ rule.key.toList) :
    ∀ s ∈ runTrail form rules files w, s.OnLines := by
  intro s hs
  refine ⟨hlabels s hs, fun hit hhit => ?_⟩
  obtain ⟨rule, hrule, hkey⟩ := key_of_runTrail s hs hit hhit
  rw [hkey]
  exact hkeys rule hrule

end Runs

/-- What a run adds to a report are the records of its trail, however the run ends, and the text of
the records tells the trail: two runs that have reported the same text have begun the same sections,
have left the last open or not, and have found the same hits of the same rules on the same lines.
Paths and keys may be any that do not go over more than one line. -/
theorem report_tells_trail {form form' : IdentityForm} {rules rules' : List Rule}
    {files files' : List Path} {w w' : Workspace}
    (hlabels : ∀ s ∈ runTrail form rules files w, .scalar '\n' ∉ s.label.toList)
    (hlabels' : ∀ s ∈ runTrail form' rules' files' w', .scalar '\n' ∉ s.label.toList)
    (hkeys : ∀ rule ∈ rules, .scalar '\n' ∉ rule.key.toList)
    (hkeys' : ∀ rule ∈ rules', .scalar '\n' ∉ rule.key.toList) :
    w.report.GrowsBy (trailRecords (runTrail form rules files w))
      ((copyFiles form rules files).run w).2.report ∧
    w'.report.GrowsBy (trailRecords (runTrail form' rules' files' w'))
      ((copyFiles form' rules' files').run w').2.report ∧
    (recordText (trailRecords (runTrail form rules files w)) =
        recordText (trailRecords (runTrail form' rules' files' w')) ↔
      runTrail form rules files w = runTrail form' rules' files' w') :=
  ⟨copyFiles_trail, copyFiles_trail,
    recordText_inj (onLines_runTrail hlabels hkeys) (onLines_runTrail hlabels' hkeys')⟩

end Trail

/-- A key that looks like the end of another line. -/
def quotedKey : Text := "a' (detect only)"

section Sample

attribute [local instance] sampleHost

theorem report_tells_trail_quoted :
    runTrail jdoeForm [.username quotedKey] [loginLog] loginWorkspace =
      [⟨"/a.log", [(1, ⟨quotedKey, true⟩)], true⟩] ∧
    runTrail jdoeForm [.username "a"] [loginLog] loginWorkspace =
      [⟨"/a.log", [(1, ⟨"a", true⟩)], true⟩] ∧
    recordText (trailRecords (runTrail jdoeForm [.username quotedKey] [loginLog] loginWorkspace)) ≠
      recordText (trailRecords (runTrail jdoeForm [.username "a"] [loginLog] loginWorkspace)) := by
  have hquoted : runTrail jdoeForm [.username quotedKey] [loginLog] loginWorkspace =
      [⟨"/a.log", [(1, ⟨quotedKey, true⟩)], true⟩] := by decide +kernel
  have hplain : runTrail jdoeForm [.username "a"] [loginLog] loginWorkspace =
      [⟨"/a.log", [(1, ⟨"a", true⟩)], true⟩] := by decide +kernel
  obtain ⟨-, -, htells⟩ := @report_tells_trail _ jdoeForm jdoeForm [.username quotedKey]
    [.username "a"] [loginLog] [loginLog] loginWorkspace loginWorkspace
    (by rw [hquoted]; decide +kernel) (by rw [hplain]; decide +kernel) (by decide +kernel)
    (by decide +kernel)
  refine ⟨hquoted, hplain, fun htext => ?_⟩
  have hsame := htells.mp htext
  rw [hquoted, hplain] at hsame
  exact absurd hsame (by decide +kernel)

end Sample

end LogRedaction
