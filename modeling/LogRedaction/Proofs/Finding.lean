/-
LogRedaction.Proofs.Finding — what the entries about a line tell.

A rule that matches makes a *finding*: the text that it was applied to, what its replacement expands
to, and the text that it left. `Findings` says which findings a list of rules makes in a line; each
rule sees what the one before has left. The entries about a line are its findings, one each and in
order (`exists_findings`).

An entry says that something was replaced if the replacement of the rule is not blank. Whether the
replacement, as an expression, occurs in the text is another question: detection and replacement are
two expressions. If it occurs, the pseudonym stands in the text that is left, and if it does not,
the text is left as it was (`Finding.Holds`). The counts of a copy and the lines of the report are
numbers of such entries (`entries_tell_findings`).

## §1 Findings
## §2 Entries
## §3 Counts
-/
import LogRedaction.Proofs.Copying
import LogRedaction.Proofs.Regex.Cut

namespace LogRedaction

open Text

/-! ## §1 Findings -/

/-- A rule that matched, and what it did. -/
structure Finding where
  rule : CompiledRule
  /-- What the replacement of the rule expands to. -/
  replace : Text
  /-- The text that the rule was applied to. -/
  before : List CodePoint
  /-- The text that it left. -/
  after : List CodePoint

section Findings

variable [Host]

namespace Finding

/-- The rule has something to replace. -/
def replaces (finding : Finding) : Bool := !isAllBlank finding.replace

/-- The finding as a hit. -/
def hit (finding : Finding) : Hit := ⟨finding.rule.key, finding.replaces⟩

/-- The finding is one that the rule makes. -/
structure Holds (mapping : Mapping) (pseudonym : List CodePoint) (finding : Finding) : Prop where
  found : finding.rule.detect.occursIn finding.before = true
  expanded : Template.expand mapping finding.rule.replace (some finding.rule.key) =
    .ok finding.replace
  noted : finding.replaces = false → finding.after = finding.before
  replaced : finding.replaces = true → ∃ regex, Regex.read finding.replace = .ok regex ∧
    finding.after = regex.replace pseudonym finding.before ∧
    (regex.occursIn finding.before = true → pseudonym <:+: finding.after) ∧
    (regex.occursIn finding.before = false → finding.after = finding.before)

end Finding

/-- Applied to the text in order, the rules make these findings and leave the last text. -/
inductive Findings (mapping : Mapping) (pseudonym : List CodePoint) :
    List CompiledRule → List CodePoint → List Finding → List CodePoint → Prop where
  | none {text : List CodePoint} : Findings mapping pseudonym [] text [] text
  | passed {rule : CompiledRule} {rules : List CompiledRule} {text last : List CodePoint}
      {findings : List Finding} : rule.detect.occursIn text = false →
      Findings mapping pseudonym rules text findings last →
      Findings mapping pseudonym (rule :: rules) text findings last
  | found {finding : Finding} {rules : List CompiledRule} {last : List CodePoint}
      {findings : List Finding} : finding.Holds mapping pseudonym →
      Findings mapping pseudonym rules finding.after findings last →
      Findings mapping pseudonym (finding.rule :: rules) finding.before (finding :: findings) last

section Apply

variable {mapping : Mapping} {pseudonym text : List CodePoint} {rule : CompiledRule}

/-- A rule that matches makes a finding. -/
theorem CompiledRule.exists_finding {result : List CodePoint} {hit : Hit}
    (h : rule.apply mapping pseudonym text = .ok (some (result, hit))) :
    ∃ replace, Finding.Holds mapping pseudonym ⟨rule, replace, text, result⟩ ∧
      hit = Finding.hit ⟨rule, replace, text, result⟩ := by
  obtain ⟨hfound, ⟨htreatment, rfl, rfl⟩ | ⟨regex, htreatment, rfl, rfl⟩⟩ := apply_eq_some_iff.mp h
  · obtain ⟨replace, hexpand, hblank⟩ := treatment_eq_note_iff.mp htreatment
    exact ⟨replace, ⟨hfound, hexpand, fun _ => rfl, by simp [Finding.replaces, hblank]⟩,
      by simp [Finding.hit, Finding.replaces, hblank]⟩
  · obtain ⟨replace, hexpand, hblank, hread⟩ := treatment_eq_replace_iff.mp htreatment
    refine ⟨replace, ⟨hfound, hexpand, by simp [Finding.replaces, hblank], fun _ => ?_⟩,
      by simp [Finding.hit, Finding.replaces, hblank]⟩
    exact ⟨regex, hread, rfl, fun hoccurs => Regex.infix_replace_of_occursIn hoccurs pseudonym,
      fun hnone => Regex.replace_of_not_occursIn hnone pseudonym⟩

/-- The hits of a course without failure are findings. -/
theorem exists_findings {rules : List CompiledRule}
    (h : (applyRules mapping pseudonym rules text).failure = none) :
    ∃ findings, Findings mapping pseudonym rules text findings
        (applyRules mapping pseudonym rules text).text ∧
      (applyRules mapping pseudonym rules text).hits = findings.map Finding.hit := by
  induction rules generalizing text with
  | nil => exact ⟨[], .none, rfl⟩
  | cons rule rules ih =>
      rcases happly : rule.apply mapping pseudonym text with e | found
      · rw [applyRules, happly] at h
        cases h
      rw [applyRules_cons_ok happly] at h ⊢
      obtain ⟨findings, hfindings, hhits⟩ := ih h
      rcases found with _ | ⟨result, hit⟩
      · have hnone := (CompiledRule.isSome_of_apply happly).symm
        exact ⟨findings, .passed hnone hfindings, hhits⟩
      · obtain ⟨replace, hholds, rfl⟩ := CompiledRule.exists_finding happly
        refine ⟨_ :: findings, .found hholds hfindings, ?_⟩
        rw [List.map_cons, ← hhits]
        rfl

end Apply

/-! ## §2 Entries -/

section Entries

variable {mapping : Mapping} {pseudonym source line : Text} {rules : List CompiledRule} {n : Int}
  {outcome : RedactedLine}

/-- The entries about a line are its findings. -/
theorem redactLine_findings
    (h : redactLine rules mapping n pseudonym source line = .ok outcome) :
    ∃ findings, Findings mapping pseudonym.toList rules line.toList findings outcome.text.toList ∧
      outcome.entries = findings.map fun finding => finding.hit.entry source n := by
  obtain ⟨text, hits, hcourse, rfl⟩ := redactLine_eq_ok_iff.mp h
  obtain ⟨findings, hfindings, hhits⟩ :=
    exists_findings (congrArg LineCourse.failure hcourse)
  rw [hcourse] at hfindings hhits
  refine ⟨findings, ?_, ?_⟩
  · exact hfindings
  · have hhits : hits = findings.map Finding.hit := hhits
    rw [hhits, List.map_map]
    rfl

end Entries

/-- The findings in the lines of a text, line by line, are the entries about them. -/
theorem findings_of_lineByLine {job : Job} {label : Text} {n : Nat} {ls : List (List Char)}
    {outcomes : List RedactedLine} (h : LineByLine job label n ls outcomes) :
    ∃ findings : List (List Finding),
      List.Forall₂ (fun line found => ∃ last,
        Findings job.mapping job.pseudonym.toList job.rules (line.map .scalar) found last)
          ls findings ∧
      (allEntries outcomes).map (·.substituted) = findings.flatten.map Finding.replaces := by
  induction h with
  | nil => exact ⟨[], .nil, rfl⟩
  | cons hline _ ih =>
      obtain ⟨found, hfound, hentries⟩ := redactLine_findings hline
      obtain ⟨findings, hfindings, hmore⟩ := ih
      refine ⟨found :: findings, .cons ⟨_, hfound⟩ hfindings, ?_⟩
      rw [allEntries] at hmore
      rw [allEntries, List.flatMap_cons, List.map_append, hmore, List.flatten_cons, List.map_append,
        hentries, List.map_map]
      rfl

/-! ## §3 Counts -/

/-- The line of a report says that something was replaced. -/
def saysReplaced (line : Text) : Bool := ("Replaced, " : Text).toList.isPrefixOf line.toList

omit [Host] in
theorem saysReplaced_format (entry : AuditEntry) :
    saysReplaced entry.format = entry.substituted := by
  obtain ⟨source, n, substituted, description⟩ := entry
  cases substituted <;>
    by_cases hempty : description = "" <;>
    simp [saysReplaced, AuditEntry.format, hempty, List.isPrefixOf]

omit [Host] in
/-- The lines that say so in the section about a file are those of the entries that say so. -/
theorem countP_saysReplaced (label : Text) (outcomes : List RedactedLine) :
    (reportLines (fileSection label outcomes)).countP saysReplaced =
      (allEntries outcomes).countP (·.substituted) := by
  have hstart : saysReplaced (Record.render ⟨.start, label⟩) = false := by
    simp [saysReplaced, Record.render, List.isPrefixOf]
  have hfinish : saysReplaced (Record.render ⟨.finish, label⟩) = false := by
    simp [saysReplaced, Record.render, List.isPrefixOf]
  have hentries : ((allEntries outcomes).map AuditEntry.record).map Record.render =
      (allEntries outcomes).map AuditEntry.format := by
    rw [List.map_map]
    rfl
  rw [fileSection, begunSection, reportLines, List.cons_append, List.map_cons, List.map_append,
    hentries, List.countP_cons_of_neg (by simp [hstart]), List.countP_append, List.countP_map]
  simp [Function.comp_def, saysReplaced_format, hfinish]

/-- The entries about a line are the findings of the rules in it: an entry says that something was
replaced if the replacement is not blank. The counts of a complete copy, and the lines of the report
that say so, are the numbers of these entries. -/
theorem entries_tell_findings :
    (∀ (rules : List CompiledRule) (mapping : Mapping) (n : Int) (pseudonym source line : Text)
      (outcome : RedactedLine),
      redactLine rules mapping n pseudonym source line = .ok outcome →
      ∃ findings,
        Findings mapping pseudonym.toList rules line.toList findings outcome.text.toList ∧
        outcome.entries = findings.map fun finding => finding.hit.entry source n) ∧
    ∀ (identity : Identity) (rules : List Rule) (compiled : List CompiledRule) (source : Path)
      (w w' : Workspace) (copy : FileCopy),
      Rule.compileAll identity.mapping rules = .ok compiled →
      (copyFile ⟨compiled, identity.mapping, identity.pseudonym⟩ source).run w = (.ok copy, w') →
      ∃ text ls findings records, w.disk.read source = .ok (encodeUtf8 text) ∧ LinesOf text ls ∧
        List.Forall₂ (fun line found => ∃ last,
          Findings identity.mapping identity.pseudonym.toList compiled (line.map .scalar) found last)
            ls findings ∧
        copy.substitutions = findings.flatten.countP Finding.replaces ∧
        w.report.GrowsBy records w'.report ∧
        (reportLines records).countP saysReplaced = copy.substitutions := by
  refine ⟨fun _ _ _ _ _ _ _ => redactLine_findings, ?_⟩
  intro identity rules compiled source w w' copy hcompile hrun
  have hjob : Job.Ready ⟨compiled, identity.mapping, identity.pseudonym⟩ :=
    Rule.ready_of_compileAll hcompile
  have hcourse := copyFile_course hjob source w
  rw [hrun] at hcourse
  cases hcourse with
  | @completed text _ _ _ _ _ hread _ _ hadd =>
      obtain ⟨findings, hfindings, hentries⟩ := findings_of_lineByLine
        ((@lineByLine_iff _ _ hjob (w.disk.label source)).mpr
          (rfl : Job.outcomes _ _ 1 (lines text) = _))
      refine ⟨text, lines text, findings, _, hread, linesOf_iff.mpr rfl, hfindings, ?_,
        Report.growsBy_of_addAll? hadd, countP_saysReplaced _ _⟩
      have hcount := congrArg (List.countP id) hentries
      rwa [List.countP_map, List.countP_map] at hcount

end Findings

section Sample

attribute [local instance] sampleHost

/-- The rule for names finds the name in the first line of the log and replaces it there. -/
theorem entries_tell_findings_login : ∃ compiled outcome findings copy w' records,
    Rule.compileAll jdoe.mapping [.username "plain-username"] = .ok compiled ∧
    redactLine compiled jdoe.mapping 1 jdoe.pseudonym "" "User jdoe logged in" = .ok outcome ∧
    Findings jdoe.mapping jdoe.pseudonym.toList compiled ("User jdoe logged in" : Text).toList findings
      outcome.text.toList ∧
    (copyFile ⟨compiled, jdoe.mapping, jdoe.pseudonym⟩ loginLog).run loginWorkspace =
      (.ok copy, w') ∧
    loginWorkspace.report.GrowsBy records w'.report ∧ copy.substitutions = 1 ∧
    (reportLines records).countP saysReplaced = 1 := by
  obtain ⟨compiled, hcompile⟩ := Rule.compileAll_jdoe
  have hsome : (Rule.compileAll jdoe.mapping [.username "plain-username"]).toOption =
      some compiled := by rw [hcompile]; rfl
  have hline : ((Rule.compileAll jdoe.mapping [.username "plain-username"]).toOption.bind
      fun compiled => (redactLine compiled jdoe.mapping 1 jdoe.pseudonym ""
        "User jdoe logged in").toOption) =
      some ⟨"User ANON-7f3a logged in", true, [⟨"", 1, true, "rule 'plain-username'"⟩]⟩ := by
    decide +kernel
  have hfile : ((Rule.compileAll jdoe.mapping [.username "plain-username"]).toOption.bind
      fun compiled => ((copyFile ⟨compiled, jdoe.mapping, jdoe.pseudonym⟩ loginLog).run
        loginWorkspace).1.toOption) =
      some ⟨loginLog, some (tempPath ⟨7, 0⟩ loginLog), .completed, 2, 1, 1⟩ := by
    decide +kernel
  rw [hsome] at hline hfile
  have hcopy : ((copyFile ⟨compiled, jdoe.mapping, jdoe.pseudonym⟩ loginLog).run loginWorkspace).1 =
      .ok ⟨loginLog, some (tempPath ⟨7, 0⟩ loginLog), .completed, 2, 1, 1⟩ :=
    eq_ok_of_toOption hfile
  obtain ⟨findings, hfindings, -⟩ :=
    entries_tell_findings.1 compiled jdoe.mapping 1 jdoe.pseudonym "" "User jdoe logged in" _
      (eq_ok_of_toOption hline)
  obtain ⟨text, ls, found, records, -, -, -, -, hgrows, hcount⟩ :=
    entries_tell_findings.2 jdoe _ compiled loginLog loginWorkspace _ _ hcompile
      (Prod.ext hcopy rfl)
  exact ⟨compiled, _, findings, _, _, records, hcompile, eq_ok_of_toOption hline, hfindings,
    Prod.ext hcopy rfl, hgrows, rfl, hcount⟩

/-- A rule that finds a word and replaces another. -/
def otherRule : Rule := ⟨"tenant", "tenant", "jdoe"⟩

/-- The entry says that something was replaced, but the name does not occur and the line is left as
it was. -/
theorem substituted_without_occurrence : ∃ compiled regex,
    Rule.compileAll jdoe.mapping [otherRule] = .ok compiled ∧
    Template.expand jdoe.mapping otherRule.replace (some otherRule.key) = .ok "jdoe" ∧
    Regex.read "jdoe" = .ok regex ∧ regex.occursIn ("tenant=0 login" : Text).toList = false ∧
    redactLine compiled jdoe.mapping 1 jdoe.pseudonym "" "tenant=0 login" =
      .ok ⟨"tenant=0 login", true, [⟨"", 1, true, "rule 'tenant'"⟩]⟩ := by
  have hline : ((Rule.compileAll jdoe.mapping [otherRule]).toOption.bind fun compiled =>
      (redactLine compiled jdoe.mapping 1 jdoe.pseudonym "" "tenant=0 login").toOption) =
        some ⟨"tenant=0 login", true, [⟨"", 1, true, "rule 'tenant'"⟩]⟩ := by
    decide +kernel
  have hoccurs : ((Regex.read "jdoe").toOption.map fun regex =>
      regex.occursIn ("tenant=0 login" : Text).toList) = some false := by
    decide +kernel
  obtain ⟨compiled, hcompile, houtcome⟩ := Option.bind_eq_some_iff.mp hline
  obtain ⟨regex, hread, hnone⟩ := Option.map_eq_some_iff.mp hoccurs
  exact ⟨compiled, regex, eq_ok_of_toOption hcompile, eq_ok_of_toOption (by decide +kernel),
    eq_ok_of_toOption hread, hnone, eq_ok_of_toOption houtcome⟩

end Sample

end LogRedaction
