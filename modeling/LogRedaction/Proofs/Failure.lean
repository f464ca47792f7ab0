/-
LogRedaction.Proofs.Failure — when a rule stops the redaction of a line.

The replacement of a rule is expanded and read at every line that the rule matches, although that
has been done before, when the rule was compiled. For the values that it was compiled with nothing
new can come of it. For other values it may fail, but only when the rule has its turn and matches
what the rules before it have left; a rule that matches nothing may have any replacement.

`StoppedBy` says this of a list of rules in the words of findings: those before the rule have made
theirs, and the rule is the first that cannot. `redactLine_fails_iff` ties it to the redaction of a
line, and to the runs, which only use rules with the values that these were compiled with.

## §1 Rules that cannot be used
## §2 The first of them
## §3 Runs
-/
import LogRedaction.Proofs.Finding
import LogRedaction.Proofs.Interruption

namespace LogRedaction

open Text

section Failure

variable [Host]

/-! ## §1 Rules that cannot be used -/

/-- The replacement of the rule cannot be used with these values: it does not expand, or it expands
to something that is not blank and no expression. -/
inductive CompiledRule.Unusable (mapping : Mapping) (rule : CompiledRule) : LineError → Prop where
  | unresolved {name : Text} :
      Template.expand mapping rule.replace (some rule.key) = .error ⟨name, some rule.key⟩ →
      Unusable mapping rule (.unresolved ⟨name, some rule.key⟩)
  | refused {replace : Text} {refusal : Regex.Refusal} :
      Template.expand mapping rule.replace (some rule.key) = .ok replace →
      isAllBlank replace = false → Regex.read replace = .error refusal →
      Unusable mapping rule (.refused replace refusal)

section Unusable

variable {mapping : Mapping} {rule : CompiledRule} {e : LineError}

theorem CompiledRule.treatment_eq_error_iff :
    rule.treatment mapping = .error e ↔ rule.Unusable mapping e := by
  rw [treatment]
  constructor
  · intro h
    split at h
    · rename_i unresolved hexpand
      obtain ⟨name, key⟩ := unresolved
      obtain rfl : key = some rule.key := Template.rule_of_expand_error hexpand
      rw [← Except.error.inj h]
      exact .unresolved hexpand
    · rename_i replace hexpand
      split at h
      · cases h
      · rename_i hblank
        split at h
        · cases h
        · rename_i refusal hread
          rw [← Except.error.inj h]
          exact .refused hexpand (Bool.eq_false_iff.mpr hblank) hread
  · rintro (hexpand | ⟨hexpand, hblank, hread⟩)
    · rw [hexpand]
    · simp [hexpand, hblank, hread]

/-- It is only where the rule matches that its replacement matters. -/
theorem CompiledRule.apply_eq_error_iff {pseudonym text : List CodePoint} :
    rule.apply mapping pseudonym text = .error e ↔
      rule.detect.occursIn text = true ∧ rule.Unusable mapping e := by
  rw [← treatment_eq_error_iff, apply]
  cases rule.detect.occursIn text with
  | false => simp
  | true => rcases rule.treatment mapping with e' | (_ | regex) <;> simp

end Unusable

/-! ## §2 The first of them -/

section Stop

variable {mapping : Mapping} {pseudonym : List CodePoint}

/-- A rule that makes a finding can be applied. -/
theorem Finding.Holds.apply {finding : Finding} (h : finding.Holds mapping pseudonym) :
    finding.rule.apply mapping pseudonym finding.before =
      .ok (some (finding.after, finding.hit)) := by
  refine CompiledRule.apply_eq_some_iff.mpr ⟨h.found, ?_⟩
  cases hreplaces : finding.replaces with
  | false =>
      have hblank : isAllBlank finding.replace = true := by
        simpa [Finding.replaces] using hreplaces
      refine .inl ⟨CompiledRule.treatment_eq_note_iff.mpr ⟨_, h.expanded, hblank⟩,
        h.noted hreplaces, ?_⟩
      rw [Finding.hit, hreplaces]
  | true =>
      have hblank : isAllBlank finding.replace = false := by
        simpa [Finding.replaces] using hreplaces
      obtain ⟨regex, hread, hafter, -⟩ := h.replaced hreplaces
      refine .inr ⟨regex, CompiledRule.treatment_eq_replace_iff.mpr ⟨_, h.expanded, hblank, hread⟩,
        hafter, ?_⟩
      rw [Finding.hit, hreplaces]

/-- Rules that make these findings are passed, and the rules after them see what they have left. -/
theorem applyRules_append_of_findings {rules : List CompiledRule} {text last : List CodePoint}
    {findings : List Finding} (h : Findings mapping pseudonym rules text findings last)
    (more : List CompiledRule) :
    applyRules mapping pseudonym (rules ++ more) text =
      let course := applyRules mapping pseudonym more last
      { course with hits := findings.map Finding.hit ++ course.hits } := by
  induction h with
  | none => rfl
  | @passed rule rules text last findings hnone _ ih =>
      have happly : rule.apply mapping pseudonym text = .ok none := by
        simp [CompiledRule.apply, hnone]
      rw [List.cons_append, applyRules_cons_ok happly]
      exact ih
  | @found finding rules last findings hfinding _ ih =>
      rw [List.cons_append, applyRules_cons_ok hfinding.apply]
      simp only [Option.map_some, Option.getD_some, ih]
      rfl

/-- Some rule matches what the rules before it have left and cannot be used; they could. -/
def StoppedBy (mapping : Mapping) (pseudonym : List CodePoint) (rules : List CompiledRule)
    (text : List CodePoint) (e : LineError) : Prop :=
  ∃ before rule after findings left, rules = before ++ rule :: after ∧
    Findings mapping pseudonym before text findings left ∧
    rule.detect.occursIn left = true ∧ rule.Unusable mapping e

theorem failure_of_stoppedBy {rules : List CompiledRule} {text : List CodePoint} {e : LineError}
    (h : StoppedBy mapping pseudonym rules text e) :
    (applyRules mapping pseudonym rules text).failure = some e := by
  obtain ⟨before, rule, after, findings, left, rfl, hfindings, hfound, hunusable⟩ := h
  have happly : rule.apply mapping pseudonym left = .error e :=
    CompiledRule.apply_eq_error_iff.mpr ⟨hfound, hunusable⟩
  rw [applyRules_append_of_findings hfindings, applyRules, happly]

/-- A course that fails has been stopped. The findings are collected on the way to the rule. -/
theorem stoppedBy_of_failure {rules : List CompiledRule} {text : List CodePoint} {e : LineError}
    (h : (applyRules mapping pseudonym rules text).failure = some e) :
    StoppedBy mapping pseudonym rules text e := by
  induction rules generalizing text with
  | nil => cases h
  | cons rule rules ih =>
      rcases happly : rule.apply mapping pseudonym text with e' | _ | ⟨result, hit⟩
      · rw [applyRules, happly] at h
        obtain rfl : e' = e := Option.some.inj h
        obtain ⟨hfound, hunusable⟩ := CompiledRule.apply_eq_error_iff.mp happly
        exact ⟨[], rule, rules, [], text, rfl, .none, hfound, hunusable⟩
      · rw [applyRules_cons_ok happly] at h
        obtain ⟨before, bad, after, findings, left, rfl, hfindings, hbad⟩ := ih h
        have hnone := (CompiledRule.isSome_of_apply happly).symm
        exact ⟨rule :: before, bad, after, findings, left, rfl, .passed hnone hfindings, hbad⟩
      · rw [applyRules_cons_ok happly] at h
        obtain ⟨before, bad, after, findings, left, rfl, hfindings, hbad⟩ := ih h
        obtain ⟨replace, hholds, -⟩ := CompiledRule.exists_finding happly
        exact ⟨rule :: before, bad, after, _, left, rfl, .found hholds hfindings, hbad⟩

end Stop

/-! ## §3 Runs -/

/-- The copying of a file does not end at a line if the rules are ready. -/
theorem copyFile_ne_line {job : Job} (hjob : job.Ready) {source : Path} {w w' : Workspace}
    {e : LineError} : (copyFile job source).run w ≠ (.error (.line e), w') := by
  intro hrun
  have hcourse := copyFile_course hjob source w
  rw [hrun] at hcourse
  cases hcourse with
  | unopened hunopened => cases hunopened

theorem copyEach_ne_line {job : Job} (hjob : job.Ready) {files : List Path} {w w' : Workspace}
    {e : LineError} : (copyEach job [] files).run w ≠ (.error (.line e), w') := by
  intro hrun
  obtain ⟨before, source, after, copies, w₁, e', -, -, hsource, he⟩ := copyEach_ended hrun
  cases e' with
  | line e' => exact copyFile_ne_line hjob hsource
  | failure _ => cases he
  | nulInPath => cases he
  | report _ => cases he

/-- A line cannot be redacted if and only if a rule matches what the rules before it have left and
its replacement cannot be used; the error is that of the first such rule. With the values that the
rules were compiled with there is none, so that no run of theirs ends at a line of a file. -/
theorem redactLine_fails_iff :
    (∀ (rules : List CompiledRule) (mapping : Mapping) (n : Int) (pseudonym source line : Text)
      (e : LineError), redactLine rules mapping n pseudonym source line = .error e ↔
        StoppedBy mapping pseudonym.toList rules line.toList e) ∧
    (∀ (mapping : Mapping) (rules : List Rule) (compiled : List CompiledRule),
      Rule.compileAll mapping rules = .ok compiled →
      ∀ (n : Int) (pseudonym source line : Text),
        ∃ outcome, redactLine compiled mapping n pseudonym source line = .ok outcome) ∧
    ∀ (form : IdentityForm) (rules : List Rule) (files : List Path) (w w' : Workspace)
      (e : LineError), (copyFiles form rules files).run w ≠ (.error (.line e), w') := by
  refine ⟨?_, ?_, ?_⟩
  · intro rules mapping n pseudonym source line e
    rw [redactLine_eq_error_iff]
    exact ⟨stoppedBy_of_failure, failure_of_stoppedBy⟩
  · intro mapping rules compiled hcompile n pseudonym source line
    exact LineCourse.exists_outcome
      (applyRules_ready pseudonym.toList (Rule.ready_of_compileAll hcompile) line.toList) source n
  · intro form rules files w w' e hrun
    rw [run_copyFiles] at hrun
    cases hcheck : form.check with
    | error _ =>
        rw [hcheck] at hrun
        cases hrun
    | ok identity =>
        simp only [hcheck] at hrun
        cases hcompile : Rule.compileAll identity.mapping rules with
        | error _ =>
            rw [hcompile] at hrun
            cases hrun
        | ok compiled =>
            rw [hcompile] at hrun
            exact copyEach_ne_line (Rule.ready_of_compileAll hcompile) hrun

end Failure

section Sample

attribute [local instance] sampleHost

/-- The rule for names has been compiled for a user, and is used with no values at all: it stops
where it matches. With the values of the user it does not stop. -/
theorem redactLine_fails_without_values : ∃ compiled outcome,
    Rule.compileAll jdoe.mapping [.username "plain-username"] = .ok compiled ∧
    StoppedBy [] jdoe.pseudonym.toList compiled ("User jdoe logged in" : Text).toList
      (.unresolved ⟨"username", some "plain-username"⟩) ∧
    (∀ e, ¬ StoppedBy [] jdoe.pseudonym.toList compiled ("bye" : Text).toList e) ∧
    redactLine compiled jdoe.mapping 1 jdoe.pseudonym "" "User jdoe logged in" = .ok outcome ∧
    ∀ w' e, (copyFiles jdoeForm [.username "plain-username"] [loginLog]).run loginWorkspace ≠
      (.error (.line e), w') := by
  obtain ⟨compiled, hcompile⟩ := Rule.compileAll_jdoe
  have hsome : (Rule.compileAll jdoe.mapping [.username "plain-username"]).toOption =
      some compiled := by rw [hcompile]; rfl
  have hfails : ((Rule.compileAll jdoe.mapping [.username "plain-username"]).toOption.map
      fun compiled => (applyRules [] jdoe.pseudonym.toList compiled
        ("User jdoe logged in" : Text).toList).failure) =
      some (some (.unresolved ⟨"username", some "plain-username"⟩)) := by
    decide +kernel
  have hpasses : ((Rule.compileAll jdoe.mapping [.username "plain-username"]).toOption.map
      fun compiled => (applyRules [] jdoe.pseudonym.toList compiled ("bye" : Text).toList).failure) =
      some none := by
    decide +kernel
  rw [hsome, Option.map_some, Option.some.injEq] at hfails hpasses
  obtain ⟨outcome, houtcome⟩ := redactLine_fails_iff.2.1 jdoe.mapping _ compiled hcompile 1
    jdoe.pseudonym "" "User jdoe logged in"
  refine ⟨compiled, outcome, hcompile, ?_, ?_, houtcome, ?_⟩
  · exact (redactLine_fails_iff.1 compiled [] 1 jdoe.pseudonym "" "User jdoe logged in" _).mp
      (redactLine_eq_error_iff.mpr hfails)
  · intro e hstopped
    have herror := (redactLine_fails_iff.1 compiled [] 1 jdoe.pseudonym "" "bye" e).mpr hstopped
    rw [redactLine_eq_error_iff, hpasses] at herror
    cases herror
  · exact fun w' e => redactLine_fails_iff.2.2 jdoeForm _ _ loginWorkspace w' e

end Sample

end LogRedaction
