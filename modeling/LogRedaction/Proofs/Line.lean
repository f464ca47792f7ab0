/-
LogRedaction.Proofs.Line — a whole text redacted line by line.

`LineByLine` is what the redaction of a text means: each of its lines, with its number, redacted on
its own. It knows nothing of files. What a rule does to a line is one of three things, and
`apply_eq_some_iff` tells them apart. The rules after it see what it has left
(`applyRules_cons_ok`), so what each rule keeps, all of them keep (`applyRules_keeps`).

With rules that are ready no line fails (`redactLine_ready`), and what becomes of lines can be
computed: `Job.outcomes`.
-/
import LogRedaction.Copying
import LogRedaction.Proofs.Regex.Cut
import LogRedaction.Proofs.Rule
import LogRedaction.Proofs.Text.Encoding

namespace LogRedaction

variable [Host]

/-! ## Lines one by one -/

/-- The lines are redacted one by one; the first one has the given number. -/
inductive LineByLine (job : Job) (label : Text) : Nat → List (List Char) → List RedactedLine →
    Prop where
  | nil {n : Nat} : LineByLine job label n [] []
  | cons {n : Nat} {line : List Char} {outcome : RedactedLine} {lines : List (List Char)}
      {outcomes : List RedactedLine} :
      redactLine job.rules job.mapping n job.pseudonym label (Text.ofChars line) = .ok outcome →
      LineByLine job label (n + 1) lines outcomes →
      LineByLine job label n (line :: lines) (outcome :: outcomes)

theorem length_of_lineByLine {job : Job} {label : Text} {n : Nat} {lines : List (List Char)}
    {outcomes : List RedactedLine} (h : LineByLine job label n lines outcomes) :
    outcomes.length = lines.length := by
  induction h with
  | nil => rfl
  | cons _ _ ih => rw [List.length_cons, List.length_cons, ih]

/-- The text of redacted lines that can be written, each with its end. -/
def writtenText (outcomes : List RedactedLine) : List Char :=
  outcomes.flatMap fun outcome => outcome.text.chars ++ ['\n']

/-- The entries about redacted lines, line by line. -/
def allEntries (outcomes : List RedactedLine) : List AuditEntry := outcomes.flatMap (·.entries)

omit [Host] in
theorem allEntries_cons (outcome : RedactedLine) (outcomes : List RedactedLine) :
    allEntries (outcome :: outcomes) = outcome.entries ++ allEntries outcomes := List.flatMap_cons

/-! ## What a rule does -/

namespace CompiledRule

variable {mapping : Mapping} {rule : CompiledRule} {pseudonym text result : List CodePoint} {hit : Hit}

theorem treatment_eq_note_iff : rule.treatment mapping = .ok .note ↔
    ∃ replace, Template.expand mapping rule.replace (some rule.key) = .ok replace ∧
      Text.isAllBlank replace = true := by
  rw [treatment]
  cases Template.expand mapping rule.replace (some rule.key) with
  | error e => simp
  | ok replace =>
      cases hblank : Text.isAllBlank replace with
      | true => simp [hblank]
      | false => cases hread : Regex.read replace <;> simp [hblank, hread]

theorem treatment_eq_replace_iff {regex : Regex} : rule.treatment mapping = .ok (.replace regex) ↔
    ∃ replace, Template.expand mapping rule.replace (some rule.key) = .ok replace ∧
      Text.isAllBlank replace = false ∧ Regex.read replace = .ok regex := by
  rw [treatment]
  cases Template.expand mapping rule.replace (some rule.key) with
  | error e => simp
  | ok replace =>
      cases hblank : Text.isAllBlank replace with
      | true => simp [hblank]
      | false => cases hread : Regex.read replace <;> simp [hblank, hread]

/-- A rule that finds something notes the text or replaces in it. -/
theorem apply_eq_some_iff : rule.apply mapping pseudonym text = .ok (some (result, hit)) ↔
    rule.detect.occursIn text = true ∧
      ((rule.treatment mapping = .ok .note ∧ result = text ∧ hit = ⟨rule.key, false⟩) ∨
        ∃ regex, rule.treatment mapping = .ok (.replace regex) ∧
          result = regex.replace pseudonym text ∧ hit = ⟨rule.key, true⟩) := by
  rw [apply]
  cases rule.detect.occursIn text with
  | false => simp
  | true =>
      rcases htreatment : rule.treatment mapping with e | (_ | regex)
      · simp
      · simp [eq_comm]
      · simp [eq_comm]

/-- A rule finds something where its detection matches. -/
theorem isSome_of_apply {found : Option (List CodePoint × Hit)}
    (h : rule.apply mapping pseudonym text = .ok found) :
    found.isSome = rule.detect.occursIn text := by
  rw [apply] at h
  split at h
  · rename_i hoccurs
    rw [hoccurs]
    split at h
    · cases h
    · rw [← Except.ok.inj h]
      rfl
    · rw [← Except.ok.inj h]
      rfl
  · rename_i hoccurs
    rw [← Except.ok.inj h, Bool.eq_false_iff.mpr hoccurs]
    rfl

end CompiledRule

/-! ## Rules one after the other -/

section Course

variable {mapping : Mapping} {pseudonym text : List CodePoint}

/-- A rule that can be applied leaves its text to the rules after it. -/
theorem applyRules_cons_ok {rule : CompiledRule} {found : Option (List CodePoint × Hit)}
    (h : rule.apply mapping pseudonym text = .ok found) (rules : List CompiledRule) :
    applyRules mapping pseudonym (rule :: rules) text =
      let course := applyRules mapping pseudonym rules ((found.map Prod.fst).getD text)
      { course with hits := (found.map Prod.snd).toList ++ course.hits } := by
  rw [applyRules, h]
  cases found <;> rfl

/-- What each rule keeps when it is applied, all of them keep. -/
theorem applyRules_keeps {P : List CodePoint → Prop} {rules : List CompiledRule}
    (hrules : ∀ rule ∈ rules, ∀ text result hit,
      rule.apply mapping pseudonym text = .ok (some (result, hit)) → P text → P result)
    (h : P text) : P (applyRules mapping pseudonym rules text).text := by
  induction rules generalizing text with
  | nil => exact h
  | cons rule rules ih =>
      rcases happly : rule.apply mapping pseudonym text with e | found
      · rw [applyRules, happly]
        exact h
      rw [applyRules_cons_ok happly]
      refine ih (fun other hother => hrules other (List.mem_cons_of_mem _ hother)) ?_
      cases found with
      | none => exact h
      | some found => exact hrules rule (List.mem_cons_self ..) text found.1 found.2 happly h

theorem redactLine_eq_ok_iff {rules : List CompiledRule} {n : Int}
    {pseudonym source line : Text} {outcome : RedactedLine} :
    redactLine rules mapping n pseudonym source line = .ok outcome ↔
      ∃ text hits, applyRules mapping pseudonym.toList rules line.toList = ⟨text, hits, none⟩ ∧
        outcome = ⟨Text.ofList text, !hits.isEmpty, hits.map (Hit.entry source n)⟩ := by
  rw [redactLine, LineCourse.outcome]
  rcases applyRules mapping pseudonym.toList rules line.toList with ⟨text, hits, _ | e⟩
  · constructor
    · intro h
      exact ⟨text, hits, rfl, (Except.ok.inj h).symm⟩
    · rintro ⟨_, _, h, rfl⟩
      cases h
      rfl
  · simp

theorem redactLine_eq_error_iff {rules : List CompiledRule} {n : Int}
    {pseudonym source line : Text} {e : LineError} :
    redactLine rules mapping n pseudonym source line = .error e ↔
      (applyRules mapping pseudonym.toList rules line.toList).failure = some e := by
  rw [redactLine, LineCourse.outcome]
  cases (applyRules mapping pseudonym.toList rules line.toList).failure <;> simp

end Course

/-! ## Rules that are ready -/

theorem apply_ready {mapping : Mapping} {rule : CompiledRule} (h : rule.Ready mapping)
    (pseudonym text : List CodePoint) : ∃ result, rule.apply mapping pseudonym text = .ok result := by
  obtain ⟨t, ht⟩ := h
  rw [CompiledRule.apply]
  split
  · rw [ht]
    cases t <;> exact ⟨_, rfl⟩
  · exact ⟨none, rfl⟩

theorem applyRules_ready {mapping : Mapping} (pseudonym : List CodePoint) {rules : List CompiledRule}
    (h : ∀ rule ∈ rules, rule.Ready mapping) (text : List CodePoint) :
    (applyRules mapping pseudonym rules text).failure = none := by
  induction rules generalizing text with
  | nil => rfl
  | cons rule rules ih =>
      obtain ⟨result, hresult⟩ := apply_ready (h rule (by simp)) pseudonym text
      have hmore : ∀ rule ∈ rules, rule.Ready mapping := fun r hr => h r (by simp [hr])
      rw [applyRules, hresult]
      cases result with
      | none => exact ih hmore text
      | some hit => exact ih hmore hit.1

omit [Host] in
theorem LineCourse.exists_outcome {course : LineCourse} (h : course.failure = none)
    (source : Text) (n : Int) : ∃ outcome, course.outcome source n = .ok outcome := by
  rw [outcome, h]
  exact ⟨_, rfl⟩

/-- The rules of a job are ready. -/
def Job.Ready (job : Job) : Prop := ∀ rule ∈ job.rules, rule.Ready job.mapping

/-- What becomes of a line by rules that are ready. -/
def Job.outcome (job : Job) (label : Text) (n : Nat) (line : List Char) : RedactedLine :=
  let course := applyRules job.mapping job.pseudonym.toList job.rules (line.map .scalar)
  ⟨Text.ofList course.text, !course.hits.isEmpty, course.hits.map (Hit.entry label n)⟩

/-- A line has bytes after its redaction if the pseudonym has. -/
theorem Job.writable_outcome {job : Job} (h : job.pseudonym.Writable) (label : Text) (n : Nat)
    (line : List Char) : (job.outcome label n line).text.Writable := by
  rw [Text.writable_iff_forall] at h ⊢
  refine applyRules_keeps (P := fun text => ∀ c ∈ text, c.isSurrogate = false) ?_
    (by simp [CodePoint.isSurrogate])
  intro rule _ text result hit happly htext c hc
  rcases CompiledRule.apply_eq_some_iff.mp happly with ⟨-, ⟨-, rfl, -⟩ | ⟨regex, -, rfl, -⟩⟩
  · exact htext c hc
  · exact (Regex.mem_replace hc).elim (h c) (htext c)

theorem redactLine_ready {job : Job} (h : job.Ready) (label : Text) (n : Nat)
    (line : List Char) :
    redactLine job.rules job.mapping n job.pseudonym label (Text.ofChars line) =
      .ok (job.outcome label n line) := by
  rw [redactLine, LineCourse.outcome, Text.toList_ofChars,
    applyRules_ready job.pseudonym.toList h (line.map .scalar)]
  rfl

/-- What becomes of lines, the first of which has the given number. -/
def Job.outcomes (job : Job) (label : Text) : Nat → List (List Char) → List RedactedLine
  | _, [] => []
  | n, line :: lines => job.outcome label n line :: job.outcomes label (n + 1) lines

theorem Job.mem_outcomes {job : Job} {label : Text} {n : Nat} {lines : List (List Char)}
    {outcome : RedactedLine} (h : outcome ∈ job.outcomes label n lines) :
    ∃ m line, line ∈ lines ∧ outcome = job.outcome label m line := by
  induction lines generalizing n with
  | nil => simp [Job.outcomes] at h
  | cons line rest ih =>
      rcases List.mem_cons.mp h with rfl | h
      · exact ⟨n, line, List.mem_cons_self .., rfl⟩
      · obtain ⟨m, other, hother, rfl⟩ := ih h
        exact ⟨m, other, List.mem_cons_of_mem _ hother, rfl⟩

theorem Job.outcomes_take (job : Job) (label : Text) (n k : Nat) (lines : List (List Char)) :
    job.outcomes label n (lines.take k) = (job.outcomes label n lines).take k := by
  induction lines generalizing n k with
  | nil => simp [Job.outcomes]
  | cons line rest ih =>
      cases k with
      | zero => rfl
      | succ k => simp only [List.take_succ_cons, Job.outcomes, ih]

/-- What is written of lines does not tell how the file is called. -/
theorem writtenText_outcomes_label (job : Job) (label other : Text) (n : Nat)
    (lines : List (List Char)) :
    writtenText (job.outcomes label n lines) = writtenText (job.outcomes other n lines) := by
  induction lines generalizing n with
  | nil => rfl
  | cons line rest ih =>
      rw [Job.outcomes, Job.outcomes, writtenText, List.flatMap_cons, ← writtenText, ih]
      rfl

theorem lineByLine_iff {job : Job} (h : job.Ready) {label : Text} {lines : List (List Char)}
    {n : Nat} {outcomes : List RedactedLine} :
    LineByLine job label n lines outcomes ↔ outcomes = job.outcomes label n lines := by
  induction lines generalizing n outcomes with
  | nil =>
      constructor
      · rintro ⟨⟩; rfl
      · rintro rfl; exact .nil
  | cons line lines ih =>
      constructor
      · rintro (_ | ⟨hline, hmore⟩)
        rw [redactLine_ready h] at hline
        rw [Job.outcomes, Except.ok.inj hline, ih.mp hmore]
      · rintro rfl
        exact .cons (redactLine_ready h label n line) (ih.mpr rfl)

end LogRedaction
