/-
LogRedaction.Proofs.Pseudonym — what the pseudonym does to the text around it.

All that a rule puts into a text is the pseudonym. Of everything else it can only take away, however
its expression matches: with matches of nothing, by looking around, or inside a pseudonym that an
earlier rule has put. Seen without the characters of the pseudonym, a text therefore only ever gets
smaller (`dropChars_fill_sublist` for a cut, `dropChars_apply_sublist` for a rule), and what is left
stands in the order of the line: `redactLine_invents_nothing`. Characters of the pseudonym itself are
not followed; a rule may cut a pseudonym in two and put another between the parts.

Where one rule divides a line is settled before the pseudonym is looked at (`CompiledRule.Divides`),
so the same line with another pseudonym has it in the same places, whatever it is made of:
`redactLine_any_pseudonym`. For more rules than one there is no such thing, since the later ones
match what the pseudonym has become part of.

## §1 Texts without the characters of another
## §2 Rules that only take away
## §3 One rule and all pseudonyms
-/
import LogRedaction.Proofs.Regex.Span
import LogRedaction.Proofs.Turn

namespace LogRedaction

open Text

/-! ## §1 Texts without the characters of another -/

namespace Text

/-- The text without all characters that are among the given ones. -/
def dropChars (chars text : List CodePoint) : List CodePoint := text.filter (· ∉ chars)

@[simp] theorem dropChars_append (chars first second : List CodePoint) :
    dropChars chars (first ++ second) = dropChars chars first ++ dropChars chars second :=
  List.filter_append ..

@[simp] theorem dropChars_self (chars : List CodePoint) : dropChars chars chars = [] := by
  simp [dropChars]

theorem mem_dropChars_iff {chars text : List CodePoint} {c : CodePoint} :
    c ∈ dropChars chars text ↔ c ∈ text ∧ c ∉ chars := by
  simp [dropChars]

theorem count_dropChars {chars : List CodePoint} {c : CodePoint} (h : c ∉ chars)
    (text : List CodePoint) : (dropChars chars text).count c = text.count c :=
  List.count_filter (by simp [h])

end Text

/-! ## §2 Rules that only take away -/

/-- Seen without the characters of the replacement, filling a cut leaves the matches out. -/
theorem Cut.dropChars_fill_sublist (cut : Cut) (replacement : List CodePoint) :
    (dropChars replacement (cut.fill replacement)).Sublist (dropChars replacement cut.text) := by
  obtain ⟨parts, rest⟩ := cut
  induction parts with
  | nil => exact .refl _
  | cons part parts ih =>
      obtain ⟨kept, found⟩ := part
      rw [Regex.fill_cons ⟨parts, rest⟩, Regex.text_cons ⟨parts, rest⟩]
      simp only [dropChars_append, dropChars_self, List.append_nil]
      exact (List.sublist_append_left _ _).append ih

section Taking

variable [Host]

/-- What a rule makes of a text it matches. -/
theorem CompiledRule.dropChars_apply_sublist {mapping : Mapping} {rule : CompiledRule}
    {pseudonym text result : List CodePoint} {hit : Hit}
    (h : rule.apply mapping pseudonym text = .ok (some (result, hit))) :
    (dropChars pseudonym result).Sublist (dropChars pseudonym text) := by
  obtain ⟨-, ⟨-, rfl, -⟩ | ⟨regex, -, rfl, -⟩⟩ := apply_eq_some_iff.mp h
  · exact .refl _
  · have hfill := (regex.cut text).dropChars_fill_sublist pseudonym
    rwa [Regex.text_cut] at hfill

/-- The invariant of a course: without the characters of the pseudonym, the text is a part of the
line in its order. -/
theorem dropChars_applyRules_sublist (mapping : Mapping) (pseudonym : List CodePoint)
    (rules : List CompiledRule) (line : List CodePoint) :
    (dropChars pseudonym (applyRules mapping pseudonym rules line).text).Sublist
      (dropChars pseudonym line) := by
  refine applyRules_keeps
    (P := fun text => (dropChars pseudonym text).Sublist (dropChars pseudonym line))
    (fun rule _ text result hit happly hline => ?_) (.refl _)
  exact (CompiledRule.dropChars_apply_sublist happly).trans hline

/-- A character that is in the text in the end was there before or is one of the pseudonym. -/
theorem mem_applyRules {mapping : Mapping} {pseudonym text : List CodePoint}
    {rules : List CompiledRule} :
    ∀ c ∈ (applyRules mapping pseudonym rules text).text, c ∈ pseudonym ∨ c ∈ text := by
  intro c hc
  by_cases hpseudonym : c ∈ pseudonym
  · exact .inl hpseudonym
  · have hkept := (dropChars_applyRules_sublist mapping pseudonym rules text).subset
      (mem_dropChars_iff.mpr ⟨hc, hpseudonym⟩)
    exact .inr (mem_dropChars_iff.mp hkept).1

/-- A line that is redacted gets the characters of the pseudonym and no others. Without them, what
is left of the line is in its order, and no character is there more often than before. -/
theorem redactLine_invents_nothing {rules : List CompiledRule} {mapping : Mapping} {n : Int}
    {pseudonym source line : Text} {outcome : RedactedLine}
    (h : redactLine rules mapping n pseudonym source line = .ok outcome) :
    (dropChars pseudonym.toList outcome.text.toList).Sublist
      (dropChars pseudonym.toList line.toList) ∧
    (∀ c ∈ outcome.text.toList, c ∈ line.toList ∨ c ∈ pseudonym.toList) ∧
    ∀ c ∉ pseudonym.toList, outcome.text.toList.count c ≤ line.toList.count c := by
  obtain ⟨text, hits, hcourse, rfl⟩ := redactLine_eq_ok_iff.mp h
  have hpart := dropChars_applyRules_sublist mapping pseudonym.toList rules line.toList
  have hmem := @mem_applyRules _ mapping pseudonym.toList line.toList rules
  rw [hcourse] at hpart hmem
  refine ⟨hpart, ?_, ?_⟩
  · intro c hc
    exact (hmem c hc).symm
  · intro c hc
    have hcount := hpart.count_le c
    rwa [count_dropChars hc, count_dropChars hc] at hcount

end Taking

section Sample

attribute [local instance] sampleHost

/-- Rules that get in each other's way: the first replaces the name, the second matches inside the
pseudonym, and the third matches nothing, in front of a letter. -/
def tangledRules : List Rule :=
  [.username "name", ⟨"inside", "N", "N"⟩, ⟨"before", "(?=U)", "(?=U)"⟩]

/-- The pseudonym is put three times, once into another, and the rest of the line stays. -/
theorem redactLine_invents_nothing_tangled : ∃ compiled,
    Rule.compileAll jdoe.mapping tangledRules = .ok compiled ∧
    redactLine compiled jdoe.mapping 1 "AN" "a.log" "User jdoe" =
      .ok ⟨"ANUser AAN", true, [⟨"a.log", 1, true, "rule 'name'"⟩,
        ⟨"a.log", 1, true, "rule 'inside'"⟩, ⟨"a.log", 1, true, "rule 'before'"⟩]⟩ ∧
    (dropChars ("AN" : Text).toList ("ANUser AAN" : Text).toList).Sublist
      (dropChars ("AN" : Text).toList ("User jdoe" : Text).toList) := by
  have hline : ((Rule.compileAll jdoe.mapping tangledRules).toOption.bind fun compiled =>
      (redactLine compiled jdoe.mapping 1 "AN" "a.log" "User jdoe").toOption) =
      some ⟨"ANUser AAN", true, [⟨"a.log", 1, true, "rule 'name'"⟩,
        ⟨"a.log", 1, true, "rule 'inside'"⟩, ⟨"a.log", 1, true, "rule 'before'"⟩]⟩ := by
    decide +kernel
  obtain ⟨compiled, hcompile, houtcome⟩ := Option.bind_eq_some_iff.mp hline
  exact ⟨compiled, eq_ok_of_toOption hcompile, eq_ok_of_toOption houtcome,
    (redactLine_invents_nothing (eq_ok_of_toOption houtcome)).1⟩

end Sample

/-! ## §3 One rule and all pseudonyms -/

section Division

variable [Host]

/-- The rule divides the line by the matches of its replacement. If it is idle there are none; if it
is not and nothing is divided, the replacement matches no piece of the line. -/
structure CompiledRule.Divides (mapping : Mapping) (rule : CompiledRule) (line : List CodePoint)
    (cut : Cut) : Prop where
  text : cut.text = line
  idle : rule.Idle mapping line → cut.parts = []
  replaced : ¬ rule.Idle mapping line → ∃ replace regex,
    Template.expand mapping rule.replace (some rule.key) = .ok replace ∧
    Regex.read replace = .ok regex ∧ cut.MatchedBy regex ∧
    (cut.parts = [] → ∀ before found after, line = before ++ found ++ after →
      ¬ regex.Matches before found after)

variable {mapping : Mapping} {rule : CompiledRule} {pseudonym line : List CodePoint}
  {found : Option (List CodePoint × Hit)}

theorem CompiledRule.Idle.divides (h : rule.Idle mapping line) :
    rule.Divides mapping line ⟨[], line⟩ :=
  ⟨rfl, fun _ => rfl, fun hnot => absurd h hnot⟩

theorem CompiledRule.divides_cut {regex : Regex}
    (htreatment : rule.treatment mapping = .ok (.replace regex))
    (hfound : rule.detect.occursIn line = true) :
    rule.Divides mapping line (regex.cut line) := by
  obtain ⟨replace, hexpand, -, hread⟩ := treatment_eq_replace_iff.mp htreatment
  refine ⟨Regex.text_cut regex line, ?_, ?_⟩
  · rintro (hnone | hnotes)
    · rw [hfound] at hnone
      cases hnone
    · rw [notesOnly_of_replace htreatment] at hnotes
      cases hnotes
  · intro _
    refine ⟨replace, regex, hexpand, hread, Regex.matchedBy_cut regex line, ?_⟩
    intro hparts before piece after hline hmatches
    have hnone := (Regex.parts_cut_eq_nil_iff regex line).mp hparts
    rw [Regex.occursIn_iff.mpr ⟨before, piece, after, hline, hmatches⟩] at hnone
    cases hnone

/-- A rule that can be applied with one pseudonym can be applied with every other, and puts it in
the same places. -/
theorem CompiledRule.exists_divides (h : rule.apply mapping pseudonym line = .ok found) :
    ∃ cut, rule.Divides mapping line cut ∧ ∀ other, ∃ found',
      rule.apply mapping other line = .ok found' ∧
      (found'.map Prod.fst).getD line = cut.fill other := by
  have hhit := isSome_of_apply h
  cases found with
  | none =>
      have hnone : rule.detect.occursIn line = false := hhit.symm
      refine ⟨⟨[], line⟩, Idle.divides (.inl hnone), fun other => ⟨none, ?_, rfl⟩⟩
      rw [apply, hnone]
      rfl
  | some found =>
      obtain ⟨hfound, ⟨htreatment, -⟩ | ⟨regex, htreatment, -⟩⟩ := apply_eq_some_iff.mp h
      · refine ⟨⟨[], line⟩, Idle.divides (.inr (notesOnly_of_note htreatment)), fun other => ?_⟩
        exact ⟨_, apply_eq_some_iff.mpr ⟨hfound, .inl ⟨htreatment, rfl, rfl⟩⟩, rfl⟩
      · refine ⟨regex.cut line, divides_cut htreatment hfound, fun other => ?_⟩
        exact ⟨_, apply_eq_some_iff.mpr ⟨hfound, .inr ⟨regex, htreatment, rfl, rfl⟩⟩, rfl⟩

/-- If a rule can be applied to a line, it divides the line once and for all: with every pseudonym,
the text is the kept pieces with that pseudonym between them, taken as it is, and whether the rule
matched and what it notes is the same. -/
theorem redactLine_any_pseudonym {rule : CompiledRule} {mapping : Mapping} {n₀ : Int}
    {pseudonym₀ source₀ line : Text} {outcome : RedactedLine}
    (h : redactLine [rule] mapping n₀ pseudonym₀ source₀ line = .ok outcome) :
    ∃ cut : Cut, rule.Divides mapping line.toList cut ∧
      ∀ (n : Int) (pseudonym source : Text),
        redactLine [rule] mapping n pseudonym source line =
          .ok ⟨Text.ofList (cut.fill pseudonym.toList), rule.detect.occursIn line.toList,
            (rule.entryAbout? mapping source n line.toList).toList⟩ := by
  obtain ⟨text, hits, hcourse, -⟩ := redactLine_eq_ok_iff.mp h
  rcases happly : rule.apply mapping pseudonym₀.toList line.toList with e | found
  · rw [applyRules, happly] at hcourse
    cases hcourse
  obtain ⟨cut, hdivides, hfill⟩ := CompiledRule.exists_divides happly
  refine ⟨cut, hdivides, fun n pseudonym source => ?_⟩
  obtain ⟨found', happly', htext⟩ := hfill pseudonym.toList
  refine redactLine_eq_ok_iff.mpr ⟨cut.fill pseudonym.toList, (found'.map Prod.snd).toList, ?_, ?_⟩
  · rw [applyRules_cons_ok happly', htext]
    simp [applyRules]
  · rw [CompiledRule.entryAbout?_of_apply happly', ← CompiledRule.isSome_of_apply happly']
    cases found' <;> rfl

end Division

section Sample

attribute [local instance] sampleHost

/-- A pseudonym that would be a reference to a group in a replacement. -/
theorem redactLine_any_pseudonym_group : ∃ rule cut,
    Rule.compile jdoe.mapping ⟨"user", "(jdoe)", "(jdoe)"⟩ = .ok rule ∧
    redactLine [rule] jdoe.mapping 1 "ANON" "a.log" "user=jdoe" =
      .ok ⟨"user=ANON", true, [⟨"a.log", 1, true, "rule 'user'"⟩]⟩ ∧
    rule.Divides jdoe.mapping ("user=jdoe" : Text).toList cut ∧
    "user=\\1\\g<0>\n" = Text.ofList (cut.fill ("\\1\\g<0>\n" : Text).toList) := by
  have hlines : ((Rule.compile jdoe.mapping ⟨"user", "(jdoe)", "(jdoe)"⟩).toOption.map fun rule =>
      ((redactLine [rule] jdoe.mapping 1 "ANON" "a.log" "user=jdoe").toOption,
        (redactLine [rule] jdoe.mapping 1 "\\1\\g<0>\n" "a.log" "user=jdoe").toOption)) =
      some (some ⟨"user=ANON", true, [⟨"a.log", 1, true, "rule 'user'"⟩]⟩,
        some ⟨"user=\\1\\g<0>\n", true, [⟨"a.log", 1, true, "rule 'user'"⟩]⟩) := by
    decide +kernel
  obtain ⟨rule, hcompile, hlines⟩ := Option.map_eq_some_iff.mp hlines
  obtain ⟨hline, hgroup⟩ := Prod.mk.inj hlines
  obtain ⟨cut, hdivides, hfill⟩ := redactLine_any_pseudonym (eq_ok_of_toOption hline)
  refine ⟨rule, cut, eq_ok_of_toOption hcompile, eq_ok_of_toOption hline, hdivides, ?_⟩
  have hsame := (eq_ok_of_toOption hgroup).symm.trans (hfill 1 "\\1\\g<0>\n" "a.log")
  exact congrArg RedactedLine.text (Except.ok.inj hsame)

end Sample

end LogRedaction
