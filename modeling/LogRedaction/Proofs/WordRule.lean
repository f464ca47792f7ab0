/-
LogRedaction.Proofs.WordRule — rules that replace a word.

If the templates of a rule expand to a plain word, the rule finds and replaces that word. The
detection is without the blanks around it, so it may be only a part of the word that is replaced;
`CompiledRule.ReplacesWord` says both. What such a rule does to a text is then a matter of the
occurrences of the word in it: `apply_found`, `apply_unfound`, and for a line with no other rule
`exists_outcome`.

A word that shares no character with the pseudonym does not come back once it is gone, so when the
last rule has been applied the words of all of them are gone: `not_infix_applyRules`.

## §1 Blanks around a text
## §2 Rules for a word
## §3 Lists of rules
-/
import LogRedaction.Proofs.Line
import LogRedaction.Proofs.Regex.Plain
import Mathlib.Data.List.TakeWhile

namespace LogRedaction

open Text

/-! ## §1 Blanks around a text -/

namespace Text

theorem trim_isInfix (text : List CodePoint) : trim text <:+: text := by
  have hsuffix : text.dropWhile isBlank <:+ text := List.dropWhile_suffix _
  have hstart : trim text <+: text.dropWhile isBlank := by
    rw [trim, ← List.reverse_suffix, List.reverse_reverse]
    exact List.dropWhile_suffix _
  exact hstart.isInfix.trans hsuffix.isInfix

theorem trim_eq_nil_iff (text : List CodePoint) : trim text = [] ↔ text.all isBlank = true := by
  rw [trim, List.reverse_eq_nil_iff, List.dropWhile_eq_nil_iff, List.all_eq_true]
  constructor
  · intro h c hc
    rw [← List.takeWhile_append_dropWhile (p := isBlank) (l := text), List.mem_append] at hc
    rcases hc with hc | hc
    · exact List.mem_takeWhile_imp hc
    · exact h c (List.mem_reverse.mpr hc)
  · intro h c hc
    exact h c ((List.dropWhile_suffix isBlank).subset (List.mem_reverse.mp hc))

theorem strip_ne_empty_iff (text : Text) : strip text ≠ "" ↔ isAllBlank text = false := by
  rw [strip, isAllBlank, ← Bool.not_eq_true, ← trim_eq_nil_iff, ne_eq, Text.ofList_eq_empty_iff]

theorem strip_isInfix (text : Text) : (strip text).toList <:+: text.toList :=
  trim_isInfix _

/-- There is nothing to take away from a text that has no blank at either end. -/
theorem trim_eq_self {c d : CodePoint} (hc : isBlank c = false) (hd : isBlank d = false)
    (text : List CodePoint) : trim (c :: (text ++ [d])) = c :: (text ++ [d]) := by
  rw [trim, List.dropWhile_cons_of_neg (by simp [hc])]
  simp [hd]

end Text

/-! ## §2 Rules for a word -/

section Words

variable [Host]

/-- The rule finds lines by a part of a word and replaces the word. -/
structure CompiledRule.ReplacesWord (mapping : Mapping) (rule : CompiledRule)
    (part word : List CodePoint) : Prop where
  detect : rule.detect.IsWord part
  treatment : ∃ regex, rule.treatment mapping = .ok (.replace regex) ∧ regex.IsWord word
  part_ne_nil : part ≠ []
  part_isInfix : part <:+: word

/-- A rule whose templates expand to expressions for a word and a part of it compiles to a rule that
replaces the word. -/
theorem Rule.compile_of_isWord {mapping : Mapping} {rule : Rule} {text replace : Text}
    {part word : List CodePoint}
    (hdetect : Template.expand mapping rule.detect (some rule.key) = .ok text)
    (hreplace : Template.expand mapping rule.replace (some rule.key) = .ok replace)
    (hpart : ∃ detect, Regex.read (strip text) = .ok detect ∧ detect.IsWord part)
    (hword : ∃ regex, Regex.read replace = .ok regex ∧ regex.IsWord word)
    (hempty : strip text ≠ "") (hblank : isAllBlank replace = false) (hne : part ≠ [])
    (hwithin : part <:+: word) :
    ∃ detect, rule.compile mapping = .ok ⟨rule.key, detect, rule.replace⟩ ∧
      CompiledRule.ReplacesWord mapping ⟨rule.key, detect, rule.replace⟩ part word := by
  obtain ⟨detect, hread, hpart⟩ := hpart
  obtain ⟨regex, hreadWord, hword⟩ := hword
  refine ⟨detect, ?_, hpart, ⟨regex, ?_, hword⟩, hne, hwithin⟩
  · exact compile_eq_ok_iff.mpr ⟨text, detect, hdetect, hempty, hread,
      ⟨replace, hreplace, fun _ => ⟨regex, hreadWord⟩⟩, rfl⟩
  · exact CompiledRule.treatment_eq_replace_iff.mpr ⟨replace, hreplace, hblank, hreadWord⟩

/-- A rule whose templates expand to a plain word, one of them perhaps with blanks around it that
the other has not, compiles to a rule that replaces the word. -/
theorem Rule.compile_word {mapping : Mapping} {rule : Rule} {text word : Text}
    (hdetect : Template.expand mapping rule.detect (some rule.key) = .ok text)
    (hreplace : Template.expand mapping rule.replace (some rule.key) = .ok word)
    (hplain : Regex.isPlain word.toList = true) (hblank : isAllBlank word = false)
    (hempty : strip text ≠ "") (hwithin : (strip text).toList <:+: word.toList) :
    ∃ detect, rule.compile mapping = .ok ⟨rule.key, detect, rule.replace⟩ ∧
      CompiledRule.ReplacesWord mapping ⟨rule.key, detect, rule.replace⟩ (strip text).toList
        word.toList :=
  Rule.compile_of_isWord hdetect hreplace
    (Regex.read_plain (Regex.isPlain_of_isInfix hplain hwithin)) (Regex.read_plain hplain) hempty
    hblank (mt Text.toList_eq_nil_iff.mp hempty) hwithin

/-- The hits of a rule that replaces what it matches. -/
def CompiledRule.hitsOn (rule : CompiledRule) (text : List CodePoint) : List Hit :=
  if rule.detect.occursIn text then [⟨rule.key, true⟩] else []

namespace CompiledRule.ReplacesWord

variable {mapping : Mapping} {rule : CompiledRule} {part word : List CodePoint}
  (h : rule.ReplacesWord mapping part word)
include h

theorem word_ne_nil : word ≠ [] := by
  rintro rfl
  exact h.part_ne_nil (List.eq_nil_of_infix_nil h.part_isInfix)

/-- Where the rule finds its part, the word is replaced, if it is there. -/
theorem apply_found {text : List CodePoint} (hfound : part <:+: text) {pieces : List (List CodePoint)}
    (hpieces : Occurrences word text pieces) (pseudonym : List CodePoint) :
    rule.apply mapping pseudonym text =
      .ok (some (pseudonym.intercalate pieces, ⟨rule.key, true⟩)) := by
  obtain ⟨regex, htreatment, hregex⟩ := h.treatment
  have hoccurs : rule.detect.occursIn text = true :=
    (h.detect.occursIn_iff h.part_ne_nil text).mpr hfound
  simp only [CompiledRule.apply, hoccurs, if_true, htreatment,
    hregex.replace_of_occurrences h.word_ne_nil hpieces]

theorem apply_unfound {text : List CodePoint} (hnone : ¬ part <:+: text) (pseudonym : List CodePoint) :
    rule.apply mapping pseudonym text = .ok none := by
  have hoccurs : rule.detect.occursIn text = false :=
    Bool.eq_false_iff.mpr (mt (h.detect.occursIn_iff h.part_ne_nil text).mp hnone)
  rw [CompiledRule.apply, if_neg (by simp [hoccurs])]

/-- The rule replaces its word in the text, and the rules after it go on with that. -/
theorem applyRules_eq (pseudonym : List CodePoint) :
    ∃ regex : Regex, regex.IsWord word ∧ ∀ rules text,
      applyRules mapping pseudonym (rule :: rules) text =
        let course := applyRules mapping pseudonym rules (regex.replace pseudonym text)
        { course with hits := rule.hitsOn text ++ course.hits } := by
  obtain ⟨regex, htreatment, hregex⟩ := h.treatment
  refine ⟨regex, hregex, fun rules text => ?_⟩
  cases hoccurs : rule.detect.occursIn text with
  | true =>
      have happly : rule.apply mapping pseudonym text =
          .ok (some (regex.replace pseudonym text, ⟨rule.key, true⟩)) :=
        apply_eq_some_iff.mpr ⟨hoccurs, .inr ⟨regex, htreatment, rfl, rfl⟩⟩
      rw [applyRules_cons_ok happly, hitsOn, hoccurs]
      rfl
  | false =>
      have hnone : ¬ part <:+: text :=
        mt (h.detect.occursIn_iff h.part_ne_nil text).mpr (by simp [hoccurs])
      have hnoword : ¬ word <:+: text := fun hfound => hnone (h.part_isInfix.trans hfound)
      rw [applyRules_cons_ok (h.apply_unfound hnone pseudonym), hitsOn, hoccurs,
        hregex.replace_of_not_infix h.word_ne_nil hnoword]
      rfl

/-- Found or not, the pieces between the occurrences are kept and the pseudonym stands between
them. -/
theorem applyRules_cons {text : List CodePoint} {pieces : List (List CodePoint)}
    (hpieces : Occurrences word text pieces) (pseudonym : List CodePoint) (rules : List CompiledRule) :
    applyRules mapping pseudonym (rule :: rules) text =
      let course := applyRules mapping pseudonym rules (pseudonym.intercalate pieces)
      { course with hits := rule.hitsOn text ++ course.hits } := by
  obtain ⟨regex, hregex, hrules⟩ := h.applyRules_eq pseudonym
  rw [hrules, hregex.replace_of_occurrences h.word_ne_nil hpieces]

/-- On its own the rule replaces the occurrences of the word in every line, and the line is matched
if the part stands in it. -/
theorem exists_outcome (n : Int) (pseudonym source line : Text) : ∃ outcome pieces,
    redactLine [rule] mapping n pseudonym source line = .ok outcome ∧
    Occurrences word line.toList pieces ∧
    outcome.text.toList = pseudonym.toList.intercalate pieces ∧
    (outcome.matched = true ↔ part <:+: line.toList) := by
  obtain ⟨pieces, hpieces⟩ := exists_occurrences h.word_ne_nil line.toList
  have hcourse := h.applyRules_cons hpieces pseudonym.toList []
  refine ⟨_, pieces, redactLine_eq_ok_iff.mpr ⟨_, _, hcourse, rfl⟩, hpieces, rfl, ?_⟩
  rw [← h.detect.occursIn_iff h.part_ne_nil]
  cases hoccurs : rule.detect.occursIn line.toList <;> simp [hitsOn, hoccurs, applyRules]

end CompiledRule.ReplacesWord

/-! ## §3 Lists of rules -/

/-- Both templates of the rule expand to the word; the detection may have blanks around it. -/
def Rule.IsFor (mapping : Mapping) (rule : Rule) (word : Text) : Prop :=
  (∃ text, Template.expand mapping rule.detect (some rule.key) = .ok text ∧ strip text = word) ∧
    Template.expand mapping rule.replace (some rule.key) = .ok word

/-- The word has no blanks around it, and in an expression it means itself. -/
structure Text.IsPlainWord (word : Text) : Prop where
  ne_empty : word ≠ ""
  strip_eq : strip word = word
  not_mem : ∀ c ∈ word.toList, c ∉ Regex.metacharacters

/-- The rules replace the words, one each. -/
def ReplaceWords (mapping : Mapping) : List CompiledRule → List (List CodePoint) → Prop :=
  List.Forall₂ fun rule word => rule.ReplacesWord mapping word word

theorem Rule.compileAll_words {mapping : Mapping} {rules : List Rule} {words : List Text}
    (hrules : List.Forall₂ (Rule.IsFor mapping) rules words)
    (hwords : ∀ word ∈ words, IsPlainWord word) :
    ∃ compiled, compileAll mapping rules = .ok compiled ∧
      ReplaceWords mapping compiled (words.map Text.toList) := by
  induction hrules with
  | nil => exact ⟨[], rfl, .nil⟩
  | @cons rule word rules words hrule _ ih =>
      obtain ⟨hword, hmore⟩ := List.forall_mem_cons.mp hwords
      obtain ⟨compiled, hcompile, hreplace⟩ := ih hmore
      obtain ⟨⟨text, hdetect, rfl⟩, hword'⟩ := hrule
      have hblank : isAllBlank (strip text) = false :=
        (strip_ne_empty_iff _).mp (hword.strip_eq.symm ▸ hword.ne_empty)
      obtain ⟨detect, hfirst, hfirst'⟩ := Rule.compile_word hdetect hword'
        (Regex.isPlain_of_forall_not_mem hword.not_mem) hblank hword.ne_empty (List.infix_refl _)
      exact ⟨_, compileAll_eq_ok_iff.mpr (.cons hfirst (compileAll_eq_ok_iff.mp hcompile)),
        .cons hfirst' hreplace⟩

section Course

variable {mapping : Mapping} {pseudonym : List CodePoint} {rules : List CompiledRule}
  {words : List (List CodePoint)}

theorem ReplaceWords.word_ne_nil (h : ReplaceWords mapping rules words) :
    ∀ word ∈ words, word ≠ [] := by
  induction h with
  | nil => simp
  | cons hrule _ ih =>
      intro word hword
      rcases List.mem_cons.mp hword with rfl | hword
      · exact hrule.word_ne_nil
      · exact ih word hword

/-- What a rule for a word makes of a text has the pieces of the text in it. -/
theorem ReplaceWords.exists_occurrences (h : ReplaceWords mapping rules words)
    {rule : CompiledRule} (hrule : rule ∈ rules) {text result : List CodePoint} {hit : Hit}
    (happly : rule.apply mapping pseudonym text = .ok (some (result, hit))) :
    ∃ word pieces, Occurrences word text pieces ∧ result = pseudonym.intercalate pieces := by
  induction h with
  | nil => cases hrule
  | @cons first word rules words hfirst _ ih =>
      rcases List.mem_cons.mp hrule with rfl | hrule
      · obtain ⟨pieces, hpieces⟩ := Text.exists_occurrences hfirst.word_ne_nil text
        refine ⟨word, pieces, hpieces, ?_⟩
        by_cases hfound : word <:+: text
        · rw [hfirst.apply_found hfound hpieces] at happly
          injection happly with happly
          injection happly with happly
          exact (congrArg Prod.fst happly).symm
        · rw [hfirst.apply_unfound hfound] at happly
          cases happly
      · exact ih hrule

/-- Where none of the words stands, nothing happens. -/
theorem ReplaceWords.applyRules_of_not_infix (h : ReplaceWords mapping rules words)
    {text : List CodePoint} (hnone : ∀ word ∈ words, ¬ word <:+: text) :
    applyRules mapping pseudonym rules text = ⟨text, [], none⟩ := by
  induction h with
  | nil => rfl
  | cons hrule _ ih =>
      rw [applyRules, hrule.apply_unfound (hnone _ (List.mem_cons_self ..))]
      exact ih fun word hword => hnone word (List.mem_cons_of_mem _ hword)

/-- A word that shares no character with the pseudonym does not come up where it was not. -/
theorem ReplaceWords.not_infix_of_not_infix (h : ReplaceWords mapping rules words)
    (hpseudonym : pseudonym ≠ []) {word : List CodePoint} (hword : word ≠ [])
    (hdisjoint : ∀ c ∈ pseudonym, c ∉ word) {text : List CodePoint} (hnone : ¬ word <:+: text) :
    ¬ word <:+: (applyRules mapping pseudonym rules text).text := by
  refine applyRules_keeps (P := fun result => ¬ word <:+: result)
    (fun rule hrule before result hit happly hbefore => ?_) hnone
  obtain ⟨_, pieces, hpieces, rfl⟩ := h.exists_occurrences hrule happly
  exact not_infix_replaced hpieces hword hpseudonym hdisjoint hbefore

/-- In the end all words are gone: each by its own rule, and none comes back by a later one. -/
theorem ReplaceWords.not_infix_applyRules (h : ReplaceWords mapping rules words)
    (hpseudonym : pseudonym ≠ []) (hdisjoint : ∀ word ∈ words, ∀ c ∈ pseudonym, c ∉ word)
    (text : List CodePoint) :
    ∀ word ∈ words, ¬ word <:+: (applyRules mapping pseudonym rules text).text := by
  induction h generalizing text with
  | nil => simp
  | @cons rule word rules words hrule hmore ih =>
      obtain ⟨pieces, hpieces⟩ := Text.exists_occurrences hrule.word_ne_nil text
      have hgone : ¬ word <:+: pseudonym.intercalate pieces := by
        intro hfound
        obtain ⟨piece, hpiece, hwithin⟩ := infix_of_infix_intercalate hrule.word_ne_nil hpseudonym
          (hdisjoint word (List.mem_cons_self ..)) hfound
        exact not_infix_of_occurrences hpieces hrule.word_ne_nil piece hpiece hwithin
      intro other hother
      rw [hrule.applyRules_cons hpieces pseudonym rules]
      rcases List.mem_cons.mp hother with rfl | hother
      · exact ReplaceWords.not_infix_of_not_infix hmore hpseudonym hrule.word_ne_nil
          (hdisjoint other (List.mem_cons_self ..)) hgone
      · exact ih (fun v hv => hdisjoint v (List.mem_cons_of_mem _ hv)) _ other hother

end Course

end Words

end LogRedaction
