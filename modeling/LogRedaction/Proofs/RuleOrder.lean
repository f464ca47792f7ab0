/-
LogRedaction.Proofs.RuleOrder — when it does not matter in which order the rules are applied.

Each rule sees what the rules before it have left, so the order of the rules is a part of what they
mean. It does not matter where any two of them can change places: `applyRules_perm` goes from two
neighbours to all permutations, and is about any rules.

Two rules for words can change places if nothing is shared, neither by the words nor by a word and
the pseudonym. Then the one neither makes nor takes away an occurrence of the other's word
(`hitsOn_replace`), and both orders leave the same text.

## §1 Courses that differ in the order of their hits
## §2 Rules that change places
## §3 Rules for words
-/
import LogRedaction.Proofs.WordRule
import Mathlib.Data.Bool.AllAny
import Mathlib.Data.List.Perm.Basic

namespace LogRedaction

open Text

/-! ## §1 Courses that differ in the order of their hits -/

/-- The two courses leave the same text and have the same hits, perhaps in another order. -/
structure LineCourse.SameButOrder (a b : LineCourse) : Prop where
  text : a.text = b.text
  hits : a.hits.Perm b.hits
  failure : a.failure = b.failure

namespace LineCourse

theorem SameButOrder.refl (a : LineCourse) : a.SameButOrder a := ⟨rfl, .refl _, rfl⟩

theorem SameButOrder.trans {a b c : LineCourse} (hab : a.SameButOrder b) (hbc : b.SameButOrder c) :
    a.SameButOrder c :=
  ⟨hab.text.trans hbc.text, hab.hits.trans hbc.hits, hab.failure.trans hbc.failure⟩

theorem SameButOrder.symm {a b : LineCourse} (h : a.SameButOrder b) : b.SameButOrder a :=
  ⟨h.text.symm, h.hits.symm, h.failure.symm⟩

/-- The course that goes on with another one from the text that is left, unless it has failed. -/
def andThen (course : LineCourse) (next : List CodePoint → LineCourse) : LineCourse :=
  match course.failure with
  | some _ => course
  | none => { next course.text with hits := course.hits ++ (next course.text).hits }

theorem andThen_addHits (course : LineCourse) (hits : List Hit) (next : List CodePoint → LineCourse) :
    andThen { course with hits := hits ++ course.hits } next =
      { course.andThen next with hits := hits ++ (course.andThen next).hits } := by
  obtain ⟨text, more, failure⟩ := course
  cases failure with
  | some e => rfl
  | none => simp [andThen]

theorem SameButOrder.andThen {a b : LineCourse} {next next' : List CodePoint → LineCourse}
    (hab : a.SameButOrder b) (hnext : ∀ text, (next text).SameButOrder (next' text)) :
    (a.andThen next).SameButOrder (b.andThen next') := by
  obtain ⟨text, hits, failure⟩ := a
  obtain ⟨text', hits', failure'⟩ := b
  obtain ⟨rfl, hhits, rfl⟩ := hab
  cases failure with
  | some e => exact ⟨rfl, hhits, rfl⟩
  | none => exact ⟨(hnext text).text, hhits.append (hnext text).hits, (hnext text).failure⟩

end LineCourse

section Order

variable [Host]

variable {mapping : Mapping} {pseudonym : List CodePoint}

/-- The rules of the second list go on with what those of the first have left. -/
theorem applyRules_append (first second : List CompiledRule) (text : List CodePoint) :
    applyRules mapping pseudonym (first ++ second) text =
      (applyRules mapping pseudonym first text).andThen (applyRules mapping pseudonym second) := by
  induction first generalizing text with
  | nil => rfl
  | cons rule first ih =>
      rcases happly : rule.apply mapping pseudonym text with e | found
      · rw [List.cons_append, applyRules, happly, applyRules, happly]
        rfl
      · rw [List.cons_append, applyRules_cons_ok happly, applyRules_cons_ok happly, ih,
          LineCourse.andThen_addHits]

/-! ## §2 Rules that change places -/

/-- In either order the two rules do the same to every text. -/
def CompiledRule.Commute (mapping : Mapping) (pseudonym : List CodePoint) (a b : CompiledRule) :
    Prop :=
  ∀ text, (applyRules mapping pseudonym [a, b] text).SameButOrder
    (applyRules mapping pseudonym [b, a] text)

/-- Rules any two of which can change places can be put in any order. -/
theorem applyRules_perm {rules rules' : List CompiledRule} (hperm : rules.Perm rules')
    (hcommute : rules.Pairwise (CompiledRule.Commute mapping pseudonym)) (text : List CodePoint) :
    (applyRules mapping pseudonym rules text).SameButOrder
      (applyRules mapping pseudonym rules' text) := by
  induction hperm generalizing text with
  | nil => exact .refl _
  | @cons rule rules rules' _ ih =>
      rw [← List.singleton_append, ← List.singleton_append (l := rules'), applyRules_append,
        applyRules_append]
      exact (LineCourse.SameButOrder.refl _).andThen (ih hcommute.of_cons)
  | swap b a rules =>
      have hpair : CompiledRule.Commute mapping pseudonym a b :=
        List.rel_of_pairwise_cons hcommute (List.mem_cons_self ..)
      have happend : ∀ x y : CompiledRule, x :: y :: rules = [x, y] ++ rules := fun _ _ => rfl
      rw [happend, happend b, applyRules_append, applyRules_append]
      exact (hpair text).andThen fun _ => .refl _
  | trans hfirst _ ih ih' =>
      have hsymm : ∀ {a b : CompiledRule}, a.Commute mapping pseudonym b →
          b.Commute mapping pseudonym a := fun h text => (h text).symm
      exact (ih hcommute text).trans (ih' (hcommute.perm hfirst hsymm) text)

/-! ## §3 Rules for words -/

/-- Replacing another word does not change whether the rule hits. -/
theorem CompiledRule.ReplacesWord.hitsOn_replace {rule : CompiledRule} {word other : List CodePoint}
    (h : rule.ReplacesWord mapping word word) {regex : Regex} (hregex : regex.IsWord other)
    (hother : other ≠ []) (hpseudonym : pseudonym ≠ []) (hwords : ∀ c ∈ other, c ∉ word)
    (hdisjoint : ∀ c ∈ pseudonym, c ∉ word) (text : List CodePoint) :
    rule.hitsOn (regex.replace pseudonym text) = rule.hitsOn text := by
  have hsame : rule.detect.occursIn (regex.replace pseudonym text) =
      rule.detect.occursIn text := by
    rw [Bool.eq_iff_iff, h.detect.occursIn_iff h.part_ne_nil, h.detect.occursIn_iff h.part_ne_nil]
    exact hregex.infix_replace_iff hother h.word_ne_nil hpseudonym hwords hdisjoint text
  rw [hitsOn, hitsOn, hsame]

theorem CompiledRule.ReplacesWord.commute {a b : CompiledRule} {u v : List CodePoint}
    (ha : a.ReplacesWord mapping u u) (hb : b.ReplacesWord mapping v v)
    (huv : ∀ c ∈ u, c ∉ v) (hpseudonym : pseudonym ≠ []) (hu : ∀ c ∈ pseudonym, c ∉ u)
    (hv : ∀ c ∈ pseudonym, c ∉ v) : a.Commute mapping pseudonym b := by
  have hvu : ∀ c ∈ v, c ∉ u := fun c hc hcu => huv c hcu hc
  obtain ⟨first, hfirst, hfirstRules⟩ := ha.applyRules_eq pseudonym
  obtain ⟨second, hsecond, hsecondRules⟩ := hb.applyRules_eq pseudonym
  intro text
  rw [hfirstRules, hsecondRules, hsecondRules, hfirstRules]
  refine ⟨?_, ?_, rfl⟩
  · exact (hfirst.replace_comm hsecond ha.word_ne_nil hb.word_ne_nil hpseudonym huv hu hv text).symm
  · simp only [applyRules, List.append_nil,
      hb.hitsOn_replace hfirst ha.word_ne_nil hpseudonym huv hv,
      ha.hitsOn_replace hsecond hb.word_ne_nil hpseudonym hvu hu]
    exact List.perm_append_comm

theorem ReplaceWords.pairwise_commute {rules : List CompiledRule} {words : List (List CodePoint)}
    (h : ReplaceWords mapping rules words)
    (hapart : words.Pairwise fun u v => ∀ c ∈ u, c ∉ v) (hpseudonym : pseudonym ≠ [])
    (hdisjoint : ∀ word ∈ words, ∀ c ∈ pseudonym, c ∉ word) :
    rules.Pairwise (CompiledRule.Commute mapping pseudonym) := by
  obtain ⟨hlength, hget⟩ := List.forall₂_iff_get.mp h
  refine List.pairwise_iff_getElem.mpr fun i j hi hj hij => ?_
  have hi' : i < words.length := hlength ▸ hi
  have hj' : j < words.length := hlength ▸ hj
  exact (hget i hi hi').commute (hget j hj hj')
    (List.pairwise_iff_getElem.mp hapart i j hi' hj' hij) hpseudonym
    (hdisjoint _ (List.getElem_mem hi')) (hdisjoint _ (List.getElem_mem hj'))

/-- Rules for words that have no character in common do the same to a line in every order: they
leave the same text, and the same entries up to their order. -/
theorem redactLine_any_order {mapping : Mapping} {rules rules' : List Rule} {words : List Text}
    {pseudonym : Text} (hrules : List.Forall₂ (Rule.IsFor mapping) rules words)
    (hwords : ∀ word ∈ words, IsPlainWord word)
    (hapart : words.Pairwise fun u v => ∀ c ∈ u.toList, c ∉ v.toList) (hpseudonym : pseudonym ≠ "")
    (hdisjoint : ∀ word ∈ words, ∀ c ∈ pseudonym.toList, c ∉ word.toList)
    (hperm : rules'.Perm rules) :
    ∃ compiled compiled', Rule.compileAll mapping rules = .ok compiled ∧
      Rule.compileAll mapping rules' = .ok compiled' ∧
      ∀ (n : Int) (source line : Text), ∃ outcome outcome',
        redactLine compiled mapping n pseudonym source line = .ok outcome ∧
        redactLine compiled' mapping n pseudonym source line = .ok outcome' ∧
        outcome'.text = outcome.text ∧ outcome'.matched = outcome.matched ∧
        outcome'.entries.Perm outcome.entries := by
  obtain ⟨compiled, hcompile, hreplace⟩ := Rule.compileAll_words hrules hwords
  obtain ⟨compiled', hcompiled', hperm'⟩ :=
    List.perm_comp_forall₂ hperm (Rule.compileAll_eq_ok_iff.mp hcompile)
  have hcommute : compiled.Pairwise (CompiledRule.Commute mapping pseudonym.toList) :=
    hreplace.pairwise_commute (List.pairwise_map.mpr hapart)
      (mt Text.toList_eq_nil_iff.mp hpseudonym) (List.forall_mem_map.mpr hdisjoint)
  refine ⟨compiled, compiled', hcompile, Rule.compileAll_eq_ok_iff.mpr hcompiled', ?_⟩
  intro n source line
  have hready := applyRules_ready pseudonym.toList (Rule.ready_of_compileAll hcompile) line.toList
  have hsame := applyRules_perm hperm'.symm hcommute line.toList
  rcases hcourse : applyRules mapping pseudonym.toList compiled line.toList with
    ⟨text, hits, failure⟩
  rcases hcourse' : applyRules mapping pseudonym.toList compiled' line.toList with
    ⟨text', hits', failure'⟩
  rw [hcourse] at hready
  rw [hcourse, hcourse'] at hsame
  obtain rfl : failure = none := hready
  obtain ⟨rfl, hhits, rfl⟩ := hsame
  refine ⟨_, _, redactLine_eq_ok_iff.mpr ⟨text, hits, hcourse, rfl⟩,
    redactLine_eq_ok_iff.mpr ⟨text, hits', hcourse', rfl⟩, rfl, ?_, ?_⟩
  · exact congrArg (! ·) hhits.symm.isEmpty_eq
  · exact (hhits.map _).symm

end Order

section Sample

attribute [local instance] sampleHost

/-- The words of two rules that share no character, with each other and with the pseudonym. -/
theorem redactLine_any_order_login : ∃ compiled compiled' outcome outcome',
    Rule.compileAll jdoe.mapping [.username "name", ⟨"system", " linux ", "linux"⟩] =
      .ok compiled ∧
    Rule.compileAll jdoe.mapping [⟨"system", " linux ", "linux"⟩, .username "name"] =
      .ok compiled' ∧
    redactLine compiled jdoe.mapping 1 jdoe.pseudonym "/a.log" "linuxjdoe: jdolinuxe" =
      .ok outcome ∧
    redactLine compiled' jdoe.mapping 1 jdoe.pseudonym "/a.log" "linuxjdoe: jdolinuxe" =
      .ok outcome' ∧
    outcome'.text = outcome.text ∧ outcome'.matched = outcome.matched ∧
    outcome'.entries.Perm outcome.entries := by
  have hplain : ∀ word ∈ (["jdoe", "linux"] : List Text), IsPlainWord word :=
    List.forall_mem_cons.mpr
      ⟨⟨by decide, by decide +kernel, List.all_iff_forall_prop.mp (by decide +kernel)⟩,
        List.forall_mem_singleton.mpr
          ⟨by decide, by decide +kernel, List.all_iff_forall_prop.mp (by decide +kernel)⟩⟩
  have hdisjoint : ∀ word ∈ (["jdoe", "linux"] : List Text),
      ∀ c ∈ jdoe.pseudonym.toList, c ∉ word.toList := by
    simp only [← List.all_iff_forall_prop]
    decide +kernel
  obtain ⟨compiled, compiled', hcompile, hcompile', hlines⟩ :=
    @redactLine_any_order _ jdoe.mapping [.username "name", ⟨"system", " linux ", "linux"⟩]
      [⟨"system", " linux ", "linux"⟩, .username "name"] ["jdoe", "linux"] jdoe.pseudonym
      (.cons ⟨⟨"jdoe", eq_ok_of_toOption (by decide +kernel), by decide +kernel⟩,
          eq_ok_of_toOption (by decide +kernel)⟩
        (.cons ⟨⟨" linux ", eq_ok_of_toOption (by decide +kernel), by decide +kernel⟩,
          eq_ok_of_toOption (by decide +kernel)⟩ .nil))
      hplain (List.pairwise_pair.mpr (List.all_iff_forall_prop.mp (by decide +kernel)))
      (by decide) hdisjoint (.swap _ _ _)
  obtain ⟨outcome, outcome', hrun, hrun', hsame⟩ := hlines 1 "/a.log" "linuxjdoe: jdolinuxe"
  exact ⟨compiled, compiled', outcome, outcome', hcompile, hcompile', hrun, hrun', hsame⟩

end Sample

end LogRedaction
