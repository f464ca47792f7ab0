/-
LogRedaction.Proofs.Anonymity — a redacted line does not tell whose name was in it.

Two users differ only in their names, and the same line is written once with the one name in it
and once with the other. The rule for names finds each at the same places, because what stands
between has no character of either name; so it leaves the same text and the same hit
(`CompiledRule.ReplacesWord.apply_intercalate`). The rules after it mention the name nowhere, so
they cannot tell the users apart either: they compile to the same rules, which do the same to the
same text. What is left of the two lines is equal, with everything that is noted about them:
`redactLine_same_for_any_username`.
-/
import LogRedaction.Proofs.WordRule
import Mathlib.Data.Bool.AllAny

namespace LogRedaction

open Text

section Names

variable [Host]

/-- What a rule for a word makes of pieces with the word between them, if they have none of its
characters. It depends on the pieces only; that the line is hit tells that there are several. -/
theorem CompiledRule.ReplacesWord.apply_intercalate {mapping : Mapping} {rule : CompiledRule}
    {part word : List CodePoint} (h : rule.ReplacesWord mapping part word)
    {pieces : List (List CodePoint)} (hpieces : pieces ≠ []) (hdisjoint : ∀ piece ∈ pieces, ∀ c ∈ piece, c ∉ word)
    (pseudonym : List CodePoint) :
    rule.apply mapping pseudonym (word.intercalate pieces) =
      .ok (if pieces.length = 1 then none
        else some (pseudonym.intercalate pieces, ⟨rule.key, true⟩)) := by
  have hdivided := occurrences_intercalate h.word_ne_nil hpieces hdisjoint
  cases pieces with
  | nil => exact absurd rfl hpieces
  | cons piece more =>
      cases more with
      | nil =>
          rw [if_pos (List.length_singleton), List.intercalate_singleton]
          refine h.apply_unfound (fun hfound => ?_) pseudonym
          obtain ⟨c, rest, hpart⟩ := List.exists_cons_of_ne_nil h.part_ne_nil
          have hc : c ∈ part := by simp [hpart]
          exact hdisjoint piece (List.mem_cons_self ..) c (hfound.subset hc)
            (h.part_isInfix.subset hc)
      | cons other more =>
          rw [if_neg (by simp)]
          refine h.apply_found (h.part_isInfix.trans ?_) hdivided pseudonym
          rw [List.intercalate_cons_of_ne_nil (List.cons_ne_nil _ _)]
          exact ⟨_, _, rfl⟩

/-- The rule for a plain name compiles, and replaces the name. -/
theorem Rule.compile_username (user : Identity) (key : Text)
    (hplain : ∀ c ∈ user.username.toList, c ∉ Regex.metacharacters)
    (hblank : isAllBlank user.username = false) :
    ∃ detect, (Rule.username key).compile user.mapping =
        .ok ⟨key, detect, (Rule.username key).replace⟩ ∧
      CompiledRule.ReplacesWord user.mapping ⟨key, detect, (Rule.username key).replace⟩
        (strip user.username).toList user.username.toList :=
  @Rule.compile_word _ user.mapping (.username key) _ _ (expand_username user key)
    (expand_username user key) (Regex.isPlain_of_forall_not_mem hplain) hblank
    ((strip_ne_empty_iff _).mpr hblank) (strip_isInfix _)

/-- The rules after the rule for names see the pseudonym where the name was. -/
theorem redactLine_username (user : Identity) (key : Text) {rest : List Rule}
    {compiled : List CompiledRule} {pieces : List Text}
    (hplain : ∀ c ∈ user.username.toList, c ∉ Regex.metacharacters)
    (hblank : isAllBlank user.username = false)
    (hcompile : Rule.compileAll user.mapping rest = .ok compiled) (hpieces : pieces ≠ [])
    (hdisjoint : ∀ piece ∈ pieces, ∀ c ∈ piece.toList, c ∉ user.username.toList)
    (n : Int) (source : Text) :
    ∃ rules, Rule.compileAll user.mapping (.username key :: rest) = .ok rules ∧
      ∀ course, applyRules user.mapping user.pseudonym.toList compiled
          (user.pseudonym.intercalate pieces).toList = course →
        redactLine rules user.mapping n user.pseudonym source (user.username.intercalate pieces) =
          LineCourse.outcome { course with
            hits := (if pieces.length = 1 then [] else [⟨key, true⟩]) ++ course.hits }
          source n := by
  obtain ⟨detect, hfirst, hrule⟩ := Rule.compile_username user key hplain hblank
  refine ⟨_, Rule.compileAll_eq_ok_iff.mpr (.cons hfirst (Rule.compileAll_eq_ok_iff.mp hcompile)),
    ?_⟩
  rintro course rfl
  have happly := hrule.apply_intercalate
    (show pieces.map Text.toList ≠ [] by simpa using hpieces)
    (fun piece hpiece => by
      obtain ⟨s, hs, rfl⟩ := List.mem_map.mp hpiece
      exact hdisjoint s hs)
    user.pseudonym.toList
  rw [redactLine, Text.toList_intercalate, applyRules, happly, List.length_map]
  by_cases hone : pieces.length = 1
  · obtain ⟨piece, rfl⟩ := List.length_eq_one_iff.mp hone
    simp
  · rw [if_neg hone, if_neg hone, Text.toList_intercalate]
    rfl

/-- Lines that differ only in the name of the user that stands in them are redacted to the same
text, with the same entries, if the rule for names comes first and no other rule mentions the
name. -/
theorem redactLine_same_for_any_username {a b : Identity}
    (hsame : b = { a with username := b.username }) (key : Text) {rest : List Rule}
    {compiled : List CompiledRule} {pieces : List Text}
    (haplain : ∀ c ∈ a.username.toList, c ∉ Regex.metacharacters)
    (hablank : isAllBlank a.username = false)
    (hbplain : ∀ c ∈ b.username.toList, c ∉ Regex.metacharacters)
    (hbblank : isAllBlank b.username = false)
    (hrest : ∀ rule ∈ rest, ("username" : Text) ∉ Template.names rule.detect ∧
      ("username" : Text) ∉ Template.names rule.replace)
    (hcompile : Rule.compileAll a.mapping rest = .ok compiled) (hpieces : pieces ≠ [])
    (hdisjoint : ∀ piece ∈ pieces, ∀ c ∈ piece.toList,
      c ∉ a.username.toList ∧ c ∉ b.username.toList)
    (n : Int) (source : Text) :
    ∃ arules brules outcome,
      Rule.compileAll a.mapping (.username key :: rest) = .ok arules ∧
      Rule.compileAll b.mapping (.username key :: rest) = .ok brules ∧
      redactLine arules a.mapping n a.pseudonym source (a.username.intercalate pieces) =
        .ok outcome ∧
      redactLine brules b.mapping n b.pseudonym source (b.username.intercalate pieces) =
        .ok outcome := by
  have hagree : ∀ {template}, ("username" : Text) ∉ Template.names template →
      Template.Agree a.mapping b.mapping template := by
    intro template h
    rw [hsame]
    exact agree_of_username_not_mem a b.username h
  have hpseudonym : b.pseudonym = a.pseudonym := by rw [hsame]
  have hcompile' : Rule.compileAll b.mapping rest = .ok compiled := by
    rw [← hcompile]
    exact (Rule.compileAll_congr fun rule hrule =>
      ⟨hagree (hrest rule hrule).1, hagree (hrest rule hrule).2⟩).symm
  obtain ⟨arules, harules, haline⟩ := redactLine_username a key haplain hablank hcompile hpieces
    (fun piece hpiece c hc => (hdisjoint piece hpiece c hc).1) n source
  obtain ⟨brules, hbrules, hbline⟩ := redactLine_username b key hbplain hbblank hcompile' hpieces
    (fun piece hpiece c hc => (hdisjoint piece hpiece c hc).2) n source
  -- The rules after the first one make the same of the same text.
  have hcourse : applyRules b.mapping b.pseudonym.toList compiled
      (b.pseudonym.intercalate pieces).toList = applyRules a.mapping a.pseudonym.toList compiled
        (a.pseudonym.intercalate pieces).toList := by
    rw [hpseudonym]
    refine (applyRules_congr (fun c hc => ?_) _ _).symm
    obtain ⟨rule, hrule, hreplace⟩ := Rule.replace_of_compileAll hcompile c hc
    rw [hreplace]
    exact hagree (hrest rule hrule).2
  have hready := applyRules_ready a.pseudonym.toList (Rule.ready_of_compileAll hcompile)
    (a.pseudonym.intercalate pieces).toList
  obtain ⟨outcome, houtcome⟩ := @LineCourse.exists_outcome
    { applyRules a.mapping a.pseudonym.toList compiled (a.pseudonym.intercalate pieces).toList with
      hits := (if pieces.length = 1 then [] else [⟨key, true⟩]) ++ _ } hready source n
  exact ⟨arules, brules, outcome, harules, hbrules, (haline _ rfl).trans houtcome,
    (hbline _ hcourse).trans houtcome⟩

end Names

/-- A user with another name of letters. -/
def mary : Identity := { jdoe with username := "mary" }

section Sample

attribute [local instance] sampleHost

theorem redactLine_same_for_jdoe_and_mary : ∃ arules brules outcome,
    Rule.compileAll jdoe.mapping [.username "name", ⟨"host", "@[h-t]+", ""⟩] = .ok arules ∧
    Rule.compileAll mary.mapping [.username "name", ⟨"host", "@[h-t]+", ""⟩] = .ok brules ∧
    redactLine arules jdoe.mapping 7 jdoe.pseudonym "a.log" "jdoejdoe @ (jdoe@hst)" =
      .ok outcome ∧
    redactLine brules mary.mapping 7 mary.pseudonym "a.log" "marymary @ (mary@hst)" =
      .ok outcome := by
  obtain ⟨compiled, hcompiled⟩ := Option.isSome_iff_exists.mp (show
    (Rule.compileAll jdoe.mapping [⟨"host", "@[h-t]+", ""⟩]).toOption.isSome = true by
      decide +kernel)
  have hdisjoint : ∀ piece ∈ (["", "", " @ (", "@hst)"] : List Text), ∀ c ∈ piece.toList,
      c ∉ jdoe.username.toList ∧ c ∉ mary.username.toList := by
    simp only [← List.all_iff_forall_prop]
    decide +kernel
  obtain ⟨arules, brules, outcome, harules, hbrules, haline, hbline⟩ :=
    @redactLine_same_for_any_username _ jdoe mary rfl "name" [⟨"host", "@[h-t]+", ""⟩] compiled
      ["", "", " @ (", "@hst)"] (List.all_iff_forall_prop.mp (by decide +kernel))
      (by decide +kernel) (List.all_iff_forall_prop.mp (by decide +kernel)) (by decide +kernel)
      (by decide +kernel) (eq_ok_of_toOption hcompiled) (by decide) hdisjoint 7 "a.log"
  exact ⟨arules, brules, outcome, harules, hbrules, haline, hbline⟩

end Sample

end LogRedaction
