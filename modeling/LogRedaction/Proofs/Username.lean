/-
LogRedaction.Proofs.Username — the rule that replaces the name of a user.

The rule finds lines by the name and replaces the name in them. A name is put into the rule as it
is, and the rule is an expression: what the name means there decides what is found. A plain name
means itself, so exactly its occurrences are replaced (`redactsLiterally_iff`); the detection is
without the blanks around the name, which changes nothing as long as something is left of it. A
name with a character that expressions use can be missed where it stands.
-/
import LogRedaction.Proofs.WordRule

namespace LogRedaction

open Text

section Names

variable [Host]

/-- The rule for the name of the user compiles, and replaces the occurrences of the name in every
line, from the left, and nothing else. No occurrence is left between the replaced ones. -/
def RedactsLiterally (identity : Identity) (key : Text) : Prop :=
  ∃ compiled, (Rule.username key).compile identity.mapping = .ok compiled ∧
    ∀ (n : Int) (source line : Text), ∃ outcome pieces,
      redactLine [compiled] identity.mapping n identity.pseudonym source line = .ok outcome ∧
      Occurrences identity.username.toList line.toList pieces ∧
      identity.username.toList.intercalate pieces = line.toList ∧
      outcome.text.toList = identity.pseudonym.toList.intercalate pieces ∧
      ∀ piece ∈ pieces, ¬ identity.username.toList <:+: piece

theorem redactsLiterally_of_isPlain {identity : Identity} {key : Text}
    (hplain : Regex.isPlain identity.username.toList = true)
    (hblank : isAllBlank identity.username = false) : RedactsLiterally identity key := by
  obtain ⟨detect, hcompile, hrule⟩ := @Rule.compile_word _ identity.mapping (.username key) _ _
    (expand_username identity key) (expand_username identity key) hplain hblank
    ((strip_ne_empty_iff _).mpr hblank) (strip_isInfix _)
  refine ⟨_, hcompile, fun n source line => ?_⟩
  obtain ⟨outcome, pieces, hline, hpieces, htext, -⟩ :=
    hrule.exists_outcome n identity.pseudonym source line
  exact ⟨outcome, pieces, hline, hpieces, intercalate_of_occurrences hpieces, htext,
    not_infix_of_occurrences hpieces hrule.word_ne_nil⟩

/-- For a plain name the rule works unless there is nothing but blanks to find. -/
theorem redactsLiterally_iff {identity : Identity} (key : Text)
    (hplain : Regex.isPlain identity.username.toList = true) :
    RedactsLiterally identity key ↔ isAllBlank identity.username = false := by
  constructor
  · rintro ⟨compiled, hcompile, -⟩
    obtain ⟨text, _, hexpand, hne, -⟩ := Rule.compile_eq_ok_iff.mp hcompile
    have hname := (expand_username identity key).symm.trans hexpand
    obtain rfl : identity.username = text := Except.ok.inj hname
    exact (strip_ne_empty_iff _).mp hne
  · exact redactsLiterally_of_isPlain hplain

end Names

section Sample

attribute [local instance] sampleHost

/-- A name of letters is replaced. -/
theorem redactsLiterally_jdoe :
    RedactsLiterally jdoe "plain-username" :=
  (redactsLiterally_iff "plain-username" (by decide +kernel)).mpr (by decide +kernel)

end Sample

section Missed

variable [Host]

/-- What the rule for names makes of a line, if it compiles and can be applied. -/
def redactedByName? (identity : Identity) (key : Text) (n : Int) (source line : Text) :
    Option Text := do
  let compiled ← ((Rule.username key).compile identity.mapping).toOption
  let outcome ←
    (redactLine [compiled] identity.mapping n identity.pseudonym source line).toOption
  return outcome.text

/-- A line with the name in it that is left without the pseudonym shows that the rule fails. -/
theorem not_redactsLiterally {identity : Identity} {key : Text} (n : Int)
    (source line text : Text) (htext : redactedByName? identity key n source line = some text)
    (hname : identity.username.toList <:+: line.toList)
    (hkept : ¬ identity.pseudonym.toList <:+: text.toList) : ¬ RedactsLiterally identity key := by
  rintro ⟨compiled, hcompile, hlines⟩
  obtain ⟨outcome, pieces, houtcome, hpieces, -, hreplaced, -⟩ := hlines n source line
  have hsame : redactedByName? identity key n source line = some outcome.text := by
    simp [redactedByName?, hcompile, houtcome, Except.toOption]
  rw [htext, Option.some.injEq] at hsame
  rw [hsame, hreplaced] at hkept
  exact hkept (infix_intercalate_of_occurrences hpieces hname _)

end Missed

section Sample

attribute [local instance] sampleHost

/-- Two names that are accepted and mean something else as expressions. -/
theorem not_redactsLiterally_plus_and_count :
    (∃ form : IdentityForm, ∃ identity, form.check = .ok identity ∧
      identity.username = "j+doe" ∧ ¬ RedactsLiterally identity "plain-username") ∧
    (∃ form : IdentityForm, ∃ identity, form.check = .ok identity ∧
      identity.username = "doe\x7b2\x7d" ∧ ¬ RedactsLiterally identity "plain-username") := by
  refine ⟨⟨⟨.text "j+doe", .text "carbon.super", .int 0, .text "PRIMARY", .text "ANON-7f3a"⟩,
      ⟨"j+doe", "carbon.super", 0, "PRIMARY", "ANON-7f3a"⟩, rfl, rfl, ?_⟩,
    ⟨.text "doe\x7b2\x7d", .text "carbon.super", .int 0, .text "PRIMARY", .text "ANON-7f3a"⟩,
      ⟨"doe\x7b2\x7d", "carbon.super", 0, "PRIMARY", "ANON-7f3a"⟩, rfl, rfl, ?_⟩
  · exact not_redactsLiterally 1 "" "login j+doe" "login j+doe" (by decide +kernel)
      (by decide +kernel) (by decide +kernel)
  · exact not_redactsLiterally 1 "" "login doe\x7b2\x7d" "login doe\x7b2\x7d" (by decide +kernel)
      (by decide +kernel) (by decide +kernel)

end Sample

end LogRedaction
