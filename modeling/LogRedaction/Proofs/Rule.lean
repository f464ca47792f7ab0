/-
LogRedaction.Proofs.Rule — what compiling a rule promises.

`compile_eq_ok_iff` lists everything a rule needs to compile. All of it is about the two expanded
templates, and what a compiled rule does to a line expands and reads the second one again. So it
cannot fail there for the same values: `treatment_of_compile`, and for a list of rules
`ready_of_compileAll`. Nor can a value matter that no template of the rules mentions: the rules
compile to the same rules without it (`compileAll_congr`), and these do the same to every line
(`applyRules_congr`).
-/
import LogRedaction.Line
import LogRedaction.Proofs.Template
import Mathlib.Data.List.Forall2

namespace LogRedaction

/-! ## Compiling -/

theorem bind_eq_ok_iff {ε α β : Type} {x : Except ε α} {f : α → Except ε β} {b : β} :
    (x >>= f) = .ok b ↔ ∃ a, x = .ok a ∧ f a = .ok b := by
  cases x <;> simp [bind, Except.bind]

theorem eq_ok_of_toOption {ε α : Type} {x : Except ε α} {a : α} (h : x.toOption = some a) :
    x = .ok a := by
  cases x with
  | error e => cases h
  | ok b => rw [Option.some.inj h]

theorem throw_ne_ok {ε α : Type} (e : ε) (a : α) : (throw e : Except ε α) ≠ .ok a := by
  simp [throw, throwThe, MonadExceptOf.throw]

section Compiling

variable [Host]

namespace Rule

omit [Host] in
theorem expand_eq_ok_iff {key template text : Text} {mapping : Mapping} :
    expand key mapping template = .ok text ↔
      Template.expand mapping template (some key) = .ok text := by
  unfold expand
  split <;> simp_all

theorem readPattern_eq_ok_iff {key pattern : Text} {regex : Regex} :
    readPattern key pattern = .ok regex ↔ Regex.read pattern = .ok regex := by
  unfold readPattern
  split <;> simp_all

/-- The template can be used for the replacement of a rule: what it expands to is blank or can be
read. -/
def Replaceable (mapping : Mapping) (key template : Text) : Prop :=
  ∃ text, Template.expand mapping template (some key) = .ok text ∧
    (Text.isAllBlank text = false → ∃ regex, Regex.read text = .ok regex)

theorem compile_eq_ok_iff {mapping : Mapping} {rule : Rule} {compiled : CompiledRule} :
    rule.compile mapping = .ok compiled ↔
      ∃ text regex, Template.expand mapping rule.detect (some rule.key) = .ok text ∧
        Text.strip text ≠ "" ∧ Regex.read (Text.strip text) = .ok regex ∧
        Replaceable mapping rule.key rule.replace ∧
        compiled = ⟨rule.key, regex, rule.replace⟩ := by
  rw [compile]
  simp only [bind_eq_ok_iff, expand_eq_ok_iff]
  constructor
  · rintro ⟨text, hdetect, h⟩
    split at h
    · obtain ⟨_, hthrow, -⟩ := bind_eq_ok_iff.mp h
      exact absurd hthrow (throw_ne_ok _ _)
    rename_i hempty
    simp only [bind_eq_ok_iff, expand_eq_ok_iff, readPattern_eq_ok_iff] at h
    obtain ⟨regex, hread, replace, hreplace, h⟩ := h
    refine ⟨text, regex, hdetect, hempty, hread, ⟨replace, hreplace, ?_⟩, ?_⟩
    · intro hblank
      rw [hblank, Bool.not_false, if_pos rfl] at h
      obtain ⟨second, hsecond, -⟩ := bind_eq_ok_iff.mp h
      exact ⟨second, readPattern_eq_ok_iff.mp hsecond⟩
    · split at h
      · obtain ⟨_, -, hpure⟩ := bind_eq_ok_iff.mp h
        exact (Except.ok.inj hpure).symm
      · exact (Except.ok.inj h).symm
  · rintro ⟨text, regex, hdetect, hempty, hread, ⟨replace, hreplace, hblank⟩, rfl⟩
    refine ⟨text, hdetect, ?_⟩
    rw [if_neg hempty]
    simp only [bind_eq_ok_iff, expand_eq_ok_iff, readPattern_eq_ok_iff]
    refine ⟨regex, hread, replace, hreplace, ?_⟩
    cases hb : Text.isAllBlank replace with
    | true => rfl
    | false =>
        obtain ⟨second, hsecond⟩ := hblank hb
        rw [Bool.not_false, if_pos rfl]
        exact bind_eq_ok_iff.mpr ⟨second, readPattern_eq_ok_iff.mpr hsecond, rfl⟩

/-- What a compiled rule does to lines is known for the values it was compiled with. -/
theorem treatment_of_compile {mapping : Mapping} {rule : Rule} {compiled : CompiledRule}
    (h : rule.compile mapping = .ok compiled) : ∃ t, compiled.treatment mapping = .ok t := by
  obtain ⟨_, regex, -, -, -, ⟨replace, hreplace, hread⟩, rfl⟩ := compile_eq_ok_iff.mp h
  rw [CompiledRule.treatment]
  simp only [hreplace]
  cases hblank : Text.isAllBlank replace with
  | true => exact ⟨.note, rfl⟩
  | false =>
      obtain ⟨second, hsecond⟩ := hread hblank
      exact ⟨.replace second, by simp [hsecond]⟩

theorem compileAll_eq_ok_iff {mapping : Mapping} {rules : List Rule}
    {compiled : List CompiledRule} : compileAll mapping rules = .ok compiled ↔
      List.Forall₂ (fun rule c => rule.compile mapping = .ok c) rules compiled := by
  induction rules generalizing compiled with
  | nil =>
      rw [compileAll, List.forall₂_nil_left_iff]
      exact ⟨fun h => (Except.ok.inj h).symm, fun h => h ▸ rfl⟩
  | cons rule rules ih =>
      rw [compileAll]
      simp only [bind_eq_ok_iff, ih]
      constructor
      · rintro ⟨c, hc, more, hmore, h⟩
        obtain rfl : c :: more = compiled := Except.ok.inj h
        exact .cons hc hmore
      · intro h
        cases h with
        | cons hc hmore => exact ⟨_, hc, _, hmore, rfl⟩

/-- Every compiled rule comes from one of the rules. -/
theorem mem_of_compileAll {mapping : Mapping} {rules : List Rule} {compiled : List CompiledRule}
    (h : compileAll mapping rules = .ok compiled) :
    ∀ c ∈ compiled, ∃ rule ∈ rules, rule.compile mapping = .ok c := by
  have hall := compileAll_eq_ok_iff.mp h
  clear h
  induction hall with
  | nil => intro c hc; cases hc
  | @cons rule c rules compiled hcompile _ ih =>
      intro other hother
      rcases List.mem_cons.mp hother with rfl | hother
      · exact ⟨rule, List.mem_cons_self .., hcompile⟩
      · obtain ⟨more, hmore, hcompile⟩ := ih other hother
        exact ⟨more, List.mem_cons_of_mem _ hmore, hcompile⟩

/-- One bad rule is enough. -/
theorem compileAll_error {mapping : Mapping} {rules : List Rule} {rule : Rule} {e : CompileError}
    (hrule : rule ∈ rules) (h : rule.compile mapping = .error e) :
    ∃ e', compileAll mapping rules = .error e' := by
  cases hall : compileAll mapping rules with
  | error e' => exact ⟨e', rfl⟩
  | ok compiled =>
      obtain ⟨hlength, hget⟩ := List.forall₂_iff_get.mp (compileAll_eq_ok_iff.mp hall)
      obtain ⟨i, hi, rfl⟩ := List.mem_iff_getElem.mp hrule
      have hcompiled := hget i hi (hlength ▸ hi)
      rw [List.get_eq_getElem, h] at hcompiled
      cases hcompiled

end Rule

/-! ## Rules that are ready -/

/-- It is known what the rule does to lines. -/
def CompiledRule.Ready (mapping : Mapping) (rule : CompiledRule) : Prop :=
  ∃ t, rule.treatment mapping = .ok t

theorem Rule.ready_of_compileAll {mapping : Mapping} {rules : List Rule}
    {compiled : List CompiledRule} (h : compileAll mapping rules = .ok compiled) :
    ∀ rule ∈ compiled, rule.Ready mapping := by
  intro c hc
  obtain ⟨rule, -, hcompile⟩ := mem_of_compileAll h c hc
  exact treatment_of_compile hcompile

/-! ## Values that are not mentioned -/

section Agree

variable {a b : Mapping}

theorem Rule.compile_congr {rule : Rule} (hdetect : Template.Agree a b rule.detect)
    (hreplace : Template.Agree a b rule.replace) : rule.compile a = rule.compile b := by
  simp only [compile, expand, Template.expand_congr hdetect, Template.expand_congr hreplace]

theorem Rule.compileAll_congr {rules : List Rule} (h : ∀ rule ∈ rules,
    Template.Agree a b rule.detect ∧ Template.Agree a b rule.replace) :
    compileAll a rules = compileAll b rules := by
  induction rules with
  | nil => rfl
  | cons rule rules ih =>
      obtain ⟨hdetect, hreplace⟩ := h rule (List.mem_cons_self ..)
      rw [compileAll, compileAll, compile_congr hdetect hreplace,
        ih fun other hother => h other (List.mem_cons_of_mem _ hother)]

theorem CompiledRule.apply_congr {rule : CompiledRule} (h : Template.Agree a b rule.replace)
    (pseudonym text : List CodePoint) : rule.apply a pseudonym text = rule.apply b pseudonym text := by
  simp only [apply, treatment, Template.expand_congr h]

theorem applyRules_congr {rules : List CompiledRule}
    (h : ∀ rule ∈ rules, Template.Agree a b rule.replace) (pseudonym text : List CodePoint) :
    applyRules a pseudonym rules text = applyRules b pseudonym rules text := by
  induction rules generalizing text with
  | nil => rfl
  | cons rule rules ih =>
      have hmore := ih fun other hother => h other (List.mem_cons_of_mem _ hother)
      rw [applyRules, applyRules, CompiledRule.apply_congr (h rule (List.mem_cons_self ..))]
      simp only [hmore]

end Agree

/-- A compiled rule keeps its template. -/
theorem Rule.replace_of_compileAll {mapping : Mapping} {rules : List Rule}
    {compiled : List CompiledRule} (h : compileAll mapping rules = .ok compiled) :
    ∀ c ∈ compiled, ∃ rule ∈ rules, c.replace = rule.replace := by
  intro c hc
  obtain ⟨rule, hrule, hcompile⟩ := mem_of_compileAll h c hc
  obtain ⟨_, _, -, -, -, -, rfl⟩ := compile_eq_ok_iff.mp hcompile
  exact ⟨rule, hrule, rfl⟩

end Compiling

/-! ## The rule for names -/

/-- The rule that finds the name of the user and replaces it. -/
def Rule.username (key : Text) : Rule := ⟨key, "$\x7busername\x7d", "$\x7busername\x7d"⟩

/-- A user with a name of letters, as given and as checked. -/
def jdoeForm : IdentityForm :=
  ⟨.text "jdoe", .text "carbon.super", .int 0, .text "PRIMARY", .text "ANON-7f3a"⟩

@[inherit_doc jdoeForm]
def jdoe : Identity := ⟨"jdoe", "carbon.super", 0, "PRIMARY", "ANON-7f3a"⟩

/-- The same user under half of a surrogate pair, as given and as checked. -/
def unwritableForm : IdentityForm :=
  { jdoeForm with pseudonym := .text (Text.ofList [.surrogate 0x4FF]) }

@[inherit_doc unwritableForm]
def unwritable : Identity := { jdoe with pseudonym := Text.ofList [.surrogate 0x4FF] }

/-- A host for runs that are computed. -/
@[reducible] def sampleHost : Host := .lenient ⟨"/", ["home"]⟩

section Sample

attribute [local instance] sampleHost

theorem Rule.compileAll_jdoe :
    ∃ compiled, compileAll jdoe.mapping [.username "plain-username"] = .ok compiled := by
  have h : (compileAll jdoe.mapping [.username "plain-username"]).toOption.isSome = true := by
    decide +kernel
  obtain ⟨compiled, hcompiled⟩ := Option.isSome_iff_exists.mp h
  exact ⟨compiled, eq_ok_of_toOption hcompiled⟩

end Sample

end LogRedaction
