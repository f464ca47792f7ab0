/-
LogRedaction.Proofs.Placeholders — what the expansion of a template needs.

The pieces of a template are expanded from the left, and the first that cannot be expanded is the
error. A piece without value can stand anywhere, but an open one only at the end. So the error is
the first name that has no value, and only if there is none the name that is left open
(`expandPieces_eq_error_iff`). Whether a template leaves a placeholder open can be said without
reading it: some opening brace after a dollar sign has no closing brace behind it, and the first
such brace is where the open name begins (`leavesOpen_token`).

Expansion takes nothing else from the values, so the placeholders that are listed for a rule are all
that the rule depends on: `Rule.agree_of_placeholders`.

## §1 What is left open
## §2 Errors
## §3 Rules
-/
import LogRedaction.Listing
import LogRedaction.Proofs.Line
import LogRedaction.Proofs.Template
import LogRedaction.Proofs.Template.Token
import Mathlib.Data.Nat.Find

namespace LogRedaction

namespace Template

/-! ## §1 What is left open -/

/-- After this much of the text a placeholder is opened, and no brace closes it: the name would be
all that follows. -/
def OpensAt (text before name : List CodePoint) : Prop :=
  text = before ++ .scalar '$' :: .scalar '\x7b' :: name ∧ .scalar '\x7d' ∉ name

/-- The text leaves a placeholder open, escaped or not. -/
def Unterminated (text : List CodePoint) : Prop := ∃ before name, OpensAt text before name

/-- The name follows the first placeholder that the text leaves open. -/
def LeavesOpen (text name : List CodePoint) : Prop :=
  ∃ before, OpensAt text before name ∧
    ∀ before' name', OpensAt text before' name' → before.length ≤ before'.length

theorem exists_leavesOpen_iff {text : List CodePoint} :
    (∃ name, LeavesOpen text name) ↔ Unterminated text := by
  classical
  constructor
  · rintro ⟨name, before, hopens, -⟩
    exact ⟨before, name, hopens⟩
  · intro h
    have hlength : ∃ n before name, OpensAt text before name ∧ before.length = n := by
      obtain ⟨before, name, hopens⟩ := h
      exact ⟨_, before, name, hopens, rfl⟩
    obtain ⟨before, name, hopens, hn⟩ := Nat.find_spec hlength
    refine ⟨name, before, hopens, fun before' name' hopens' => ?_⟩
    rw [hn]
    exact Nat.find_min' hlength ⟨before', name', hopens', rfl⟩

/-- Where nothing is opened before the rest of a text, the rest decides. -/
theorem leavesOpen_append {start rest name : List CodePoint}
    (h : ∀ before name, OpensAt (start ++ rest) before name →
      ∃ more, before = start ++ more ∧ OpensAt rest more name) :
    LeavesOpen (start ++ rest) name ↔ LeavesOpen rest name := by
  constructor
  · rintro ⟨before, hopens, hleast⟩
    obtain ⟨more, rfl, hrest⟩ := h before name hopens
    refine ⟨more, hrest, fun before' name' hopens' => ?_⟩
    have hle := hleast (start ++ before') name' ⟨by rw [hopens'.1, List.append_assoc], hopens'.2⟩
    simpa using hle
  · rintro ⟨before, hopens, hleast⟩
    refine ⟨start ++ before, ⟨by rw [hopens.1, List.append_assoc], hopens.2⟩, ?_⟩
    intro before' name' hopens'
    obtain ⟨more, rfl, hrest⟩ := h before' name' hopens'
    simpa using hleast more name' hrest

theorem leavesOpen_cons {c : CodePoint} {rest name : List CodePoint}
    (h : ¬ [.scalar '$', .scalar '\x7b'] <+: c :: rest) :
    LeavesOpen (c :: rest) name ↔ LeavesOpen rest name := by
  refine @leavesOpen_append [c] rest name fun before name hopens => ?_
  obtain ⟨htext, hname⟩ := hopens
  cases before with
  | nil => exact absurd ⟨name, htext.symm⟩ h
  | cons d before =>
      obtain ⟨rfl, hrest⟩ := List.cons.inj htext
      exact ⟨before, rfl, hrest, hname⟩

/-- Nothing that begins before a closing brace is left open. -/
theorem leavesOpen_closed {start rest name : List CodePoint} :
    LeavesOpen (start ++ .scalar '\x7d' :: rest) name ↔ LeavesOpen rest name := by
  rw [← List.singleton_append, ← List.append_assoc]
  refine leavesOpen_append fun before name hopens => ?_
  obtain ⟨htext, hname⟩ := hopens
  rcases List.append_eq_append_iff.mp htext with ⟨more, rfl, hrest⟩ | ⟨more, hstart, hmore⟩
  · exact ⟨more, rfl, hrest, hname⟩
  · rcases List.eq_nil_or_concat more with rfl | ⟨more, c, rfl⟩
    · exact ⟨[], by rw [List.append_nil, hstart, List.append_nil], hmore.symm, hname⟩
    · rw [List.concat_eq_append, ← List.append_assoc] at hstart
      obtain rfl : .scalar '\x7d' = c := List.singleton_inj.mp (List.append_inj_right' hstart rfl)
      have hbrace : .scalar '\x7d' ∈ .scalar '$' :: .scalar '\x7b' :: name := by rw [hmore]; simp
      simp [hname] at hbrace

theorem leavesOpen_opened {rest name : List CodePoint} (h : .scalar '\x7d' ∉ rest) :
    LeavesOpen (.scalar '$' :: .scalar '\x7b' :: rest) name ↔ name = rest := by
  have hopens : OpensAt (.scalar '$' :: .scalar '\x7b' :: rest) [] rest := ⟨rfl, h⟩
  constructor
  · rintro ⟨before, ⟨htext, -⟩, hleast⟩
    obtain rfl := List.eq_nil_of_length_eq_zero (Nat.le_zero.mp (hleast [] rest hopens))
    simpa using htext.symm
  · rintro rfl
    exact ⟨[], hopens, fun _ _ _ => Nat.zero_le _⟩

theorem not_leavesOpen_nil {name : List CodePoint} : ¬ LeavesOpen [] name := by
  rintro ⟨before, ⟨htext, -⟩, -⟩
  simp at htext

/-- A token is left open, or it is closed and leaves open what the rest does. -/
theorem leavesOpen_token {token rest name : List CodePoint} {piece : Piece}
    (h : Token token rest piece) :
    LeavesOpen (token ++ rest) name ↔ piece = .unclosed name ∨ LeavesOpen rest name := by
  cases h with
  | @placeholder name' _ _ =>
      simpa using @leavesOpen_closed (.scalar '$' :: .scalar '\x7b' :: name') rest name
  | @escaped name' _ _ =>
      simpa using @leavesOpen_closed (.scalar '$' :: .scalar '$' :: .scalar '\x7b' :: name') rest name
  | unclosed hname =>
      rw [List.append_nil, leavesOpen_opened hname]
      simp [not_leavesOpen_nil, eq_comm]
  | unclosedEscaped hname =>
      rw [List.append_nil, leavesOpen_cons (by simp), leavesOpen_opened hname]
      simp [not_leavesOpen_nil, eq_comm]

/-! ## §2 Errors -/

/-- The name has no value. -/
def isMissing (mapping : Mapping) (name : Text) : Bool := (mapping.lookup name).isNone

theorem expandPieces_cons_eq_error_iff {mapping : Mapping} {piece : Piece} {rest : List Piece}
    {text : List CodePoint} {name : Text} (h : piece.expand mapping = .ok text) :
    expandPieces mapping (piece :: rest) = .error name ↔
      expandPieces mapping rest = .error name := by
  rw [expandPieces, h]
  cases expandPieces mapping rest <;> simp

/-- The error is the first name without a value, or else the name that is left open. -/
theorem expandPieces_eq_error_iff {mapping : Mapping} {text : List CodePoint} {name : Text} :
    expandPieces mapping (pieces text) = .error name ↔
      ((pieces text).filterMap Piece.name?).find? (isMissing mapping) = some name ∨
        (∀ other ∈ (pieces text).filterMap Piece.name?, isMissing mapping other = false) ∧
          LeavesOpen text name.toList := by
  induction text using reading_induction with
  | nil => simp [expandPieces, not_leavesOpen_nil]
  | char c rest hstart ih =>
      rw [pieces_char hstart, leavesOpen_cons (fun h => hstart (.inl h)),
        expandPieces_cons_eq_error_iff rfl, ih]
      rfl
  | token token rest piece htoken ih =>
      rw [pieces_token htoken, leavesOpen_token htoken]
      cases piece with
      | char c => cases htoken
      | escaped other =>
          rw [expandPieces_cons_eq_error_iff rfl, ih]
          simp [Piece.name?]
      | placeholder other =>
          have hnames : (Piece.placeholder other :: pieces rest).filterMap Piece.name? =
              Text.ofList other :: (pieces rest).filterMap Piece.name? := rfl
          rw [hnames]
          cases hvalue : mapping.lookup (Text.ofList other) with
          | none =>
              have hmissing : isMissing mapping (Text.ofList other) = true := by
                simp only [isMissing, hvalue, Option.isNone_none]
              simp [expandPieces, Piece.expand, hvalue, hmissing]
          | some value =>
              have hpresent : isMissing mapping (Text.ofList other) = false := by
                simp only [isMissing, hvalue, Option.isNone_some]
              have hexpand : (Piece.placeholder other).expand mapping = .ok value.toList := by
                simp only [Piece.expand, hvalue]
              rw [expandPieces_cons_eq_error_iff hexpand, ih]
              simp [hpresent]
      | unclosed other =>
          have hrest : rest = [] := by cases htoken <;> rfl
          subst hrest
          simp [expandPieces, Piece.expand, Piece.name?, not_leavesOpen_nil, ← Text.toList_inj]

theorem expand_eq_error_iff {mapping : Mapping} {template : Text} {rule : Option Text}
    {e : Unresolved} : expand mapping template rule = .error e ↔ e.rule = rule ∧
      ((names template).find? (isMissing mapping) = some e.name ∨
        (∀ name ∈ names template, isMissing mapping name = false) ∧
          LeavesOpen template.toList e.name.toList) := by
  rw [names, ← expandPieces_eq_error_iff, expand]
  cases expandPieces mapping (pieces template.toList) with
  | ok text => simp
  | error name =>
      obtain ⟨name', rule'⟩ := e
      simp [eq_comm, and_comm]

/-- A template cannot be expanded if a name has no value or a placeholder is left open. -/
theorem exists_expand_error_iff {mapping : Mapping} {template : Text} {rule : Option Text} :
    (∃ e, expand mapping template rule = .error e) ↔
      (∃ name ∈ names template, isMissing mapping name = true) ∨
        Unterminated template.toList := by
  simp only [expand_eq_error_iff]
  constructor
  · rintro ⟨e, -, hmissing | ⟨-, hopen⟩⟩
    · exact .inl ⟨e.name, List.mem_of_find?_eq_some hmissing, List.find?_some hmissing⟩
    · exact .inr (exists_leavesOpen_iff.mp ⟨_, hopen⟩)
  · intro h
    cases hfind : (names template).find? (isMissing mapping) with
    | some name => exact ⟨⟨name, rule⟩, rfl, .inl rfl⟩
    | none =>
        have hall : ∀ name ∈ names template, isMissing mapping name = false := fun name hname =>
          Bool.eq_false_iff.mpr (List.find?_eq_none.mp hfind name hname)
        have hopen : Unterminated template.toList := by
          refine h.resolve_left ?_
          rintro ⟨name, hname, hmissing⟩
          rw [hall name hname] at hmissing
          cases hmissing
        obtain ⟨name, hname⟩ := exists_leavesOpen_iff.mpr hopen
        exact ⟨⟨Text.ofList name, rule⟩, rfl, .inr ⟨hall, hname⟩⟩

end Template

/-! ## §3 Rules -/

theorem mem_sortedNames {names : List Text} {name : Text} :
    name ∈ sortedNames names ↔ name ∈ names := by
  rw [sortedNames, List.mem_eraseDups, List.mem_mergeSort]

/-- What a rule is and does depends on the values of the placeholders that are listed for it. -/
theorem Rule.agree_of_placeholders {a b : Mapping} {rule : Rule}
    (h : ∀ name ∈ rule.placeholders, a.lookup name = b.lookup name) :
    Template.Agree a b rule.detect ∧ Template.Agree a b rule.replace := by
  simp only [placeholders, mem_sortedNames, List.mem_append] at h
  exact ⟨fun name hname => h name (.inl hname), fun name hname => h name (.inr hname)⟩

theorem isMissing_mapping_iff {identity : Identity} {name : Text} :
    Template.isMissing identity.mapping name = false ↔
      name ∈ (["username", "tenant-domain", "tenant-id", "userstore-domain"] : List Text) := by
  rw [Template.isMissing, Option.isNone_eq_false_iff, List.lookup_isSome_iff]
  simp [Identity.mapping]

section Rules

variable [Host]

/-- What a template needs are the values of the names that it mentions. It cannot be expanded if one
of them is missing or a placeholder is left open, and the error says which. A rule takes only the
values of its listed placeholders, when it is compiled and when it is applied. Of a user there are
values for four names. -/
theorem expand_fails_iff :
    (∀ (mapping : Mapping) (template : Text) (rule : Option Text),
      (∃ e, Template.expand mapping template rule = .error e) ↔
        (∃ name ∈ Template.names template, Template.isMissing mapping name = true) ∨
          Template.Unterminated template.toList) ∧
    (∀ (mapping : Mapping) (template : Text) (rule : Option Text) (e : Template.Unresolved),
      Template.expand mapping template rule = .error e ↔ e.rule = rule ∧
        ((Template.names template).find? (Template.isMissing mapping) = some e.name ∨
          (∀ name ∈ Template.names template, Template.isMissing mapping name = false) ∧
            Template.LeavesOpen template.toList e.name.toList)) ∧
    (∀ (a b : Mapping) (rules : List Rule),
      (∀ rule ∈ rules, ∀ name ∈ rule.placeholders, a.lookup name = b.lookup name) →
      (∀ rule ∈ rules, rule.compile a = rule.compile b) ∧
      Rule.compileAll a rules = Rule.compileAll b rules ∧
      ∀ compiled, Rule.compileAll a rules = .ok compiled →
        ∀ (n : Int) (pseudonym source line : Text),
          redactLine compiled a n pseudonym source line =
            redactLine compiled b n pseudonym source line) ∧
    ∀ (identity : Identity) (template : Text) (rule : Option Text),
      (∃ text, Template.expand identity.mapping template rule = .ok text) ↔
        (∀ name ∈ Template.names template,
          name ∈ (["username", "tenant-domain", "tenant-id", "userstore-domain"] : List Text)) ∧
        ¬ Template.Unterminated template.toList := by
  refine ⟨?_, ?_, ?_, ?_⟩
  · exact fun mapping template rule => Template.exists_expand_error_iff
  · exact fun mapping template rule e => Template.expand_eq_error_iff
  · intro a b rules h
    have hagree := fun rule hrule => Rule.agree_of_placeholders (h rule hrule)
    refine ⟨fun rule hrule => Rule.compile_congr (hagree rule hrule).1 (hagree rule hrule).2,
      Rule.compileAll_congr hagree, ?_⟩
    intro compiled hcompile n pseudonym source line
    have hreplace : ∀ c ∈ compiled, Template.Agree a b c.replace := by
      intro c hc
      obtain ⟨rule, hrule, hkept⟩ := Rule.replace_of_compileAll hcompile c hc
      rw [hkept]
      exact (hagree rule hrule).2
    rw [redactLine, redactLine, applyRules_congr hreplace]
  · intro identity template rule
    have hok : (∃ text, Template.expand identity.mapping template rule = .ok text) ↔
        ¬ ∃ e, Template.expand identity.mapping template rule = .error e := by
      cases Template.expand identity.mapping template rule <;> simp
    simp only [hok, Template.exists_expand_error_iff, not_or, not_exists, not_and,
      Bool.not_eq_true, isMissing_mapping_iff]

end Rules

section Sample

attribute [local instance] sampleHost

/-- Templates that fail by a missing name and by an open one, and a rule that is given a value that
it does not mention. -/
theorem expand_fails_iff_login :
    Template.expand jdoe.mapping "$\x7busername\x7d $\x7bgroup\x7d $\x7btenant" (some "key") =
      .error ⟨"group", some "key"⟩ ∧
    Template.expand jdoe.mapping "$\x7busername\x7d $$\x7btenant$\x7bid" (some "key") =
      .error ⟨"tenant$\x7bid", some "key"⟩ ∧
    (Rule.username "name").compile jdoe.mapping =
      (Rule.username "name").compile [("group", "admin"), ("username", "jdoe")] := by
  have hagree : ∀ rule ∈ [Rule.username "name"], ∀ name ∈ rule.placeholders,
      jdoe.mapping.lookup name =
        List.lookup name ([("group", "admin"), ("username", "jdoe")] : Mapping) := by
    simp only [List.forall_mem_singleton, Rule.placeholders, mem_sortedNames]
    decide +kernel
  have hopen : Template.LeavesOpen ("$\x7busername\x7d $$\x7btenant$\x7bid" : Text).toList
      ("tenant$\x7bid" : Text).toList := by
    have htext : ("$\x7busername\x7d $$\x7btenant$\x7bid" : Text).toList =
        ("$\x7busername" : Text).toList ++ .scalar '\x7d' :: .scalar ' ' :: .scalar '$' ::
          .scalar '$' :: .scalar '\x7b' :: ("tenant$\x7bid" : Text).toList := by
      decide +kernel
    rw [htext, Template.leavesOpen_closed, Template.leavesOpen_cons (by decide),
      Template.leavesOpen_cons (by decide), Template.leavesOpen_opened (by decide +kernel)]
  exact ⟨(expand_fails_iff.2.1 _ _ _ _).mpr ⟨rfl, .inl (by decide +kernel)⟩,
    (expand_fails_iff.2.1 _ _ _ _).mpr ⟨rfl, .inr ⟨by decide +kernel, hopen⟩⟩,
    (expand_fails_iff.2.2.1 _ _ _ hagree).1 _ (List.mem_singleton_self _)⟩

end Sample

end LogRedaction
