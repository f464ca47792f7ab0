/-
LogRedaction.Proofs.Turn — what each rule adds when its turn comes.

A rule is applied to what the rules before it have left (`turnText`). What it adds to the outcome is
settled there: an entry if it matches that text, and no entry if it does not. `entriesByRule` has a
place for each rule, in order, and the entries about a line are those that are in the places.

A rule that does not match at its turn, or only notes the line, leaves the text as it is
(`CompiledRule.Idle`). Then the rules after it do not see whether it was there, so any such rules can
be taken out of the list at once: the text in the end is the same, and so are the entries in the
other places (`redactLine_without`). The lists with and without them go out of step; what the
induction carries is that the text is the same wherever both are at the same rule.

## §1 Lists without some of their places
## §2 Turns
## §3 Rules that are taken out
-/
import LogRedaction.Proofs.Line
import Mathlib.Data.List.ReduceOption

namespace LogRedaction

open Text

/-! ## §1 Lists without some of their places -/

/-- The list without what stands at some of its places. -/
def without {α : Type} (removed : Nat → Bool) (xs : List α) : List α :=
  (xs.zipIdx.filter fun x => !removed x.2).map Prod.fst

theorem without_cons {α : Type} (removed : Nat → Bool) (x : α) (xs : List α) :
    without removed (x :: xs) =
      if removed 0 then without (fun i => removed (i + 1)) xs
      else x :: without (fun i => removed (i + 1)) xs := by
  have hrest : without (fun i => removed (i + 1)) xs =
      ((xs.zipIdx 1).filter fun y => !removed y.2).map Prod.fst := by
    rw [List.zipIdx_succ, List.filter_map, List.map_map]
    rfl
  rw [hrest, without, List.zipIdx_cons, List.filter_cons]
  cases removed 0 <;> simp

theorem without_none {α : Type} (xs : List α) : without (fun _ => false) xs = xs := by
  simp [without, List.zipIdx_map_fst]

/-! ## §2 Turns -/

section Rules

variable [Host]

/-- The text to which the rule at a place is applied: what the rules before it have left. -/
def turnText (mapping : Mapping) (pseudonym : List CodePoint) (rules : List CompiledRule)
    (text : List CodePoint) (i : Nat) : List CodePoint :=
  (applyRules mapping pseudonym (rules.take i) text).text

namespace CompiledRule

/-- The rule only notes the lines that it matches: its replacement expands to nothing but blanks. -/
def notesOnly (mapping : Mapping) (rule : CompiledRule) : Bool :=
  match Template.expand mapping rule.replace (some rule.key) with
  | .ok replace => isAllBlank replace
  | .error _ => false

/-- The entry that the rule makes about a text, if it matches. -/
def entryAbout? (mapping : Mapping) (source : Text) (n : Int) (rule : CompiledRule)
    (text : List CodePoint) : Option AuditEntry :=
  if rule.detect.occursIn text then
    some (Hit.entry source n ⟨rule.key, !rule.notesOnly mapping⟩)
  else none

/-- The rule does not match the text, or only notes it. -/
def Idle (mapping : Mapping) (rule : CompiledRule) (text : List CodePoint) : Prop :=
  rule.detect.occursIn text = false ∨ rule.notesOnly mapping = true

instance (mapping : Mapping) (rule : CompiledRule) (text : List CodePoint) :
    Decidable (rule.Idle mapping text) :=
  inferInstanceAs (Decidable (_ ∨ _))

end CompiledRule

/-- What the rules add to the entries about a text, each at its turn: a place for each rule. -/
def entriesByRule (mapping : Mapping) (pseudonym : List CodePoint) (source : Text) (n : Int)
    (rules : List CompiledRule) (text : List CodePoint) : List (Option AuditEntry) :=
  rules.mapIdx fun i rule =>
    rule.entryAbout? mapping source n (turnText mapping pseudonym rules text i)

section Turn

variable {mapping : Mapping} {pseudonym text : List CodePoint} {rule : CompiledRule}
  {found : Option (List CodePoint × Hit)}

theorem CompiledRule.notesOnly_of_replace {regex : Regex}
    (h : rule.treatment mapping = .ok (.replace regex)) : rule.notesOnly mapping = false := by
  obtain ⟨replace, hexpand, hblank, -⟩ := treatment_eq_replace_iff.mp h
  rw [notesOnly, hexpand]
  exact hblank

theorem CompiledRule.notesOnly_of_note (h : rule.treatment mapping = .ok .note) :
    rule.notesOnly mapping = true := by
  obtain ⟨replace, hexpand, hblank⟩ := treatment_eq_note_iff.mp h
  rw [notesOnly, hexpand]
  exact hblank

/-- The entry is that of the hit. -/
theorem CompiledRule.entryAbout?_of_apply (h : rule.apply mapping pseudonym text = .ok found)
    (source : Text) (n : Int) :
    rule.entryAbout? mapping source n text = (found.map Prod.snd).map (Hit.entry source n) := by
  cases found with
  | none =>
      have hnone : rule.detect.occursIn text = false := (isSome_of_apply h).symm
      rw [entryAbout?, hnone]
      rfl
  | some found =>
      obtain ⟨hfound, ⟨htreatment, -, hhit⟩ | ⟨regex, htreatment, -, hhit⟩⟩ :=
        apply_eq_some_iff.mp h
      · rw [entryAbout?, if_pos hfound, notesOnly_of_note htreatment, Option.map_some, hhit]
        rfl
      · rw [entryAbout?, if_pos hfound, notesOnly_of_replace htreatment, Option.map_some, hhit]
        rfl

/-- An idle rule leaves the text as it is. -/
theorem CompiledRule.Idle.text_eq (hidle : rule.Idle mapping text)
    (h : rule.apply mapping pseudonym text = .ok found) :
    (found.map Prod.fst).getD text = text := by
  cases found with
  | none => rfl
  | some found =>
      obtain ⟨hfound, ⟨-, hresult, -⟩ | ⟨regex, htreatment, -⟩⟩ := apply_eq_some_iff.mp h
      · exact hresult
      · rcases hidle with hnone | hnotes
        · rw [hfound] at hnone
          cases hnone
        · rw [notesOnly_of_replace htreatment] at hnotes
          cases hnotes

theorem turnText_succ (h : rule.apply mapping pseudonym text = .ok found)
    (rules : List CompiledRule) (i : Nat) :
    turnText mapping pseudonym (rule :: rules) text (i + 1) =
      turnText mapping pseudonym rules ((found.map Prod.fst).getD text) i := by
  rw [turnText, List.take_succ_cons, applyRules_cons_ok h, turnText]

theorem entriesByRule_cons (h : rule.apply mapping pseudonym text = .ok found) (source : Text)
    (n : Int) (rules : List CompiledRule) :
    entriesByRule mapping pseudonym source n (rule :: rules) text =
      (found.map Prod.snd).map (Hit.entry source n) ::
        entriesByRule mapping pseudonym source n rules ((found.map Prod.fst).getD text) := by
  simp only [entriesByRule, List.mapIdx_cons, turnText_succ h]
  rw [← CompiledRule.entryAbout?_of_apply h]
  rfl

end Turn

/-! ## §3 Rules that are taken out -/

/-- Idle rules are taken out of a course that does not fail. -/
theorem applyRules_without {mapping : Mapping} {pseudonym : List CodePoint} (source : Text) (n : Int)
    {rules : List CompiledRule} {text : List CodePoint} {removed : Nat → Bool}
    (hfailure : (applyRules mapping pseudonym rules text).failure = none)
    (hidle : ∀ i rule, removed i = true → rules[i]? = some rule →
      rule.Idle mapping (turnText mapping pseudonym rules text i)) :
    ∃ hits, applyRules mapping pseudonym (without removed rules) text =
        ⟨(applyRules mapping pseudonym rules text).text, hits, none⟩ ∧
      hits.map (Hit.entry source n) =
        (without removed (entriesByRule mapping pseudonym source n rules text)).reduceOption := by
  induction rules generalizing text removed with
  | nil => exact ⟨[], rfl, rfl⟩
  | cons rule rules ih =>
      rcases happly : rule.apply mapping pseudonym text with e | found
      · rw [applyRules, happly] at hfailure
        cases hfailure
      rw [applyRules_cons_ok happly] at hfailure
      obtain ⟨hits, hmore, hentries⟩ := @ih ((found.map Prod.fst).getD text)
        (fun i => removed (i + 1)) hfailure (by
          intro i other hremoved hother
          rw [← turnText_succ happly]
          exact hidle (i + 1) other hremoved hother)
      rw [applyRules_cons_ok happly, entriesByRule_cons happly, without_cons, without_cons]
      cases hzero : removed 0 with
      | true =>
          -- The rule is not there, but the text is the same as if it were.
          have htext : (found.map Prod.fst).getD text = text :=
            CompiledRule.Idle.text_eq (hidle 0 rule hzero rfl) happly
          rw [if_pos rfl, if_pos rfl]
          rw [htext] at hmore hentries ⊢
          exact ⟨hits, hmore, hentries⟩
      | false =>
          rw [if_neg Bool.false_ne_true, if_neg Bool.false_ne_true, applyRules_cons_ok happly, hmore]
          refine ⟨(found.map Prod.snd).toList ++ hits, rfl, ?_⟩
          rw [List.map_append, hentries]
          cases found <;> rfl

/-- Each rule adds an entry at most, at its place; all have the number of the line, and the line is
matched if there are any. Rules that are idle at their turn can be taken out of the list: the text
that is left is the same, and so are the entries in the other places. -/
theorem redactLine_without {rules : List CompiledRule} {mapping : Mapping} {n : Int}
    {pseudonym source line : Text} {outcome : RedactedLine}
    (h : redactLine rules mapping n pseudonym source line = .ok outcome) :
    outcome.entries =
      (entriesByRule mapping pseudonym.toList source n rules line.toList).reduceOption ∧
    (outcome.matched = true ↔ outcome.entries ≠ []) ∧
    (∀ entry ∈ outcome.entries, entry.source = source ∧ entry.lineNumber = n) ∧
    ∀ removed : Nat → Bool,
      (∀ i rule, removed i = true → rules[i]? = some rule →
        rule.Idle mapping (turnText mapping pseudonym.toList rules line.toList i)) →
      ∃ reduced,
        redactLine (without removed rules) mapping n pseudonym source line = .ok reduced ∧
        reduced.text = outcome.text ∧
        reduced.entries = (without removed
          (entriesByRule mapping pseudonym.toList source n rules line.toList)).reduceOption := by
  obtain ⟨text, hits, hcourse, rfl⟩ := redactLine_eq_ok_iff.mp h
  have hfailure : (applyRules mapping pseudonym.toList rules line.toList).failure = none := by
    rw [hcourse]
  refine ⟨?_, ?_, ?_, ?_⟩
  · obtain ⟨all, hall, hentries⟩ :=
      @applyRules_without _ mapping pseudonym.toList source n rules line.toList (fun _ => false)
        hfailure (fun _ _ hremoved => by cases hremoved)
    rw [without_none, hcourse] at hall
    rw [without_none] at hentries
    obtain rfl : hits = all := congrArg LineCourse.hits hall
    exact hentries
  · cases hits <;> simp
  · intro entry hentry
    obtain ⟨hit, -, rfl⟩ := List.mem_map.mp hentry
    exact ⟨rfl, rfl⟩
  · intro removed hidle
    obtain ⟨kept, hreduced, hentries⟩ := applyRules_without source n hfailure hidle
    rw [hcourse] at hreduced
    exact ⟨_, redactLine_eq_ok_iff.mpr ⟨text, kept, hreduced, rfl⟩, rfl, hentries⟩

end Rules

section Sample

attribute [local instance] sampleHost

/-- Rules of all kinds: the first only notes lines, since its user store is the primary one, the
second replaces the name, the third does not match, and the last matches what the second has put. -/
def mixedRules : List Rule :=
  [⟨"store", "jdoe", "$\x7buserstore-domain\x7d"⟩, .username "name", ⟨"never", "xyz", "jdoe"⟩,
    ⟨"after", "ANON", ""⟩]

/-- The first and the third rule can be taken out. -/
theorem redactLine_without_login : ∃ compiled reduced,
    Rule.compileAll jdoe.mapping mixedRules = .ok compiled ∧
    redactLine compiled jdoe.mapping 7 jdoe.pseudonym "a.log" "User jdoe" =
      .ok ⟨"User ANON-7f3a", true, [⟨"a.log", 7, false, "rule 'store' (detect only)"⟩,
        ⟨"a.log", 7, true, "rule 'name'"⟩, ⟨"a.log", 7, false, "rule 'after' (detect only)"⟩]⟩ ∧
    redactLine (without (fun i => i == 0 || i == 2) compiled) jdoe.mapping 7 jdoe.pseudonym
      "a.log" "User jdoe" = .ok reduced ∧
    reduced.text = "User ANON-7f3a" ∧
    reduced.entries = [⟨"a.log", 7, true, "rule 'name'"⟩,
      ⟨"a.log", 7, false, "rule 'after' (detect only)"⟩] := by
  have hline : ((Rule.compileAll jdoe.mapping mixedRules).toOption.bind fun compiled =>
      (redactLine compiled jdoe.mapping 7 jdoe.pseudonym "a.log" "User jdoe").toOption) =
      some ⟨"User ANON-7f3a", true, [⟨"a.log", 7, false, "rule 'store' (detect only)"⟩,
        ⟨"a.log", 7, true, "rule 'name'"⟩, ⟨"a.log", 7, false, "rule 'after' (detect only)"⟩]⟩ := by
    decide +kernel
  have hidle : ((Rule.compileAll jdoe.mapping mixedRules).toOption.map fun compiled =>
      compiled.zipIdx.all fun x => !(x.2 == 0 || x.2 == 2) || decide (x.1.Idle jdoe.mapping
        (turnText jdoe.mapping jdoe.pseudonym.toList compiled "User jdoe".toList x.2))) =
      some true := by
    decide +kernel
  have hentries : ((Rule.compileAll jdoe.mapping mixedRules).toOption.map fun compiled =>
      (without (fun i => i == 0 || i == 2) (entriesByRule jdoe.mapping jdoe.pseudonym.toList
        "a.log" 7 compiled "User jdoe".toList)).reduceOption) =
      some [⟨"a.log", 7, true, "rule 'name'"⟩,
        ⟨"a.log", 7, false, "rule 'after' (detect only)"⟩] := by
    decide +kernel
  obtain ⟨compiled, hcompile, houtcome⟩ := Option.bind_eq_some_iff.mp hline
  rw [hcompile, Option.map_some, Option.some.injEq] at hidle hentries
  obtain ⟨-, -, -, hwithout⟩ := redactLine_without (eq_ok_of_toOption houtcome)
  obtain ⟨reduced, hreduced, htext, hreducedEntries⟩ :=
    hwithout (fun i => i == 0 || i == 2) (by
      intro i rule hremoved hrule
      have hmem : (rule, i) ∈ compiled.zipIdx := List.mem_zipIdx_iff_getElem?.mpr hrule
      have hcheck := List.all_eq_true.mp hidle _ hmem
      simp only [hremoved, Bool.not_true, Bool.false_or, decide_eq_true_eq] at hcheck
      exact hcheck)
  exact ⟨compiled, reduced, eq_ok_of_toOption hcompile, eq_ok_of_toOption houtcome, hreduced, htext,
    hreducedEntries.trans hentries⟩

end Sample

end LogRedaction
