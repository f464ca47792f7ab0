/-
LogRedaction.Proofs.Configuration — which data describes rules, and which rules it describes.

`DescribedIn` says without the reader what a configuration is: a mapping, perhaps with all of it in a
section of its own, that has a list of mappings under one name; each of these has a key, something
to detect and perhaps something to replace, under a short name or a long one. `DataFlaw` says what
is wrong with any other data, and which of several flaws counts. Reading gives rules exactly for the
former and an error exactly for the latter (`ofData_accepts`).

Of two entries with the same key the last one counts, so what a mapping has under a key is said by
what comes after it (`Gives`, `Lacks`).

## §1 Mappings
## §2 One rule
## §3 A list of rules
## §4 Configurations
## §5 Writing rules down
-/
import LogRedaction.Configuration
import Mathlib.Data.List.Forall2

namespace LogRedaction

/-! ## §1 Mappings -/

namespace Value

variable {entries : List (Value × Value)} {key : Text} {value : Value}

/-- Nothing in the mapping has this key. -/
def Lacks (entries : List (Value × Value)) (key : Text) : Prop :=
  ∀ entry ∈ entries, entry.1 ≠ .text key

/-- The mapping has this value under the key. -/
def Gives (entries : List (Value × Value)) (key : Text) (value : Value) : Prop :=
  ∃ before after, entries = before ++ (.text key, value) :: after ∧ Lacks after key

/-- The value is under the first of two keys, or under the other if the mapping lacks the first. -/
def GivesEither (entries : List (Value × Value)) (first other : Text) (value : Value) : Prop :=
  Gives entries first value ∨ Lacks entries first ∧ Gives entries other value

theorem not_lacks_of_gives (h : Gives entries key value) : ¬Lacks entries key := by
  obtain ⟨before, after, rfl, -⟩ := h
  exact fun hlacks => hlacks (.text key, value) (by simp) rfl

theorem not_lacks_of_givesEither {first other : Text}
    (h : GivesEither entries first other value) : ¬(Lacks entries first ∧ Lacks entries other) := by
  rcases h with h | ⟨-, h⟩
  · exact fun hlacks => not_lacks_of_gives h hlacks.1
  · exact fun hlacks => not_lacks_of_gives h hlacks.2

theorem isText_iff {s : Text} : value.isText s = true ↔ value = .text s := by
  cases value <;> simp [isText, text?]

theorem lookup_eq_none_iff : lookup entries key = none ↔ Lacks entries key := by
  simp [lookup, Lacks, List.find?_eq_none, ← isText_iff]

theorem lookup_eq_some_iff : lookup entries key = some value ↔ Gives entries key value := by
  rw [lookup, Option.map_eq_some_iff]
  constructor
  · rintro ⟨⟨found, _⟩, hfind, rfl⟩
    obtain ⟨hkey, after, before, hentries, hafter⟩ := List.find?_eq_some_iff_append.mp hfind
    obtain rfl := isText_iff.mp hkey
    refine ⟨before.reverse, after.reverse, ?_, fun entry hentry hsame => ?_⟩
    · rw [← List.reverse_reverse entries, hentries]
      simp
    · have hother := hafter entry (List.mem_reverse.mp hentry)
      rw [isText_iff.mpr hsame] at hother
      cases hother
  · rintro ⟨before, after, rfl, hafter⟩
    refine ⟨(.text key, value), List.find?_eq_some_iff_append.mpr
      ⟨isText_iff.mpr rfl, after.reverse, before.reverse, by simp, fun entry hentry => ?_⟩, rfl⟩
    have hother : ¬entry.1.isText key = true :=
      fun h => hafter entry (List.mem_reverse.mp hentry) (isText_iff.mp h)
    simpa using hother

theorem lacks_nil : Lacks [] key := List.forall_mem_nil _

theorem lacks_cons {entry : Value × Value} :
    Lacks (entry :: entries) key ↔ entry.1 ≠ .text key ∧ Lacks entries key :=
  List.forall_mem_cons

theorem lacks_append {more : List (Value × Value)} :
    Lacks (entries ++ more) key ↔ Lacks entries key ∧ Lacks more key :=
  List.forall_mem_append

end Value

open Value

theorem firstOf_eq {entries : List (Value × Value)} {first other : Text} {value : Value}
    (h : GivesEither entries first other value) : firstOf entries [first, other] = value := by
  rcases h with hfirst | ⟨hlacks, hother⟩
  · simp [firstOf, List.findSome?, lookup_eq_some_iff.mpr hfirst]
  · simp [firstOf, List.findSome?, lookup_eq_none_iff.mpr hlacks, lookup_eq_some_iff.mpr hother]

/-- The first of two keys that a mapping has, if it has one of them. -/
theorem firstOf_cases (entries : List (Value × Value)) (first other : Text) :
    (∃ value, GivesEither entries first other value ∧ firstOf entries [first, other] = value) ∨
      (Lacks entries first ∧ Lacks entries other) ∧ firstOf entries [first, other] = .null := by
  cases hfirst : lookup entries first with
  | some value =>
      have hgives : GivesEither entries first other value := .inl (lookup_eq_some_iff.mp hfirst)
      exact .inl ⟨value, hgives, firstOf_eq hgives⟩
  | none =>
      have hlacks := lookup_eq_none_iff.mp hfirst
      cases hother : lookup entries other with
      | some value =>
          have hgives : GivesEither entries first other value :=
            .inr ⟨hlacks, lookup_eq_some_iff.mp hother⟩
          exact .inl ⟨value, hgives, firstOf_eq hgives⟩
      | none =>
          refine .inr ⟨⟨hlacks, lookup_eq_none_iff.mp hother⟩, ?_⟩
          simp [firstOf, List.findSome?, hfirst, hother]

theorem firstOf_eq_iff {entries : List (Value × Value)} {first other : Text} {value : Value}
    (h : value ≠ .null) :
    firstOf entries [first, other] = value ↔ GivesEither entries first other value := by
  refine ⟨fun heq => ?_, firstOf_eq⟩
  rcases firstOf_cases entries first other with ⟨found, hgives, hfound⟩ | ⟨-, hnull⟩
  · rwa [← heq, hfound]
  · exact absurd (heq.symm.trans hnull) h

/-! ## §2 One rule -/

namespace Rule

/-- A rule that can stand in a configuration: it has a key, and something to detect. -/
structure Writable (rule : Rule) : Prop where
  key : rule.key ≠ ""
  detect : ∃ c ∈ rule.detect.toList, Text.isBlank c = false

/-- The mapping says what the rule replaces; nothing, if it does not say, or says null. -/
def ReplaceIn (entries : List (Value × Value)) (replace : Text) : Prop :=
  GivesEither entries "replace" "replace_pattern" (.text replace) ∨
    replace = "" ∧ (GivesEither entries "replace" "replace_pattern" .null ∨
      Lacks entries "replace" ∧ Lacks entries "replace_pattern")

/-- The mapping describes the rule. -/
structure DescribedBy (rule : Rule) (entries : List (Value × Value)) : Prop where
  writable : rule.Writable
  key : Gives entries "key" (.text rule.key)
  detect : GivesEither entries "detect" "detect_pattern" (.text rule.detect)
  replace : ReplaceIn entries rule.replace

/-- The datum is a mapping that describes the rule. -/
def Describes (value : Value) (rule : Rule) : Prop :=
  ∃ entries, value = .mapping entries ∧ rule.DescribedBy entries

/-- What is wrong with the datum in the place of the rule with a number. -/
inductive Flaw (number : Nat) : Value → RulesError → Prop where
  | noMapping {value : Value} (h : ∀ entries, value ≠ .mapping entries) :
      Flaw number value (.ruleNoMapping number)
  | noKey {entries : List (Value × Value)}
      (h : ∀ key, Gives entries "key" (.text key) → key = "") :
      Flaw number (.mapping entries) (.noKey number)
  | noDetection {entries : List (Value × Value)} {key : Text}
      (hkey : Gives entries "key" (.text key)) (hne : key ≠ "")
      (h : ∀ detect, GivesEither entries "detect" "detect_pattern" (.text detect) →
        ∀ c ∈ detect.toList, Text.isBlank c) :
      Flaw number (.mapping entries) (.noDetection key)
  | badReplacement {entries : List (Value × Value)} {key detect : Text}
      (hkey : Gives entries "key" (.text key)) (hne : key ≠ "")
      (hdetect : GivesEither entries "detect" "detect_pattern" (.text detect))
      (hvisible : ∃ c ∈ detect.toList, Text.isBlank c = false)
      (h : ∀ replace, ¬ReplaceIn entries replace) :
      Flaw number (.mapping entries) (.badReplacement key)

section Fields

variable {entries : List (Value × Value)} {key detect replace : Text}

theorem keyOf?_eq_some_iff :
    keyOf? entries = some key ↔ Gives entries "key" (.text key) ∧ key ≠ "" := by
  rw [← lookup_eq_some_iff, keyOf?]
  split
  · rename_i found hfound
    by_cases hempty : found = ""
    · rw [if_pos hempty, hfound]
      constructor
      · nofun
      · rintro ⟨h, hne⟩
        obtain rfl : found = key := by simpa using h
        exact absurd hempty hne
    · rw [if_neg hempty, hfound]
      constructor
      · intro h
        obtain rfl := Option.some.inj h
        exact ⟨rfl, hempty⟩
      · rintro ⟨h, -⟩
        obtain rfl : found = key := by simpa using h
        rfl
  · rename_i hother
    exact ⟨nofun, fun h => absurd h.1 (hother key)⟩

theorem isAllBlank_eq_false_iff {text : Text} :
    Text.isAllBlank text = false ↔ ∃ c ∈ text.toList, Text.isBlank c = false := by
  simp [Text.isAllBlank]

theorem detectOf?_eq_some_iff :
    detectOf? entries = some detect ↔
      GivesEither entries "detect" "detect_pattern" (.text detect) ∧
        ∃ c ∈ detect.toList, Text.isBlank c = false := by
  rw [← firstOf_eq_iff (by nofun), ← isAllBlank_eq_false_iff, detectOf?]
  split
  · rename_i found hfound
    by_cases hblank : Text.isAllBlank found
    · rw [if_pos hblank, hfound]
      constructor
      · nofun
      · rintro ⟨h, hvisible⟩
        obtain rfl : found = detect := by simpa using h
        rw [hblank] at hvisible
        cases hvisible
    · rw [if_neg hblank, hfound]
      constructor
      · intro h
        obtain rfl := Option.some.inj h
        exact ⟨rfl, by simpa using hblank⟩
      · rintro ⟨h, -⟩
        obtain rfl : found = detect := by simpa using h
        rfl
  · rename_i hother
    exact ⟨nofun, fun h => absurd h.1 (hother detect)⟩

theorem replaceOf?_eq_some_iff : replaceOf? entries = some replace ↔ ReplaceIn entries replace := by
  rw [replaceOf?, ReplaceIn]
  rcases firstOf_cases entries "replace" "replace_pattern" with
    ⟨value, hgives, hvalue⟩ | ⟨hlacks, hnull⟩
  · have heq : ∀ other, GivesEither entries "replace" "replace_pattern" other ↔ value = other := by
      intro other
      refine ⟨fun h => hvalue.symm.trans (firstOf_eq h), ?_⟩
      rintro rfl
      exact hgives
    rw [heq, heq, hvalue]
    cases value <;> simp [not_lacks_of_givesEither hgives, eq_comm]
  · have hnone : ∀ other, ¬GivesEither entries "replace" "replace_pattern" other :=
      fun _ h => not_lacks_of_givesEither h hlacks
    rw [hnull]
    simp [hnone, hlacks, eq_comm]

end Fields

section Mapping

variable {entries : List (Value × Value)} {key detect : Text}

theorem keyOf?_eq_none_iff :
    keyOf? entries = none ↔ ∀ key, Gives entries "key" (.text key) → key = "" := by
  simp only [Option.eq_none_iff_forall_ne_some, ne_eq, keyOf?_eq_some_iff, not_and, not_not]

theorem detectOf?_eq_none_iff :
    detectOf? entries = none ↔ ∀ detect,
      GivesEither entries "detect" "detect_pattern" (.text detect) →
        ∀ c ∈ detect.toList, Text.isBlank c := by
  simp only [Option.eq_none_iff_forall_ne_some, ne_eq, detectOf?_eq_some_iff, not_and, not_exists,
    Bool.not_eq_false]

theorem replaceOf?_eq_none_iff :
    replaceOf? entries = none ↔ ∀ replace, ¬ReplaceIn entries replace := by
  simp only [Option.eq_none_iff_forall_ne_some, ne_eq, replaceOf?_eq_some_iff]

end Mapping

theorem ofValue_mapping (number : Nat) (entries : List (Value × Value)) :
    ofValue number (.mapping entries) =
      match keyOf? entries, detectOf? entries, replaceOf? entries with
      | none, _, _ => .error (.noKey number)
      | some key, none, _ => .error (.noDetection key)
      | some key, some _, none => .error (.badReplacement key)
      | some key, some detect, some replace => .ok ⟨key, detect, replace⟩ := rfl

theorem ofValue_of_ne {number : Nat} {value : Value} (h : ∀ entries, value ≠ .mapping entries) :
    ofValue number value = .error (.ruleNoMapping number) := by
  cases value with
  | mapping entries => exact absurd rfl (h entries)
  | _ => rfl

theorem ofValue_eq_ok_iff {number : Nat} {value : Value} {rule : Rule} :
    ofValue number value = .ok rule ↔ Describes value rule := by
  constructor
  · intro h
    by_cases hmapping : ∃ entries, value = .mapping entries
    · obtain ⟨entries, rfl⟩ := hmapping
      rw [ofValue_mapping] at h
      split at h
      · cases h
      · cases h
      · cases h
      · rename_i key detect replace hkey hdetect hreplace
        obtain rfl := Except.ok.inj h
        obtain ⟨hgives, hne⟩ := keyOf?_eq_some_iff.mp hkey
        obtain ⟨hgives', hvisible⟩ := detectOf?_eq_some_iff.mp hdetect
        exact ⟨entries, rfl, ⟨hne, hvisible⟩, hgives, hgives', replaceOf?_eq_some_iff.mp hreplace⟩
    · rw [ofValue_of_ne (not_exists.mp hmapping)] at h
      cases h
  · rintro ⟨entries, rfl, hwritable, hkey, hdetect, hreplace⟩
    rw [ofValue_mapping, keyOf?_eq_some_iff.mpr ⟨hkey, hwritable.key⟩,
      detectOf?_eq_some_iff.mpr ⟨hdetect, hwritable.detect⟩, replaceOf?_eq_some_iff.mpr hreplace]

/-- The first thing that is wrong is the error. -/
theorem ofValue_eq_error_iff {number : Nat} {value : Value} {e : RulesError} :
    ofValue number value = .error e ↔ Flaw number value e := by
  constructor
  · intro h
    by_cases hmapping : ∃ entries, value = .mapping entries
    · obtain ⟨entries, rfl⟩ := hmapping
      rw [ofValue_mapping] at h
      split at h
      · rename_i hkey
        obtain rfl := Except.error.inj h
        exact .noKey (keyOf?_eq_none_iff.mp hkey)
      · rename_i hkey hdetect
        obtain rfl := Except.error.inj h
        obtain ⟨hgives, hne⟩ := keyOf?_eq_some_iff.mp hkey
        exact .noDetection hgives hne (detectOf?_eq_none_iff.mp hdetect)
      · rename_i hkey hdetect hreplace
        obtain rfl := Except.error.inj h
        obtain ⟨hgives, hne⟩ := keyOf?_eq_some_iff.mp hkey
        obtain ⟨hgives', hvisible⟩ := detectOf?_eq_some_iff.mp hdetect
        exact .badReplacement hgives hne hgives' hvisible (replaceOf?_eq_none_iff.mp hreplace)
      · cases h
    · rw [ofValue_of_ne (not_exists.mp hmapping)] at h
      obtain rfl := Except.error.inj h
      exact .noMapping (not_exists.mp hmapping)
  · intro h
    cases h with
    | noMapping h => exact ofValue_of_ne h
    | noKey h => rw [ofValue_mapping, keyOf?_eq_none_iff.mpr h]
    | noDetection hkey hne h =>
        rw [ofValue_mapping, keyOf?_eq_some_iff.mpr ⟨hkey, hne⟩, detectOf?_eq_none_iff.mpr h]
    | badReplacement hkey hne hdetect hvisible h =>
        rw [ofValue_mapping, keyOf?_eq_some_iff.mpr ⟨hkey, hne⟩,
          detectOf?_eq_some_iff.mpr ⟨hdetect, hvisible⟩, replaceOf?_eq_none_iff.mpr h]

/-! ## §3 A list of rules -/

theorem ofValues_cons (number : Nat) (value : Value) (values : List Value) :
    ofValues number (value :: values) = match ofValue number value with
      | .error e => .error e
      | .ok rule => (ofValues (number + 1) values).map (rule :: ·) := rfl

/-- The data are rules, one for one and in order. -/
theorem ofValues_eq_ok_iff {number : Nat} {values : List Value} {rules : List Rule} :
    ofValues number values = .ok rules ↔ List.Forall₂ Describes values rules := by
  induction values generalizing number rules with
  | nil =>
      rw [List.forall₂_nil_left_iff]
      exact ⟨fun h => (Except.ok.inj h).symm, fun h => h ▸ rfl⟩
  | cons value values ih =>
      rw [ofValues_cons, List.forall₂_cons_left_iff]
      cases hvalue : ofValue number value with
      | error e =>
          refine ⟨nofun, ?_⟩
          rintro ⟨rule, more, hdescribes, -, -⟩
          rw [ofValue_eq_ok_iff.mpr hdescribes] at hvalue
          cases hvalue
      | ok rule =>
          simp only
          constructor
          · intro h
            cases hmore : ofValues (number + 1) values with
            | error e => rw [hmore] at h; cases h
            | ok more =>
                rw [hmore] at h
                obtain rfl := Except.ok.inj h
                exact ⟨rule, more, ofValue_eq_ok_iff.mp hvalue, ih.mp hmore, rfl⟩
          · rintro ⟨other, more, hdescribes, hmore, rfl⟩
            rw [ofValue_eq_ok_iff.mpr hdescribes] at hvalue
            obtain rfl := Except.ok.inj hvalue
            rw [ih.mpr hmore]
            rfl

/-- The first of the data that is no rule is the error, with its number. -/
theorem ofValues_eq_error_iff {number : Nat} {values : List Value} {e : RulesError} :
    ofValues number values = .error e ↔ ∃ before value after rules,
      values = before ++ value :: after ∧ List.Forall₂ Describes before rules ∧
        Flaw (number + before.length) value e := by
  induction values generalizing number with
  | nil =>
      refine ⟨nofun, ?_⟩
      rintro ⟨before, value, after, rules, h, -⟩
      simp at h
  | cons value values ih =>
      rw [ofValues_cons]
      constructor
      · intro h
        cases hvalue : ofValue number value with
        | error e' =>
            rw [hvalue] at h
            obtain rfl := Except.error.inj h
            exact ⟨[], value, values, [], rfl, .nil, ofValue_eq_error_iff.mp hvalue⟩
        | ok rule =>
            rw [hvalue] at h
            cases hmore : ofValues (number + 1) values with
            | ok more => simp only [hmore] at h; cases h
            | error e' =>
                simp only [hmore] at h
                obtain rfl := Except.error.inj h
                obtain ⟨before, bad, after, rules, rfl, hbefore, hflaw⟩ := ih.mp hmore
                refine ⟨value :: before, bad, after, rule :: rules, rfl,
                  .cons (ofValue_eq_ok_iff.mp hvalue) hbefore, ?_⟩
                rwa [List.length_cons, Nat.add_comm before.length, ← Nat.add_assoc]
      · rintro ⟨before, bad, after, rules, hvalues, hbefore, hflaw⟩
        cases hbefore with
        | nil =>
            obtain ⟨rfl, rfl⟩ := List.cons.inj hvalues
            have hflaw : Flaw number value e := hflaw
            rw [ofValue_eq_error_iff.mpr hflaw]
        | @cons first rule before rules hfirst hbefore =>
            obtain ⟨rfl, rfl⟩ := List.cons.inj hvalues
            rw [ofValue_eq_ok_iff.mpr hfirst]
            simp only
            rw [ih.mpr ⟨before, bad, after, rules, rfl, hbefore, by
              rwa [List.length_cons, Nat.add_comm before.length, ← Nat.add_assoc] at hflaw⟩]
            rfl

/-! ## §4 Configurations -/

/-- The part of the data that is to hold the rules: the section, if there is one, which must not be
empty; and otherwise all of it. -/
def SectionOf (value : Value) (entries : List (Value × Value)) : Prop :=
  ∃ outer, value = .mapping outer ∧ (Lacks outer "log_redactor" ∧ entries = outer ∨
    Gives outer "log_redactor" (.mapping entries) ∧ entries ≠ [])

/-- The data is a configuration, and these are its rules. -/
def DescribedIn (value : Value) (rules : List Rule) : Prop :=
  ∃ entries items, SectionOf value entries ∧ Gives entries "patterns" (.list items) ∧
    List.Forall₂ Describes items rules

/-- What is wrong with data that is no configuration. -/
inductive DataFlaw : Value → RulesError → Prop where
  | noMapping {value : Value} (h : ∀ entries, value ≠ .mapping entries) : DataFlaw value .noMapping
  | sectionNoMapping {outer : List (Value × Value)} {inner : Value}
      (hgives : Gives outer "log_redactor" inner) (hfull : inner.isEmpty = false)
      (h : ∀ entries, inner ≠ .mapping entries) : DataFlaw (.mapping outer) .sectionNoMapping
  | emptySection {outer : List (Value × Value)} {inner : Value}
      (hgives : Gives outer "log_redactor" inner) (hempty : inner.isEmpty = true) :
      DataFlaw (.mapping outer) .noList
  | noList {value : Value} {entries : List (Value × Value)} (hsection : SectionOf value entries)
      (h : ∀ items, ¬Gives entries "patterns" (.list items)) : DataFlaw value .noList
  | rule {value bad : Value} {entries : List (Value × Value)} {before after : List Value}
      {rules : List Rule} {e : RulesError} (hsection : SectionOf value entries)
      (hgives : Gives entries "patterns" (.list (before ++ bad :: after)))
      (hbefore : List.Forall₂ Describes before rules)
      (hflaw : Flaw (1 + before.length) bad e) : DataFlaw value e

theorem ofEntries_of_gives {entries : List (Value × Value)} {items : List Value}
    (h : Gives entries "patterns" (.list items)) : ofEntries entries = ofValues 1 items := by
  rw [ofEntries, lookup_eq_some_iff.mpr h]

theorem ofEntries_of_not_gives {entries : List (Value × Value)}
    (h : ∀ items, ¬Gives entries "patterns" (.list items)) : ofEntries entries = .error .noList := by
  rw [ofEntries]
  split
  · rename_i items hitems
    exact absurd (lookup_eq_some_iff.mp hitems) (h items)
  · rfl

/-- Data without a section is read as it is, and data with one by its section. -/
theorem ofData_of_sectionOf {value : Value} {entries : List (Value × Value)}
    (h : SectionOf value entries) : ofData value = ofEntries entries := by
  obtain ⟨outer, rfl, ⟨hlacks, rfl⟩ | ⟨hgives, -⟩⟩ := h
  · rw [ofData, rulesSection, lookup_eq_none_iff.mpr hlacks]
  · rw [ofData, rulesSection, lookup_eq_some_iff.mpr hgives]

theorem ofData_of_ne {value : Value} (h : ∀ entries, value ≠ .mapping entries) :
    ofData value = .error .noMapping := by
  cases value with
  | mapping entries => exact absurd rfl (h entries)
  | _ => rfl

section Outer

variable {outer : List (Value × Value)} {inner : Value}
  (hgives : Gives outer "log_redactor" inner)
include hgives

theorem ofData_of_isEmpty (hempty : inner.isEmpty = true) :
    ofData (.mapping outer) = .error .noList := by
  have hnone : ofEntries [] = .error .noList := rfl
  rw [ofData, rulesSection, lookup_eq_some_iff.mpr hgives]
  cases inner with
  | mapping entries =>
      obtain rfl : entries = [] := List.isEmpty_iff.mp hempty
      exact hnone
  | _ => simp only [hempty, if_true, hnone]

theorem ofData_of_section_ne (hfull : inner.isEmpty = false)
    (h : ∀ entries, inner ≠ .mapping entries) :
    ofData (.mapping outer) = .error .sectionNoMapping := by
  rw [ofData, rulesSection, lookup_eq_some_iff.mpr hgives]
  cases inner with
  | mapping entries => exact absurd rfl (h entries)
  | _ => simp only [hfull, Bool.false_eq_true, if_false]

end Outer

/-- Data without a part that could hold rules is refused. -/
theorem exists_sectionOf_or_flaw (value : Value) : (∃ entries, SectionOf value entries) ∨
    ∃ e, ofData value = .error e ∧ DataFlaw value e := by
  by_cases hmapping : ∃ outer, value = .mapping outer
  · obtain ⟨outer, rfl⟩ := hmapping
    cases hlookup : lookup outer "log_redactor" with
    | none => exact .inl ⟨outer, outer, rfl, .inl ⟨lookup_eq_none_iff.mp hlookup, rfl⟩⟩
    | some inner =>
        have hgives := lookup_eq_some_iff.mp hlookup
        by_cases hempty : inner.isEmpty
        · exact .inr ⟨_, ofData_of_isEmpty hgives hempty, .emptySection hgives hempty⟩
        have hfull : inner.isEmpty = false := by simpa using hempty
        by_cases hinner : ∃ entries, inner = .mapping entries
        · obtain ⟨entries, rfl⟩ := hinner
          refine .inl ⟨entries, outer, rfl, .inr ⟨hgives, ?_⟩⟩
          rintro rfl
          exact hempty rfl
        · have hne := not_exists.mp hinner
          exact .inr ⟨_, ofData_of_section_ne hgives hfull hne, .sectionNoMapping hgives hfull hne⟩
  · have hne := not_exists.mp hmapping
    exact .inr ⟨_, ofData_of_ne hne, .noMapping hne⟩

theorem ofData_eq_ok_iff {value : Value} {rules : List Rule} :
    ofData value = .ok rules ↔ DescribedIn value rules := by
  constructor
  · intro h
    rcases exists_sectionOf_or_flaw value with ⟨entries, hsection⟩ | ⟨e, herror, -⟩
    · rw [ofData_of_sectionOf hsection] at h
      by_cases hlist : ∃ items, Gives entries "patterns" (.list items)
      · obtain ⟨items, hgives⟩ := hlist
        rw [ofEntries_of_gives hgives] at h
        exact ⟨entries, items, hsection, hgives, ofValues_eq_ok_iff.mp h⟩
      · rw [ofEntries_of_not_gives (not_exists.mp hlist)] at h
        cases h
    · rw [herror] at h
      cases h
  · rintro ⟨entries, items, hsection, hgives, hrules⟩
    rw [ofData_of_sectionOf hsection, ofEntries_of_gives hgives, ofValues_eq_ok_iff.mpr hrules]

theorem ofData_eq_error_iff {value : Value} {e : RulesError} :
    ofData value = .error e ↔ DataFlaw value e := by
  constructor
  · intro h
    rcases exists_sectionOf_or_flaw value with ⟨entries, hsection⟩ | ⟨e', herror, hflaw⟩
    · rw [ofData_of_sectionOf hsection] at h
      by_cases hlist : ∃ items, Gives entries "patterns" (.list items)
      · obtain ⟨items, hgives⟩ := hlist
        rw [ofEntries_of_gives hgives] at h
        obtain ⟨before, bad, after, rules, rfl, hbefore, hflaw⟩ := ofValues_eq_error_iff.mp h
        exact .rule hsection hgives hbefore hflaw
      · have hnone := not_exists.mp hlist
        rw [ofEntries_of_not_gives hnone] at h
        obtain rfl := Except.error.inj h
        exact .noList hsection hnone
    · rw [herror] at h
      obtain rfl := Except.error.inj h
      exact hflaw
  · intro h
    cases h with
    | noMapping h => exact ofData_of_ne h
    | sectionNoMapping hgives hfull h => exact ofData_of_section_ne hgives hfull h
    | emptySection hgives hempty => exact ofData_of_isEmpty hgives hempty
    | noList hsection h => rw [ofData_of_sectionOf hsection, ofEntries_of_not_gives h]
    | rule hsection hgives hbefore hflaw =>
        rw [ofData_of_sectionOf hsection, ofEntries_of_gives hgives]
        exact ofValues_eq_error_iff.mpr ⟨_, _, _, _, rfl, hbefore, hflaw⟩

/-! ## §5 Writing rules down -/

/-- How a replacement of nothing is written down. -/
inductive NoReplacement where
  | absent
  | null
  | emptyText
deriving DecidableEq, Repr

/-- The spelling of a rule. -/
structure Spelling where
  longDetect : Bool
  longReplace : Bool
  noReplacement : NoReplacement
deriving DecidableEq, Repr

namespace Spelling

/-- The key for what is detected. -/
def detectKey (spelling : Spelling) : Text :=
  if spelling.longDetect then "detect_pattern" else "detect"

/-- The key for what is replaced. -/
def replaceKey (spelling : Spelling) : Text :=
  if spelling.longReplace then "replace_pattern" else "replace"

/-- What is replaced, as entries of a mapping. -/
def replaceEntries (spelling : Spelling) (replace : Text) : List (Value × Value) :=
  if replace ≠ "" then [(.text spelling.replaceKey, .text replace)]
  else match spelling.noReplacement with
    | .absent => []
    | .null => [(.text spelling.replaceKey, .null)]
    | .emptyText => [(.text spelling.replaceKey, .text "")]

end Spelling

/-- The rule as a mapping. -/
def toValue (spelling : Spelling) (rule : Rule) : Value :=
  .mapping ([(.text "key", .text rule.key), (.text spelling.detectKey, .text rule.detect)] ++
    spelling.replaceEntries rule.replace)

/-- Rules as a configuration, with a section for them or without one. -/
def toData (nested : Bool) (rules : List (Spelling × Rule)) : Value :=
  let entries : List (Value × Value) :=
    [(.text "patterns", .list (rules.map fun (spelling, rule) => rule.toValue spelling))]
  .mapping (if nested then [(.text "log_redactor", .mapping entries)] else entries)

theorem lacks_replaceEntries {spelling : Spelling} {key : Text} (h : spelling.replaceKey ≠ key)
    (replace : Text) : Lacks (spelling.replaceEntries replace) key := by
  have hkey : Value.text spelling.replaceKey ≠ .text key := fun heq => h (Value.text.inj heq)
  rw [Spelling.replaceEntries]
  split
  · exact lacks_cons.mpr ⟨hkey, lacks_nil⟩
  split
  · exact lacks_nil
  · exact lacks_cons.mpr ⟨hkey, lacks_nil⟩
  · exact lacks_cons.mpr ⟨hkey, lacks_nil⟩

theorem Spelling.detectKey_ne (spelling : Spelling) {key : Text} (hshort : "detect" ≠ key)
    (hlong : "detect_pattern" ≠ key) : Value.text spelling.detectKey ≠ .text key := by
  rw [detectKey]
  split <;> simp [hshort, hlong]

theorem Spelling.replaceKey_ne (spelling : Spelling) {key : Text} (hshort : "replace" ≠ key)
    (hlong : "replace_pattern" ≠ key) : spelling.replaceKey ≠ key := by
  rw [replaceKey]
  split
  · exact hlong
  · exact hshort

/-- What is written under the one key or the other is found there. -/
theorem givesEither_spelled (before : List (Value × Value)) {after : List (Value × Value)}
    {first other : Text} (long : Bool) (value : Value) (hne : Value.text other ≠ .text first)
    (hbefore : Lacks before first) (hfirst : Lacks after first) (hother : Lacks after other) :
    GivesEither (before ++ (.text (if long then other else first), value) :: after) first other
      value := by
  cases long with
  | false => exact .inl ⟨before, after, rfl, hfirst⟩
  | true =>
      exact .inr ⟨lacks_append.mpr ⟨hbefore, lacks_cons.mpr ⟨hne, hfirst⟩⟩,
        before, after, rfl, hother⟩

theorem replaceIn_toValue (spelling : Spelling) {before : List (Value × Value)} (replace : Text)
    (hshort : Lacks before "replace") (hlong : Lacks before "replace_pattern") :
    ReplaceIn (before ++ spelling.replaceEntries replace) replace := by
  have hspelled : ∀ value, GivesEither (before ++ [(.text spelling.replaceKey, value)])
      "replace" "replace_pattern" value := fun value =>
    givesEither_spelled before spelling.longReplace value (by simp) hshort lacks_nil lacks_nil
  rw [Spelling.replaceEntries]
  split
  · exact .inl (hspelled _)
  rename_i hempty
  obtain rfl := not_not.mp hempty
  split
  · exact .inr ⟨rfl, .inr ⟨by rwa [List.append_nil], by rwa [List.append_nil]⟩⟩
  · exact .inr ⟨rfl, .inl (hspelled _)⟩
  · exact .inl (hspelled _)

theorem describes_toValue (spelling : Spelling) {rule : Rule} (h : rule.Writable) :
    Describes (rule.toValue spelling) rule := by
  have hdetect : Value.text spelling.detectKey ≠ .text "key" :=
    spelling.detectKey_ne (by simp) (by simp)
  refine ⟨_, rfl, h, ?_, ?_, ?_⟩
  · exact ⟨[], _, rfl, lacks_cons.mpr
      ⟨hdetect, lacks_replaceEntries (spelling.replaceKey_ne (by simp) (by simp)) _⟩⟩
  · exact givesEither_spelled [(.text "key", .text rule.key)] spelling.longDetect _
      (by simp) (lacks_cons.mpr ⟨by simp, lacks_nil⟩)
      (lacks_replaceEntries (spelling.replaceKey_ne (by simp) (by simp)) _)
      (lacks_replaceEntries (spelling.replaceKey_ne (by simp) (by simp)) _)
  · have hlacks : ∀ key : Text, "key" ≠ key → "detect" ≠ key → "detect_pattern" ≠ key →
        Lacks [(.text "key", .text rule.key), (.text spelling.detectKey, .text rule.detect)]
          key := fun key hkey hshort hlong =>
      lacks_cons.mpr ⟨by simpa using hkey,
        lacks_cons.mpr ⟨spelling.detectKey_ne hshort hlong, lacks_nil⟩⟩
    exact replaceIn_toValue spelling rule.replace (hlacks _ (by simp) (by simp) (by simp))
      (hlacks _ (by simp) (by simp) (by simp))

theorem describedIn_toData (nested : Bool) {rules : List (Spelling × Rule)}
    (h : ∀ spelled ∈ rules, spelled.2.Writable) :
    DescribedIn (toData nested rules) (rules.map (·.2)) := by
  have hrules : List.Forall₂ Describes (rules.map fun (spelling, rule) => rule.toValue spelling)
      (rules.map (·.2)) := by
    rw [List.forall₂_map_left_iff, List.forall₂_map_right_iff, List.forall₂_same]
    exact fun spelled hspelled => describes_toValue spelled.1 (h spelled hspelled)
  refine ⟨_, _, ?_, ⟨[], [], rfl, lacks_nil⟩, hrules⟩
  cases nested with
  | false => exact ⟨_, rfl, .inl ⟨lacks_cons.mpr ⟨by simp, lacks_nil⟩, rfl⟩⟩
  | true => exact ⟨_, rfl, .inr ⟨⟨[], [], rfl, lacks_nil⟩, by simp⟩⟩

/-- Reading accepts the configurations and nothing else: the rules are those that the data
describes, one for one and in order, and any other data is an error, of which it is known what is
wrong. So rules that are written down are read back, however they are spelled. -/
theorem ofData_accepts :
    (∀ value rules, ofData value = .ok rules ↔ DescribedIn value rules) ∧
    (∀ value e, ofData value = .error e ↔ DataFlaw value e) ∧
    ∀ nested rules, (∀ spelled ∈ rules, spelled.2.Writable) →
      ofData (toData nested rules) = .ok (rules.map (·.2)) :=
  ⟨fun _ _ => ofData_eq_ok_iff, fun _ _ => ofData_eq_error_iff,
    fun nested _ h => ofData_eq_ok_iff.mpr (describedIn_toData nested h)⟩

/-- A rule that replaces, and one that only notes lines, spelled differently. -/
def loginSpellings : List (Spelling × Rule) :=
  [(⟨false, true, .absent⟩, ⟨"plain-username", "jdoe", "jdoe"⟩),
    (⟨true, false, .null⟩, ⟨"tenant-audit", "tenant=0 .*login", ""⟩)]

theorem ofData_accepts_login :
    (∀ spelled ∈ loginSpellings, spelled.2.Writable) ∧
      ofData (toData true loginSpellings) = .ok (loginSpellings.map (·.2)) := by
  have hwritable : ∀ spelled ∈ loginSpellings, spelled.2.Writable := by
    intro spelled hspelled
    rcases List.mem_pair.mp hspelled with rfl | rfl
    · exact ⟨by decide, .scalar 'j', by decide, by decide⟩
    · exact ⟨by decide, .scalar 't', by decide, by decide⟩
  exact ⟨hwritable, ofData_accepts.2.2 true loginSpellings hwritable⟩

end Rule

end LogRedaction
