/-
LogRedaction.Proofs.LineNumbers — a line of a copy has the number of the line that it comes from.

The redacted lines are written one after the other, with a line feed each. They are read back as the
same lines if none of them has got a character in it that ends lines. Rules take characters out of a
line and put the pseudonym in, and bring nothing else in, whatever their expressions are
(`mem_applyRules`); so it is for the pseudonym to have no such character. A pseudonym that has no
bytes makes no difference: it stands in no line that is written (`Job.redactedLine_cases`).

It is not checked that it has none. `KeepsLines` says for a user that the copies have the lines of
their sources, and `keepsLines_iff` that this is a property of the pseudonym alone.

## §1 Characters of redacted lines
## §2 Lines that are read back
## §3 Copies
-/
import LogRedaction.Proofs.Copying
import LogRedaction.Proofs.Pseudonym
import LogRedaction.Proofs.WordRule

namespace LogRedaction

open Text

section Lines

variable [Host]

/-! ## §1 Characters of redacted lines -/

/-- What is left of a line. -/
def Job.redactedLine (job : Job) (line : List Char) : Text :=
  Text.ofList (applyRules job.mapping job.pseudonym.toList job.rules (line.map .scalar)).text

/-- Either nothing has been replaced in a line, or the pseudonym stands in what is left of it. -/
theorem Job.redactedLine_cases (job : Job) (line : List Char) :
    job.redactedLine line = ofChars line ∨
      job.pseudonym.toList <:+: (job.redactedLine line).toList := by
  rw [← Text.toList_inj]
  refine applyRules_keeps
    (P := fun text => text = line.map .scalar ∨ job.pseudonym.toList <:+: text) ?_ (.inl rfl)
  intro rule _ text result hit happly htext
  rcases CompiledRule.apply_eq_some_iff.mp happly with ⟨-, ⟨-, rfl, -⟩ | ⟨regex, -, rfl, -⟩⟩
  · exact htext
  · cases hoccurs : regex.occursIn text with
    | true => exact .inr (Regex.infix_replace_of_occursIn hoccurs _)
    | false => rwa [Regex.replace_of_not_occursIn hoccurs]

/-- No line end comes into a line, unless it comes with the pseudonym. -/
theorem Job.isLineEnd_redactedLine {job : Job}
    (hpseudonym : ∀ c ∈ job.pseudonym.chars, isLineEnd c = false) {line : List Char}
    (hline : ∀ c ∈ line, isLineEnd c = false) :
    ∀ c ∈ (job.redactedLine line).chars, isLineEnd c = false := by
  intro c hc
  rcases mem_applyRules (.scalar c) (mem_chars_iff.mp hc) with hc | hc
  · exact hpseudonym c (mem_chars_iff.mpr hc)
  · exact hline c (by simpa using hc)

/-- A pseudonym that has no bytes is in no line that has. -/
theorem Job.redactedLine_of_not_writable {job : Job} (hpseudonym : ¬job.pseudonym.Writable)
    {line : List Char} (h : (job.redactedLine line).Writable) :
    job.redactedLine line = ofChars line := by
  refine (job.redactedLine_cases line).resolve_right fun hput => hpseudonym ?_
  rw [writable_iff_forall] at h ⊢
  exact fun c hc => h c (hput.subset hc)

/-! ## §2 Lines that are read back -/

theorem texts_outcomes (job : Job) (label : Text) (n : Nat) (ls : List (List Char)) :
    (job.outcomes label n ls).map (·.text) = ls.map job.redactedLine := by
  induction ls generalizing n with
  | nil => rfl
  | cons line ls ih =>
      rw [Job.outcomes, List.map_cons, List.map_cons, ih, Job.outcome, Job.redactedLine]

theorem writtenText_outcomes (job : Job) (label : Text) (n : Nat) (ls : List (List Char)) :
    writtenText (job.outcomes label n ls) =
      (ls.map fun line => (job.redactedLine line).chars).flatMap (· ++ ['\n']) := by
  have hmap : (ls.map fun line => (job.redactedLine line).chars) =
      ((job.outcomes label n ls).map (·.text)).map chars := by
    rw [texts_outcomes, List.map_map]
    rfl
  rw [hmap, List.map_map, List.flatMap_map]
  rfl

/-- The redacted lines of a text are found again in the text that is written. -/
theorem linesOf_writtenText {job : Job} {ls : List (List Char)}
    (hends : ∀ line ∈ ls, ∀ c ∈ (job.redactedLine line).chars, isLineEnd c = false) (label : Text)
    (n : Nat) :
    LinesOf (writtenText (job.outcomes label n ls))
      (ls.map fun line => (job.redactedLine line).chars) := by
  rw [writtenText_outcomes]
  refine linesOf_written fun line hline => ?_
  obtain ⟨before, hbefore, rfl⟩ := List.mem_map.mp hline
  exact hends before hbefore

/-! ## §3 Copies -/

/-- Whatever the rules are, the copy of a text has as many lines as the text, as many as are
counted, and each of them is the redacted line of the same number. Asked for are rules that compile,
a report that is none of the new files, a place for the copy, and that all that is to be written has
bytes. -/
def KeepsLines (identity : Identity) : Prop :=
  ∀ (rules : List Rule) (compiled : List CompiledRule) (source : Path) (w : Workspace)
    (text : List Char) (ls : List (List Char)),
    Rule.compileAll identity.mapping rules = .ok compiled →
    (∀ serial, w.report.serial? = some serial → serial < w.disk.nextSerial) →
    source.fault? = none → w.disk.read source = .ok (encodeUtf8 text) →
    w.disk.Free (tempPath (w.tokenAt w.nextToken) source) → LinesOf text ls →
    (∀ outcomes, LineByLine ⟨compiled, identity.mapping, identity.pseudonym⟩
      (w.disk.label source) 1 ls outcomes → CanWrite w.report (w.disk.label source) outcomes) →
    ∃ copy w' temp written ls' outcomes,
      (copyFile ⟨compiled, identity.mapping, identity.pseudonym⟩ source).run w = (.ok copy, w') ∧
      copy.temp = some temp ∧ w'.disk.read temp = .ok (encodeUtf8 written) ∧
      LineByLine ⟨compiled, identity.mapping, identity.pseudonym⟩ (w.disk.label source) 1 ls
        outcomes ∧
      LinesOf written ls' ∧ outcomes.map (·.text) = ls'.map ofChars ∧
      copy.lines = ls.length ∧ outcomes.length = ls.length

omit [Host] in
/-- The new file is read as it was made, also when the report has been written to since. -/
theorem Disk.Written.read_new {serial? : Option Nat} {disk after : Disk} {path : Path}
    {location : Location} {content : List UInt8}
    (h : Written serial? (disk.putNew location content) after) (hnames : disk.Names path location)
    (hnone : disk.get? location = none)
    (hserial : ∀ serial, serial? = some serial → serial < disk.nextSerial) :
    after.read path = .ok content := by
  have hsame : SameDirectories disk after :=
    (sameDirectories_putNew hnames.ne_nil (by simp [hnone])).trans h.sameDirectories
  exact read_eq_ok_iff.mpr ⟨location, disk.nextSerial, (names_congr hsame).mp hnames,
    h.get?_new hnames.ne_nil hserial⟩

theorem keepsLines_of_pseudonym {identity : Identity}
    (hpseudonym : identity.pseudonym.Writable →
      ∀ c ∈ identity.pseudonym.chars, isLineEnd c = false) : KeepsLines identity := by
  intro rules compiled source w text ls hcompile hserial hsound hread hfree hlines hwrites
  have hjob : Job.Ready ⟨compiled, identity.mapping, identity.pseudonym⟩ :=
    Rule.ready_of_compileAll hcompile
  have hline := (@lineByLine_iff _ _ hjob (w.disk.label source)).mpr
    (rfl : Job.outcomes _ _ 1 ls = _)
  have hcount := length_of_lineByLine hline
  have hwrites := hwrites _ hline
  obtain ⟨location, hnames, hnone⟩ := hfree
  obtain ⟨report, disk, log, hrun, -, -, hwritten⟩ :=
    copyFile_ok hjob hsound hread (linesOf_iff.mp hlines ▸ hwrites) hnames hnone
  rw [Job.redaction] at hwritten
  rw [linesOf_iff.mp hlines] at hrun hwritten
  have htexts := texts_outcomes ⟨compiled, identity.mapping, identity.pseudonym⟩
    (w.disk.label source) 1 ls
  have hwritable : ∀ line ∈ ls, (Job.redactedLine ⟨compiled, identity.mapping, identity.pseudonym⟩
      line).Writable := by
    rw [← List.forall_mem_map, ← htexts, List.forall_mem_map]
    exact hwrites.lines
  have hends : ∀ line ∈ ls, ∀ c ∈ (Job.redactedLine
      ⟨compiled, identity.mapping, identity.pseudonym⟩ line).chars, isLineEnd c = false := by
    intro line hls
    have hline := isLineEnd_of_linesOf hlines line hls
    by_cases hbytes : identity.pseudonym.Writable
    · exact Job.isLineEnd_redactedLine (hpseudonym hbytes) hline
    · rw [Job.redactedLine_of_not_writable hbytes (hwritable line hls), chars_ofChars]
      exact hline
  refine ⟨_, _, _, _, _, _, hrun, rfl, hwritten.read_new hnames hnone hserial, hline,
    linesOf_writtenText hends _ 1, ?_, hcount, hcount⟩
  rw [htexts, List.map_map]
  exact List.map_congr_left fun line hls => (ofChars_chars (hwritable line hls)).symm

/-- A rule for the name in the first line of the login text, with no placeholder in it. -/
def nameRule : Rule := ⟨"name", "jdoe", "jdoe"⟩

omit [Host] in
theorem expand_nameRule (mapping : Mapping) :
    Template.expand mapping nameRule.detect (some nameRule.key) = .ok "jdoe" := by
  have hnames : Template.names nameRule.detect = [] := by decide +kernel
  have hclosed : Template.expand [] nameRule.detect (some nameRule.key) = .ok "jdoe" :=
    eq_ok_of_toOption (by decide +kernel)
  rw [← hclosed]
  refine Template.expand_congr (fun name hname => ?_) _
  rw [hnames] at hname
  cases hname

/-- Where the word of a rule stands, the pseudonym comes to stand. -/
theorem CompiledRule.ReplacesWord.infix_applyRules {mapping : Mapping} {rule : CompiledRule}
    {part word text : List CodePoint} (h : rule.ReplacesWord mapping part word)
    (hword : word <:+: text) (pseudonym : List CodePoint) :
    pseudonym <:+: (applyRules mapping pseudonym [rule] text).text := by
  obtain ⟨pieces, hpieces⟩ := exists_occurrences h.word_ne_nil text
  rw [h.applyRules_cons hpieces pseudonym []]
  exact infix_intercalate_of_occurrences hpieces hword pseudonym

/-- The pseudonym can come to stand in a line of a copy, and there no character ends a line. -/
theorem isLineEnd_of_keepsLines {identity : Identity} (h : KeepsLines identity)
    (hpseudonym : identity.pseudonym.Writable) :
    ∀ c ∈ identity.pseudonym.chars, isLineEnd c = false := by
  obtain ⟨detect, hcompile, hrule⟩ := @Rule.compile_word _ identity.mapping nameRule "jdoe" "jdoe"
    (expand_nameRule _) (expand_nameRule _) (by decide +kernel) (by decide +kernel)
    (by decide +kernel) (by decide +kernel)
  have hall := Rule.compileAll_eq_ok_iff.mpr (.cons hcompile .nil)
  have hls : lines loginText = ["User jdoe logged in".toList, "bye".toList] := by decide +kernel
  have hjob : Job.Ready ⟨_, identity.mapping, identity.pseudonym⟩ := Rule.ready_of_compileAll hall
  obtain ⟨copy, w', temp, written, ls', outcomes, -, -, -, hlines, hwritten, hsame, -⟩ :=
    h [nameRule] _ loginLog loginWorkspace loginText _ hall nofun (by decide +kernel)
      (by decide +kernel) (by decide +kernel) (linesOf_iff.mpr hls) fun outcomes houtcomes => by
        rw [(lineByLine_iff hjob).mp houtcomes]
        exact canWrite_list hpseudonym _ _ _ _
  rw [(lineByLine_iff hjob).mp hlines, texts_outcomes] at hsame
  obtain ⟨first, more, rfl⟩ : ∃ first more, ls' = first :: more := by
    cases ls' with
    | nil => simp at hsame
    | cons first more => exact ⟨first, more, rfl⟩
  have hoccurs : ("jdoe" : Text).toList <:+: ("User jdoe logged in" : Text).toList := by
    decide +kernel
  have hwrites := hrule.infix_applyRules hoccurs identity.pseudonym.toList
  have hfirst : (ofChars first).toList = _ := congrArg Text.toList (List.cons.inj hsame).1.symm
  intro c hc
  have hmem := hwrites.subset (mem_chars_iff.mp hc)
  have hmem : .scalar c ∈ (ofChars first).toList := hfirst ▸ hmem
  exact isLineEnd_of_linesOf hwritten first (List.mem_cons_self ..) c (by simpa using hmem)

/-- For a user whose pseudonym ends no line every copy has the lines of its source, and for no
other user, unless the pseudonym cannot be written at all. -/
theorem keepsLines_iff {identity : Identity} :
    KeepsLines identity ↔ (identity.pseudonym.Writable →
      ∀ c ∈ identity.pseudonym.chars, isLineEnd c = false) :=
  ⟨isLineEnd_of_keepsLines, keepsLines_of_pseudonym⟩

end Lines

section Sample

attribute [local instance] sampleHost

/-- A pseudonym of two lines is accepted. -/
theorem not_keepsLines_line_feed : ∃ (form : IdentityForm) (identity : Identity),
    form.check = .ok identity ∧ identity.pseudonym = "ANON\n7f3a" ∧ ¬ KeepsLines identity := by
  refine ⟨{ jdoeForm with pseudonym := .text "ANON\n7f3a" },
    { jdoe with pseudonym := "ANON\n7f3a" }, rfl, rfl, fun hkeeps => ?_⟩
  exact absurd (isLineEnd_of_keepsLines hkeeps (by decide +kernel) '\n' (by decide +kernel))
    (by decide)

end Sample

end LogRedaction
