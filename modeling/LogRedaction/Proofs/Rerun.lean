/-
LogRedaction.Proofs.Rerun — what has been redacted stays as it is when it is redacted again.

The rules are for words, and the pseudonym has no character of any of them. After the first run the
words are gone from every line: each has been replaced by its own rule, and where a later rule has
put the pseudonym no word can come up again. The lines are written with a line feed each, and since
the pseudonym ends no line they are read as the same lines (`lines_redacted`). So a second run finds
nothing: its outcomes are the lines as they are (`outcomes_redacted`), and the text that it writes
is the one that it has read.

## §1 The pseudonym
## §2 Lines that are redacted again
## §3 Files that are redacted again
-/
import LogRedaction.Proofs.LineNumbers
import LogRedaction.Proofs.Redaction
import Mathlib.Data.Bool.AllAny

namespace LogRedaction

open Text

/-! ## §1 The pseudonym -/

theorem IdentityForm.pseudonym_ne_empty {form : IdentityForm} {identity : Identity}
    (h : form.check = .ok identity) : identity.pseudonym ≠ "" := by
  simp only [check, bind_eq_ok_iff] at h
  obtain ⟨_, -, _, -, _, -, pseudonym, hpseudonym, _, -, h⟩ := h
  obtain rfl := Except.ok.inj h
  rintro rfl
  rw [checkText.eq_def] at hpseudonym
  split at hpseudonym
  · split at hpseudonym
    · cases hpseudonym
    · rename_i hne
      exact hne (Except.ok.inj hpseudonym)
  · cases hpseudonym

/-! ## §2 Lines that are redacted again -/

/-- The outcome for a line in which nothing is found. -/
def unmatchedLine (line : List Char) : RedactedLine := ⟨ofChars line, false, []⟩

theorem writtenText_unmatched (ls : List (List Char)) :
    writtenText (ls.map unmatchedLine) = ls.flatMap (· ++ ['\n']) := by
  simp [writtenText, unmatchedLine, List.flatMap_map]

theorem allEntries_unmatched (ls : List (List Char)) : allEntries (ls.map unmatchedLine) = [] := by
  simp [allEntries, unmatchedLine]

theorem countP_unmatched (ls : List (List Char)) :
    (ls.map unmatchedLine).countP (·.matched) = 0 := by
  simp [List.countP_eq_zero, unmatchedLine]

section Removes

variable [Host]

/-- The job replaces words by a pseudonym that has none of their characters and ends no line. -/
structure Job.Removes (job : Job) (words : List (List CodePoint)) : Prop where
  rules : ReplaceWords job.mapping job.rules words
  pseudonym_ne_nil : job.pseudonym.toList ≠ []
  disjoint : ∀ word ∈ words, ∀ c ∈ job.pseudonym.toList, c ∉ word
  no_end : ∀ c ∈ job.pseudonym.chars, isLineEnd c = false

variable {job : Job} {words : List (List CodePoint)} (h : job.Removes words)
include h

theorem Job.Removes.outcomes_unmatched {ls : List (List Char)}
    (hnone : ∀ line ∈ ls, ∀ word ∈ words, ¬ word <:+: line.map .scalar) (label : Text) (n : Nat) :
    job.outcomes label n ls = ls.map unmatchedLine := by
  induction ls generalizing n with
  | nil => rfl
  | cons line ls ih =>
      obtain ⟨hline, hmore⟩ := List.forall_mem_cons.mp hnone
      rw [Job.outcomes, Job.outcome, h.rules.applyRules_of_not_infix hline, ih hmore]
      rfl

/-- The redacted lines are found again in the text that is written. -/
theorem lines_redacted (label : Text) (text : List Char) :
    lines (writtenText (job.outcomes label 1 (lines text))) =
      (lines text).map fun line => (job.redactedLine line).chars :=
  linesOf_iff.mp (linesOf_writtenText (fun line hline => Job.isLineEnd_redactedLine h.no_end
    (isLineEnd_of_linesOf (linesOf_iff.mpr rfl) line hline)) label 1)

section Written

variable {label : Text} {text : List Char}
  (hwritable : ∀ outcome ∈ job.outcomes label 1 (lines text), outcome.text.Writable)
include hwritable

/-- None of the redacted lines has a word in it. -/
theorem not_infix_of_mem_redacted :
    ∀ line ∈ lines (writtenText (job.outcomes label 1 (lines text))), ∀ word ∈ words,
      ¬ word <:+: line.map .scalar := by
  rw [← List.forall_mem_map, texts_outcomes, List.forall_mem_map] at hwritable
  intro line hline
  rw [lines_redacted h] at hline
  obtain ⟨before, hbefore, rfl⟩ := List.mem_map.mp hline
  have hsame : (job.redactedLine before).chars.map .scalar = (job.redactedLine before).toList :=
    congrArg toList (ofChars_chars (hwritable before hbefore))
  rw [hsame]
  exact h.rules.not_infix_applyRules h.pseudonym_ne_nil h.disjoint (before.map .scalar)

/-- Whatever the file is called then, nothing is found in it a second time. -/
theorem outcomes_redacted (label' : Text) :
    job.outcomes label' 1 (lines (writtenText (job.outcomes label 1 (lines text)))) =
      (lines (writtenText (job.outcomes label 1 (lines text)))).map unmatchedLine :=
  h.outcomes_unmatched (not_infix_of_mem_redacted h hwritable) label' 1

/-- A second run writes what it has read. -/
theorem redaction_redacted (label' : Text) :
    job.redaction label' (writtenText (job.outcomes label 1 (lines text))) =
      encodeUtf8 (writtenText (job.outcomes label 1 (lines text))) := by
  rw [Job.redaction, outcomes_redacted h hwritable, writtenText_unmatched, lines_redacted h,
    writtenText_outcomes]

/-- What is written in a second run has bytes if what is written in the first has. -/
theorem canWrite_redacted {report : Report} {label' : Text}
    (hstart : report.Takes ⟨.start, label'⟩) :
    CanWrite report label'
      (job.outcomes label' 1 (lines (writtenText (job.outcomes label 1 (lines text))))) := by
  rw [outcomes_redacted h hwritable]
  refine ⟨fun outcome houtcome => ?_, ?_⟩
  · obtain ⟨line, -, rfl⟩ := List.mem_map.mp houtcome
    exact writable_ofChars line
  · rw [fileSection, begunSection, allEntries_unmatched]
    simpa [hstart] using Report.takes_finish hstart

end Written

end Removes

/-! ## §3 Files that are redacted again -/

/-- A file of the second run, in the disks before and after it: the copy is complete and reports
nothing, and it holds what the file holds. -/
structure FileCopy.SameAgain (before after : Disk) (copy : FileCopy) : Prop where
  completed : copy.state = .completed
  matchedLines : copy.matchedLines = 0
  substitutions : copy.substitutions = 0
  temp : ∃ temp bytes, copy.temp = some temp ∧ after.read temp = .ok bytes ∧
    before.read copy.source = .ok bytes ∧ after.read copy.source = .ok bytes

theorem map_source_completeCopies (clock : Nat → Int) (outcomes : Path → List RedactedLine)
    (n : Nat) (files : List Path) :
    (completeCopies clock outcomes n files).map (·.source) = files := by
  induction files generalizing n with
  | nil => rfl
  | cons file files ih => rw [completeCopies, List.map_cons, ih]; rfl

theorem eq_of_mem_completeCopies {clock : Nat → Int} {outcomes : Path → List RedactedLine}
    {copy : FileCopy} {files : List Path} {n : Nat}
    (h : copy ∈ completeCopies clock outcomes n files) :
    ∃ temp, copy = completeCopy copy.source temp (outcomes copy.source) := by
  induction files generalizing n with
  | nil => simp [completeCopies] at h
  | cons file files ih =>
      rcases List.mem_cons.mp h with rfl | h
      · exact ⟨_, rfl⟩
      · exact ih h

section Rerun

variable [Host]

/-- A run on files in which nothing is found. -/
theorem copyEach_unmatched {job : Job} {words : List (List CodePoint)} (hjob : job.Ready)
    (h : job.Removes words) {text : Path → List Char} {label : Path → Text}
    {files : List Path} {w : Workspace}
    (hwritable : ∀ file ∈ files, ∀ outcome ∈ job.outcomes (label file) 1 (lines (text file)),
      outcome.text.Writable)
    (hstart : ∀ file ∈ files, w.report.Takes ⟨.start, w.disk.label file⟩)
    (hclear : Clear w.report.serial? w.disk files)
    (hfiles : ∀ file ∈ files, w.disk.Holds file
      (writtenText (job.outcomes (label file) 1 (lines (text file)))))
    (hfree : ∀ temp ∈ tempPaths w.clock w.nextToken files, w.disk.Free temp) :
    ∃ copies w', (copyEach job [] files).run w = (.ok copies, w') ∧
      copies.map (·.source) = files ∧ (∀ copy ∈ copies, copy.SameAgain w.disk w'.disk) ∧
      w.report.GrowsBy (files.flatMap fun file =>
        [⟨.start, w.disk.label file⟩, ⟨.finish, w.disk.label file⟩]) w'.report := by
  obtain ⟨w', made, hrun, -, -, hgrows, hprogress, hsources, hmade⟩ :=
    copyEach_complete hjob (fun file hfile =>
      canWrite_redacted h (hwritable file hfile) (hstart file hfile)) hclear hfiles hfree
  have houtcomes : ∀ file ∈ files, job.fileOutcomes w.disk
      (fun file => writtenText (job.outcomes (label file) 1 (lines (text file)))) file =
        (lines (writtenText (job.outcomes (label file) 1 (lines (text file))))).map unmatchedLine :=
    fun file hfile => outcomes_redacted h (hwritable file hfile) (w.disk.label file)
  refine ⟨_, w', hrun, map_source_completeCopies _ _ _ _, fun copy hcopy => ?_, ?_⟩
  · obtain ⟨temp, hcomplete⟩ := eq_of_mem_completeCopies hcopy
    obtain ⟨token, place, location, serial, before, newSerial, -, htemp, -, -, hplace, hget,
      -, hlocation, -, hcontent⟩ := hprogress.copies copy (hmade copy hcopy)
    have hsource := hsources copy (hmade copy hcopy)
    have hholds := hfiles copy.source hsource
    have hread : w.disk.read copy.source = .ok (encodeUtf8 before) :=
      Disk.read_eq_ok_iff.mpr ⟨place, serial, hplace, hget⟩
    obtain rfl := encodeUtf8_inj (Except.ok.inj (hread.symm.trans hholds.2))
    rw [redaction_redacted h (hwritable _ hsource)] at hcontent
    refine ⟨by rw [hcomplete]; rfl, ?_, ?_, _, _, htemp, ?_, hread, ?_⟩
    · rw [hcomplete, houtcomes _ hsource]
      exact countP_unmatched _
    · rw [hcomplete, houtcomes _ hsource, completeCopy, allEntries_unmatched]
      rfl
    · exact Disk.read_eq_ok_iff.mpr
        ⟨location, newSerial, (Disk.names_congr hprogress.directories).mp hlocation, hcontent⟩
    · exact (hprogress.holds hclear (apart_of_free hfiles hfree) hsource hholds).2
  · rw [runRecords, List.flatMap_congr fun file hfile => by
      rw [houtcomes file hfile, fileSection, begunSection, allEntries_unmatched]] at hgrows
    exact hgrows

/-- Redacting files again after they have been redacted in place changes nothing. No word is left in
any of their lines, and of the second run the report has the starts and the ends of the files and
nothing between. -/
theorem rerun_changes_nothing {form : IdentityForm} {identity : Identity} {rules : List Rule}
    {words : List Text} {files : List Path} {text : Path → List Char} {w : Workspace}
    (hcheck : form.check = .ok identity)
    (hrules : List.Forall₂ (Rule.IsFor identity.mapping) rules words)
    (hwords : ∀ word ∈ words, IsPlainWord word)
    (hdisjoint : ∀ word ∈ words, ∀ c ∈ identity.pseudonym.toList, c ∉ word.toList)
    (hends : ∀ c ∈ identity.pseudonym.chars, isLineEnd c = false)
    (hwrites : ∀ compiled, Rule.compileAll identity.mapping rules = .ok compiled →
      Job.CanWriteAll ⟨compiled, identity.mapping, identity.pseudonym⟩ w.report w.disk text files)
    (hclear : Clear w.report.serial? w.disk files)
    (hfiles : ∀ file ∈ files, w.disk.Holds file (text file))
    (hfree : ∀ temp ∈ tempPaths w.clock w.nextToken (files ++ files), w.disk.Free temp) :
    ∃ copies w₁ paths w₂ again w₃,
      (copyFiles form rules files).run w = (.ok copies, w₁) ∧
      (putAllInPlace copies).run w₁ = (.ok paths, w₂) ∧
      (∀ file ∈ files, ∃ redacted, w₂.disk.Holds file redacted ∧
        ∀ ls, LinesOf redacted ls → ∀ line ∈ ls, ∀ word ∈ words, ¬ word.toList <:+: line.map .scalar) ∧
      (copyFiles form rules files).run w₂ = (.ok again, w₃) ∧
      again.map (·.source) = files ∧ (∀ copy ∈ again, copy.SameAgain w₂.disk w₃.disk) ∧
      w₂.report.GrowsBy (files.flatMap fun file =>
        [⟨.start, w.disk.label file⟩, ⟨.finish, w.disk.label file⟩]) w₃.report := by
  obtain ⟨compiled, hcompile, hreplace⟩ := Rule.compileAll_words hrules hwords
  have hjob : Job.Ready ⟨compiled, identity.mapping, identity.pseudonym⟩ :=
    Rule.ready_of_compileAll hcompile
  have hremoves : Job.Removes ⟨compiled, identity.mapping, identity.pseudonym⟩
      (words.map Text.toList) :=
    ⟨hreplace, mt Text.toList_eq_nil_iff.mp (IdentityForm.pseudonym_ne_empty hcheck),
      List.forall_mem_map.mpr hdisjoint, hends⟩
  rw [tempPaths_append, List.forall_mem_append] at hfree
  obtain ⟨hfirst, hsecond⟩ := hfree
  obtain ⟨log, hrun⟩ := run_copyFiles_ok hcheck hcompile files w
  have hwrites := hwrites compiled hcompile
  obtain ⟨copies, w₁, paths, disk, log₁, hcopy, -, hput, hread, -, helsewhere, hclock, htoken,
    halike, hsame, hclear₁⟩ :=
      redactAll_open hjob (w := { w with log }) hwrites hclear hfiles hfirst
  obtain ⟨log₂, hrun₂⟩ := run_copyFiles_ok hcheck hcompile files { w₁ with disk, log := log₁ }
  have hagain : ∀ file ∈ files, disk.Holds file
      (writtenText (Job.outcomes _ (w.disk.label file) 1 (lines (text file)))) :=
    fun file hfile => ⟨(hfiles file hfile).1, hread file hfile⟩
  -- Where the copies of the second run go nothing was at the start, and no file has been moved.
  have hfree₂ : ∀ temp ∈ tempPaths w₁.clock w₁.nextToken files, disk.Free temp := by
    rw [hclock, htoken]
    intro temp htemp
    obtain ⟨location, hnames, hnone⟩ := hsecond temp htemp
    refine ⟨location, (Disk.names_congr hsame).mp hnames, ?_⟩
    rw [helsewhere location, hnone]
    · intro file hfile hplace
      exact apart_of_free hfiles hsecond file hfile temp htemp location hplace hnames
    · intro serial content hget
      rw [hnone] at hget
      cases hget
  obtain ⟨again, w₃, hcopy₂, hsources, hsameAgain, hgrows⟩ := copyEach_unmatched hjob hremoves
    (w := { w₁ with disk, log := log₂ }) (fun file hfile => (hwrites file hfile).lines)
    (fun file hfile => by
      rw [← label_congr hsame]
      exact halike.takes.mpr ((hwrites file hfile).records _ (List.mem_cons_self ..)))
    hclear₁ hagain hfree₂
  simp only [← label_congr hsame] at hgrows
  refine ⟨copies, w₁, paths, _, again, w₃, hrun.trans hcopy, hput, ?_, hrun₂.trans hcopy₂, hsources,
    hsameAgain, hgrows⟩
  intro file hfile
  refine ⟨_, hagain file hfile, fun ls hls line hline word hword => ?_⟩
  rw [← linesOf_iff.mp hls] at hline
  exact not_infix_of_mem_redacted hremoves (hwrites file hfile).lines line hline word.toList
    (List.mem_map_of_mem hword)

end Rerun

/-- Rules for two words of the login text. -/
def loginRules : List Rule := [.username "name", ⟨"farewell", " bye ", "bye"⟩]

section Sample

attribute [local instance] sampleHost

theorem rerun_login : ∃ copies w₁ paths w₂ again w₃,
    (copyFiles jdoeForm loginRules [loginLog]).run loginWorkspace = (.ok copies, w₁) ∧
    (putAllInPlace copies).run w₁ = (.ok paths, w₂) ∧
    (copyFiles jdoeForm loginRules [loginLog]).run w₂ = (.ok again, w₃) ∧
    (∀ copy ∈ again, copy.SameAgain w₂.disk w₃.disk) ∧
    w₂.report.GrowsBy [⟨.start, "/a.log"⟩, ⟨.finish, "/a.log"⟩] w₃.report := by
  have hplain : ∀ word ∈ (["jdoe", "bye"] : List Text), IsPlainWord word :=
    List.forall_mem_cons.mpr
      ⟨⟨by decide, by decide +kernel, List.all_iff_forall_prop.mp (by decide +kernel)⟩,
        List.forall_mem_singleton.mpr
          ⟨by decide, by decide +kernel, List.all_iff_forall_prop.mp (by decide +kernel)⟩⟩
  have hdisjoint : ∀ word ∈ (["jdoe", "bye"] : List Text),
      ∀ c ∈ jdoe.pseudonym.toList, c ∉ word.toList := by
    simp only [← List.all_iff_forall_prop]
    decide +kernel
  obtain ⟨copies, w₁, paths, w₂, again, w₃, hfirst, hput, -, hsecond, -, hsame, hgrows⟩ :=
    @rerun_changes_nothing _ jdoeForm jdoe loginRules ["jdoe", "bye"] [loginLog] (fun _ => loginText)
      loginWorkspace rfl
      (.cons ⟨⟨"jdoe", eq_ok_of_toOption (by decide +kernel), by decide +kernel⟩,
          eq_ok_of_toOption (by decide +kernel)⟩
        (.cons ⟨⟨" bye ", eq_ok_of_toOption (by decide +kernel), by decide +kernel⟩,
          eq_ok_of_toOption (by decide +kernel)⟩ .nil))
      hplain hdisjoint (List.all_iff_forall_prop.mp (by decide +kernel))
      (fun _ _ _ _ => canWrite_list (show jdoe.pseudonym.Writable by decide +kernel) _ _ _ _)
      (clear_list rfl _ _)
      (List.forall_mem_singleton.mpr ⟨by decide +kernel, by decide +kernel⟩) (by decide +kernel)
  exact ⟨copies, w₁, paths, w₂, again, w₃, hfirst, hput, hsecond, hsame, hgrows⟩

end Sample

end LogRedaction
