/-
LogRedaction.Proofs.PartialCopy — what is left of a file that is not copied to its end.

The lines that can be seen before undecodable bytes are redacted, written and reported like those of
a text; then the copying fails with the error of the decoder. So the temporary copy and the report
stop at the same line, wherever the bytes lie in their chunk. Which line this is,
`readLines_undecodable` bounds from both sides. A redacted line that has no bytes, or an entry about
it that the report cannot take, stops the copying before, with the error of the encoder
(`copyFile_unwritable`): then a text is not copied to its end either.
-/
import LogRedaction.Proofs.Copying
import LogRedaction.Proofs.Text.Undecodable

namespace LogRedaction

open Text

section Partial

variable [Host]

/-- The copying of a file fails in the middle. The temporary copy has been made and holds these
redacted lines, the section of the report has these entries and no end, and the file is as it
was. -/
def Leaves (job : Job) (source : Path) (w : Workspace) (bytes : List UInt8)
    (outcomes : List RedactedLine) (entries : List AuditEntry) (cause : FileFault) : Prop :=
  ∃ created w',
    (copyFile job source).run w =
      (.error (.failure ⟨source, some (tempPath (w.tokenAt w.nextToken) source), cause⟩), w') ∧
    w'.disk.read (tempPath (w.tokenAt w.nextToken) source) =
      .ok (encodeUtf8 (writtenText outcomes)) ∧
    w'.disk.read source = .ok bytes ∧
    w.disk.create (tempPath (w.tokenAt w.nextToken) source) (encodeUtf8 (writtenText outcomes)) =
      .ok created ∧
    w.report.addAll? created (begunSection (w.disk.label source) entries) =
      .ok (w'.report, w'.disk)

/-- The copying stops at a line or at an entry that has no bytes. What has been written and reported
by then is about the first lines. -/
def LeavesUnencodable (job : Job) (source : Path) (w : Workspace) (bytes : List UInt8)
    (outcomes : List RedactedLine) : Prop :=
  ∃ j entries e, entries <+: allEntries (outcomes.take j) ∧
    Leaves job source w bytes (outcomes.take j) entries (.unencodable e)

variable {job : Job} {source : Path} {w : Workspace} {bytes : List UInt8}

/-- A file that can be opened, as well as its temporary copy, is copied as far as its redaction goes,
and either nothing stops it or the file is left as it was. -/
theorem copyFile_opened (hjob : job.Ready) (hstart : w.report.Takes ⟨.start, w.disk.label source⟩)
    (hsound : source.fault? = none) (hread : w.disk.read source = .ok bytes)
    (hfree : w.disk.Free (tempPath (w.tokenAt w.nextToken) source)) :
    ∃ outcomes entries stop,
      Reaches job w.report (w.disk.label source) 1 (readLines bytes).1 outcomes entries stop ∧
      (stop = none ∧ (readLines bytes).2 = none ∧
          (∃ copy w', (copyFile job source).run w = (.ok copy, w') ∧ copy.state = .completed) ∨
        ∃ cause, breakOf stop (readLines bytes).2 = some cause ∧
          Leaves job source w bytes outcomes entries cause) := by
  have hcourse := copyFile_course hjob source w
  rcases hrun : (copyFile job source).run w with ⟨result, w'⟩
  rw [hrun] at hcourse
  cases hcourse with
  | unannounced hfault =>
      rw [Report.Takes, hfault] at hstart
      cases hstart
  | unopened hunopened => exact (hunopened.not_opened hsound hread).elim
  | unmade _ _ hrefused => exact absurd hfree (Disk.create_eq_error hrefused).1
  | @unfinished content outcomes entries stop cause created _ _ _ hread' hreaches hbreak hcreate
      hadd =>
      obtain rfl : content = bytes := Except.ok.inj (hread'.symm.trans hread)
      exact ⟨outcomes, entries, stop, hreaches, .inr ⟨cause, hbreak, created, _, hrun,
        Disk.read_created hcreate, Disk.read_create hcreate hread, hcreate, hadd⟩⟩
  | @completed text _ _ _ _ _ hread' hwritable _ hadd =>
      obtain rfl : encodeUtf8 text = bytes := Except.ok.inj (hread'.symm.trans hread)
      have hwrites : CanWrite w.report (w.disk.label source)
          (job.outcomes (w.disk.label source) 1 (lines text)) :=
        ⟨hwritable, Report.takes_of_addAll? hadd⟩
      rw [readLines_encode]
      exact ⟨_, _, _, hwrites.reaches hjob, .inl ⟨rfl, rfl, _, _, rfl, rfl⟩⟩

/-- If not all has bytes that is to be written of the lines that are seen, the copying fails with
the error of the encoder. -/
theorem copyFile_unwritable (hjob : job.Ready)
    (hstart : w.report.Takes ⟨.start, w.disk.label source⟩) (hsound : source.fault? = none)
    (hread : w.disk.read source = .ok bytes)
    (hfree : w.disk.Free (tempPath (w.tokenAt w.nextToken) source))
    (hwrites : ¬CanWrite w.report (w.disk.label source)
      (job.outcomes (w.disk.label source) 1 (readLines bytes).1)) :
    LeavesUnencodable job source w bytes
      (job.outcomes (w.disk.label source) 1 (readLines bytes).1) := by
  obtain ⟨outcomes, entries, stop, hreaches, hends⟩ :=
    copyFile_opened hjob hstart hsound hread hfree
  have hstop : stop ≠ none := mt (hreaches.canWrite_iff hstart).mpr hwrites
  rcases hends with ⟨hnone, -⟩ | ⟨cause, hbreak, hleaves⟩
  · exact absurd hnone hstop
  have hfirst : (job.outcomes (w.disk.label source) 1 (readLines bytes).1).take outcomes.length =
      outcomes := by
    rw [← Job.outcomes_take, ← hreaches.outcomes_eq.2]
  obtain ⟨e, rfl⟩ : ∃ e, cause = .unencodable e := by
    rcases stop with _ | (e | e | (_ | e))
    · exact absurd rfl hstop
    · cases hbreak
    · exact ⟨e, (Option.some.inj hbreak).symm⟩
    · cases hbreak
    · exact ⟨e, (Option.some.inj hbreak).symm⟩
  exact ⟨outcomes.length, entries, e, hfirst.symm ▸ hreaches.entries_isPrefix, hfirst.symm ▸ hleaves⟩

/-- If the file can be opened, as well as its temporary copy, and the report takes the start of its
section, a file that is a text is copied to its end, provided that all that is to be written has
bytes. One that is not leaves the redaction of the first `k` lines before the undecodable position,
and in the report the start of its section and the entries of these lines, provided that all this
has bytes. Otherwise the copying fails with the error of the encoder, at one of these lines. -/
theorem copyFile_completed_or_undecodable {identity : Identity} {rules : List Rule}
    {compiled : List CompiledRule}
    (hcompile : Rule.compileAll identity.mapping rules = .ok compiled)
    (hstart : w.report.Takes ⟨.start, w.disk.label source⟩) (hsound : source.fault? = none)
    (hread : w.disk.read source = .ok bytes)
    (hfree : w.disk.Free (tempPath (w.tokenAt w.nextToken) source)) :
    (∀ text outcomes, bytes = encodeUtf8 text →
      LineByLine ⟨compiled, identity.mapping, identity.pseudonym⟩ (w.disk.label source) 1
        (lines text) outcomes →
      (CanWrite w.report (w.disk.label source) outcomes → ∃ copy w',
        (copyFile ⟨compiled, identity.mapping, identity.pseudonym⟩ source).run w =
          (.ok copy, w') ∧ copy.state = .completed) ∧
      (¬CanWrite w.report (w.disk.label source) outcomes →
        LeavesUnencodable ⟨compiled, identity.mapping, identity.pseudonym⟩ source w bytes
          outcomes)) ∧
    ((∀ text, bytes ≠ encodeUtf8 text) → ∃ text rest e n k outcomes,
      bytes = encodeUtf8 text ++ rest ∧ NoCharacter rest ∧ rest.head? = some e.byte ∧
      RefusedAt bytes n e ∧ k ≤ lineEnds text ∧
      (∀ a b, bytes.take (chunkSize * n) = encodeUtf8 (a ++ ['\n']) ++ b →
        lineEnds (a ++ ['\n']) ≤ k) ∧
      LineByLine ⟨compiled, identity.mapping, identity.pseudonym⟩ (w.disk.label source) 1
        ((lines text).take k) outcomes ∧ outcomes.length = k ∧
      (CanWrite w.report (w.disk.label source) outcomes →
        Leaves ⟨compiled, identity.mapping, identity.pseudonym⟩ source w bytes outcomes
          (allEntries outcomes) (.undecodable e)) ∧
      (¬CanWrite w.report (w.disk.label source) outcomes →
        LeavesUnencodable ⟨compiled, identity.mapping, identity.pseudonym⟩ source w bytes
          outcomes)) := by
  have hjob : Job.Ready ⟨compiled, identity.mapping, identity.pseudonym⟩ :=
    Rule.ready_of_compileAll hcompile
  have hunwritable := copyFile_unwritable hjob hstart hsound hread hfree
  obtain ⟨reached, entries, stop, hreaches, hends⟩ :=
    copyFile_opened hjob hstart hsound hread hfree
  have hall := hreaches.canWrite_iff hstart
  constructor
  · rintro text outcomes rfl hline
    rw [readLines_encode] at hunwritable hall hends
    rw [(lineByLine_iff hjob).mp hline]
    refine ⟨fun hwrites => ?_, hunwritable⟩
    rcases hends with ⟨-, -, hcompleted⟩ | ⟨cause, hbreak, -⟩
    · exact hcompleted
    · rw [hall.mp hwrites] at hbreak
      cases hbreak
  · intro hbad
    cases hfault : (readLines bytes).2 with
    | none =>
        obtain ⟨text, htext⟩ := encode_of_readLines hfault
        exact absurd htext (hbad text)
    | some e =>
        obtain ⟨text, rest, n, k, hbytes, hnone, hbyte, hat, hmost, hleast, hlines, hcount⟩ :=
          readLines_undecodable hfault
        rw [hlines] at hunwritable hall hreaches hcount
        have hline := (@lineByLine_iff _ _ hjob (w.disk.label source)).mpr
          (rfl : Job.outcomes _ _ 1 ((lines text).take k) = _)
        refine ⟨text, rest, e, n, k, _, hbytes, hnone, hbyte, hat, hmost, hleast, hline,
          (length_of_lineByLine hline).trans hcount, fun hwrites => ?_, hunwritable⟩
        obtain rfl := hall.mp hwrites
        obtain ⟨rfl, rfl⟩ := hreaches.complete
        rcases hends with ⟨-, hnofault, -⟩ | ⟨cause, hbreak, hleaves⟩
        · rw [hfault] at hnofault
          cases hnofault
        · rw [hfault] at hbreak
          obtain rfl := Option.some.inj hbreak
          exact hleaves

end Partial

section Sample

attribute [local instance] sampleHost

/-- The log is a text, and it and its temporary copy can be opened. But the pseudonym has no bytes, so
the copying fails at the first line. -/
theorem copyFile_unencodable_login : unwritableForm.check = .ok unwritable ∧
    loginWorkspace.disk.read loginLog = .ok (encodeUtf8 loginText) ∧
    loginWorkspace.disk.Free (tempPath ⟨7, 0⟩ loginLog) ∧
    ∃ compiled, Rule.compileAll unwritable.mapping [.username "plain-username"] = .ok compiled ∧
      ((copyFile ⟨compiled, unwritable.mapping, unwritable.pseudonym⟩ loginLog).run
        loginWorkspace).1 =
          .error (.failure ⟨loginLog, some (tempPath ⟨7, 0⟩ loginLog),
            .unencodable ⟨5, 6, .surrogate 0x4FF⟩⟩) := by
  have hcopy : (Rule.compileAll unwritable.mapping [.username "plain-username"]).toOption.map
      (fun compiled => ((copyFile ⟨compiled, unwritable.mapping, unwritable.pseudonym⟩ loginLog).run
        loginWorkspace).1) =
      some (.error (.failure ⟨loginLog, some (tempPath ⟨7, 0⟩ loginLog),
        .unencodable ⟨5, 6, .surrogate 0x4FF⟩⟩)) := by
    decide +kernel
  obtain ⟨compiled, hcompile, hrun⟩ := Option.map_eq_some_iff.mp hcopy
  exact ⟨rfl, by decide +kernel, by decide +kernel, compiled, eq_ok_of_toOption hcompile, hrun⟩

end Sample

/-- A log with a byte that is no text in its second line. -/
def spoiledLog : List UInt8 := encodeUtf8 "User jdoe logged in\nb".toList ++ [0xFF, 0x0A]

/-- A directory with this log only. -/
def spoiledWorkspace : Workspace := { loginWorkspace with
  disk := ⟨[(["a.log"], .file 0 spoiledLog)], 1, []⟩ }

section Sample

attribute [local instance] sampleHost

theorem copyFile_undecodable_login : ∃ compiled outcomes e,
    Rule.compileAll jdoe.mapping [.username "plain-username"] = .ok compiled ∧
    Leaves ⟨compiled, jdoe.mapping, jdoe.pseudonym⟩ loginLog spoiledWorkspace spoiledLog outcomes
      (allEntries outcomes) (.undecodable e) := by
  obtain ⟨compiled, hcompile⟩ := Rule.compileAll_jdoe
  have hbad : ∀ text, spoiledLog ≠ encodeUtf8 text := by
    intro text htext
    have hfault : (readLines spoiledLog).2 ≠ none := by decide +kernel
    rw [htext, readLines_encode] at hfault
    exact hfault rfl
  obtain ⟨-, hundecodable⟩ :=
    @copyFile_completed_or_undecodable _ loginLog spoiledWorkspace spoiledLog jdoe _ compiled
      hcompile (Report.takes_list _ _) (by decide +kernel) (by decide +kernel) (by decide +kernel)
  obtain ⟨_, _, e, _, _, outcomes, -, -, -, -, -, -, hline, -, hleaves, -⟩ := hundecodable hbad
  refine ⟨compiled, outcomes, e, hcompile, hleaves ?_⟩
  rw [(lineByLine_iff (Rule.ready_of_compileAll hcompile)).mp hline]
  exact canWrite_list (show jdoe.pseudonym.Writable by decide +kernel) _ _ _ _

end Sample

end LogRedaction
