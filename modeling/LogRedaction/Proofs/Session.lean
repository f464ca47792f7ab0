/-
LogRedaction.Proofs.Session — no original is ever half redacted.

A session is any sequence of operations on one workspace: files are copied for some user by some
rules, copies are put in place one at a time or together, temporary copies are discarded. Calls may
fail anywhere and leave partial copies behind; copies may be put in place in any order, again, or
after they have been discarded. `Session` says which sequences these are, and keeps what happened in
a `History`.

`Sound` is the invariant. A source holds what it held at the start, or a whole redaction of what it
held before some call; a complete copy holds such a redaction as long as it exists. Names of
temporary copies are what makes it inductive: a number is used once, so what was discarded or moved
never comes back with other content. `session_originals_whole` reads the result off the invariant.

## §1 Sessions
## §2 The invariant
## §3 Operations keep it
## §4 Sessions keep it
-/
import LogRedaction.Proofs.Progress

namespace LogRedaction

open Text

/-! ## §1 Sessions -/

/-- What can be done in a session. -/
inductive Operation where
  /-- Files are copied for a user; the report is of the caller's choice. -/
  | call (form : IdentityForm) (rules : List Rule) (files : List Path) (report : Report)
  | put (copy : FileCopy)
  | putAll (copies : List FileCopy)
  /-- A temporary copy is discarded; the text is how its path is given. -/
  | discard (text : Option Text)

section Session

variable [Host]

namespace Operation

/-- The workspace after an operation, whether it has failed or not. -/
def after (w : Workspace) : Operation → Workspace
  | call form rules files report => ((copyFiles form rules files).run { w with report }).2
  | put copy => ((putInPlace copy).run w).2
  | putAll copies => ((putAllInPlace copies).run w).2
  | discard text => ((discardCopy text).run w).2

/-- The complete copies that an operation hands out. -/
def copies (w : Workspace) : Operation → List FileCopy
  | call form rules files report =>
    completedCopies ((copyFiles form rules files).run { w with report }).1
  | _ => []

/-- The temporary copies that an operation names, complete or not: each file that is reached and
can be read takes one token. -/
def temps (w : Workspace) : Operation → List Path
  | call form rules files report => tempPaths w.clock w.nextToken
      (files.take ((after w (call form rules files report)).nextToken - w.nextToken))
  | _ => []

end Operation

/-- What has happened, the latest first: each operation with the workspace it found. -/
abbrev History := List (Workspace × Operation)

namespace History

/-- All complete copies that have been handed out. -/
def copies (past : History) : List FileCopy := past.flatMap fun (w, op) => op.copies w

/-- All temporary copies that have been named. -/
def temps (past : History) : List Path := past.flatMap fun (w, op) => op.temps w

end History

/-- What may be done next. Only sources are copied, no temporary copy is at the place of a source,
and the report is written into none of these files. What is put in place as complete has been handed
out before, and what is discarded is a temporary copy. -/
def Allowed (sources : List Path) (past : History) (w : Workspace) : Operation → Prop
  | .call form rules files report =>
    (∀ file ∈ files, file ∈ sources) ∧
      Apart w.disk sources ((Operation.call form rules files report).temps w) ∧
      Clear report.serial? w.disk (sources ++ past.temps)
  | .put copy => copy.state = .completed → copy ∈ past.copies
  | .putAll copies => ∀ copy ∈ copies, copy.state = .completed → copy ∈ past.copies
  | .discard text => ∀ given, text = some given → Path.ofText given ∈ past.temps

/-- The operations of the history lead from the start to the workspace. -/
inductive Session (sources : List Path) (start : Workspace) : History → Workspace → Prop where
  | start : Session sources start [] start
  | step {past : History} {w : Workspace} {op : Operation} : Session sources start past w →
      Allowed sources past w op → Session sources start ((w, op) :: past) (op.after w)

/-- The bytes are the redaction of the content for the user by the rules: all its lines, each
redacted as a whole, with nothing lost in writing them. -/
def Redacts (form : IdentityForm) (rules : List Rule) (content redacted : List UInt8) : Prop :=
  ∃ identity compiled text ls label outcomes,
    form.check = .ok identity ∧ Rule.compileAll identity.mapping rules = .ok compiled ∧
    content = encodeUtf8 text ∧ LinesOf text ls ∧
    LineByLine ⟨compiled, identity.mapping, identity.pseudonym⟩ label 1 ls outcomes ∧
    (∀ outcome ∈ outcomes, outcome.text.Writable) ∧ redacted = encodeUtf8 (writtenText outcomes)

/-! ## §2 The invariant -/

/-- The place is untouched, or holds the redaction of what it held before one of the calls. -/
def Whole (start : Workspace) (past : History) (w : Workspace) (place : Location) : Prop :=
  w.disk.get? place = start.disk.get? place ∨
    ∃ v form rules files report serial serial' content redacted,
      (v, .call form rules files report) ∈ past ∧
      v.disk.get? place = some (.file serial content) ∧ Redacts form rules content redacted ∧
      w.disk.get? place = some (.file serial' redacted)

/-- The copy comes from a call, and as long as it exists it holds the redaction of what its source
held before that call. -/
def Kept (sources temps : List Path) (v : Workspace) (op : Operation) (copy : FileCopy)
    (w : Workspace) : Prop :=
  ∃ form rules files report token place location serial content redacted,
    op = .call form rules files report ∧ copy.state = .completed ∧
    copy.temp = some (tempPath token copy.source) ∧ tempPath token copy.source ∈ temps ∧
    copy.source ∈ sources ∧ v.disk.Names copy.source place ∧
    v.disk.get? place = some (.file serial content) ∧ Redacts form rules content redacted ∧
    w.disk.Names copy.source place ∧ w.disk.get? place ≠ some .directory ∧
    w.disk.Names (tempPath token copy.source) location ∧
    (w.disk.get? location = none ∨ ∃ serial, w.disk.get? location = some (.file serial redacted))

/-- What holds in every state of a session. -/
structure Sound (sources : List Path) (start : Workspace) (past : History) (w : Workspace) :
    Prop where
  directories : Disk.SameDirectories start.disk w.disk
  numbers : ∀ temp ∈ past.temps, ∃ token source, temp = tempPath token source ∧
    token.number < w.nextToken
  apart : Apart w.disk sources past.temps
  originals : ∀ source ∈ sources, ∀ place, w.disk.Names source place → Whole start past w place
  copies : ∀ v op copy, (v, op) ∈ past → copy ∈ op.copies v → Kept sources past.temps v op copy w

section Change

variable {sources : List Path} {start w w' : Workspace} {past : History}

/-- A change keeps the invariant if each original stays or is whole afterwards, and each temporary
copy stays or is gone afterwards. -/
theorem Sound.change (h : Sound sources start past w)
    (hdirectories : Disk.SameDirectories w.disk w'.disk) (htoken : w.nextToken ≤ w'.nextToken)
    (horiginals : ∀ source ∈ sources, ∀ place, w.disk.Names source place →
      w'.disk.get? place = w.disk.get? place ∨ Whole start past w' place)
    (htemps : ∀ temp ∈ past.temps, ∀ location, w.disk.Names temp location →
      w'.disk.get? location = w.disk.get? location ∨ w'.disk.get? location = none) :
    Sound sources start past w' where
  directories := h.directories.trans hdirectories
  numbers := by
    intro temp htemp
    obtain ⟨token, source, rfl, hlt⟩ := h.numbers temp htemp
    exact ⟨token, source, rfl, Nat.lt_of_lt_of_le hlt htoken⟩
  apart := apart_congr hdirectories h.apart
  originals := by
    intro source hsource place hplace
    rw [← Disk.names_congr hdirectories] at hplace
    rcases horiginals source hsource place hplace with hsame | hwhole
    · rw [Whole, hsame]
      exact h.originals source hsource place hplace
    · exact hwhole
  copies := by
    intro v op copy hpast hcopy
    obtain ⟨form, rules, files, report, token, place, location, serial, content, redacted, hop,
      hstate, htemp, hmem, hsource, hplaceThen, hget, hredacts, hplace, hspace, hlocation, hkept⟩ :=
      h.copies v op copy hpast hcopy
    refine ⟨form, rules, files, report, token, place, location, serial, content, redacted, hop,
      hstate, htemp, hmem, hsource, hplaceThen, hget, hredacts,
      (Disk.names_congr hdirectories).mp hplace,
      fun hdirectory => hspace ((hdirectories.directory place).mpr hdirectory),
      (Disk.names_congr hdirectories).mp hlocation, ?_⟩
    rcases htemps _ hmem location hlocation with hsame | hgone
    · rw [hsame]
      exact hkept
    · exact .inl hgone

/-- The history grows by an operation and what it hands out. -/
theorem Sound.extend {v : Workspace} {op : Operation} (h : Sound sources start past w)
    (hnumbers : ∀ temp ∈ op.temps v, ∃ token source, temp = tempPath token source ∧
      token.number < w.nextToken)
    (hapart : Apart w.disk sources (op.temps v))
    (hcopies : ∀ copy ∈ op.copies v, Kept sources (op.temps v) v op copy w) :
    Sound sources start ((v, op) :: past) w where
  directories := h.directories
  numbers := by
    intro temp htemp
    rw [History.temps, List.flatMap_cons] at htemp
    rcases List.mem_append.mp htemp with htemp | htemp
    · exact hnumbers temp htemp
    · exact h.numbers temp htemp
  apart := by
    intro source hsource temp htemp
    rw [History.temps, List.flatMap_cons] at htemp
    rcases List.mem_append.mp htemp with htemp | htemp
    · exact hapart source hsource temp htemp
    · exact h.apart source hsource temp htemp
  originals := by
    intro source hsource place hplace
    rcases h.originals source hsource place hplace with hsame | hwhole
    · exact .inl hsame
    · obtain ⟨v', form, rules, files, report, serial, serial', content, redacted, hmem, hrest⟩ :=
        hwhole
      exact .inr ⟨v', form, rules, files, report, serial, serial', content, redacted,
        List.mem_cons_of_mem _ hmem, hrest⟩
  copies := by
    intro v' op' copy hmem hcopy
    have hmore : ∀ temp, temp ∈ op.temps v ∨ temp ∈ past.temps →
        temp ∈ History.temps ((v, op) :: past) := by
      intro temp htemp
      rw [History.temps, List.flatMap_cons]
      exact List.mem_append.mpr htemp
    rcases List.mem_cons.mp hmem with heq | hmem
    · cases heq
      obtain ⟨form, rules, files, report, token, place, location, serial, content, redacted, hop,
        hstate, htemp, hin, hrest⟩ := hcopies copy hcopy
      exact ⟨form, rules, files, report, token, place, location, serial, content, redacted, hop,
        hstate, htemp, hmore _ (.inl hin), hrest⟩
    · obtain ⟨form, rules, files, report, token, place, location, serial, content, redacted, hop,
        hstate, htemp, hin, hrest⟩ := h.copies v' op' copy hmem hcopy
      exact ⟨form, rules, files, report, token, place, location, serial, content, redacted, hop,
        hstate, htemp, hmore _ (.inr hin), hrest⟩

end Change

/-! ## §3 Operations keep it -/

section Keep

variable {sources : List Path} {start w : Workspace} {past : History}

/-- Moving a complete copy over its source. -/
theorem Sound.put (h : Sound sources start past w) {copy : FileCopy}
    (hcopy : copy.state = .completed → copy ∈ past.copies) :
    Sound sources start past ((putInPlace copy).run w).2 := by
  rw [run_putInPlace]
  by_cases hstate : copy.state = .completed
  · obtain ⟨⟨v, op⟩, hmem, hin⟩ := List.mem_flatMap.mp (hcopy hstate)
    obtain ⟨form, rules, files, report, token, place, location, serial, content, redacted, rfl,
      -, htemp, htemps, hsource, -, hget, hredacts, hplace, hspace, hlocation, hkept⟩ :=
      h.copies v op copy hmem hin
    rw [FileCopy.finished?, if_pos hstate, htemp]
    simp only
    split
    · exact h
    rcases hkept with hgone | ⟨serial', hfile⟩
    · rw [Disk.rename_missing hlocation hplace hgone]
      exact h
    rw [Disk.rename_tempPath hplace hlocation hfile hspace]
    have hapart := h.apart copy.source hsource _ htemps
    refine h.change (Disk.sameDirectories_moved hlocation.ne_nil hplace.ne_nil (by simp [hfile])
      hspace) (Nat.le_refl _) ?_ ?_
    · intro source' hsource' place' hplace'
      simp only [Disk.get?_moved _ hlocation.ne_nil hplace.ne_nil]
      by_cases hsame : place' = place
      · subst hsame
        refine .inr (.inr ⟨v, form, rules, files, report, serial, serial', content, redacted, hmem,
          hget, hredacts, ?_⟩)
        simp only [Disk.get?_moved _ hlocation.ne_nil hplace.ne_nil, if_pos]
      · have hother : place' ≠ location := by
          rintro rfl
          exact h.apart source' hsource' _ htemps place' hplace' hlocation
        rw [if_neg hsame, if_neg hother]
        exact .inl rfl
    · intro temp' htemp' location' hlocation'
      have hother : location' ≠ place := by
        rintro rfl
        exact h.apart copy.source hsource temp' htemp' location' hplace hlocation'
      simp only [Disk.get?_moved _ hlocation.ne_nil hplace.ne_nil, if_neg hother]
      by_cases hsame : location' = location
      · exact .inr (if_pos hsame)
      · exact .inl (if_neg hsame)
  · rw [FileCopy.finished?, if_neg hstate]
    exact h

theorem Sound.putAll (h : Sound sources start past w) {copies : List FileCopy}
    (hcopies : ∀ copy ∈ copies, copy.state = .completed → copy ∈ past.copies) :
    Sound sources start past ((putAllInPlace copies).run w).2 := by
  induction copies generalizing w with
  | nil => exact h
  | cons copy copies ih =>
      have hfirst := h.put (hcopies copy (by simp))
      rw [run_putAllInPlace_cons]
      rcases hrun : (putInPlace copy).run w with ⟨e | path, w₁⟩
      · rw [hrun] at hfirst
        exact hfirst
      · rw [hrun] at hfirst
        have hrest := ih hfirst (fun c hc => hcopies c (List.mem_cons_of_mem _ hc))
        simp only
        rcases hmore : (putAllInPlace copies).run w₁ with ⟨e | paths, w₂⟩
        · rw [hmore] at hrest
          exact hrest
        · rw [hmore] at hrest
          exact hrest

/-- Discarding a temporary copy. -/
theorem Sound.discard (h : Sound sources start past w) {text : Option Text}
    (htext : ∀ given, text = some given → Path.ofText given ∈ past.temps) :
    Sound sources start past ((discardCopy text).run w).2 := by
  cases text with
  | none => exact h
  | some given =>
      have htemp := htext given rfl
      rw [run_discardCopy]
      split
      · exact h
      split
      · exact h
      · exact h
      rename_i disk hunlink
      obtain ⟨location, serial, content, hlocation, hfile, rfl⟩ :=
        Disk.unlink_eq_ok_iff.mp hunlink
      refine h.change (Disk.sameDirectories_erase hlocation.ne_nil (by simp [hfile]))
        (Nat.le_refl _) ?_ ?_
      · intro source hsource place hplace
        have hother : place ≠ location := by
          rintro rfl
          exact h.apart source hsource _ htemp place hplace hlocation
        simp only [Disk.get?_erase _ hlocation.ne_nil]
        exact .inl (if_neg hother)
      · intro temp' _ location' _
        simp only [Disk.get?_erase _ hlocation.ne_nil]
        by_cases hsame : location' = location
        · exact .inr (if_pos hsame)
        · exact .inl (if_neg hsame)

theorem redacts_of_ready {form : IdentityForm} {rules : List Rule} {identity : Identity}
    {compiled : List CompiledRule} (hcheck : form.check = .ok identity)
    (hcompile : Rule.compileAll identity.mapping rules = .ok compiled) {label : Text}
    {text : List Char} (hwritable : ∀ outcome ∈ Job.outcomes
      ⟨compiled, identity.mapping, identity.pseudonym⟩ label 1 (lines text),
        outcome.text.Writable) :
    Redacts form rules (encodeUtf8 text)
      (Job.redaction ⟨compiled, identity.mapping, identity.pseudonym⟩ label text) :=
  ⟨identity, compiled, text, lines text, label, _, hcheck, hcompile, rfl, linesOf_iff.mpr rfl,
    (lineByLine_iff (Rule.ready_of_compileAll hcompile)).mpr rfl, hwritable, rfl⟩

/-- A call that ends before the first file. -/
theorem Sound.call_refused (h : Sound sources start past w) {form : IdentityForm}
    {rules : List Rule} {files : List Path} {report : Report} {w' : Workspace} {e : RunError}
    (hrun : (copyFiles form rules files).run { w with report } = (.error e, w'))
    (he : completedCopies (.error e) = []) (hdisk : w'.disk = w.disk)
    (htoken : w'.nextToken = w.nextToken) :
    Sound sources start ((w, .call form rules files report) :: past) w' := by
  have hsame : Sound sources start past w' := by
    refine h.change (by rw [hdisk]; exact .refl _) (Nat.le_of_eq htoken.symm) ?_ ?_
    · intro _ _ _ _
      exact .inl (by rw [hdisk])
    · intro _ _ _ _
      exact .inl (by rw [hdisk])
  have htemps : (Operation.call form rules files report).temps w = [] := by
    rw [Operation.temps, Operation.after, hrun, htoken, tempPaths_none]
  have hcopies : (Operation.call form rules files report).copies w = [] := by
    rw [Operation.copies, hrun, he]
  refine hsame.extend ?_ ?_ ?_
  · rw [htemps]
    simp
  · rw [htemps]
    intro _ _ _ htemp
    simp at htemp
  · rw [hcopies]
    simp

/-- Copies that are made for new tokens disturb nothing that a session relies on. -/
theorem Sound.progress (h : Sound sources start past w) {job : Job} {report : Report}
    {log : List Event} {temps : List Path} {copies : List FileCopy} {w' : Workspace}
    (hprogress : Progress job { w with report, log } w' temps copies)
    (hclear : Clear report.serial? w.disk (sources ++ past.temps))
    (hapart : Apart w.disk sources temps) : Sound sources start past w' := by
  refine h.change hprogress.directories hprogress.nextToken ?_ ?_
  · intro source hsource place hplace
    exact .inl (hprogress.source_eq (clear_mono hclear fun _ => List.mem_append_left _) hapart
      hsource hplace)
  · intro temp htemp location hlocation
    refine .inl (hprogress.elsewhere location ?_ ?_)
    · intro temp' htemp' hlocation'
      obtain ⟨token, source, rfl, hlt⟩ := h.numbers temp htemp
      obtain ⟨token', source', rfl, hle, -⟩ := hprogress.numbers temp' htemp'
      refine Disk.tempPath_ne hlocation hlocation' ?_ rfl
      rintro rfl
      exact absurd hlt (Nat.not_lt.mpr hle)
    · intro serial content hget hserial
      exact (hclear serial hserial).2 temp (List.mem_append_right _ htemp) location hlocation
        content hget

/-- Copying files. -/
theorem Sound.call (h : Sound sources start past w) {form : IdentityForm} {rules : List Rule}
    {files : List Path} {report : Report}
    (hallowed : Allowed sources past w (.call form rules files report)) :
    Sound sources start ((w, .call form rules files report) :: past)
      (Operation.after w (.call form rules files report)) := by
  obtain ⟨hfiles, hapart, hclear⟩ := hallowed
  rcases hcall : (copyFiles form rules files).run { w with report } with ⟨result, w'⟩
  have hafter : Operation.after w (.call form rules files report) = w' := by
    rw [Operation.after, hcall]
  rw [hafter]
  have hrun := hcall
  rw [run_copyFiles] at hrun
  cases hcheck : form.check with
  | error e =>
      rw [hcheck] at hrun
      cases hrun
      exact h.call_refused hcall rfl rfl rfl
  | ok identity =>
  rw [hcheck] at hrun
  simp only at hrun
  cases hcompile : Rule.compileAll identity.mapping rules with
  | error e =>
      rw [hcompile] at hrun
      cases hrun
      exact h.call_refused hcall rfl rfl rfl
  | ok compiled =>
  rw [hcompile] at hrun
  have htemps : (Operation.call form rules files report).temps w =
      tempPaths w.clock w.nextToken (files.take (w'.nextToken - w.nextToken)) := by
    rw [Operation.temps, hafter]
  rw [htemps] at hapart
  have hsources : Clear report.serial? w.disk sources :=
    clear_mono hclear fun _ => List.mem_append_left _
  obtain ⟨copies, hprogress, hcopies, hresult⟩ :=
    copyEach_progress (Rule.ready_of_compileAll hcompile) files hrun hfiles hsources hapart
  refine (h.progress hprogress hclear hapart).extend ?_ ?_ ?_
  · rw [htemps]
    intro temp htemp
    obtain ⟨token, source, rfl, -, hlt⟩ := hprogress.numbers temp htemp
    exact ⟨token, source, rfl, hlt⟩
  · rw [htemps]
    exact apart_congr hprogress.directories hapart
  · intro copy hcopy
    rw [Operation.copies, hcall] at hcopy
    have hmade : copy ∈ copies := (hresult copy hcopy).resolve_left List.not_mem_nil
    obtain ⟨token, place, location, serial, text, newSerial, hstate, htemp, hmem, -, hplace,
      hget, hwritable, hlocation, -, hcontent⟩ := hprogress.copies copy hmade
    have hsource := hcopies copy hmade
    rw [← htemps] at hmem
    refine ⟨form, rules, files, report, token, place, location, serial, encodeUtf8 text, _, rfl,
      hstate, htemp, hmem, hsource, hplace, hget, redacts_of_ready hcheck hcompile hwritable,
      (Disk.names_congr hprogress.directories).mp hplace, ?_,
      (Disk.names_congr hprogress.directories).mp hlocation, .inr ⟨newSerial, hcontent⟩⟩
    rw [hprogress.source_eq hsources hapart hsource hplace, hget]
    simp

end Keep

/-! ## §4 Sessions keep it -/

theorem sound_start (sources : List Path) (start : Workspace) : Sound sources start [] start where
  directories := .refl _
  numbers := by simp [History.temps]
  apart := by
    intro _ _ _ htemp
    simp [History.temps] at htemp
  originals := fun _ _ _ _ => .inl rfl
  copies := by simp

/-- An operation that hands out nothing adds nothing to the history but itself. -/
theorem Sound.record {sources : List Path} {start v w : Workspace} {past : History}
    {op : Operation} (h : Sound sources start past w) (hcopies : op.copies v = [])
    (htemps : op.temps v = []) : Sound sources start ((v, op) :: past) w := by
  refine h.extend ?_ ?_ ?_
  · simp [htemps]
  · intro _ _ _ htemp
    simp [htemps] at htemp
  · simp [hcopies]

theorem session_sound {sources : List Path} {start w : Workspace} {past : History}
    (h : Session sources start past w) : Sound sources start past w := by
  induction h with
  | start => exact sound_start sources start
  | @step past w op _ hallowed ih =>
      cases op with
      | call form rules files report => exact ih.call hallowed
      | put copy => exact (ih.put hallowed).record rfl rfl
      | putAll copies => exact (ih.putAll hallowed).record rfl rfl
      | discard text => exact (ih.discard hallowed).record rfl rfl

/-- Every state that a history mentions was reached. -/
theorem Session.earlier {sources : List Path} {start w : Workspace} {past : History}
    (h : Session sources start past w) {v : Workspace} {op : Operation} (hmem : (v, op) ∈ past) :
    ∃ before, Session sources start before v := by
  induction h with
  | start => simp at hmem
  | @step past w op' hsession _ ih =>
      rcases List.mem_cons.mp hmem with heq | hmem
      · cases heq
        exact ⟨past, hsession⟩
      · exact ih hmem

/-- In every state of every session each source holds what it held at the start, or the whole
redaction, by one of the calls, of what it held before that call; and each complete copy that still
exists holds the whole redaction of what its source held before the call that made it. -/
theorem session_originals_whole {sources : List Path} {start w : Workspace} {past : History}
    (h : Session sources start past w) :
    (∀ source ∈ sources, (w.disk.read source).toOption = (start.disk.read source).toOption ∨
      ∃ v form rules files report content redacted,
        (v, .call form rules files report) ∈ past ∧ v.disk.read source = .ok content ∧
        Redacts form rules content redacted ∧ w.disk.read source = .ok redacted) ∧
    ∀ v op copy, (v, op) ∈ past → copy ∈ op.copies v →
      ∃ form rules files report temp content redacted,
        op = .call form rules files report ∧ copy.temp = some temp ∧
        v.disk.read copy.source = .ok content ∧ Redacts form rules content redacted ∧
        (w.disk.Free temp ∨ w.disk.read temp = .ok redacted) := by
  have hsound := session_sound h
  have hearlier : ∀ v op, (v, op) ∈ past → Disk.SameDirectories w.disk v.disk := by
    intro v op hmem
    obtain ⟨before, hbefore⟩ := h.earlier hmem
    exact hsound.directories.symm.trans (session_sound hbefore).directories
  constructor
  · intro source hsource
    by_cases hnames : ∃ place, w.disk.Names source place
    · obtain ⟨place, hplace⟩ := hnames
      rcases hsound.originals source hsource place hplace with hsame | hwhole
      · refine .inl (Disk.toOption_read hsound.directories.symm ?_)
        intro place' hplace'
        obtain rfl := hplace'.unique hplace
        exact hsame
      · obtain ⟨v, form, rules, files, report, serial, serial', content, redacted, hmem, hget,
          hredacts, hnow⟩ := hwhole
        have hthen := (Disk.names_congr (hearlier v _ hmem)).mp hplace
        exact .inr ⟨v, form, rules, files, report, content, redacted, hmem,
          Disk.read_eq_ok_iff.mpr ⟨place, serial, hthen, hget⟩, hredacts,
          Disk.read_eq_ok_iff.mpr ⟨place, serial', hplace, hnow⟩⟩
    · refine .inl (Disk.toOption_read hsound.directories.symm ?_)
      intro place hplace
      exact absurd ⟨place, hplace⟩ hnames
  · intro v op copy hmem hcopy
    obtain ⟨form, rules, files, report, token, place, location, serial, content, redacted, hop,
      -, htemp, -, -, hthen, hget, hredacts, -, -, hlocation, hkept⟩ :=
      hsound.copies v op copy hmem hcopy
    refine ⟨form, rules, files, report, _, content, redacted, hop, htemp,
      Disk.read_eq_ok_iff.mpr ⟨place, serial, hthen, hget⟩, hredacts, ?_⟩
    rcases hkept with hgone | ⟨serial', hfile⟩
    · exact .inl ⟨location, hlocation, hgone⟩
    · exact .inr (Disk.read_eq_ok_iff.mpr ⟨location, serial', hlocation, hfile⟩)

end Session

section Sample

attribute [local instance] sampleHost

theorem session_login : ∃ past w, Session [loginLog] loginWorkspace past w ∧
    w.disk.read loginLog = .ok (encodeUtf8 "User ANON-7f3a logged in\nbye\n".toList) ∧
    ∃ form rules content redacted, Redacts form rules content redacted ∧
      w.disk.read loginLog = .ok redacted := by
  let copying : Operation := .call jdoeForm [.username "plain-username"] [loginLog] (.list [])
  let copied := copying.after loginWorkspace
  let copy : FileCopy := ⟨loginLog, some (tempPath ⟨7, 0⟩ loginLog), .completed, 2, 1, 1⟩
  have htemps : copying.temps loginWorkspace = [tempPath ⟨7, 0⟩ loginLog] := by decide +kernel
  have hcopies : copying.copies loginWorkspace = [copy] := by decide +kernel
  have hapart : Apart loginWorkspace.disk [loginLog] (copying.temps loginWorkspace) := by
    rw [htemps]
    intro source hs temp ht location hlocation hlocation'
    obtain rfl := List.mem_singleton.mp hs
    obtain rfl := List.mem_singleton.mp ht
    exact Disk.source_ne_tempPath hlocation hlocation' rfl
  have hcall : Session [loginLog] loginWorkspace [(loginWorkspace, copying)] copied :=
    .step .start ⟨fun _ h => h, hapart, nofun⟩
  have hput : Session [loginLog] loginWorkspace
      [(copied, .put copy), (loginWorkspace, copying)] ((Operation.put copy).after copied) := by
    refine .step hcall fun _ => ?_
    simp [History.copies, hcopies]
  have hread : ((Operation.put copy).after copied).disk.read loginLog =
      .ok (encodeUtf8 "User ANON-7f3a logged in\nbye\n".toList) := by decide +kernel
  refine ⟨_, _, hput, hread, ?_⟩
  rcases (session_originals_whole hput).1 loginLog (List.mem_singleton.mpr rfl) with hsame | hwhole
  · rw [hread] at hsame
    exact absurd hsame (by decide +kernel)
  · obtain ⟨v, form, rules, files, report, content, redacted, -, -, hredacts, hnow⟩ := hwhole
    exact ⟨form, rules, content, redacted, hredacts, hnow⟩

end Sample

end LogRedaction
