/-
LogRedaction.Proofs.Addition — copying files only ever adds temporary copies.

With a report in memory the disk changes in one way: a new file is made, beside a file that could be
opened, where nothing was. `Additions` says that this is all that has happened from one disk to
another, and lists the files that have been made. Nothing is asked of the files: they may be listed
twice, be missing or no text, or be temporary copies themselves, and the run may end at any of them.

A file that has been copied adds one (`copyFile_adds`), and additions add up (`Additions.trans`), so
the run lists what the files have added that it came to. How it ended says which these are:
`addedSources?`.

## §1 Additions
## §2 One file
## §3 All files
-/
import LogRedaction.Proofs.Progress

namespace LogRedaction

open Text

/-! ## §1 Additions -/

/-- A temporary copy: of which file it is, with which token, and where it is. -/
structure Addition where
  source : Path
  token : Token
  location : Location

/-- The copy is a new file. It is in the directory of its source, which could be opened, and has the
name of copies of the source. -/
structure Addition.Made (before after : Disk) (a : Addition) : Prop where
  openable : a.source.fault? = none ∧ ∃ content, after.read a.source = .ok content
  beside : ∃ base, before.Names a.source (base ++ [a.source.name]) ∧
    a.location = base ++ [tempName a.token a.source.name]
  names : before.Names (tempPath a.token a.source) a.location
  new : before.get? a.location = none
  file : ∃ serial content, after.get? a.location = some (.file serial content)

/-- From one disk to the other these copies have been made, and nothing else has happened. -/
structure Additions (before after : Disk) (copies : List Addition) : Prop where
  kept : ∀ location entry, before.get? location = some entry → after.get? location = some entry
  added : ∀ location entry, before.get? location = none → after.get? location = some entry →
    ∃ a ∈ copies, a.location = location
  made : ∀ a ∈ copies, a.Made before after
  distinct : copies.Pairwise fun a b => a.location ≠ b.location
  directories : Disk.SameDirectories before after

theorem Additions.none (disk : Disk) : Additions disk disk [] where
  kept := fun _ _ h => h
  added := fun location entry hnone hsome => by rw [hnone] at hsome; cases hsome
  made := by simp
  distinct := .nil
  directories := .refl _

/-- What is readable stays readable when copies are added. -/
theorem Additions.read {a b : Disk} {made : List Addition} (h : Additions a b made) {path : Path}
    {content : List UInt8} (hread : a.read path = .ok content) : b.read path = .ok content := by
  obtain ⟨location, serial, hnames, hget⟩ := Disk.read_eq_ok_iff.mp hread
  exact Disk.read_eq_ok_iff.mpr
    ⟨location, serial, (Disk.names_congr h.directories).mp hnames, h.kept _ _ hget⟩

/-- Where nothing is now, nothing was before. -/
theorem Additions.none_of_none {a b : Disk} {made : List Addition} (h : Additions a b made)
    {location : Location} (hnone : b.get? location = .none) : a.get? location = .none := by
  cases hget : a.get? location with
  | none => rfl
  | some entry =>
      rw [h.kept location entry hget] at hnone
      cases hnone

/-- A temporary copy is made. -/
theorem Additions.one {disk created : Disk} {source : Path} {token : Token}
    {content bytes : List UInt8} (hsound : source.fault? = .none)
    (hread : disk.read source = .ok content)
    (hcreate : disk.create (tempPath token source) bytes = .ok created) :
    ∃ location, Additions disk created [⟨source, token, location⟩] := by
  have hsame := Disk.sameDirectories_create hcreate
  have hopened := Disk.read_create hcreate hread
  have hkept := fun other entry => @Disk.get?_create _ _ _ _ hcreate other entry
  obtain ⟨location, hnames, hnone, rfl⟩ := Disk.create_eq_ok_iff.mp hcreate
  obtain ⟨place, serial, hplace, -⟩ := Disk.read_eq_ok_iff.mp hread
  have hput : ∀ other, (disk.putNew location bytes).get? other =
      if other = location then some (.file disk.nextSerial bytes) else disk.get? other :=
    fun other => Disk.get?_putNew disk bytes hnames.ne_nil
  obtain ⟨base, rfl, rfl⟩ := Disk.names_sibling hplace hnames
  refine ⟨base ++ [tempName token source.name], hkept, ?_, ?_, List.pairwise_singleton .., hsame⟩
  · intro other entry hother hentry
    refine ⟨_, List.mem_singleton.mpr rfl, ?_⟩
    by_contra hne
    rw [hput, if_neg (Ne.symm hne), hother] at hentry
    cases hentry
  · intro a ha
    obtain rfl := List.mem_singleton.mp ha
    have hnew : (disk.putNew (base ++ [tempName token source.name]) bytes).get?
        (base ++ [tempName token source.name]) = some (.file disk.nextSerial bytes) := by
      rw [hput, if_pos rfl]
    exact ⟨⟨hsound, content, hopened⟩, ⟨base, hplace, rfl⟩, hnames, hnone, _, _, hnew⟩

/-- Copies of later files are added to those of earlier ones. -/
theorem Additions.trans {a b c : Disk} {made more : List Addition} (h : Additions a b made)
    (h' : Additions b c more) : Additions a c (made ++ more) where
  kept := fun location entry hget => h'.kept location entry (h.kept location entry hget)
  added := by
    intro location entry hnone hsome
    cases hget : b.get? location with
    | none =>
        obtain ⟨x, hx, hlocation⟩ := h'.added location entry hget hsome
        exact ⟨x, List.mem_append_right _ hx, hlocation⟩
    | some between =>
        obtain ⟨x, hx, hlocation⟩ := h.added location between hnone hget
        exact ⟨x, List.mem_append_left _ hx, hlocation⟩
  made := by
    intro x hx
    rcases List.mem_append.mp hx with hx | hx
    · obtain ⟨⟨hsound, content, hread⟩, hbeside, hnames, hnew, serial, bytes, hfile⟩ := h.made x hx
      exact ⟨⟨hsound, content, h'.read hread⟩, hbeside, hnames, hnew, serial, bytes,
        h'.kept _ _ hfile⟩
    · obtain ⟨hopened, ⟨base, hplace, hbeside⟩, hnames, hnew, hfile⟩ := h'.made x hx
      exact ⟨hopened, ⟨base, (Disk.names_congr h.directories).mpr hplace, hbeside⟩,
        (Disk.names_congr h.directories).mpr hnames, h.none_of_none hnew, hfile⟩
  distinct := by
    refine List.pairwise_append.mpr ⟨h.distinct, h'.distinct, fun x hx y hy heq => ?_⟩
    -- The earlier copy is there when the later one is made, where nothing may be.
    obtain ⟨serial, content, hfile⟩ := (h.made x hx).file
    rw [heq, (h'.made y hy).new] at hfile
    cases hfile
  directories := h.directories.trans h'.directories

/-! ## §2 One file -/

/-- The copying has failed when the temporary copy had been made. -/
def FileFailure.leavesCopy (e : FileFailure) : Bool :=
  match e.temp, e.cause with
  | none, _ => false
  | some _, .disk _ => false
  | some _, _ => true

/-- The files that a copy has been made of when the copying of a file has ended. -/
def fileAdditions (source : Path) : Except FileError FileCopy → List Path
  | .ok _ => [source]
  | .error (.failure e) => if e.leavesCopy then [source] else []
  | .error _ => []

theorem fileAdditions_isPrefix (source : Path) (result : Except FileError FileCopy)
    (rest : List Path) : fileAdditions source result <+: source :: rest := by
  cases result with
  | ok copy => exact ⟨rest, rfl⟩
  | error e =>
      cases e with
      | failure e =>
          rw [fileAdditions]
          split
          · exact ⟨rest, rfl⟩
          · exact List.nil_prefix
      | line e => exact List.nil_prefix
      | nulInPath => exact List.nil_prefix
      | report fault => exact List.nil_prefix

theorem Disk.Written.eq_of_none {a b : Disk} (h : Written none a b) : b = a := by
  rcases h with rfl | ⟨_, _, hnone, -⟩
  · rfl
  · cases hnone

section Adding

variable [Host]

theorem copyFile_adds {job : Job} (hjob : job.Ready) {source : Path} {w w' : Workspace}
    {result : Except FileError FileCopy} (hmemory : w.report.serial? = none)
    (hrun : (copyFile job source).run w = (result, w')) :
    ∃ made, Additions w.disk w'.disk made ∧ made.map (·.source) = fileAdditions source result ∧
      w'.report.serial? = none ∧ (∀ copy, result = .ok copy → copy.source = source) ∧
      ∀ e, result = .error (.failure e) → e.source = source := by
  have hcourse := copyFile_course hjob source w
  rw [hrun] at hcourse
  cases hcourse with
  | unannounced => exact ⟨[], .none _, rfl, hmemory, by simp, by simp⟩
  | unopened hunopened halike =>
      have hserial := halike.serial?.trans hmemory
      cases hunopened with
      | nul => exact ⟨[], .none _, rfl, hserial, by simp, by simp⟩
      | unnamed => exact ⟨[], .none _, rfl, hserial, by simp, by simp⟩
      | unread => exact ⟨[], .none _, rfl, hserial, by simp, by simp⟩
  | unmade _ _ _ halike =>
      exact ⟨[], .none _, rfl, halike.serial?.trans hmemory, by simp, by simp⟩
  | @unfinished _ _ _ stop cause _ _ _ hsound hread _ hbreak hcreate _ halike =>
      obtain ⟨location, hadds⟩ := Additions.one hsound hread hcreate
      refine ⟨_, hadds, ?_, halike.serial?.trans hmemory, by simp, by simp⟩
      have hcause := breakOf_ne_disk hbreak
      cases cause with
      | disk e => exact absurd rfl (hcause e)
      | undecodable e => rfl
      | unencodable e => rfl
  | completed hsound hread _ hcreate _ halike hwritten =>
      rw [hmemory] at hwritten
      obtain rfl := hwritten.eq_of_none
      obtain ⟨location, hadds⟩ := Additions.one hsound hread hcreate
      refine ⟨_, hadds, rfl, halike.serial?.trans hmemory, ?_, by simp⟩
      rintro copy ⟨⟩
      rfl

/-! ## §3 All files -/

/-- The files that copies have been made of, if the result of a run tells them: those of the
complete copies, and the one at which it ended if that had been opened and its copy made. -/
def addedSources? : Except RunError (List FileCopy) → Option (List Path)
  | .ok copies => some (copies.map (·.source))
  | .error (.file e completed) =>
    some (completed.map (·.source) ++ if e.leavesCopy then [e.source] else [])
  | .error _ => none

theorem copyEach_adds {job : Job} (hjob : job.Ready) :
    ∀ (files : List Path) {completed : List FileCopy} {w w' : Workspace}
      {result : Except RunError (List FileCopy)}, w.report.serial? = none →
      (copyEach job completed files).run w = (result, w') →
      ∃ made, Additions w.disk w'.disk made ∧ made.map (·.source) <+: files ∧
        ∀ sources, addedSources? result = some sources →
          completed.map (·.source) ++ made.map (·.source) = sources
  | [], completed, w, w', result, _, hrun => by
      obtain ⟨rfl, rfl⟩ : .ok completed = result ∧ w = w' := Prod.mk.injEq .. ▸ hrun
      exact ⟨[], .none _, List.nil_prefix, by simp [addedSources?]⟩
  | source :: rest, completed, w, w', result, hmemory, hrun => by
      rcases hfirst : (copyFile job source).run w with ⟨e | copy, w₁⟩
      · obtain ⟨made, hadds, hsources, -, -, hfailed⟩ := copyFile_adds hjob hmemory hfirst
        rw [run_copyEach_cons, hfirst] at hrun
        obtain ⟨rfl, rfl⟩ : .error (RunError.ofFile completed e) = result ∧ w₁ = w' :=
          Prod.mk.injEq .. ▸ hrun
        refine ⟨made, hadds, hsources ▸ fileAdditions_isPrefix source _ rest, ?_⟩
        intro sources hadded
        rw [hsources]
        cases e with
        | failure e =>
            rw [← hfailed e rfl]
            exact Option.some.inj hadded
        | line e => cases hadded
        | nulInPath => cases hadded
        | report fault => cases hadded
      · obtain ⟨made, hadds, hsources, hmemory', hcopy, -⟩ := copyFile_adds hjob hmemory hfirst
        rw [run_copyEach_cons, hfirst] at hrun
        obtain ⟨more, hmore, hfirst', hadded⟩ := copyEach_adds hjob rest hmemory' hrun
        refine ⟨made ++ more, hadds.trans hmore, ?_, ?_⟩
        · rw [List.map_append, hsources]
          exact (List.prefix_cons_inj source).mpr hfirst'
        · rw [List.map_append, hsources, ← List.append_assoc]
          rw [List.map_append, List.map_singleton, hcopy copy rfl] at hadded
          exact hadded

/-- Copying files with a report in memory adds temporary copies of listed files, and does nothing
else to the disk, however it ends. If the identity or a rule is rejected it does nothing at all. -/
theorem copyFiles_only_adds {form : IdentityForm} {rules : List Rule} {files : List Path}
    {w w' : Workspace} {records : List Record} {result : Except RunError (List FileCopy)}
    (hreport : w.report = .list records)
    (hrun : (copyFiles form rules files).run w = (result, w')) :
    (∃ made, Additions w.disk w'.disk made ∧ made.map (·.source) <+: files ∧
      ∀ sources, addedSources? result = some sources → made.map (·.source) = sources) ∧
    (∀ e, form.check = .error e → result = .error (.identity e) ∧ w'.disk = w.disk ∧
      w'.report = .list records) ∧
    ∀ identity, form.check = .ok identity → ∀ rule ∈ rules, ∀ e,
      rule.compile identity.mapping = .error e → (∃ e', result = .error (.rule e')) ∧
        w'.disk = w.disk ∧ w'.report = .list records := by
  rw [run_copyFiles] at hrun
  cases hcheck : form.check with
  | error e =>
      rw [hcheck] at hrun
      cases hrun
      refine ⟨⟨[], .none _, List.nil_prefix, by simp [addedSources?]⟩, ?_, by simp⟩
      rintro _ ⟨⟩
      exact ⟨rfl, rfl, hreport⟩
  | ok identity =>
      rw [hcheck] at hrun
      simp only at hrun
      refine ⟨?_, by simp, ?_⟩
      · cases hcompile : Rule.compileAll identity.mapping rules with
        | error e =>
            rw [hcompile] at hrun
            cases hrun
            exact ⟨[], .none _, List.nil_prefix, by simp [addedSources?]⟩
        | ok compiled =>
            rw [hcompile] at hrun
            obtain ⟨made, hmade⟩ := @copyEach_adds _ ⟨compiled, identity.mapping, identity.pseudonym⟩
              (Rule.ready_of_compileAll hcompile) files [] { w with log := _ } w' result
              (by rw [hreport]; rfl) hrun
            exact ⟨made, hmade⟩
      · rintro _ ⟨⟩ rule hrule e he
        obtain ⟨e', he'⟩ := Rule.compileAll_error hrule he
        rw [he'] at hrun
        cases hrun
        exact ⟨⟨e', rfl⟩, rfl, hreport⟩

end Adding

section Sample

attribute [local instance] sampleHost

/-- The log is copied, and so is its copy; then a file is missing. -/
theorem copyFiles_only_adds_login : ∃ made,
    Additions loginWorkspace.disk ((copyFiles jdoeForm [.username "name"]
      [loginLog, tempPath ⟨7, 0⟩ loginLog, ⟨"", ["b.log"]⟩]).run loginWorkspace).2.disk made ∧
    made.map (·.source) = [loginLog, tempPath ⟨7, 0⟩ loginLog] := by
  obtain ⟨⟨made, hadds, -, hsources⟩, -⟩ :=
    @copyFiles_only_adds _ jdoeForm [.username "name"]
      [loginLog, tempPath ⟨7, 0⟩ loginLog, ⟨"", ["b.log"]⟩] loginWorkspace _ [] _ rfl rfl
  exact ⟨made, hadds, hsources _ (by decide +kernel)⟩

end Sample

end LogRedaction
