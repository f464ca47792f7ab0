/-
LogRedaction.Proofs.PartialPlacement — copies put in place up to the first that cannot be.

Copies are moved over their sources one after the other, whatever their records say and wherever
they come from. It is known beforehand where this ends: at the first copy that is not complete, or
that is not there, or whose source is a directory or in none that is there, or one of whose paths
has no bytes (`FileCopy.Placeable`). Up to there every source has got the last copy that was for it
and the copies are gone (`Replaced`); nothing else has changed (`putAllInPlace_stops`).

The copies have to be different files that are not sources at the same time (`Orderly`), or one
would be in the way of another. And the working directory has to be there (`Disk.Stands`): below a
file there is no directory, so no file can be moved to a place below itself.

## §1 Moving a file
## §2 Copies that can be moved
## §3 Copies that have been moved
## §4 One after the other
-/
import LogRedaction.Proofs.Placement

namespace LogRedaction

/-! ## §1 Moving a file -/

namespace Disk

/-- The working directory is there, and so are the directories above it. -/
def Stands (disk : Disk) : Prop :=
  ∀ above, above <+: disk.workingDirectory → disk.get? above = some .directory

theorem Stands.congr {a b : Disk} (h : a.Stands) (hdirectories : SameDirectories a b) :
    b.Stands := by
  intro above habove
  rw [← hdirectories.workingDirectory] at habove
  exact (hdirectories.directory above).mp (h above habove)

/-- Whoever follows a path goes from one directory to the next. -/
theorem follow_above {disk : Disk} (parts : List Text) {location base : Location}
    (hlocation : ∀ above, above <+: location → disk.get? above = some .directory)
    (h : disk.follow location parts = .ok base) :
    ∀ above, above <+: base → disk.get? above = some .directory := by
  induction parts generalizing location with
  | nil =>
      obtain rfl := Except.ok.inj h
      exact hlocation
  | cons part parts ih =>
      rw [follow] at h
      cases henter : disk.enter location part with
      | error e => simp [henter] at h
      | ok next =>
          rw [henter] at h
          refine ih (fun above habove => ?_) h
          rw [enter] at henter
          split at henter
          · obtain rfl := Except.ok.inj henter
            exact hlocation above (habove.trans (List.dropLast_prefix location))
          split at henter
          · cases henter
          split at henter
          · cases henter
          · rename_i hdirectory
            obtain rfl := Except.ok.inj henter
            rcases List.prefix_concat_iff.mp habove with rfl | habove
            · exact hdirectory
            · exact hlocation above habove
          · cases henter

/-- Above a place that a path names there are only directories. -/
theorem Names.above {disk : Disk} {path : Path} {location : Location}
    (h : disk.Names path location) (hstands : disk.Stands) {above : Location}
    (habove : above <+: location) (hne : above ≠ location) :
    disk.get? above = some .directory := by
  obtain ⟨-, last, base, -, hbase, -, -, rfl⟩ := names_iff.mp h
  have horigin : ∀ above, above <+: disk.origin path → disk.get? above = some .directory := by
    intro above habove
    rw [origin] at habove
    split at habove
    · rw [List.prefix_nil.mp habove]
      rfl
    · exact hstands above habove
  rcases List.prefix_concat_iff.mp habove with rfl | habove
  · exact absurd rfl hne
  · exact follow_above _ horigin hbase above habove

section Rename

variable {disk : Disk} {source target : Path}

/-- A file is moved over a file, or to where nothing is, in any directory that is there. -/
theorem rename_moves {old new : Location} {serial : Nat} {content : List UInt8}
    (hstands : disk.Stands) (hsource : disk.Names source old) (htarget : disk.Names target new)
    (hne : old ≠ new) (hfile : disk.get? old = some (.file serial content))
    (hspace : disk.get? new ≠ some .directory) :
    disk.rename source target = .ok (disk.moved old new serial content) := by
  have hbelow : old.isPrefixOf new = false := by
    rw [← Bool.not_eq_true, List.isPrefixOf_iff_prefix]
    intro hprefix
    simp [htarget.above hstands hprefix hne] at hfile
  have habove : new.isPrefixOf old = false := by
    rw [← Bool.not_eq_true, List.isPrefixOf_iff_prefix]
    intro hprefix
    exact hspace (hsource.above hstands hprefix hne.symm)
  exact rename_apart hsource htarget hbelow habove hfile hspace

/-- If what is moved is no directory, it is a file, and goes to where no directory is. -/
theorem file_of_rename {disk' : Disk} (h : disk.rename source target = .ok disk')
    (hsource : ∀ location, disk.Names source location → disk.get? location ≠ some .directory) :
    ∃ old new serial content, disk.Names source old ∧
      disk.get? old = some (.file serial content) ∧ disk.Names target new ∧
      disk.get? new ≠ some .directory := by
  rw [rename] at h
  split at h
  · cases h
  · cases h
  · cases h
  · cases h
  · cases h
  · rename_i old entry new found hold hnew
    obtain ⟨holdNames, hentry⟩ := names_of_locate hold
    obtain ⟨hnewNames, hfound⟩ := names_of_locate hnew
    cases entry with
    | directory => exact absurd hentry.symm (hsource old holdNames)
    | file serial content =>
        refine ⟨old, new, serial, content, holdNames, hentry.symm, hnewNames, fun hspace => ?_⟩
        rw [hspace] at hfound
        subst hfound
        simp only at h
        split at h
        · rename_i heq
          simp [heq, hspace] at hentry
        split at h
        · cases h
        split at h
        · cases h
        · cases h

end Rename

end Disk

/-! ## §2 Copies that can be moved -/

namespace FileCopy

/-- The copy is complete and is the file at one place; its source names another, where a file may be
but no directory is. -/
structure Goes (copy : FileCopy) (disk : Disk) (temp : Path) (old new : Location) (serial : Nat)
    (content : List UInt8) : Prop where
  finished : copy.finished? = some temp
  sound : temp.fault? = none ∧ copy.source.fault? = none
  names : disk.Names temp old
  file : disk.get? old = some (.file serial content)
  source : disk.Names copy.source new
  space : disk.get? new ≠ some .directory

/-- The copy can be moved over its source. -/
def Placeable (copy : FileCopy) (disk : Disk) : Prop :=
  ∃ temp old new serial content, copy.Goes disk temp old new serial content

theorem temp_of_finished {copy : FileCopy} {temp : Path} (h : copy.finished? = some temp) :
    copy.temp = some temp := by
  rw [finished?] at h
  split at h
  · exact h
  · cases h

section Goes

variable {copy : FileCopy} {a b : Disk} {temp : Path} {old new : Location} {serial : Nat}
  {content : List UInt8}

theorem Goes.temp_eq (h : copy.Goes a temp old new serial content) : copy.temp = some temp :=
  temp_of_finished h.finished

theorem Goes.sameDirectories (h : copy.Goes a temp old new serial content) :
    Disk.SameDirectories a (a.moved old new serial content) :=
  Disk.sameDirectories_moved h.names.ne_nil h.source.ne_nil (by simp [h.file]) h.space

theorem Goes.get?_moved (h : copy.Goes a temp old new serial content) (location : Location) :
    (a.moved old new serial content).get? location =
      if location = new then some (.file serial content)
      else if location = old then none else a.get? location :=
  Disk.get?_moved a h.names.ne_nil h.source.ne_nil

/-- Where the directories are the same, a copy goes the same way if it is there. -/
theorem Goes.congr (h : copy.Goes a temp old new serial content)
    (hdirectories : Disk.SameDirectories a b) (hfile : b.get? old = a.get? old) :
    copy.Goes b temp old new serial content where
  finished := h.finished
  sound := h.sound
  names := (Disk.names_congr hdirectories).mp h.names
  file := hfile.trans h.file
  source := (Disk.names_congr hdirectories).mp h.source
  space hdirectory := h.space ((hdirectories.directory new).mpr hdirectory)

end Goes

end FileCopy

/-- The copies are different files or missing, and none of them is a source. -/
structure Orderly (disk : Disk) (copies : List FileCopy) : Prop where
  stands : disk.Stands
  sources : ∀ copy ∈ copies, copy.source.hasNul = false
  temps : ∀ copy ∈ copies, ∀ temp, copy.temp = some temp → temp.hasNul = false
  files : ∀ copy ∈ copies, ∀ temp, copy.temp = some temp →
    ∀ location, disk.Names temp location → disk.get? location ≠ some .directory
  distinct : copies.Pairwise fun a b => ∀ s t, a.temp = some s → b.temp = some t →
    ∀ location, disk.Names s location → ¬disk.Names t location
  apart : ∀ a ∈ copies, ∀ b ∈ copies, ∀ temp, a.temp = some temp →
    ∀ location, disk.Names temp location → ¬disk.Names b.source location

namespace Orderly

variable {a b : Disk} {copy : FileCopy} {copies : List FileCopy}

theorem congr (h : Orderly a copies) (hdirectories : Disk.SameDirectories a b) :
    Orderly b copies := by
  have hnames : ∀ {path location}, b.Names path location → a.Names path location :=
    (Disk.names_congr hdirectories).mpr
  refine ⟨h.stands.congr hdirectories, h.sources, h.temps, ?_, ?_, ?_⟩
  · intro copy hcopy temp htemp location hlocation hdirectory
    exact h.files copy hcopy temp htemp location (hnames hlocation)
      ((hdirectories.directory location).mpr hdirectory)
  · refine h.distinct.imp fun hne s t hs ht location hlocation hsame => ?_
    exact hne s t hs ht location (hnames hlocation) (hnames hsame)
  · intro copy hcopy other hother temp htemp location hlocation hsame
    exact h.apart copy hcopy other hother temp htemp location (hnames hlocation) (hnames hsame)

theorem tail (h : Orderly a (copy :: copies)) : Orderly a copies where
  stands := h.stands
  sources other hother := h.sources other (List.mem_cons_of_mem _ hother)
  temps other hother := h.temps other (List.mem_cons_of_mem _ hother)
  files other hother := h.files other (List.mem_cons_of_mem _ hother)
  distinct := (List.pairwise_cons.mp h.distinct).2
  apart other hother more hmore :=
    h.apart other (List.mem_cons_of_mem _ hother) more (List.mem_cons_of_mem _ hmore)

end Orderly

/-! ## §3 Copies that have been moved -/

/-- The copies have replaced their sources: every source is the last copy that was for it, the
copies are gone, and nothing else has changed. -/
structure Replaced (a : Disk) (copies : List FileCopy) (b : Disk) : Prop where
  directories : Disk.SameDirectories a b
  sources : ∀ before copy after, copies = before ++ copy :: after →
    ∀ temp old new, copy.temp = some temp → a.Names temp old → a.Names copy.source new →
      (∀ later ∈ after, ¬a.Names later.source new) → b.get? new = a.get? old
  temps : ∀ copy ∈ copies, ∀ temp location, copy.temp = some temp → a.Names temp location →
    b.get? location = none
  elsewhere : ∀ location, (∀ copy ∈ copies, ¬a.Names copy.source location ∧
    ∀ temp, copy.temp = some temp → ¬a.Names temp location) → b.get? location = a.get? location

theorem Replaced.none (disk : Disk) : Replaced disk [] disk where
  directories := .refl disk
  sources before copy after h := by simp at h
  temps := by simp
  elsewhere _ _ := rfl

/-- The copies after the first leave a place alone that is none of theirs. -/
theorem Replaced.kept {a b : Disk} {copy : FileCopy} {moved : List FileCopy} {temp : Path}
    {old new : Location} {serial : Nat} {content : List UInt8}
    (hreplaced : Replaced (a.moved old new serial content) moved b)
    (hgoes : copy.Goes a temp old new serial content) {location : Location}
    (hlocation : ∀ other ∈ moved, ¬a.Names other.source location ∧
      ∀ temp, other.temp = some temp → ¬a.Names temp location) :
    b.get? location = (a.moved old new serial content).get? location := by
  have hnames : ∀ {path}, (a.moved old new serial content).Names path location →
      a.Names path location := (Disk.names_congr hgoes.sameDirectories).mpr
  refine hreplaced.elsewhere location fun other hother => ?_
  obtain ⟨hsource, htemps⟩ := hlocation other hother
  exact ⟨fun hname => hsource (hnames hname),
    fun temp' htemp hname => htemps temp' htemp (hnames hname)⟩

section Moved

variable {a b : Disk} {copy : FileCopy} {copies : List FileCopy} {temp : Path} {old new : Location}
  {serial : Nat} {content : List UInt8} (h : Orderly a (copy :: copies))
  (hgoes : copy.Goes a temp old new serial content)
include h hgoes

theorem Orderly.old_ne_new : old ≠ new := by
  rintro rfl
  exact h.apart copy (List.mem_cons_self ..) copy (List.mem_cons_self ..) temp hgoes.temp_eq old
    hgoes.names hgoes.source

/-- The place that a copy leaves, and the one that it goes to, are those of no other copy. -/
theorem Orderly.temp_ne {other : FileCopy} (hother : other ∈ copies) {temp' : Path}
    {location : Location} (htemp : other.temp = some temp') (hnames : a.Names temp' location) :
    location ≠ new ∧ location ≠ old := by
  constructor
  · rintro rfl
    exact h.apart other (List.mem_cons_of_mem _ hother) copy (List.mem_cons_self ..) temp' htemp
      location hnames hgoes.source
  · rintro rfl
    exact (List.pairwise_cons.mp h.distinct).1 other hother temp temp' hgoes.temp_eq htemp location
      hgoes.names hnames

/-- Moving a copy does not disturb the others. -/
theorem Orderly.get?_temp {other : FileCopy} (hother : other ∈ copies) {temp' : Path}
    {location : Location} (htemp : other.temp = some temp') (hnames : a.Names temp' location) :
    (a.moved old new serial content).get? location = a.get? location := by
  obtain ⟨hnew, hold⟩ := h.temp_ne hgoes hother htemp hnames
  rw [hgoes.get?_moved, if_neg hnew, if_neg hold]

theorem Orderly.placeable_moved_iff {other : FileCopy} (hother : other ∈ copies) :
    other.Placeable (a.moved old new serial content) ↔ other.Placeable a := by
  have hdirectories := hgoes.sameDirectories
  constructor
  · rintro ⟨temp', old', new', serial', content', hgoes'⟩
    have hnames := (Disk.names_congr hdirectories).mpr hgoes'.names
    exact ⟨temp', old', new', serial', content', hgoes'.congr hdirectories.symm
      (h.get?_temp hgoes hother hgoes'.temp_eq hnames).symm⟩
  · rintro ⟨temp', old', new', serial', content', hgoes'⟩
    exact ⟨temp', old', new', serial', content', hgoes'.congr hdirectories
      (h.get?_temp hgoes hother hgoes'.temp_eq hgoes'.names)⟩

section Later

variable {moved : List FileCopy} (hmoved : ∀ other ∈ moved, other ∈ copies)
  (hreplaced : Replaced (a.moved old new serial content) moved b)
include hmoved hreplaced

/-- The first copy is left in its place if no later one goes there. -/
theorem Replaced.get?_new (hlater : ∀ later ∈ moved, ¬a.Names later.source new) :
    b.get? new = a.get? old := by
  have hkept := hreplaced.kept hgoes fun later hmem => ⟨hlater later hmem,
    fun temp' htemp hname => (h.temp_ne hgoes (hmoved later hmem) htemp hname).1 rfl⟩
  rw [hkept, hgoes.get?_moved, if_pos rfl, hgoes.file]

/-- No later copy comes to where the first one was. -/
theorem Replaced.get?_old : b.get? old = Option.none := by
  have hkept := hreplaced.kept hgoes fun later hmem =>
    ⟨h.apart copy (List.mem_cons_self ..) later (List.mem_cons_of_mem _ (hmoved later hmem)) temp
        hgoes.temp_eq old hgoes.names,
      fun temp' htemp hname => (h.temp_ne hgoes (hmoved later hmem) htemp hname).2 rfl⟩
  rw [hkept, hgoes.get?_moved, if_neg (h.old_ne_new hgoes), if_pos rfl]

/-- One copy is moved, and then some that come after it. -/
theorem Replaced.cons : Replaced a (copy :: moved) b := by
  have hnames : ∀ {path location}, a.Names path location →
      (a.moved old new serial content).Names path location :=
    (Disk.names_congr hgoes.sameDirectories).mp
  refine ⟨hgoes.sameDirectories.trans hreplaced.directories, ?_, ?_, ?_⟩
  · intro before other after hlist temp' old' new' htemp hold hnew hlater
    cases before with
    | nil =>
        obtain ⟨rfl, rfl⟩ := List.cons.inj hlist
        obtain rfl := Option.some.inj (hgoes.temp_eq.symm.trans htemp)
        obtain rfl := hgoes.names.unique hold
        obtain rfl := hgoes.source.unique hnew
        exact hreplaced.get?_new h hgoes hmoved hlater
    | cons first before =>
        obtain ⟨rfl, rfl⟩ := List.cons.inj hlist
        have hput := hreplaced.sources before other after rfl temp' old' new' htemp (hnames hold)
          (hnames hnew) fun later hmem hname =>
            hlater later hmem ((Disk.names_congr hgoes.sameDirectories).mpr hname)
        exact hput.trans (h.get?_temp hgoes (hmoved other (by simp)) htemp hold)
  · intro other hother temp' location htemp hname
    rcases List.mem_cons.mp hother with rfl | hother
    · obtain rfl := Option.some.inj (hgoes.temp_eq.symm.trans htemp)
      obtain rfl := hgoes.names.unique hname
      exact hreplaced.get?_old h hgoes hmoved
    · exact hreplaced.temps other hother temp' location htemp (hnames hname)
  · intro location hlocation
    obtain ⟨⟨hsource, htemp⟩, hrest⟩ := List.forall_mem_cons.mp hlocation
    have hnew : location ≠ new := by rintro rfl; exact hsource hgoes.source
    have hold : location ≠ old := by rintro rfl; exact htemp temp hgoes.temp_eq hgoes.names
    rw [hreplaced.kept hgoes hrest, hgoes.get?_moved, if_neg hnew, if_neg hold]

end Later

end Moved

/-! ## §4 One after the other -/

/-- The error says that this copy cannot replace its source. Where both paths have bytes it is one
that is reported. -/
inductive PlacementError.Of (copy : FileCopy) : PlacementError → Prop where
  | refused : copy.finished? = none → Of copy (.refused copy.source copy.state)
  | unnamed {temp : Path} {e : Text.EncodeError} : copy.finished? = some temp →
      temp.fault?.or copy.source.fault? = some (.unencodable e) → Of copy (.path (.unencodable e))
  | disk {temp : Path} (e : DiskRefusal) : copy.finished? = some temp →
      Of copy (.disk copy.source temp ⟨e, temp.toText, some copy.source.toText⟩)

theorem putInPlace_goes {copy : FileCopy} {copies : List FileCopy} {w : Workspace} {temp : Path}
    {old new : Location} {serial : Nat} {content : List UInt8}
    (h : Orderly w.disk (copy :: copies))
    (hgoes : copy.Goes w.disk temp old new serial content) :
    ∃ log, (putInPlace copy).run w =
      (.ok copy.source, { w with disk := w.disk.moved old new serial content, log }) := by
  obtain ⟨htemp, hsource⟩ := hgoes.sound
  have hrename := Disk.rename_moves h.stands hgoes.names hgoes.source (h.old_ne_new hgoes)
    hgoes.file hgoes.space
  rw [run_putInPlace, hgoes.finished]
  simp only [htemp, hsource, Option.or_none, hrename]
  exact ⟨_, rfl⟩

/-- A copy that cannot be moved leaves everything as it is. -/
theorem putInPlace_stays {copy : FileCopy} {copies : List FileCopy} {w : Workspace}
    (h : Orderly w.disk (copy :: copies)) (hstays : ¬copy.Placeable w.disk) :
    ∃ e, (putInPlace copy).run w = (.error e, w) ∧ e.Of copy := by
  have hsource := h.sources copy (by simp)
  rw [run_putInPlace]
  cases hfinished : copy.finished? with
  | none => exact ⟨_, rfl, .refused hfinished⟩
  | some temp =>
      have htempEq := FileCopy.temp_of_finished hfinished
      simp only
      cases hfault : temp.fault?.or copy.source.fault? with
      | some fault =>
          cases fault with
          | unencodable e => exact ⟨_, rfl, .unnamed hfinished hfault⟩
          | nul =>
              rcases Option.or_eq_some_iff.mp hfault with htemp | ⟨-, hnul⟩
              · exact absurd htemp (Path.fault?_ne_nul (h.temps copy (by simp) temp htempEq))
              · exact absurd hnul (Path.fault?_ne_nul hsource)
      | none =>
          have hsound := Option.or_eq_none_iff.mp hfault
          simp only
          cases hrename : w.disk.rename temp copy.source with
          | error e => exact ⟨_, rfl, .disk e hfinished⟩
          | ok disk =>
              obtain ⟨old, new, serial, content, hold, hfile, hnew, hspace⟩ :=
                Disk.file_of_rename hrename (h.files copy (by simp) temp htempEq)
              exact absurd ⟨temp, old, new, serial, content, hfinished, hsound, hold, hfile, hnew,
                hspace⟩ hstays

/-- Copies are put in place in order, up to the first that cannot be moved. If there is one, the
error is about it, those before it have replaced their sources, and nothing else has changed. -/
theorem putAllInPlace_stops {copies : List FileCopy} {w : Workspace} (h : Orderly w.disk copies) :
    ∃ result disk log, (putAllInPlace copies).run w = (result, { w with disk, log }) ∧
      ((∀ copy ∈ copies, copy.Placeable w.disk) ∧ result = .ok (copies.map (·.source)) ∧
          Replaced w.disk copies disk ∨
        ∃ before copy after e, copies = before ++ copy :: after ∧
          (∀ earlier ∈ before, earlier.Placeable w.disk) ∧ ¬copy.Placeable w.disk ∧
          result = .error e ∧ e.Of copy ∧ Replaced w.disk before disk) := by
  induction copies generalizing w with
  | nil => exact ⟨_, w.disk, w.log, rfl, .inl ⟨by simp, rfl, .none w.disk⟩⟩
  | cons copy copies ih =>
      rw [run_putAllInPlace_cons]
      by_cases hplaceable : copy.Placeable w.disk
      · obtain ⟨temp, old, new, serial, content, hgoes⟩ := hplaceable
        obtain ⟨log, hput⟩ := putInPlace_goes h hgoes
        obtain ⟨result, disk, log', hrun, hend⟩ := ih
          (w := { w with disk := w.disk.moved old new serial content, log })
          (h.tail.congr hgoes.sameDirectories)
        simp only [hput, hrun]
        rcases hend with ⟨hall, rfl, hreplaced⟩ |
          ⟨before, other, after, e, rfl, hbefore, hstays, rfl, herror, hreplaced⟩
        · refine ⟨_, disk, log', rfl, .inl ⟨?_, rfl, .cons h hgoes (fun _ hmem => hmem) hreplaced⟩⟩
          refine List.forall_mem_cons.mpr ⟨⟨temp, old, new, serial, content, hgoes⟩, ?_⟩
          exact fun later hlater => (h.placeable_moved_iff hgoes hlater).mp (hall later hlater)
        · have hmem : ∀ earlier ∈ before, earlier ∈ before ++ other :: after :=
            fun _ hearlier => List.mem_append_left _ hearlier
          refine ⟨_, disk, log', rfl, .inr ⟨copy :: before, other, after, e, rfl, ?_, ?_, rfl,
            herror, .cons h hgoes hmem hreplaced⟩⟩
          · refine List.forall_mem_cons.mpr ⟨⟨temp, old, new, serial, content, hgoes⟩, ?_⟩
            exact fun earlier hearlier =>
              (h.placeable_moved_iff hgoes (hmem earlier hearlier)).mp (hbefore earlier hearlier)
          · rwa [h.placeable_moved_iff hgoes (by simp)] at hstays
      · obtain ⟨e, hput, herror⟩ := putInPlace_stays h hplaceable
        rw [hput]
        exact ⟨_, w.disk, w.log, rfl, .inr ⟨[], copy, copies, e, rfl, by simp, hplaceable, rfl,
          herror, .none w.disk⟩⟩

/-- Two copies of one file. -/
def twoCopies : List FileCopy :=
  [⟨⟨"/", ["a"]⟩, some ⟨"/", ["s"]⟩, .completed, 1, 0, 0⟩,
    ⟨⟨"/", ["a"]⟩, some ⟨"/", ["t"]⟩, .completed, 1, 0, 0⟩]

/-- A copy of a file in a directory that is missing. -/
def strayCopy : FileCopy := ⟨⟨"/", ["b", "c"]⟩, some ⟨"/", ["u"]⟩, .completed, 1, 0, 0⟩

/-- A directory with the copies and one of their sources. -/
def strayDisk : Disk where
  entries := [(["a"], .file 0 [97]), (["s"], .file 1 [115]), (["t"], .file 2 [116]),
    (["u"], .file 3 [117])]
  nextSerial := 4
  workingDirectory := []

theorem orderly_stray : Orderly strayDisk (twoCopies ++ [strayCopy]) where
  stands above habove := by
    rw [List.prefix_nil.mp habove]
    rfl
  sources := by decide +kernel
  temps := by decide +kernel
  files copy hcopy temp htemp location hnames := by
    simp only [twoCopies, List.cons_append, List.nil_append, List.mem_cons, List.not_mem_nil,
      or_false] at hcopy
    rcases hcopy with rfl | rfl | rfl
    · obtain rfl := Option.some.inj htemp
      obtain rfl : location = ["s"] := hnames.unique rfl
      decide +kernel
    · obtain rfl := Option.some.inj htemp
      obtain rfl : location = ["t"] := hnames.unique rfl
      decide +kernel
    · obtain rfl := Option.some.inj htemp
      obtain rfl : location = ["u"] := hnames.unique rfl
      decide +kernel
  distinct := by
    have hname : (twoCopies ++ [strayCopy]).Pairwise fun a b =>
        ∀ s ∈ a.temp, ∀ t ∈ b.temp, s.name ≠ t.name := by
      decide +kernel
    refine hname.imp fun hne s t hs ht location hnames hsame => hne s hs t ht ?_
    exact Option.some.inj ((Disk.getLast?_of_names hnames).symm.trans
      (Disk.getLast?_of_names hsame))
  apart a ha b hb temp htemp location hnames hsame := by
    have hname : ∀ a ∈ twoCopies ++ [strayCopy], ∀ b ∈ twoCopies ++ [strayCopy],
        ∀ temp ∈ a.temp, temp.name ≠ b.source.name := by
      decide +kernel
    refine hname a ha b hb temp htemp (Option.some.inj ?_)
    exact (Disk.getLast?_of_names hnames).symm.trans (Disk.getLast?_of_names hsame)

theorem placeable_two : ∀ copy ∈ twoCopies, copy.Placeable strayDisk := by
  intro copy hcopy
  rcases List.mem_pair.mp hcopy with rfl | rfl
  · exact ⟨⟨"/", ["s"]⟩, ["s"], ["a"], 1, [115], rfl, by decide +kernel, rfl, rfl, rfl,
      by decide +kernel⟩
  · exact ⟨⟨"/", ["t"]⟩, ["t"], ["a"], 2, [116], rfl, by decide +kernel, rfl, rfl, rfl,
      by decide +kernel⟩

theorem not_placeable_stray : ¬strayCopy.Placeable strayDisk := by
  rintro ⟨_, _, new, _, _, hgoes⟩
  have hmissing : strayDisk.locate strayCopy.source = .error .notFound := rfl
  have hnames := hgoes.source
  rw [Disk.Names, hmissing] at hnames
  cases hnames

/-- The second copy is the one that stays, and the stray one is where it was. -/
theorem putAllInPlace_stops_stray : ∃ e disk log,
    (putAllInPlace (twoCopies ++ [strayCopy])).run { loginWorkspace with disk := strayDisk } =
      (.error e, { loginWorkspace with disk, log }) ∧ e.Of strayCopy ∧
    disk.get? ["a"] = some (.file 2 [116]) ∧ disk.get? ["s"] = none ∧ disk.get? ["t"] = none ∧
    disk.get? ["u"] = some (.file 3 [117]) := by
  obtain ⟨result, disk, log, hrun, hend⟩ := @putAllInPlace_stops (twoCopies ++ [strayCopy])
    { loginWorkspace with disk := strayDisk } orderly_stray
  rcases hend with ⟨hall, -, -⟩ | ⟨before, copy, after, e, hlist, hbefore, hstays, rfl, herror,
    hreplaced⟩
  · exact absurd (hall strayCopy (by simp)) not_placeable_stray
  obtain ⟨rfl, rfl⟩ : before = twoCopies ∧ copy = strayCopy := by
    rcases List.append_eq_append_iff.mp hlist with ⟨more, hbefore, hrest⟩ | ⟨more, htwo, hrest⟩
    · cases more with
      | nil => exact ⟨by simpa using hbefore, (List.cons.inj hrest).1.symm⟩
      | cons other more => simp at hrest
    · cases more with
      | nil => exact ⟨by simpa using htwo.symm, (List.cons.inj hrest).1⟩
      | cons other more =>
          obtain ⟨rfl, -⟩ := List.cons.inj hrest
          exact absurd (placeable_two copy (by simp [htwo])) hstays
  refine ⟨e, disk, log, hrun, herror, ?_, ?_, ?_, ?_⟩
  · exact hreplaced.sources [_] _ [] rfl ⟨"/", ["t"]⟩ ["t"] ["a"] rfl rfl rfl (by simp)
  · exact hreplaced.temps _ (List.mem_cons_self ..) ⟨"/", ["s"]⟩ ["s"] rfl rfl
  · exact hreplaced.temps _ (List.mem_cons_of_mem _ (List.mem_cons_self ..)) ⟨"/", ["t"]⟩ ["t"] rfl
      rfl
  · refine hreplaced.elsewhere ["u"] fun copy hcopy => ?_
    have hname : copy.source.name ≠ "u" ∧ ∀ temp ∈ copy.temp, temp.name ≠ "u" := by
      revert copy
      decide +kernel
    exact ⟨fun hnames => hname.1 (Option.some.inj (Disk.getLast?_of_names hnames).symm),
      fun temp htemp hnames => hname.2 temp htemp
        (Option.some.inj (Disk.getLast?_of_names hnames).symm)⟩

end LogRedaction
