/-
LogRedaction.Proofs.Disk.Operations — the operations on files, by the locations of their paths.

A path that ends in a name *names* a location: `Disk.Names`. Which location it is depends on the
directories only (`names_congr`), so it stays the same while files come and go. Each operation is
described once by the location its path names: `read_eq_ok_iff`, `create_eq_ok_iff`,
`unlink_eq_ok_iff`, and for moving a file `rename_apart` and `rename_missing`.

A path and a sibling of it name locations in one directory (`names_sibling`). That is why a copy
made beside a file can always be moved over it.
-/
import LogRedaction.Proofs.Disk.Table

namespace LogRedaction

namespace Path

/-! ## Siblings -/

@[simp] theorem name_sibling (path : Path) (name : Text) : (path.sibling name).name = name := by
  simp [Path.name, sibling]

@[simp] theorem parent_sibling (path : Path) (name : Text) :
    (path.sibling name).parent = path.parent := by
  simp [parent, sibling]

/-- A sibling is told by the directory and by its name. -/
theorem sibling_eq_iff {p q : Path} {a b : Text} :
    p.sibling a = q.sibling b ↔ p.parent = q.parent ∧ a = b := by
  constructor
  · intro h
    exact ⟨by simpa using congrArg parent h, by simpa using congrArg Path.name h⟩
  · rintro ⟨hparent, rfl⟩
    have hsibling : ∀ path : Path, path.sibling a =
        { path.parent with parts := path.parent.parts ++ [a] } := fun _ => rfl
    rw [hsibling, hsibling, hparent]

end Path

namespace Disk

/-! ## Where a path leads -/

/-- The path ends in a name, which stands for this location. -/
def Names (disk : Disk) (path : Path) (location : Location) : Prop :=
  disk.locate path = .ok (.entry location (disk.get? location))

theorem names_iff {disk : Disk} {path : Path} {location : Location} :
    disk.Names path location ↔
      path.toText.nameSize ≤ maxPathSize ∧ ∃ last base, path.parts.getLast? = some last ∧
        disk.follow (disk.origin path) path.parts.dropLast = .ok base ∧ last ≠ ".." ∧
        last.nameSize ≤ maxNameSize ∧ location = base ++ [last] := by
  rw [Names, locate]
  constructor
  · intro h
    split at h
    · cases h
    rename_i hsize
    refine ⟨by omega, ?_⟩
    split at h
    · cases h
    rename_i last hlast
    split at h
    · cases h
    rename_i base hbase
    split at h
    · cases h
    rename_i hdots
    split at h
    · cases h
    rename_i hname
    injection h with h
    injection h with hlocation hfound
    exact ⟨last, base, hlast, hbase, hdots, by omega, hlocation.symm⟩
  · rintro ⟨hsize, last, base, hlast, hbase, hdots, hname, rfl⟩
    rw [if_neg (by omega), hlast]
    simp only [hbase]
    rw [if_neg hdots, if_neg (by omega)]

theorem names_of_locate {disk : Disk} {path : Path} {location : Location} {found : Option Entry}
    (h : disk.locate path = .ok (.entry location found)) :
    disk.Names path location ∧ found = disk.get? location := by
  have hfound : found = disk.get? location := by
    rw [locate] at h
    split at h
    · cases h
    split at h
    · cases h
    split at h
    · cases h
    split at h
    · cases h
    split at h
    · cases h
    injection h with h
    injection h with hlocation hfound
    rw [← hlocation, hfound]
  subst hfound
  exact ⟨h, rfl⟩

theorem Names.unique {disk : Disk} {path : Path} {a b : Location} (ha : disk.Names path a)
    (hb : disk.Names path b) : a = b := by
  rw [Names, ha] at hb
  injection hb with hb
  injection hb

theorem Names.ne_nil {disk : Disk} {path : Path} {location : Location}
    (h : disk.Names path location) : location ≠ [] := by
  obtain ⟨-, last, base, -, -, -, -, rfl⟩ := names_iff.mp h
  simp

/-- A name that a path stands for is the last part of where it leads. -/
theorem getLast?_of_names {disk : Disk} {path : Path} {location : Location}
    (h : disk.Names path location) : location.getLast? = some path.name := by
  obtain ⟨-, last, base, hlast, -, -, -, rfl⟩ := names_iff.mp h
  rw [List.getLast?_concat, Path.name, hlast, Option.getD_some]

theorem follow_congr {a b : Disk} (h : SameDirectories a b) :
    ∀ (parts : List Text) (location base : Location),
      a.follow location parts = .ok base → b.follow location parts = .ok base
  | [], _, _, hfollow => hfollow
  | part :: rest, location, base, hfollow => by
      rw [follow] at hfollow ⊢
      cases henter : a.enter location part with
      | error e => rw [henter] at hfollow; cases hfollow
      | ok next =>
      have hsame : b.enter location part = .ok next := by
        rw [enter] at henter ⊢
        split at henter
        · rename_i hdots
          rw [if_pos hdots]
          exact henter
        rename_i hdots
        rw [if_neg hdots]
        split at henter
        · cases henter
        rename_i hname
        rw [if_neg hname]
        split at henter
        · cases henter
        · rename_i hdirectory
          rw [(h.directory _).mp hdirectory]
          exact henter
        · cases henter
      rw [henter] at hfollow
      rw [hsame]
      exact follow_congr h rest next base hfollow

theorem names_congr {a b : Disk} (h : SameDirectories a b) {path : Path} {location : Location} :
    a.Names path location ↔ b.Names path location := by
  have horigin : a.origin path = b.origin path := by rw [origin, origin, h.workingDirectory]
  rw [names_iff, names_iff, horigin]
  constructor
  · rintro ⟨hsize, last, base, hlast, hbase, hrest⟩
    exact ⟨hsize, last, base, hlast, follow_congr h _ _ _ hbase, hrest⟩
  · rintro ⟨hsize, last, base, hlast, hbase, hrest⟩
    exact ⟨hsize, last, base, hlast, follow_congr h.symm _ _ _ hbase, hrest⟩

/-- Siblings that name anything name locations in one directory. -/
theorem names_sibling {disk : Disk} {path : Path} {name : Text} {a b : Location}
    (ha : disk.Names path a) (hb : disk.Names (path.sibling name) b) :
    ∃ base, a = base ++ [path.name] ∧ b = base ++ [name] := by
  obtain ⟨-, last, base, hlast, hbase, -, -, rfl⟩ := names_iff.mp ha
  obtain ⟨-, last', base', hlast', hbase', -, -, rfl⟩ := names_iff.mp hb
  have hname : last' = name := by simpa [Path.sibling, eq_comm] using hlast'
  have hsame : base' = base := by
    have horigin : disk.origin (path.sibling name) = disk.origin path := rfl
    rw [horigin] at hbase'
    simp only [Path.sibling, List.dropLast_concat] at hbase'
    rw [hbase] at hbase'
    exact (Except.ok.inj hbase').symm
  refine ⟨base, ?_, by rw [hname, hsame]⟩
  rw [Path.name, hlast]
  rfl

/-- A sibling of a path that names something has a place too, unless it is too long. -/
theorem names_sibling_or {disk : Disk} {path : Path} {name : Text} {location : Location}
    (h : disk.Names path location) (hdots : name ≠ "..") :
    (∃ place, disk.Names (path.sibling name) place) ∨
      (maxPathSize < (path.sibling name).toText.nameSize ∨
        maxNameSize < name.nameSize) ∧
        disk.locate (path.sibling name) = .error .nameTooLong := by
  obtain ⟨-, last, base, -, hbase, -, -, rfl⟩ := names_iff.mp h
  have hlast : (path.sibling name).parts.getLast? = some name := by simp [Path.sibling]
  have hfollow : disk.follow (disk.origin (path.sibling name))
      (path.sibling name).parts.dropLast = .ok base := by
    rw [Path.sibling, List.dropLast_concat]
    exact hbase
  by_cases hpath : maxPathSize < (path.sibling name).toText.nameSize
  · refine .inr ⟨.inl hpath, ?_⟩
    rw [locate, if_pos hpath]
  by_cases hsize : maxNameSize < name.nameSize
  · refine .inr ⟨.inr hsize, ?_⟩
    rw [locate, if_neg hpath, hlast]
    simp only [hfollow]
    rw [if_neg hdots, if_pos hsize]
  · exact .inl ⟨base ++ [name], names_iff.mpr
      ⟨by omega, name, base, hlast, hfollow, hdots, by omega, rfl⟩⟩

/-! ## Operations -/

theorem read_eq_ok_iff {disk : Disk} {path : Path} {content : List UInt8} :
    disk.read path = .ok content ↔
      ∃ location serial, disk.Names path location ∧
        disk.get? location = some (.file serial content) := by
  rw [read]
  constructor
  · intro h
    split at h
    · cases h
    · cases h
    · cases h
    · cases h
    · rename_i location serial content' hlocate
      obtain ⟨hnames, hfound⟩ := names_of_locate hlocate
      exact ⟨location, serial, hnames, by rw [← hfound, Except.ok.inj h]⟩
  · rintro ⟨location, serial, hnames, hget⟩
    rw [Names, hget] at hnames
    rw [hnames]

/-- A path reads the same on disks that have the same at its place. -/
theorem toOption_read {a b : Disk} (h : SameDirectories a b) {path : Path}
    (hsame : ∀ location, a.Names path location → a.get? location = b.get? location) :
    (a.read path).toOption = (b.read path).toOption := by
  have hok : ∀ content, a.read path = .ok content ↔ b.read path = .ok content := by
    intro content
    rw [read_eq_ok_iff, read_eq_ok_iff]
    constructor
    · rintro ⟨location, serial, hnames, hget⟩
      exact ⟨location, serial, (names_congr h).mp hnames, hsame location hnames ▸ hget⟩
    · rintro ⟨location, serial, hnames, hget⟩
      have hnames := (names_congr h).mpr hnames
      exact ⟨location, serial, hnames, (hsame location hnames).symm ▸ hget⟩
  cases ha : a.read path with
  | ok content => rw [(hok content).mp ha]
  | error e =>
      cases hb : b.read path with
      | ok content =>
          rw [(hok content).mpr hb] at ha
          cases ha
      | error e' => rfl

/-- The path names a location where nothing is. -/
def Free (disk : Disk) (path : Path) : Prop :=
  ∃ location, disk.Names path location ∧ disk.get? location = none

theorem create_eq_ok_iff {disk disk' : Disk} {path : Path} {content : List UInt8} :
    disk.create path content = .ok disk' ↔
      ∃ location, disk.Names path location ∧ disk.get? location = none ∧
        disk' = disk.putNew location content := by
  rw [create]
  constructor
  · intro h
    split at h
    · cases h
    · cases h
    · cases h
    · rename_i location hlocate
      obtain ⟨hnames, hfound⟩ := names_of_locate hlocate
      exact ⟨location, hnames, hfound.symm, (Except.ok.inj h).symm⟩
  · rintro ⟨location, hnames, hget, rfl⟩
    rw [Names, hget] at hnames
    rw [hnames]

theorem free_iff_create {disk : Disk} {path : Path} (content : List UInt8) :
    disk.Free path ↔ ∃ disk', disk.create path content = .ok disk' := by
  constructor
  · rintro ⟨location, hnames, hget⟩
    exact ⟨_, create_eq_ok_iff.mpr ⟨location, hnames, hget, rfl⟩⟩
  · rintro ⟨disk', h⟩
    obtain ⟨location, hnames, hget, -⟩ := create_eq_ok_iff.mp h
    exact ⟨location, hnames, hget⟩

/-- Whether a file can be made does not depend on its content. -/
theorem create_error_congr {disk : Disk} {path : Path} {content other : List UInt8} {e : DiskRefusal}
    (h : disk.create path content = .error e) : disk.create path other = .error e := by
  rw [create] at h ⊢
  split at h <;> simp_all

/-- A file that cannot be made, but has a place to be, is there already. -/
theorem create_eq_error {disk : Disk} {path : Path} {content : List UInt8} {e : DiskRefusal}
    (h : disk.create path content = .error e) :
    ¬disk.Free path ∧ ∀ location, disk.Names path location → e = .exists := by
  refine ⟨fun hfree => ?_, fun location hnames => ?_⟩
  · obtain ⟨disk', hcreate⟩ := (free_iff_create content).mp hfree
    rw [hcreate] at h
    cases h
  · rw [Names] at hnames
    cases hget : disk.get? location with
    | none =>
        rw [create, hnames, hget] at h
        cases h
    | some entry =>
        rw [create, hnames, hget] at h
        exact (Except.error.inj h).symm

/-- Beside a path that names something, a file can only be refused if one is there already, or if its
name is too long. -/
theorem refusal_of_create_sibling {disk : Disk} {path : Path} {name : Text} {location : Location}
    {content : List UInt8} {e : DiskRefusal} (hnames : disk.Names path location)
    (hdots : name ≠ "..") (h : disk.create (path.sibling name) content = .error e) :
    e = .nameTooLong ∨ e = .exists ∧ ∃ place entry, disk.Names (path.sibling name) place ∧
      disk.get? place = some entry := by
  rcases names_sibling_or hnames hdots with ⟨place, hplace⟩ | ⟨-, hlocate⟩
  · obtain ⟨hoccupied, hexists⟩ := create_eq_error h
    refine .inr ⟨hexists place hplace, place, ?_⟩
    cases hget : disk.get? place with
    | none => exact absurd ⟨place, hplace, hget⟩ hoccupied
    | some entry => exact ⟨entry, hplace, rfl⟩
  · rw [create, hlocate] at h
    exact .inl (Except.error.inj h).symm

section Created

variable {disk disk' : Disk} {path : Path} {content : List UInt8}
  (h : disk.create path content = .ok disk')
include h

theorem sameDirectories_create : SameDirectories disk disk' := by
  obtain ⟨location, hnames, hnone, rfl⟩ := create_eq_ok_iff.mp h
  exact sameDirectories_putNew hnames.ne_nil (by simp [hnone])

/-- The new file is where the path leads. -/
theorem exists_created : ∃ location, disk.Names path location ∧ disk.get? location = none ∧
    disk'.get? location ≠ none := by
  obtain ⟨location, hnames, hnone, rfl⟩ := create_eq_ok_iff.mp h
  refine ⟨location, hnames, hnone, ?_⟩
  rw [get?_putNew disk content hnames.ne_nil, if_pos rfl]
  exact Option.some_ne_none _

theorem read_created : disk'.read path = .ok content := by
  have hsame := sameDirectories_create h
  obtain ⟨location, hnames, hnone, rfl⟩ := create_eq_ok_iff.mp h
  refine read_eq_ok_iff.mpr ⟨location, disk.nextSerial, (names_congr hsame).mp hnames, ?_⟩
  rw [get?_putNew disk content hnames.ne_nil, if_pos rfl]

/-- What was there before a file is made stays. -/
theorem get?_create {location : Location} {entry : Entry}
    (hget : disk.get? location = some entry) : disk'.get? location = some entry := by
  obtain ⟨new, hnames, hnone, rfl⟩ := create_eq_ok_iff.mp h
  rw [get?_putNew disk content hnames.ne_nil, if_neg, hget]
  rintro rfl
  rw [hnone] at hget
  cases hget

/-- What is new on the disk is where the path leads. -/
theorem names_of_create {location : Location} (hnone : disk.get? location = none)
    (hnew : disk'.get? location ≠ none) : disk.Names path location := by
  obtain ⟨place, hnames, -, rfl⟩ := create_eq_ok_iff.mp h
  rw [get?_putNew _ _ hnames.ne_nil] at hnew
  split at hnew
  · rename_i hplace
    exact hplace ▸ hnames
  · exact absurd hnone hnew

theorem read_create {other : Path} {bytes : List UInt8} (hread : disk.read other = .ok bytes) :
    disk'.read other = .ok bytes := by
  obtain ⟨location, serial, hnames, hget⟩ := read_eq_ok_iff.mp hread
  exact read_eq_ok_iff.mpr
    ⟨location, serial, (names_congr (sameDirectories_create h)).mp hnames, get?_create h hget⟩

end Created

instance (disk : Disk) (path : Path) : Decidable (disk.Free path) :=
  decidable_of_iff ((disk.create path []).toOption.isSome = true) (by
    rw [free_iff_create []]
    cases disk.create path [] <;> simp [Except.toOption])

theorem unlink_eq_ok_iff {disk disk' : Disk} {path : Path} :
    disk.unlink path = .ok disk' ↔
      ∃ location serial content, disk.Names path location ∧
        disk.get? location = some (.file serial content) ∧ disk' = disk.erase location := by
  rw [unlink]
  constructor
  · intro h
    split at h
    · cases h
    · cases h
    · cases h
    · cases h
    · rename_i location serial content hlocate
      obtain ⟨hnames, hfound⟩ := names_of_locate hlocate
      exact ⟨location, serial, content, hnames, hfound.symm, (Except.ok.inj h).symm⟩
  · rintro ⟨location, serial, content, hnames, hget, rfl⟩
    rw [Names, hget] at hnames
    rw [hnames]

/-- Locations in one directory: neither lies below the other. -/
theorem isPrefixOf_sibling {base : Location} {a b : Text} (h : a ≠ b) :
    (base ++ [a]).isPrefixOf (base ++ [b]) = false := by
  rw [← Bool.not_eq_true, List.isPrefixOf_iff_prefix]
  intro hprefix
  have heq := hprefix.eq_of_length (by simp)
  simp [h] at heq

/-- A file is moved over a file, or to where nothing is, if neither place lies below the other. -/
theorem rename_apart {disk : Disk} {source target : Path} {old new : Location} {serial : Nat}
    {content : List UInt8} (hsource : disk.Names source old) (htarget : disk.Names target new)
    (hbelow : old.isPrefixOf new = false) (habove : new.isPrefixOf old = false)
    (hfile : disk.get? old = some (.file serial content))
    (hspace : disk.get? new ≠ some .directory) :
    disk.rename source target = .ok ((disk.erase old).put new (.file serial content)) := by
  have hne : old ≠ new := by
    rintro rfl
    rw [List.isPrefixOf_iff_prefix.mpr (List.prefix_refl old)] at hbelow
    cases hbelow
  rw [Names, hfile] at hsource
  rw [Names] at htarget
  rw [rename, hsource, htarget]
  -- What may not be at the target decides the last case, so `hspace` has to be in sight here.
  simp only
  rw [if_neg hne, if_neg (by simp [hbelow]), if_neg (by simp [habove])]

theorem rename_file {disk : Disk} {source target : Path} {base : Location} {old new : Text}
    {serial : Nat} {content : List UInt8} (hsource : disk.Names source (base ++ [old]))
    (htarget : disk.Names target (base ++ [new])) (hne : old ≠ new)
    (hfile : disk.get? (base ++ [old]) = some (.file serial content))
    (hspace : disk.get? (base ++ [new]) ≠ some .directory) :
    disk.rename source target =
      .ok ((disk.erase (base ++ [old])).put (base ++ [new]) (.file serial content)) :=
  rename_apart hsource htarget (isPrefixOf_sibling hne) (isPrefixOf_sibling hne.symm) hfile hspace

/-- Nothing is moved from where nothing is. -/
theorem rename_missing {disk : Disk} {source target : Path} {old new : Location}
    (hsource : disk.Names source old) (htarget : disk.Names target new)
    (hmissing : disk.get? old = none) : disk.rename source target = .error .notFound := by
  rw [Names, hmissing] at hsource
  rw [Names] at htarget
  rw [rename, hsource, htarget]

end Disk

end LogRedaction
