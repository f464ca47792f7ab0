/-
LogRedaction.Proofs.Disk.Growth — disks on which nothing is lost.

On most of the way a disk only grows: files and directories are made where nothing was, and one file
at most, the one that the report is in, gets longer. `Disk.Grown` says so of two disks. Each
operation that makes something is growth, and so is an addition at the end of the file; growth adds
up (`Grown.trans`).

A file can be told by its serial number if the disk is `Numbered`: a new file then has a number that
no other has.
-/
import LogRedaction.Proofs.Disk.Operations

namespace LogRedaction

/-! ## Entries -/

/-- The entry is still there. The file with the serial number, if there is one, may have grown at
its end. -/
inductive Entry.Grows (serial? : Option Nat) : Entry → Entry → Prop where
  | same (entry : Entry) : Grows serial? entry entry
  | more {serial : Nat} (content more : List UInt8) : serial? = some serial →
      Grows serial? (.file serial content) (.file serial (content ++ more))

namespace Entry.Grows

variable {serial? : Option Nat} {a b c : Entry}

theorem trans (h : Grows serial? a b) (h' : Grows serial? b c) : Grows serial? a c := by
  cases h with
  | same => exact h'
  | more content more hserial =>
      cases h' with
      | same => exact .more content more hserial
      | more _ last _ =>
          rw [List.append_assoc]
          exact .more content (more ++ last) hserial

theorem of_none (h : Grows none a b) : b = a := by
  cases h with
  | same => rfl
  | more _ _ hserial => cases hserial

theorem ne_directory {serial : Nat} {content : List UInt8}
    (h : Grows serial? a (.file serial content)) : a ≠ .directory := by
  rintro rfl
  cases h

theorem eq_file {serial : Nat} {content : List UInt8} (h : Grows serial? (.file serial content) b)
    (hserial : serial? ≠ some serial) : b = .file serial content := by
  cases h with
  | same => rfl
  | more _ _ hsame => exact absurd hsame hserial

end Entry.Grows

namespace Disk

/-! ## Growth -/

/-- What was there is still there, and at most the file with the serial number has grown. -/
structure Grown (serial? : Option Nat) (a b : Disk) : Prop where
  nextSerial : a.nextSerial ≤ b.nextSerial
  kept : ∀ location entry, a.get? location = some entry →
    ∃ later, b.get? location = some later ∧ entry.Grows serial? later

namespace Grown

variable {serial? : Option Nat} {a b c : Disk}

theorem refl (serial? : Option Nat) (disk : Disk) : Grown serial? disk disk where
  nextSerial := Nat.le_refl _
  kept := fun _ entry hget => ⟨entry, hget, .same entry⟩

theorem trans (h : Grown serial? a b) (h' : Grown serial? b c) : Grown serial? a c where
  nextSerial := Nat.le_trans h.nextSerial h'.nextSerial
  kept := by
    intro location entry hget
    obtain ⟨between, hbetween, hgrows⟩ := h.kept location entry hget
    obtain ⟨later, hlater, hgrows'⟩ := h'.kept location between hbetween
    exact ⟨later, hlater, hgrows.trans hgrows'⟩

/-- Where no file may grow, everything stays. -/
theorem get?_eq (h : Grown none a b) {location : Location} {entry : Entry}
    (hget : a.get? location = some entry) : b.get? location = some entry := by
  obtain ⟨later, hlater, hgrows⟩ := h.kept location entry hget
  rw [hlater, hgrows.of_none]

/-- A file with another serial number stays. -/
theorem get?_file (h : Grown serial? a b) {location : Location} {serial : Nat}
    {content : List UInt8} (hget : a.get? location = some (.file serial content))
    (hserial : serial? ≠ some serial) : b.get? location = some (.file serial content) := by
  obtain ⟨later, hlater, hgrows⟩ := h.kept location _ hget
  rw [hlater, hgrows.eq_file hserial]

/-- Where nothing is now, nothing was before. -/
theorem none_of_none (h : Grown serial? a b) {location : Location}
    (hnone : b.get? location = none) : a.get? location = none := by
  cases hget : a.get? location with
  | none => rfl
  | some entry =>
      obtain ⟨later, hlater, -⟩ := h.kept location entry hget
      rw [hnone] at hlater
      cases hlater

end Grown

/-- A file is made. -/
theorem grown_create (serial? : Option Nat) {disk disk' : Disk} {path : Path}
    {content : List UInt8} (h : disk.create path content = .ok disk') :
    Grown serial? disk disk' where
  nextSerial := by
    obtain ⟨_, -, -, rfl⟩ := create_eq_ok_iff.mp h
    exact Nat.le_succ _
  kept := fun _ entry hget => ⟨entry, get?_create h hget, .same entry⟩

/-- Bytes are added at the end of a file. -/
theorem grown_modify (disk : Disk) (serial : Nat) (more : List UInt8) :
    Grown (some serial) disk (disk.modify serial (· ++ more)) where
  nextSerial := Nat.le_refl _
  kept := by
    intro location entry hget
    refine ⟨changed serial (· ++ more) entry, by rw [get?_modify, hget]; rfl, ?_⟩
    cases entry with
    | directory => exact .same _
    | file n content =>
        rw [changed]
        split
        · subst n
          exact .more content more rfl
        · exact .same _

/-! ## Serial numbers -/

/-- No file has the serial number of the next one or a greater one. -/
def Numbered (disk : Disk) : Prop :=
  ∀ placed ∈ disk.entries, ∀ serial content, placed.2 = .file serial content →
    serial < disk.nextSerial

theorem Numbered.lt {disk : Disk} (h : disk.Numbered) {location : Location} {serial : Nat}
    {content : List UInt8} (hget : disk.get? location = some (.file serial content)) :
    serial < disk.nextSerial := by
  rw [get?] at hget
  split at hget
  · cases hget
  obtain ⟨before, after, hentries, -⟩ := List.lookup_eq_some_iff.mp hget
  exact h (location, .file serial content) (by simp [hentries]) serial content rfl

/-! ## Making directories -/

/-- Directories have been made, and nothing else has happened. -/
structure DirectoriesMade (a b : Disk) : Prop where
  workingDirectory : b.workingDirectory = a.workingDirectory
  nextSerial : b.nextSerial = a.nextSerial
  made : ∀ location, b.get? location = a.get? location ∨
    a.get? location = none ∧ b.get? location = some .directory

namespace DirectoriesMade

variable {a b c : Disk}

theorem refl (disk : Disk) : DirectoriesMade disk disk := ⟨rfl, rfl, fun _ => .inl rfl⟩

theorem trans (h : DirectoriesMade a b) (h' : DirectoriesMade b c) : DirectoriesMade a c where
  workingDirectory := h'.workingDirectory.trans h.workingDirectory
  nextSerial := h'.nextSerial.trans h.nextSerial
  made := by
    intro location
    rcases h'.made location with heq | ⟨hnone, hmade⟩
    · rw [heq]
      exact h.made location
    · rcases h.made location with heq | ⟨hnone', -⟩
      · exact .inr ⟨heq ▸ hnone, hmade⟩
      · exact .inr ⟨hnone', hmade⟩

theorem grown (h : DirectoriesMade a b) (serial? : Option Nat) : Grown serial? a b where
  nextSerial := Nat.le_of_eq h.nextSerial.symm
  kept := by
    intro location entry hget
    rcases h.made location with heq | ⟨hnone, -⟩
    · exact ⟨entry, heq.trans hget, .same entry⟩
    · rw [hnone] at hget
      cases hget

/-- The files are those from before. -/
theorem get?_file (h : DirectoriesMade a b) {location : Location} {serial : Nat}
    {content : List UInt8} (hget : b.get? location = some (.file serial content)) :
    a.get? location = some (.file serial content) := by
  rcases h.made location with heq | ⟨-, hmade⟩
  · exact heq ▸ hget
  · rw [hmade] at hget
    cases hget

end DirectoriesMade

theorem directoriesMade_one {disk disk' : Disk} {path : Path}
    (h : disk.makeDirectory path = .ok disk') : DirectoriesMade disk disk' := by
  rw [makeDirectory] at h
  split at h
  · cases h
  · cases h
  · cases h
  · rename_i location hlocate
    obtain ⟨hnames, hnone⟩ := names_of_locate hlocate
    obtain rfl := Except.ok.inj h
    refine ⟨rfl, rfl, fun other => ?_⟩
    rw [get?_put disk _ hnames.ne_nil]
    split
    · rename_i hsame
      exact .inr ⟨hsame ▸ hnone.symm, rfl⟩
    · exact .inl rfl

/-- A directory is left that exists. -/
theorem directoriesMade_or {disk disk' : Disk} {path : Path} {e : DiskError}
    (h : (if disk.isDirectory path then .ok disk else .error e : Except DiskError Disk) =
      .ok disk') : DirectoriesMade disk disk' := by
  split at h
  · exact Except.ok.inj h ▸ .refl disk
  · cases h

theorem directoriesMade {disk disk' : Disk} {missing : Nat} {path : Path}
    (h : disk.makeDirectories missing path = .ok disk') : DirectoriesMade disk disk' := by
  induction missing generalizing disk' path with
  | zero =>
      rw [makeDirectories] at h
      split at h
      · rename_i hmade
        exact Except.ok.inj h ▸ directoriesMade_one hmade
      · cases h
      · exact directoriesMade_or h
  | succ missing ih =>
      rw [makeDirectories] at h
      split at h
      · rename_i hmade
        exact Except.ok.inj h ▸ directoriesMade_one hmade
      · split at h
        · cases h
        rename_i above habove
        refine (ih habove).trans ?_
        split at h
        · rename_i hmade
          exact Except.ok.inj h ▸ directoriesMade_one hmade
        · exact directoriesMade_or h
      · exact directoriesMade_or h

/-! ## Opening a file to add to it -/

/-- A file that is opened without losing its content was there before, or is made. -/
theorem openToWrite_eq_ok {disk disk' : Disk} {path : Path} {serial : Nat}
    (h : disk.openToWrite path false = .ok (serial, disk')) :
    (disk' = disk ∧ ∃ location content, disk.Names path location ∧
      disk.get? location = some (.file serial content)) ∨
    serial = disk.nextSerial ∧ disk.create path [] = .ok disk' := by
  rw [openToWrite] at h
  split at h
  · cases h
  · cases h
  · cases h
  · rename_i location hlocate
    obtain ⟨hnames, hnone⟩ := names_of_locate hlocate
    obtain ⟨rfl, rfl⟩ := Prod.mk.inj (Except.ok.inj h)
    exact .inr ⟨rfl, create_eq_ok_iff.mpr ⟨location, hnames, hnone.symm, rfl⟩⟩
  · rename_i location serial' content hlocate
    obtain ⟨hnames, hfile⟩ := names_of_locate hlocate
    obtain ⟨rfl, rfl⟩ := Prod.mk.inj (Except.ok.inj h)
    exact .inl ⟨rfl, location, content, hnames, hfile.symm⟩

end Disk

end LogRedaction
