/-
LogRedaction.Proofs.Disk.Table — what is at a location after a change, and which changes leave
the directories alone.

Every operation on files changes the table in one of three ways: something is put at a location,
taken away from it, or the file with a serial number gets other content. For each there is one
lemma about `get?`, and nothing else needs to look into the table.

`SameDirectories` relates disks on which every path leads to the same place. The operations that
work on files keep it.
-/
import LogRedaction.Disk.Basic
import Mathlib.Data.List.Basic

namespace LogRedaction.Disk

/-! ## Entries -/

theorem lookup_eraseFrom (entries : List (Location × Entry)) (location other : Location) :
    (eraseFrom entries location).lookup other =
      if other = location then none else entries.lookup other := by
  induction entries with
  | nil => simp [eraseFrom]
  | cons entry entries ih =>
      obtain ⟨key, value⟩ := entry
      simp only [eraseFrom] at ih ⊢
      by_cases hkey : key = location
      · subst hkey
        rw [List.filter_cons_of_neg (by simp), ih, List.lookup_cons]
        by_cases hother : other = key
        · simp [hother]
        · rw [beq_false_of_ne hother]
      · rw [List.filter_cons_of_pos (by simpa using hkey), List.lookup_cons, ih, List.lookup_cons]
        by_cases hother : other = key
        · subst hother
          simp [hkey]
        · rw [beq_false_of_ne hother]

theorem get?_erase (disk : Disk) {location other : Location} (h : location ≠ []) :
    (disk.erase location).get? other = if other = location then none else disk.get? other := by
  rw [get?, get?, erase, lookup_eraseFrom]
  by_cases hroot : other = []
  · subst hroot
    simp [Ne.symm h]
  · rw [if_neg hroot, if_neg hroot]

theorem get?_put (disk : Disk) {location other : Location} (entry : Entry) (h : location ≠ []) :
    (disk.put location entry).get? other =
      if other = location then some entry else disk.get? other := by
  rw [get?, get?, put, List.lookup_cons, lookup_eraseFrom]
  by_cases hroot : other = []
  · subst hroot
    simp [Ne.symm h]
  · by_cases hother : other = location
    · subst hother
      simp [hroot]
    · rw [if_neg hroot, if_neg hroot, beq_false_of_ne hother, if_neg hother, if_neg hother]

theorem get?_putNew (disk : Disk) {location other : Location} (content : List UInt8)
    (h : location ≠ []) : (disk.putNew location content).get? other =
      if other = location then some (.file disk.nextSerial content) else disk.get? other :=
  get?_put disk _ h

/-- An entry after a change of the file with the given serial number. -/
def changed (serial : Nat) (change : List UInt8 → List UInt8) : Entry → Entry
  | .file n content => .file n (if n = serial then change content else content)
  | .directory => .directory

theorem get?_modify (disk : Disk) (serial : Nat) (change : List UInt8 → List UInt8)
    (location : Location) : (disk.modify serial change).get? location =
      (disk.get? location).map (changed serial change) := by
  rw [get?, get?]
  by_cases hroot : location = []
  · rw [if_pos hroot, if_pos hroot]; rfl
  rw [if_neg hroot, if_neg hroot, modify]
  induction disk.entries with
  | nil => rfl
  | cons entry entries ih =>
      obtain ⟨key, value⟩ := entry
      rw [List.map_cons]
      cases value with
      | directory =>
          simp only [List.lookup_cons]
          cases location == key with
          | true => rfl
          | false => exact ih
      | file n content =>
          simp only [List.lookup_cons]
          cases location == key with
          | true => rfl
          | false => exact ih

/-! ## Directories -/

/-- The disks have the same directories. -/
structure SameDirectories (a b : Disk) : Prop where
  workingDirectory : a.workingDirectory = b.workingDirectory
  directory (location : Location) :
    a.get? location = some .directory ↔ b.get? location = some .directory

namespace SameDirectories

theorem refl (disk : Disk) : SameDirectories disk disk := ⟨rfl, fun _ => Iff.rfl⟩

theorem symm {a b : Disk} (h : SameDirectories a b) : SameDirectories b a :=
  ⟨h.workingDirectory.symm, fun location => (h.directory location).symm⟩

theorem trans {a b c : Disk} (hab : SameDirectories a b) (hbc : SameDirectories b c) :
    SameDirectories a c :=
  ⟨hab.workingDirectory.trans hbc.workingDirectory,
    fun location => (hab.directory location).trans (hbc.directory location)⟩

end SameDirectories

theorem sameDirectories_put {disk : Disk} {location : Location} {serial : Nat}
    {content : List UInt8} (hroot : location ≠ [])
    (h : disk.get? location ≠ some .directory) :
    SameDirectories disk (disk.put location (.file serial content)) := by
  refine ⟨rfl, fun other => ?_⟩
  rw [get?_put disk _ hroot]
  by_cases hother : other = location
  · subst hother
    simp [h]
  · rw [if_neg hother]

theorem sameDirectories_putNew {disk : Disk} {location : Location} {content : List UInt8}
    (hroot : location ≠ []) (h : disk.get? location ≠ some .directory) :
    SameDirectories disk (disk.putNew location content) :=
  ⟨rfl, (sameDirectories_put hroot h).directory⟩

theorem sameDirectories_erase {disk : Disk} {location : Location} (hroot : location ≠ [])
    (h : disk.get? location ≠ some .directory) :
    SameDirectories disk (disk.erase location) := by
  refine ⟨rfl, fun other => ?_⟩
  rw [get?_erase disk hroot]
  by_cases hother : other = location
  · subst hother
    simp [h]
  · rw [if_neg hother]

theorem sameDirectories_modify (disk : Disk) (serial : Nat) (change : List UInt8 → List UInt8) :
    SameDirectories disk (disk.modify serial change) := by
  refine ⟨rfl, fun location => ?_⟩
  rw [get?_modify]
  cases disk.get? location with
  | none => simp
  | some entry => cases entry <;> simp [changed]

end LogRedaction.Disk
