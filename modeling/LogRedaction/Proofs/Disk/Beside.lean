/-
LogRedaction.Proofs.Disk.Beside — disks that are alike but for one file.

Of two disks that have started as one, the second has a file that is written to, the first does not
write it. `Disk.Beside` says what they have in common then: the same directories, the same files
with the same contents, and in the second the file has grown by certain bytes. Serial numbers may
differ, as the second disk may have one file more.

An operation on a path that stays away from this file (`Disk.Misses`) cannot tell the disks apart.
It is refused on both for the same reason, or leaves disks that are again alike (`SameEnd`).

## §1 Results of one kind
## §2 Paths that stay away from a file
## §3 Alike but for one file
## §4 Operations on both
-/
import LogRedaction.Proofs.Disk.Growth
import LogRedaction.Proofs.Placement

namespace LogRedaction

/-! ## §1 Results of one kind -/

/-- Both fail with the same error, or both succeed with results that are related. -/
def SameEnd {ε α β : Type} (R : α → β → Prop) (x : Except ε α) (y : Except ε β) : Prop :=
  (∃ e, x = .error e ∧ y = .error e) ∨ ∃ a b, x = .ok a ∧ y = .ok b ∧ R a b

/-- The content of a file; a directory has none. -/
def Entry.content? : Entry → Option (List UInt8)
  | .directory => none
  | .file _ content => some content

namespace Disk

/-! ## §2 Paths that stay away from a file -/

/-- The location is the place, or another name of the file at the place. -/
def NameOf (disk : Disk) (place location : Location) : Prop :=
  location = place ∨ ∃ serial content content',
    disk.get? place = some (.file serial content) ∧
    disk.get? location = some (.file serial content')

/-- A file that is not there has no other names. -/
theorem NameOf.eq_of_none {disk : Disk} {place location : Location} (h : disk.NameOf place location)
    (hnone : disk.get? place = none) : location = place := by
  rcases h with rfl | ⟨serial, content, content', hplace, -⟩
  · rfl
  · cases hnone.symm.trans hplace

/-- The path comes by the location before it gets to its last part. -/
def Passes (disk : Disk) (path : Path) (location : Location) : Prop :=
  ∃ before part rest base, path.parts.dropLast = before ++ part :: rest ∧
    disk.follow (disk.origin path) before = .ok base ∧ location = base ++ [part]

/-- The path neither leads to the file at the place nor through it. -/
structure Misses (disk : Disk) (place : Location) (path : Path) : Prop where
  through : ∀ location, disk.NameOf place location → ¬disk.Passes path location
  «end» : ∀ location, disk.NameOf place location → ¬disk.Names path location

/-- A copy takes the same way as its source. -/
theorem Misses.tempPath {disk : Disk} {place : Location} {source : Path}
    (h : disk.Misses place source) {token : Token}
    (htemp : ∀ location, disk.NameOf place location →
      ¬disk.Names (tempPath token source) location) :
    disk.Misses place (tempPath token source) where
  through := by
    rintro location hname ⟨before, part, rest, base, hparts, hbase, hlocation⟩
    refine h.through location hname ⟨before, part, rest, base, ?_, hbase, hlocation⟩
    rw [LogRedaction.tempPath, Path.sibling, List.dropLast_concat] at hparts
    exact hparts
  «end» := htemp

/-! ## §3 Alike but for one file -/

/-- The disks have started as one. In the second the file at the place has the serial number and has
grown by these bytes; otherwise both are alike. -/
structure Beside (start : Disk) (place : Location) (serial : Nat) (more : List UInt8)
    (a b : Disk) : Prop where
  left : SameDirectories start a
  right : SameDirectories a b
  fresh : serial < b.nextSerial
  same : ∀ location, ¬start.NameOf place location →
    (b.get? location).map Entry.content? = (a.get? location).map Entry.content?
  other : ∀ location, ¬start.NameOf place location → ∀ content,
    b.get? location ≠ some (.file serial content)
  grown : ∀ location, start.NameOf place location →
    b.get? location = some (.file serial (start.bytesAt location ++ more))

/-- Nothing has reached a file that is there. -/
theorem beside_of_file {disk : Disk} {place : Location} {serial : Nat} {content : List UInt8}
    (hnumbered : disk.Numbered) (hfile : disk.get? place = some (.file serial content)) :
    Beside disk place serial [] disk disk where
  left := .refl _
  right := .refl _
  fresh := hnumbered.lt hfile
  same := fun _ _ => rfl
  other := fun location hother held hget =>
    hother (.inr ⟨serial, content, held, hfile, hget⟩)
  grown := by
    intro location hname
    rw [List.append_nil]
    rcases hname with rfl | ⟨serial', held, held', hplace, hget⟩
    · rw [bytesAt, hfile]
    · obtain ⟨rfl, rfl⟩ : serial = serial' ∧ content = held := by
        simpa using hfile.symm.trans hplace
      rw [bytesAt, hget]

/-- The file has been made, and nothing has reached it. -/
theorem beside_of_none {disk : Disk} {place : Location} (hnumbered : disk.Numbered)
    (hroot : place ≠ []) (hnone : disk.get? place = none) :
    Beside disk place disk.nextSerial [] disk (disk.putNew place []) where
  left := .refl _
  right := sameDirectories_putNew hroot (by simp [hnone])
  fresh := Nat.lt_succ_self _
  same := by
    intro location hother
    rw [get?_putNew disk [] hroot, if_neg fun heq => hother (.inl heq)]
  other := by
    intro location hother content hget
    rw [get?_putNew disk [] hroot, if_neg fun heq => hother (.inl heq)] at hget
    exact Nat.lt_irrefl _ (hnumbered.lt hget)
  grown := by
    intro location hname
    obtain rfl := hname.eq_of_none hnone
    rw [get?_putNew disk [] hroot, if_pos rfl, bytesAt, hnone]
    rfl

theorem follow_append (disk : Disk) (rest : List Text) :
    ∀ (before : List Text) (location : Location), disk.follow location (before ++ rest) =
      match disk.follow location before with
      | .ok base => disk.follow base rest
      | .error e => .error e
  | [], _ => rfl
  | part :: before, location => by
      rw [List.cons_append, follow, follow]
      cases disk.enter location part with
      | error e => rfl
      | ok next => exact follow_append disk rest before next

/-- One part further on disks with the same there. -/
theorem enter_congr {a b : Disk} {location : Location} {part : Text}
    (h : (b.get? (location ++ [part])).map Entry.content? =
      (a.get? (location ++ [part])).map Entry.content?) :
    b.enter location part = a.enter location part := by
  rw [enter, enter]
  rcases hb : b.get? (location ++ [part]) with _ | _ | ⟨serial, content⟩ <;>
    rcases ha : a.get? (location ++ [part]) with _ | _ | ⟨serial', content'⟩ <;>
    simp [ha, hb, Entry.content?] at h ⊢

section Beside

variable {start a b : Disk} {place : Location} {serial : Nat} {more : List UInt8}
  (h : Beside start place serial more a b)
include h

/-- What is there on the one disk is there on the other. -/
theorem Beside.cases {location : Location} (hother : ¬start.NameOf place location) :
    (a.get? location = none ∧ b.get? location = none) ∨
    (a.get? location = some .directory ∧ b.get? location = some .directory) ∨
    ∃ n n' content, n' ≠ serial ∧ a.get? location = some (.file n content) ∧
      b.get? location = some (.file n' content) := by
  have hsame := h.same location hother
  have hserial := h.other location hother
  rcases ha : a.get? location with _ | _ | ⟨n, content⟩ <;>
    rcases hb : b.get? location with _ | _ | ⟨n', content'⟩ <;>
    simp [ha, hb, Entry.content?] at hsame
  · exact .inl ⟨rfl, rfl⟩
  · exact .inr (.inl ⟨rfl, rfl⟩)
  · subst hsame
    refine .inr (.inr ⟨n, n', content', ?_, rfl, rfl⟩)
    rintro rfl
    exact hserial content' hb

theorem Beside.origin_eq (path : Path) : b.origin path = a.origin path := by
  rw [origin, origin, h.right.workingDirectory]

/-- A path takes the same way on both disks up to its last part. -/
theorem Beside.follow_eq {path : Path} (hmisses : start.Misses place path) :
    ∀ (rest before : List Text) (base : Location), path.parts.dropLast = before ++ rest →
      a.follow (a.origin path) before = .ok base → b.follow base rest = a.follow base rest
  | [], _, _, _, _ => rfl
  | part :: rest, before, base, hparts, hbefore => by
      have hstart : start.follow (start.origin path) before = .ok base := by
        have horigin : start.origin path = a.origin path := by
          rw [origin, origin, h.left.workingDirectory]
        rw [horigin]
        exact follow_congr h.left.symm _ _ _ hbefore
      have hother : ¬start.NameOf place (base ++ [part]) := fun hname =>
        hmisses.through _ hname ⟨before, part, rest, base, hparts, hstart, rfl⟩
      have henter : b.enter base part = a.enter base part := enter_congr (h.same _ hother)
      rw [follow, follow, henter]
      cases hnext : a.enter base part with
      | error e => rfl
      | ok next =>
          refine Beside.follow_eq hmisses rest (before ++ [part]) next (by simpa using hparts) ?_
          rw [follow_append, hbefore]
          simp only [follow, hnext]

/-- A path leads to the same on both disks, and not to the file. -/
theorem Beside.locate_cases {path : Path} (hmisses : start.Misses place path) :
    (∃ e, a.locate path = .error e ∧ b.locate path = .error e) ∨
    (∃ location, a.locate path = .ok (.directory location) ∧
      b.locate path = .ok (.directory location)) ∨
    ∃ location, ¬start.NameOf place location ∧ a.Names path location ∧ b.Names path location := by
  have hfollow := h.follow_eq hmisses path.parts.dropLast [] _ rfl rfl
  by_cases hsize : path.toText.nameSize > maxPathSize
  · exact .inl ⟨.nameTooLong, by rw [locate, if_pos hsize], by rw [locate, if_pos hsize]⟩
  cases hlast : path.parts.getLast? with
  | none =>
      refine .inr (.inl ⟨a.origin path, ?_, ?_⟩)
      · rw [locate, if_neg hsize, hlast]
      · rw [locate, if_neg hsize, hlast, h.origin_eq]
  | some last =>
  cases hbase : a.follow (a.origin path) path.parts.dropLast with
  | error e =>
      rw [hbase, ← h.origin_eq] at hfollow
      exact .inl ⟨e, by simp only [locate, if_neg hsize, hlast, hbase],
        by simp only [locate, if_neg hsize, hlast, hfollow]⟩
  | ok base =>
  rw [hbase, ← h.origin_eq] at hfollow
  by_cases hdots : last = ".."
  · exact .inr (.inl ⟨base.dropLast, by simp only [locate, if_neg hsize, hlast, hbase, if_pos hdots],
      by simp only [locate, if_neg hsize, hlast, hfollow, if_pos hdots]⟩)
  by_cases hname : last.nameSize > maxNameSize
  · exact .inl ⟨.nameTooLong,
      by simp only [locate, if_neg hsize, hlast, hbase, if_neg hdots, if_pos hname],
      by simp only [locate, if_neg hsize, hlast, hfollow, if_neg hdots, if_pos hname]⟩
  · have ha : a.Names path (base ++ [last]) := by
      simp only [Names, locate, if_neg hsize, hlast, hbase, if_neg hdots, if_neg hname]
    have hb : b.Names path (base ++ [last]) := by
      simp only [Names, locate, if_neg hsize, hlast, hfollow, if_neg hdots, if_neg hname]
    refine .inr (.inr ⟨base ++ [last], fun hnamed => ?_, ha, hb⟩)
    exact hmisses.end _ hnamed ((names_congr h.left).mpr ha)

/-- A change that is the same on both disks, and not at the file. -/
theorem Beside.change {a' b' : Disk} (hleft : SameDirectories a a') (hright : SameDirectories b b')
    (hnext : b.nextSerial ≤ b'.nextSerial)
    (hget : ∀ location, (a'.get? location = a.get? location ∧ b'.get? location = b.get? location) ∨
      ¬start.NameOf place location ∧
        (b'.get? location).map Entry.content? = (a'.get? location).map Entry.content? ∧
        ∀ content, b'.get? location ≠ some (.file serial content)) :
    Beside start place serial more a' b' where
  left := h.left.trans hleft
  right := (hleft.symm.trans h.right).trans hright
  fresh := Nat.lt_of_lt_of_le h.fresh hnext
  same := by
    intro location hother
    rcases hget location with ⟨ha, hb⟩ | ⟨-, hsame, -⟩
    · rw [ha, hb, h.same location hother]
    · exact hsame
  other := by
    intro location hother
    rcases hget location with ⟨-, hb⟩ | ⟨-, -, hserial⟩
    · rw [hb]
      exact h.other location hother
    · exact hserial
  grown := by
    intro location hname
    rcases hget location with ⟨-, hb⟩ | ⟨hother, -⟩
    · rw [hb, h.grown location hname]
    · exact absurd hname hother

theorem Beside.putNew {location : Location} (hother : ¬start.NameOf place location)
    (hroot : location ≠ []) (ha : a.get? location = none) (hb : b.get? location = none)
    (content : List UInt8) :
    Beside start place serial more (a.putNew location content) (b.putNew location content) := by
  refine h.change (sameDirectories_putNew hroot (by simp [ha]))
    (sameDirectories_putNew hroot (by simp [hb])) (Nat.le_succ _) fun l => ?_
  rw [get?_putNew a content hroot, get?_putNew b content hroot]
  by_cases hl : l = location
  · subst hl
    have hfresh : b.nextSerial ≠ serial := Nat.ne_of_gt h.fresh
    exact .inr ⟨hother, by simp [Entry.content?], by simp [hfresh]⟩
  · rw [if_neg hl, if_neg hl]
    exact .inl ⟨rfl, rfl⟩

theorem Beside.erase {location : Location} (hother : ¬start.NameOf place location)
    (hroot : location ≠ []) (hfile : a.get? location ≠ some .directory) :
    Beside start place serial more (a.erase location) (b.erase location) := by
  have hfile' : b.get? location ≠ some .directory := fun hb =>
    hfile ((h.right.directory location).mpr hb)
  refine h.change (sameDirectories_erase hroot hfile) (sameDirectories_erase hroot hfile')
    (Nat.le_refl _) fun l => ?_
  rw [get?_erase a hroot, get?_erase b hroot]
  by_cases hl : l = location
  · subst hl
    exact .inr ⟨hother, by simp, by simp⟩
  · rw [if_neg hl, if_neg hl]
    exact .inl ⟨rfl, rfl⟩

/-- A file is moved. It may have another serial number on the second disk. -/
theorem Beside.moved {old new : Location} {n n' : Nat} {content : List UInt8}
    (hold : ¬start.NameOf place old) (hnew : ¬start.NameOf place new) (holdRoot : old ≠ [])
    (hnewRoot : new ≠ []) (hfile : a.get? old ≠ some .directory)
    (hspace : a.get? new ≠ some .directory) (hserial : n' ≠ serial) :
    Beside start place serial more (a.moved old new n content) (b.moved old new n' content) := by
  have hfile' : b.get? old ≠ some .directory := fun hb =>
    hfile ((h.right.directory old).mpr hb)
  have hspace' : b.get? new ≠ some .directory := fun hb =>
    hspace ((h.right.directory new).mpr hb)
  refine h.change (sameDirectories_moved holdRoot hnewRoot hfile hspace)
    (sameDirectories_moved holdRoot hnewRoot hfile' hspace') (Nat.le_refl _) fun l => ?_
  rw [get?_moved a holdRoot hnewRoot, get?_moved b holdRoot hnewRoot]
  by_cases hplace : l = new
  · subst hplace
    exact .inr ⟨hnew, by simp [Entry.content?], by simp [hserial]⟩
  · rw [if_neg hplace, if_neg hplace]
    by_cases hl : l = old
    · subst hl
      exact .inr ⟨hold, by simp, by simp⟩
    · rw [if_neg hl, if_neg hl]
      exact .inl ⟨rfl, rfl⟩

/-- More bytes reach the file. -/
theorem Beside.modify (bytes : List UInt8) :
    Beside start place serial (more ++ bytes) a (b.modify serial (· ++ bytes)) where
  left := h.left
  right := h.right.trans (sameDirectories_modify b serial _)
  fresh := h.fresh
  same := by
    intro location hother
    rw [get?_modify]
    rcases h.cases hother with ⟨ha, hb⟩ | ⟨ha, hb⟩ | ⟨n, n', content, hserial, ha, hb⟩
    · rw [ha, hb]
      rfl
    · rw [ha, hb]
      rfl
    · rw [ha, hb]
      simp [changed, hserial, Entry.content?]
  other := by
    intro location hother content
    rw [get?_modify]
    rcases h.cases hother with ⟨-, hb⟩ | ⟨-, hb⟩ | ⟨n, n', content', hserial, -, hb⟩
    · simp [hb]
    · simp [hb, changed]
    · simp [hb, changed, hserial]
  grown := by
    intro location hname
    rw [get?_modify, h.grown location hname, Option.map_some, changed, if_pos rfl,
      List.append_assoc]

/-! ## §4 Operations on both -/

section Missing

variable {path : Path} (hmisses : start.Misses place path)
include hmisses

theorem Beside.read_eq : b.read path = a.read path := by
  rcases h.locate_cases hmisses with ⟨e, ha, hb⟩ | ⟨location, ha, hb⟩ | ⟨location, hother, ha, hb⟩
  · rw [read, read, ha, hb]
  · rw [read, read, ha, hb]
  · rw [Names] at ha hb
    rcases h.cases hother with ⟨hgetA, hgetB⟩ | ⟨hgetA, hgetB⟩ | ⟨n, n', content, -, hgetA, hgetB⟩
    · rw [read, read, ha, hb, hgetA, hgetB]
    · rw [read, read, ha, hb, hgetA, hgetB]
    · rw [read, read, ha, hb, hgetA, hgetB]

theorem Beside.create (content : List UInt8) :
    SameEnd (Beside start place serial more) (a.create path content) (b.create path content) := by
  rcases h.locate_cases hmisses with ⟨e, ha, hb⟩ | ⟨location, ha, hb⟩ | ⟨location, hother, ha, hb⟩
  · rw [Disk.create, Disk.create, ha, hb]
    exact .inl ⟨_, rfl, rfl⟩
  · rw [Disk.create, Disk.create, ha, hb]
    exact .inl ⟨_, rfl, rfl⟩
  · have hroot := ha.ne_nil
    rw [Names] at ha hb
    rw [Disk.create, Disk.create, ha, hb]
    rcases h.cases hother with ⟨hgetA, hgetB⟩ | ⟨hgetA, hgetB⟩ | ⟨n, n', held, -, hgetA, hgetB⟩
    · rw [hgetA, hgetB]
      exact .inr ⟨_, _, rfl, rfl, h.putNew hother hroot hgetA hgetB content⟩
    · rw [hgetA, hgetB]
      exact .inl ⟨_, rfl, rfl⟩
    · rw [hgetA, hgetB]
      exact .inl ⟨_, rfl, rfl⟩

theorem Beside.unlink :
    SameEnd (Beside start place serial more) (a.unlink path) (b.unlink path) := by
  rcases h.locate_cases hmisses with ⟨e, ha, hb⟩ | ⟨location, ha, hb⟩ | ⟨location, hother, ha, hb⟩
  · rw [Disk.unlink, Disk.unlink, ha, hb]
    exact .inl ⟨_, rfl, rfl⟩
  · rw [Disk.unlink, Disk.unlink, ha, hb]
    exact .inl ⟨_, rfl, rfl⟩
  · have hroot := ha.ne_nil
    rw [Names] at ha hb
    rw [Disk.unlink, Disk.unlink, ha, hb]
    rcases h.cases hother with ⟨hgetA, hgetB⟩ | ⟨hgetA, hgetB⟩ | ⟨n, n', held, -, hgetA, hgetB⟩
    · rw [hgetA, hgetB]
      exact .inl ⟨_, rfl, rfl⟩
    · rw [hgetA, hgetB]
      exact .inl ⟨_, rfl, rfl⟩
    · rw [hgetA, hgetB]
      exact .inr ⟨_, _, rfl, rfl, h.erase hother hroot (by simp [hgetA])⟩

end Missing

end Beside

end Disk

end LogRedaction
