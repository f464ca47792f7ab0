/-
LogRedaction.Proofs.Placement — moving a copy over its source.

A temporary copy stands in the directory of its source, so it can be moved there by its name alone
(`rename_tempPath`). `Disk.moved` is the disk afterwards: the source holds what the copy held, and
the copy is gone.

Names of copies differ from each other and from the names of files that were there before; so
moving one copy disturbs no other. A copy that is not moved can be discarded, which takes away at
most the file of that name (`discardCopy_cases`).
-/
import LogRedaction.Placement
import LogRedaction.Proofs.Copying

namespace LogRedaction

namespace Disk

/-! ## Moving a file -/

/-- The disk after a file has been moved. -/
def moved (disk : Disk) (old new : Location) (serial : Nat) (content : List UInt8) : Disk :=
  (disk.erase old).put new (.file serial content)

theorem get?_moved (disk : Disk) {old new other : Location} {serial : Nat} {content : List UInt8}
    (hold : old ≠ []) (hnew : new ≠ []) :
    (disk.moved old new serial content).get? other =
      if other = new then some (.file serial content)
      else if other = old then none else disk.get? other := by
  rw [moved, get?_put _ _ hnew, get?_erase _ hold]

theorem sameDirectories_moved {disk : Disk} {old new : Location} {serial : Nat}
    {content : List UInt8} (hold : old ≠ []) (hnew : new ≠ [])
    (hfile : disk.get? old ≠ some .directory) (hspace : disk.get? new ≠ some .directory) :
    SameDirectories disk (disk.moved old new serial content) := by
  refine (sameDirectories_erase hold hfile).trans (sameDirectories_put hnew ?_)
  rw [get?_erase _ hold]
  split
  · simp
  · exact hspace

/-! ## Copies and their sources -/

/-- The path leads into the directory of the source, and to a name that tells the token. -/
theorem names_tempPath {disk : Disk} {token : Token} {source : Path} {location : Location}
    (h : disk.Names (tempPath token source) location) :
    location.getLast? = some (tempName token source.name) := by
  rw [getLast?_of_names h, name_tempPath]

/-- Copies with different tokens are at different places. -/
theorem tempPath_ne {a b : Disk} {s t : Token} {source other : Path} {old new : Location}
    (hold : a.Names (tempPath s source) old) (hnew : b.Names (tempPath t other) new)
    (hne : s ≠ t) : old ≠ new := by
  rintro rfl
  have hsame := (names_tempPath hold).symm.trans (names_tempPath hnew)
  exact hne (tempName_inj (Option.some.inj hsame)).1

theorem source_ne_tempPath {disk : Disk} {token : Token} {source : Path} {place temp : Location}
    (hplace : disk.Names source place) (htemp : disk.Names (tempPath token source) temp) :
    place ≠ temp := by
  obtain ⟨base, rfl, rfl⟩ := names_sibling hplace htemp
  intro h
  exact tempName_ne token source.name (by simpa [eq_comm] using h)

/-- A copy can always be moved over its source. -/
theorem rename_tempPath {disk : Disk} {token : Token} {source : Path} {place temp : Location}
    {serial : Nat} {content : List UInt8} (hplace : disk.Names source place)
    (htemp : disk.Names (tempPath token source) temp)
    (hfile : disk.get? temp = some (.file serial content))
    (hspace : disk.get? place ≠ some .directory) :
    disk.rename (tempPath token source) source = .ok (disk.moved temp place serial content) := by
  obtain ⟨base, rfl, rfl⟩ := names_sibling hplace htemp
  exact rename_file htemp hplace (tempName_ne token source.name) hfile hspace

end Disk

/-! ## Running the steps -/

open LogRedaction.Action in
theorem run_putInPlace (copy : FileCopy) (w : Workspace) :
    (putInPlace copy).run w =
      match copy.finished? with
      | none => (.error (.refused copy.source copy.state), w)
      | some temp =>
        match temp.fault?.or copy.source.fault? with
        | some fault => (.error (.path fault), w)
        | none =>
          match w.disk.rename temp copy.source with
          | .error e =>
            (.error (.disk copy.source temp ⟨e, temp.toText, some copy.source.toText⟩), w)
          | .ok disk => (.ok copy.source,
            { w with disk, log := w.log ++ [.swapped copy.source.toText temp.name] }) := by
  rw [putInPlace]
  cases copy.finished? with
  | none => rfl
  | some temp =>
      simp only
      cases temp.fault?.or copy.source.fault? with
      | some fault => rfl
      | none =>
          simp only [run_bind, run_pure, run_changeDisk]
          cases w.disk.rename temp copy.source with
          | error e => rfl
          | ok disk => rfl

theorem run_putAllInPlace_cons (copy : FileCopy) (copies : List FileCopy) (w : Workspace) :
    (putAllInPlace (copy :: copies)).run w =
      match (putInPlace copy).run w with
      | (.error e, w) => (.error e, w)
      | (.ok path, w) =>
        match (putAllInPlace copies).run w with
        | (.error e, w) => (.error e, w)
        | (.ok paths, w) => (.ok (path :: paths), w) := by
  rw [putAllInPlace]
  simp only [Action.run_bind]
  rcases (putInPlace copy).run w with ⟨e | path, w'⟩
  · rfl
  simp only
  rcases (putAllInPlace copies).run w' with ⟨e | paths, w''⟩ <;> rfl

open LogRedaction.Action in
theorem run_discardCopy (text : Text) (w : Workspace) :
    (discardCopy (some text)).run w =
      match (Path.ofText text).fault? with
      | some fault => (.error (.path fault), w)
      | none =>
        match w.disk.unlink (Path.ofText text) with
        | .error .notFound => (.ok false, w)
        | .error e => (.error (.disk ⟨e, (Path.ofText text).toText, none⟩), w)
        | .ok disk => (.ok true, { w with disk, log := w.log ++ [.discarded text] }) := by
  rw [discardCopy]
  simp only
  cases (Path.ofText text).fault? with
  | some fault => rfl
  | none =>
      simp only [run_bind, run_get]
      cases w.disk.unlink (Path.ofText text) with
      | error e => cases e <;> rfl
      | ok disk => rfl

/-- Discarding takes away the file that is named, or nothing. -/
theorem discardCopy_cases {text : Option Text} {w w' : Workspace}
    {result : Except DiscardError Bool} (hrun : (discardCopy text).run w = (result, w')) :
    (∃ log, w' = { w with log }) ∨ ∃ given location serial content log,
      result = .ok true ∧ text = some given ∧ w.disk.Names (Path.ofText given) location ∧
      w.disk.get? location = some (.file serial content) ∧
      w' = { w with disk := w.disk.erase location, log } := by
  cases text with
  | none => exact .inl ⟨w.log, (Prod.mk.inj hrun).2.symm⟩
  | some given =>
      rw [run_discardCopy] at hrun
      split at hrun
      · exact .inl ⟨w.log, (Prod.mk.inj hrun).2.symm⟩
      split at hrun
      · exact .inl ⟨w.log, (Prod.mk.inj hrun).2.symm⟩
      · exact .inl ⟨w.log, (Prod.mk.inj hrun).2.symm⟩
      · rename_i disk hunlink
        obtain ⟨rfl, rfl⟩ := Prod.mk.inj hrun
        obtain ⟨location, serial, content, hnames, hfile, rfl⟩ := Disk.unlink_eq_ok_iff.mp hunlink
        exact .inr ⟨given, location, serial, content, _, rfl, rfl, hnames, hfile, rfl⟩

/-- Discarding a copy leaves the report as it is. -/
theorem report_discardCopy {text : Option Text} {w w' : Workspace}
    {result : Except DiscardError Bool} (hrun : (discardCopy text).run w = (result, w')) :
    w'.report = w.report := by
  rcases discardCopy_cases hrun with ⟨log, rfl⟩ | ⟨_, _, _, _, _, -, -, -, -, rfl⟩
  · rfl
  · rfl

/-! ## Tokens -/

theorem nextToken_discardCopy {text : Option Text} {w w' : Workspace}
    {result : Except DiscardError Bool} (hrun : (discardCopy text).run w = (result, w')) :
    w'.nextToken = w.nextToken := by
  rcases discardCopy_cases hrun with ⟨log, rfl⟩ | ⟨_, _, _, _, log, -, -, -, -, rfl⟩
  · rfl
  · rfl

theorem nextToken_putInPlace (copy : FileCopy) (w : Workspace) :
    ((putInPlace copy).run w).2.nextToken = w.nextToken := by
  rw [run_putInPlace]
  split
  · rfl
  split
  · rfl
  split
  · rfl
  · rfl

theorem nextToken_putAllInPlace (copies : List FileCopy) (w : Workspace) :
    ((putAllInPlace copies).run w).2.nextToken = w.nextToken := by
  induction copies generalizing w with
  | nil => rfl
  | cons copy copies ih =>
      have hfirst := nextToken_putInPlace copy w
      rw [run_putAllInPlace_cons]
      rcases hrun : (putInPlace copy).run w with ⟨e | path, w₁⟩
      · rw [hrun] at hfirst
        exact hfirst
      · rw [hrun] at hfirst
        have hrest := ih w₁
        simp only
        rcases hmore : (putAllInPlace copies).run w₁ with ⟨e | paths, w₂⟩
        · rw [hmore] at hrest
          exact hrest.trans hfirst
        · rw [hmore] at hrest
          exact hrest.trans hfirst

end LogRedaction
