/-
LogRedaction.Proofs.Disk.Fault — paths that can be those of files.

A path can be that of a file if every part of it has bytes and none holds the character that ends
names (`fault?_eq_none_iff`). What is put together from such parts is such a path again, so the
parent of one is one (`fault?_parent`), and so is a sibling whose name is one (`fault?_sibling`).
-/
import LogRedaction.Disk.Path
import Mathlib.Data.List.TakeWhile

namespace LogRedaction

theorem Text.nameError?_eq_none_iff {text : Text} :
    nameError? text = none ↔ ∀ c ∈ text.toList, hasNameBytes c = true := by
  rw [nameError?]
  split
  · rename_i hnil
    exact iff_of_true rfl (List.dropWhile_eq_nil_iff.mp hnil)
  · rename_i code rest hcons
    refine iff_of_false nofun fun h => ?_
    rw [List.dropWhile_eq_nil_iff.mpr h] at hcons
    cases hcons

namespace Path

/-- The text can stand in a path. -/
def IsSound (text : Text) : Prop :=
  ∀ c ∈ text.toList, Text.hasNameBytes c = true ∧ c ≠ .scalar '\x00'

theorem mem_intercalate {separator : List CodePoint} {parts : List (List CodePoint)} {c : CodePoint}
    (h : c ∈ separator.intercalate parts) : c ∈ separator ∨ ∃ part ∈ parts, c ∈ part := by
  induction parts with
  | nil => simp at h
  | cons part rest ih =>
      cases rest with
      | nil => exact .inr ⟨part, List.mem_cons_self .., by simpa using h⟩
      | cons next rest =>
          rw [List.intercalate_cons_cons, List.mem_append, List.mem_append] at h
          rcases h with (h | h) | h
          · exact .inr ⟨part, List.mem_cons_self .., h⟩
          · exact .inl h
          · rcases ih h with h | ⟨other, hother, h⟩
            · exact .inl h
            · exact .inr ⟨other, List.mem_cons_of_mem _ hother, h⟩

theorem mem_intercalate_of_mem {separator : List CodePoint} {parts : List (List CodePoint)}
    {part : List CodePoint} (hpart : part ∈ parts) {c : CodePoint} (h : c ∈ part) :
    c ∈ separator.intercalate parts := by
  induction parts with
  | nil => simp at hpart
  | cons first rest ih =>
      cases rest with
      | nil =>
          obtain rfl : part = first := by simpa using hpart
          simpa using h
      | cons next rest =>
          rw [List.intercalate_cons_cons, List.mem_append, List.mem_append]
          rcases List.mem_cons.mp hpart with rfl | hpart
          · exact .inl (.inl h)
          · exact .inr (ih hpart)

/-- A path can be that of a file if its root and its parts can stand in a path. -/
theorem fault?_eq_none_iff {path : Path} : path.fault? = none ↔
    (∀ c ∈ path.root.toList, Text.hasNameBytes c = true) ∧ ∀ part ∈ path.parts, IsSound part := by
  have hnul : path.hasNul = false ↔
      ∀ part ∈ path.parts, ∀ c ∈ part.toList, c ≠ .scalar '\x00' := by
    rw [hasNul, List.any_eq_false]
    refine forall_congr' fun part => imp_congr_right fun _ => ?_
    simp only [List.contains_iff_mem]
    exact ⟨fun h c hc hzero => h (hzero ▸ hc), fun h hmem => h _ hmem rfl⟩
  have hfault : path.fault? = none ↔ Text.nameError? path.toText = none ∧ path.hasNul = false := by
    rw [fault?]
    cases Text.nameError? path.toText <;> simp
  rw [hfault, hnul, Text.nameError?_eq_none_iff, toText]
  by_cases hdot : path.root = "" ∧ path.parts = []
  · rw [if_pos hdot, hdot.1, hdot.2]
    exact iff_of_true ⟨by decide, by simp⟩ ⟨by simp, by simp⟩
  rw [if_neg hdot, Text.toList_append, Text.toList_intercalate]
  constructor
  · rintro ⟨hbytes, hzero⟩
    refine ⟨fun c hc => hbytes c (List.mem_append_left _ hc), fun part hpart c hc =>
      ⟨hbytes c (List.mem_append_right _ ?_), hzero part hpart c hc⟩⟩
    exact mem_intercalate_of_mem (List.mem_map_of_mem hpart) hc
  · rintro ⟨hroot, hparts⟩
    refine ⟨fun c hc => ?_, fun part hpart c hc => (hparts part hpart c hc).2⟩
    rcases List.mem_append.mp hc with hc | hc
    · exact hroot c hc
    rcases mem_intercalate hc with hc | ⟨_, hpart, hc⟩
    · obtain rfl : c = .scalar '/' := by simpa using hc
      rfl
    · obtain ⟨part, hmem, rfl⟩ := List.mem_map.mp hpart
      exact (hparts part hmem c hc).1

theorem fault?_parent {path : Path} (h : path.fault? = none) : path.parent.fault? = none := by
  obtain ⟨hroot, hparts⟩ := fault?_eq_none_iff.mp h
  exact fault?_eq_none_iff.mpr ⟨hroot, fun part hpart => hparts part (List.dropLast_subset _ hpart)⟩

theorem fault?_sibling {path : Path} (h : path.fault? = none) {name : Text} (hname : IsSound name) :
    (path.sibling name).fault? = none := by
  obtain ⟨hroot, hparts⟩ := fault?_eq_none_iff.mp h
  refine fault?_eq_none_iff.mpr ⟨hroot, fun part hpart => ?_⟩
  rcases List.mem_append.mp hpart with hpart | hpart
  · exact hparts part (List.dropLast_subset _ hpart)
  · exact List.mem_singleton.mp hpart ▸ hname

theorem isSound_name {path : Path} (h : path.fault? = none) : IsSound path.name := by
  rw [name]
  cases hlast : path.parts.getLast? with
  | none => exact fun c hc => absurd hc (by simp)
  | some last => exact (fault?_eq_none_iff.mp h).2 last (List.mem_of_getLast? hlast)

/-- A path without the character that ends names can be that of a file, or has no bytes. -/
theorem fault?_ne_nul {path : Path} (h : path.hasNul = false) : path.fault? ≠ some .nul := by
  rw [fault?, h]
  cases Text.nameError? path.toText <;> simp

end Path

end LogRedaction
