/-
LogRedaction.Proofs.Disk.Path — a path and its text.

A path that has been read from a text is normal: its parts are names between slashes, none of them
empty or a single dot (`Path.normal_ofText`). A normal path can be written as text and read again
(`Path.ofText_toText`), and the path of a temporary copy beside a normal one is normal too.
-/
import LogRedaction.Proofs.Copying

namespace LogRedaction

namespace Path

/-! ## Pieces between slashes -/

theorem splitSlashes_eq (text : List CodePoint) : splitSlashes text = text.splitOn (.scalar '/') := by
  induction text with
  | nil => rfl
  | cons c rest ih =>
      rw [splitSlashes, List.splitOn_cons_eq_if_modifyHead, ih]
      by_cases hc : c = .scalar '/'
      · simp [hc]
      · rw [if_neg hc, if_neg (by simpa using hc)]
        cases hrest : rest.splitOn (.scalar '/') with
        | nil => exact absurd hrest (List.splitOn_ne_nil _ _)
        | cons piece more => rfl

theorem slash_not_mem_piece (text : List CodePoint) :
    ∀ piece ∈ splitSlashes text, .scalar '/' ∉ piece := by
  induction text with
  | nil => simp [splitSlashes]
  | cons c rest ih =>
      rw [splitSlashes]
      by_cases hc : c = .scalar '/'
      · rw [if_pos hc]
        exact List.forall_mem_cons.mpr ⟨List.not_mem_nil, ih⟩
      rw [if_neg hc]
      cases hrest : splitSlashes rest with
      | nil => simpa [eq_comm] using hc
      | cons piece more =>
          obtain ⟨hpiece, hmore⟩ := List.forall_mem_cons.mp (hrest ▸ ih)
          exact List.forall_mem_cons.mpr
            ⟨fun hmem => (List.mem_cons.mp hmem).elim (fun h => hc h.symm) hpiece, hmore⟩

/-! ## Normal paths -/

/-- The text is a part of a path: a name or two dots. -/
def IsPart (part : Text) : Prop := part ≠ "" ∧ part ≠ "." ∧ .scalar '/' ∉ part.toList

/-- The path is as it is when it has been read from a text. -/
structure Normal (path : Path) : Prop where
  root : path.root = "" ∨ path.root = "/" ∨ path.root = "//"
  parts : ∀ part ∈ path.parts, IsPart part

theorem rootOf_mem (text : List CodePoint) :
    rootOf text = "" ∨ rootOf text = "/" ∨ rootOf text = "//" := by
  unfold rootOf
  split <;> simp

theorem normal_ofText (text : Text) : (ofText text).Normal where
  root := rootOf_mem _
  parts := by
    intro part hpart
    obtain ⟨piece, hpiece, rfl⟩ := List.mem_map.mp hpart
    obtain ⟨hmem, hkept⟩ := List.mem_filter.mp hpiece
    obtain ⟨hempty, hdot⟩ : piece ≠ [] ∧ piece ≠ [.scalar '.'] := by simpa using hkept
    refine ⟨?_, ?_, ?_⟩
    · rwa [ne_eq, Text.ofList_eq_empty_iff]
    · intro h
      exact hdot (congrArg Text.toList h)
    · exact slash_not_mem_piece _ piece hmem

/-- The slashes at the start make the root and nothing else. -/
theorem splitSlashes_root {root : Text} (hroot : root = "" ∨ root = "/" ∨ root = "//")
    (text : List CodePoint) :
    (splitSlashes (root.toList ++ text)).filter (fun piece => piece ≠ [] ∧ piece ≠ [.scalar '.']) =
      (splitSlashes text).filter fun piece => piece ≠ [] ∧ piece ≠ [.scalar '.'] := by
  rcases hroot with rfl | rfl | rfl <;> simp [splitSlashes]

theorem rootOf_append {root : Text} (hroot : root = "" ∨ root = "/" ∨ root = "//")
    {text : List CodePoint} (htext : text.head? ≠ some (.scalar '/')) :
    rootOf (root.toList ++ text) = root := by
  rcases hroot with rfl | rfl | rfl <;> cases text with
  | nil => rfl
  | cons c rest =>
      have hc : c ≠ .scalar '/' := by simpa using htext
      simp [rootOf, hc]

/-- Parts with slashes between them are found again. -/
theorem pieces_intercalate {parts : List Text} (h : ∀ part ∈ parts, IsPart part) :
    (splitSlashes ([.scalar '/'].intercalate (parts.map Text.toList))).filter
      (fun piece => piece ≠ [] ∧ piece ≠ [.scalar '.']) = parts.map Text.toList := by
  cases parts with
  | nil => simp [splitSlashes]
  | cons first rest =>
      rw [splitSlashes_eq, List.splitOn_intercalate (CodePoint.scalar '/') ?_ (by simp),
        List.filter_eq_self.mpr ?_]
      · rw [List.forall_mem_map]
        intro part hpart
        obtain ⟨hempty, hdot, -⟩ := h part hpart
        have hdot' : part.toList ≠ ("." : Text).toList := mt Text.toList_inj.mp hdot
        simpa [hempty] using hdot'
      · rw [List.forall_mem_map]
        exact fun part hpart => (h part hpart).2.2

theorem head?_intercalate {parts : List Text} (h : ∀ part ∈ parts, IsPart part) :
    ([.scalar '/'].intercalate (parts.map Text.toList)).head? ≠ some (.scalar '/') := by
  cases parts with
  | nil => simp
  | cons first rest =>
      obtain ⟨hempty, -, hslash⟩ := h first (List.mem_cons_self ..)
      have hhead : ([.scalar '/'].intercalate ((first :: rest).map Text.toList)).head? =
          first.toList.head? := by
        cases hlist : first.toList with
        | nil => exact absurd (Text.toList_eq_nil_iff.mp hlist) hempty
        | cons c more => cases rest <;> simp [hlist, List.intercalate_cons_cons]
      rw [hhead]
      exact fun hsome => hslash (List.mem_of_mem_head? hsome)

/-- A normal path is read from its text. -/
theorem ofText_toText {path : Path} (h : path.Normal) : ofText path.toText = path := by
  obtain ⟨root, parts⟩ := path
  obtain ⟨hroot, hparts⟩ := h
  simp only at hroot hparts
  rw [toText]
  by_cases hdot : root = "" ∧ parts = []
  · rw [if_pos hdot, hdot.1, hdot.2]
    decide
  rw [if_neg hdot, ofText, Text.toList_append, Text.toList_intercalate,
    show ("/" : Text).toList = [.scalar '/'] from rfl, rootOf_append hroot (head?_intercalate hparts),
    splitSlashes_root hroot, pieces_intercalate hparts, List.map_map]
  exact congrArg (Path.mk root) (List.map_id parts)

/-! ## Temporary copies -/

theorem slash_not_mem_name {path : Path} (h : path.Normal) : .scalar '/' ∉ path.name.toList := by
  rw [name]
  cases hlast : path.parts.getLast? with
  | none => simp
  | some last => exact (h.parts last (List.mem_of_getLast? hlast)).2.2

theorem isPart_tempName {name : Text} (h : .scalar '/' ∉ name.toList) (token : Token) :
    IsPart (tempName token name) := by
  have hlist := toList_tempName token name
  refine ⟨?_, ?_, ?_⟩
  · intro hempty
    rw [hempty] at hlist
    simp [tempMark] at hlist
  · intro hdot
    rw [hdot] at hlist
    simp [tempMark] at hlist
  · rw [hlist]
    simp [tempMark, not_mem_integer (c := '/') rfl, not_mem_digits (c := '/') rfl, h]

theorem normal_tempPath {source : Path} (h : source.Normal) (token : Token) :
    (tempPath token source).Normal where
  root := h.root
  parts := by
    intro part hpart
    rw [tempPath, sibling, List.mem_append, List.mem_singleton] at hpart
    rcases hpart with hpart | rfl
    · exact h.parts part (List.dropLast_subset _ hpart)
    · exact isPart_tempName (slash_not_mem_name h) token

end Path

end LogRedaction
