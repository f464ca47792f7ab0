/-
LogRedaction.Proofs.Template — what a template takes from the values of placeholders.

A template asks for the values of the names that it mentions, and for no others. So it expands to
the same text, or fails in the same way, for any two mappings that agree on these names:
`expand_congr`.
-/
import LogRedaction.Identity

namespace LogRedaction

namespace Template

/-- The mappings give the same values to the names that the template mentions. -/
def Agree (a b : Mapping) (template : Text) : Prop :=
  ∀ name ∈ names template, a.lookup name = b.lookup name

theorem Piece.expand_congr {a b : Mapping} {piece : Piece}
    (h : ∀ name, piece.name? = some name → a.lookup name = b.lookup name) :
    piece.expand a = piece.expand b := by
  cases piece with
  | char c => rfl
  | placeholder name => rw [Piece.expand, Piece.expand, h _ rfl]
  | escaped name => rfl
  | unclosed name => rfl

theorem expandPieces_congr {a b : Mapping} {pieces : List Piece}
    (h : ∀ name ∈ pieces.filterMap Piece.name?, a.lookup name = b.lookup name) :
    expandPieces a pieces = expandPieces b pieces := by
  induction pieces with
  | nil => rfl
  | cons piece pieces ih =>
      have hpiece : piece.expand a = piece.expand b :=
        Piece.expand_congr fun name hname =>
          h name (List.mem_filterMap.mpr ⟨piece, List.mem_cons_self .., hname⟩)
      have hmore : expandPieces a pieces = expandPieces b pieces := by
        refine ih fun name hname => h name ?_
        obtain ⟨other, hother, hname⟩ := List.mem_filterMap.mp hname
        exact List.mem_filterMap.mpr ⟨other, List.mem_cons_of_mem _ hother, hname⟩
      rw [expandPieces, expandPieces, hpiece, hmore]

theorem expand_congr {a b : Mapping} {template : Text} (h : Agree a b template)
    (rule : Option Text) : expand a template rule = expand b template rule := by
  rw [expand, expand, expandPieces_congr h]

/-- The error names the rule whose template it is. -/
theorem rule_of_expand_error {mapping : Mapping} {template : Text} {rule : Option Text}
    {e : Unresolved} (h : expand mapping template rule = .error e) : e.rule = rule := by
  rw [expand] at h
  split at h
  · cases h
  · rw [← Except.error.inj h]

end Template

/-! ## The values of a user -/

theorem expand_username (identity : Identity) (key : Text) :
    Template.expand identity.mapping "$\x7busername\x7d" (some key) = .ok identity.username := by
  have hpieces : Template.pieces ("$\x7busername\x7d" : Text).toList =
      [.placeholder ("username" : Text).toList] := by decide +kernel
  have hname : Text.ofList ("username" : Text).toList = "username" := rfl
  rw [Template.expand, hpieces]
  simp only [Template.expandPieces, Template.Piece.expand, hname, Identity.mapping,
    List.lookup_cons_self, List.append_nil, Text.ofList_toList]

/-- Users who differ only in their names agree on every template that does not mention the name. -/
theorem agree_of_username_not_mem (identity : Identity) (username : Text) {template : Text}
    (h : ("username" : Text) ∉ Template.names template) :
    Template.Agree identity.mapping { identity with username }.mapping template := by
  intro name hname
  have hne : (name == "username") = false := by
    refine beq_eq_false_iff_ne.mpr ?_
    rintro rfl
    exact h hname
  simp only [Identity.mapping, List.lookup_cons, hne]

end LogRedaction
