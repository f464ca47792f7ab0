/-
LogRedaction.Proofs.Regex.Cut — what cutting a text by the matches of an expression keeps.

The matcher only moves ahead, so the next match begins at or after the end of the one before, and
the kept pieces and the matches between them make up the text again: `text_cut`. Replacing the
matches changes nothing where there is no match (`replace_of_not_occursIn`), and puts the
replacement where there is one (`infix_replace_of_occursIn`).

## §1 Matches
## §2 Cutting
-/
import LogRedaction.Proofs.Regex.Answer

namespace LogRedaction.Regex

/-! ## §1 Matches -/

theorem leadsTo_of_matchAt? {regex : Regex} {nonempty : Bool} {start stop : Cursor}
    (h : regex.matchAt? nonempty start = some stop) : start.LeadsTo stop := by
  obtain ⟨answer, hrun, rfl⟩ := Option.map_eq_some_iff.mp h
  obtain ⟨t, ht, -, haccept⟩ := regex.pattern.honest _ _ _ _ hrun
  split at haccept
  · cases haccept
  · rw [← Option.some.inj haccept]
    exact ht

theorem leadsTo_of_findFrom? {regex : Regex} {start stop : Cursor} :
    ∀ {after before : List CodePoint} {nonempty : Bool} {index : Nat},
      regex.findFrom? nonempty before index after = some (start, stop) →
      Cursor.LeadsTo ⟨before, after, index⟩ start ∧ start.LeadsTo stop
  | [], before, nonempty, index, h => by
      obtain ⟨c, hmatch, heq⟩ := Option.map_eq_some_iff.mp h
      obtain ⟨rfl, rfl⟩ := Prod.mk.inj heq
      exact ⟨.refl _, leadsTo_of_matchAt? hmatch⟩
  | x :: after, before, nonempty, index, h => by
      rw [findFrom?] at h
      split at h
      · rename_i hmatch
        obtain ⟨rfl, rfl⟩ := Prod.mk.inj (Option.some.inj h)
        exact ⟨.refl _, leadsTo_of_matchAt? hmatch⟩
      · obtain ⟨hstart, hstop⟩ := leadsTo_of_findFrom? h
        exact ⟨Cursor.LeadsTo.trans ⟨[x], rfl, rfl⟩ hstart, hstop⟩

/-! ## §2 Cutting -/

theorem text_cons (cut : Cut) (kept found : List CodePoint) :
    Cut.text { cut with parts := (kept, found) :: cut.parts } = kept ++ found ++ cut.text := by
  simp [Cut.text]

theorem text_cutFrom (regex : Regex) :
    ∀ (fuel : Nat) (nonempty : Bool) (c : Cursor), (regex.cutFrom fuel nonempty c).text = c.after
  | 0, _, _ => rfl
  | fuel + 1, nonempty, c => by
      rw [cutFrom]
      split
      · rfl
      · rename_i start stop hfind
        obtain ⟨hstart, hstop⟩ := leadsTo_of_findFrom? hfind
        simp only [text_cons, text_cutFrom regex fuel]
        rw [List.append_assoc, ← hstop.eq_past.1, ← hstart.eq_past.1]

/-- The kept pieces and the matches between them are the text. -/
theorem text_cut (regex : Regex) (text : List CodePoint) : (regex.cut text).text = text :=
  text_cutFrom regex _ _ _

/-- There is a match in the cut if there is one in the text. -/
theorem parts_cut_eq_nil_iff (regex : Regex) (text : List CodePoint) :
    (regex.cut text).parts = [] ↔ regex.occursIn text = false := by
  rw [cut, cutFrom, occursIn, Cursor.start]
  cases regex.findFrom? false [] 0 text <;> simp

/-- Where nothing matches nothing is replaced. -/
theorem replace_of_not_occursIn {regex : Regex} {text : List CodePoint}
    (h : regex.occursIn text = false) (replacement : List CodePoint) :
    regex.replace replacement text = text := by
  have hparts := (parts_cut_eq_nil_iff regex text).mpr h
  have htext := text_cut regex text
  rw [Cut.text, hparts] at htext
  rw [replace, Cut.fill, hparts]
  exact htext

/-- Nothing is in the result but what was in the text or is in the replacement. -/
theorem mem_replace {regex : Regex} {replacement text : List CodePoint} {c : CodePoint}
    (h : c ∈ regex.replace replacement text) : c ∈ replacement ∨ c ∈ text := by
  have hkept : ∀ d, (∃ part ∈ (regex.cut text).parts, d ∈ part.1) ∨ d ∈ (regex.cut text).rest →
      d ∈ text := by
    intro d hd
    rw [← text_cut regex text, Cut.text, List.mem_append, List.mem_flatMap]
    exact hd.imp_left fun ⟨part, hpart, hmem⟩ => ⟨part, hpart, List.mem_append_left _ hmem⟩
  rw [replace, Cut.fill, List.mem_append, List.mem_flatMap] at h
  rcases h with ⟨part, hpart, hmem⟩ | hrest
  · rcases List.mem_append.mp hmem with hmem | hmem
    · exact .inr (hkept c (.inl ⟨part, hpart, hmem⟩))
    · exact .inl hmem
  · exact .inr (hkept c (.inr hrest))

/-- Where something matches the replacement is put. -/
theorem infix_replace_of_occursIn {regex : Regex} {text : List CodePoint}
    (h : regex.occursIn text = true) (replacement : List CodePoint) :
    replacement <:+: regex.replace replacement text := by
  rw [replace, Cut.fill]
  cases hparts : (regex.cut text).parts with
  | nil =>
      rw [(parts_cut_eq_nil_iff regex text).mp hparts] at h
      cases h
  | cons part parts =>
      obtain ⟨kept, found⟩ := part
      rw [List.flatMap_cons, List.append_assoc]
      exact ⟨kept, _, rfl⟩

end LogRedaction.Regex
