/-
LogRedaction.Proofs.Regex.Span — the pieces of a text that an expression matches.

An expression matches a piece of a text if it reaches the end of the piece from its beginning
(`Regex.Matches`). This is about all the ways to match and not about the preferred one, which the
matcher answers with. Still a text has a match if and only if there is such a piece in it
(`occursIn_iff`), and the matches that it is cut at are such pieces (`matchedBy_cut`).

## §1 Pieces
## §2 Cuts
-/
import LogRedaction.Proofs.Regex.Cut

namespace LogRedaction.Regex

/-! ## §1 Pieces -/

/-- The expression as it is run from a position, with no group entered yet. -/
def runFrom (regex : Regex) (start : Cursor) (k : Continuation) : Option State :=
  regex.pattern.run regex.flags k ⟨start, Array.replicate regex.groups {}⟩

/-- The expression matches a piece of a text that stands between two others. -/
def Matches (regex : Regex) (before found after : List CodePoint) : Prop :=
  ∃ stop, Reaches (regex.runFrom ⟨before.reverse, found ++ after, before.length⟩) stop ∧
    stop.cursor = Cursor.past ⟨before.reverse, found ++ after, before.length⟩ found after

variable {regex : Regex}

/-- A match at a position is a piece that the expression matches. -/
theorem matches_of_matchAt? {nonempty : Bool} {start stop : Cursor}
    (hindex : start.index = start.before.length)
    (h : regex.matchAt? nonempty start = some stop) :
    regex.Matches start.before.reverse (start.upTo stop) stop.after := by
  obtain ⟨hafter, hstop⟩ := (leadsTo_of_matchAt? h).eq_past
  have hstart : (⟨start.before.reverse.reverse, start.upTo stop ++ stop.after,
      start.before.reverse.length⟩ : Cursor) = start := by
    rw [← hafter, List.reverse_reverse, List.length_reverse, ← hindex]
  obtain ⟨answer, hrun, rfl⟩ := Option.map_eq_some_iff.mp h
  obtain ⟨t, -, ht, haccept⟩ := regex.pattern.honest _ _ _ _ hrun
  rw [Matches, hstart]
  refine ⟨answer, ?_, hstop⟩
  split at haccept
  · cases haccept
  · rw [← Option.some.inj haccept]
    exact ht

/-- Where the expression matches a piece, there is a match. -/
theorem matchAt?_of_matches {before found after : List CodePoint}
    (h : regex.Matches before found after) :
    (regex.matchAt? false ⟨before.reverse, found ++ after, before.length⟩).isSome := by
  obtain ⟨stop, hreaches, -⟩ := h
  have hrun := hreaches some rfl
  rw [matchAt?, Option.isSome_map]
  exact hrun

/-- What is found is a match at its beginning. -/
theorem matchAt?_of_findFrom? {start stop : Cursor} :
    ∀ {after before : List CodePoint} {nonempty : Bool} {index : Nat},
      regex.findFrom? nonempty before index after = some (start, stop) →
      ∃ nonempty, regex.matchAt? nonempty start = some stop
  | [], before, nonempty, index, h => by
      obtain ⟨c, hmatch, heq⟩ := Option.map_eq_some_iff.mp h
      obtain ⟨rfl, rfl⟩ := Prod.mk.inj heq
      exact ⟨nonempty, hmatch⟩
  | x :: after, before, nonempty, index, h => by
      rw [findFrom?] at h
      split at h
      · rename_i hmatch
        obtain ⟨rfl, rfl⟩ := Prod.mk.inj (Option.some.inj h)
        exact ⟨nonempty, hmatch⟩
      · exact matchAt?_of_findFrom? h

/-- A match is found at or before each position that has one. -/
theorem findFrom?_of_matchAt? {skipped after : List CodePoint} :
    ∀ {before : List CodePoint} {index : Nat},
      (regex.matchAt? false ⟨skipped.reverse ++ before, after, index + skipped.length⟩).isSome →
      (regex.findFrom? false before index (skipped ++ after)).isSome := by
  induction skipped with
  | nil =>
      intro before index h
      obtain ⟨stop, hstop⟩ := Option.isSome_iff_exists.mp h
      simp only [List.reverse_nil, List.nil_append, List.length_nil, Nat.add_zero] at hstop ⊢
      cases after <;> simp [findFrom?, hstop]
  | cons x skipped ih =>
      intro before index h
      rw [List.cons_append, findFrom?]
      split
      · rfl
      · refine ih ?_
        rw [List.reverse_cons, List.append_assoc, List.singleton_append, List.length_cons] at h
        rw [Nat.add_assoc, Nat.add_comm 1]
        exact h

/-- An expression occurs in a text if it matches a piece of it. -/
theorem occursIn_iff {text : List CodePoint} : regex.occursIn text = true ↔
    ∃ before found after, text = before ++ found ++ after ∧ regex.Matches before found after := by
  rw [occursIn]
  constructor
  · intro h
    obtain ⟨⟨start, stop⟩, hfind⟩ := Option.isSome_iff_exists.mp h
    obtain ⟨nonempty, hmatch⟩ := matchAt?_of_findFrom? hfind
    obtain ⟨hstart, hstop⟩ := leadsTo_of_findFrom? hfind
    refine ⟨_, _, _, ?_, matches_of_matchAt? (hstart.index_eq rfl) hmatch⟩
    rw [List.append_assoc, ← hstop.eq_past.1, hstart.before_eq]
    exact hstart.eq_past.1
  · rintro ⟨before, found, after, rfl, hmatches⟩
    rw [List.append_assoc]
    refine findFrom?_of_matchAt? ?_
    rw [List.append_nil, Nat.zero_add]
    exact matchAt?_of_matches hmatches

end LogRedaction.Regex

namespace LogRedaction

/-! ## §2 Cuts -/

/-- The matches of a cut are pieces of the text that the expression matches. -/
def Cut.MatchedBy (regex : Regex) (cut : Cut) : Prop :=
  ∀ before kept found after, cut.parts = before ++ (kept, found) :: after →
    regex.Matches (Cut.text ⟨before, kept⟩) found (Cut.text ⟨after, cut.rest⟩)

namespace Regex

/-- From a position on, with what is before it. The induction is on the fuel; a part of the cut is
either the first or one of the cut after it. -/
theorem matches_of_cutFrom (regex : Regex) (fuel : Nat) (nonempty : Bool) (c : Cursor)
    (hindex : c.index = c.before.length) (before : List (List CodePoint × List CodePoint))
    (kept found : List CodePoint) (after : List (List CodePoint × List CodePoint))
    (h : (regex.cutFrom fuel nonempty c).parts = before ++ (kept, found) :: after) :
    regex.Matches (c.before.reverse ++ Cut.text ⟨before, kept⟩) found
      (Cut.text ⟨after, (regex.cutFrom fuel nonempty c).rest⟩) := by
  induction fuel generalizing nonempty c before with
  | zero => simp [cutFrom] at h
  | succ fuel ih =>
      rw [cutFrom] at h ⊢
      split at h
      · simp at h
      rename_i start stop hfind
      simp only at h ⊢
      obtain ⟨hstart, hstop⟩ := leadsTo_of_findFrom? hfind
      obtain ⟨flag, hmatch⟩ := matchAt?_of_findFrom? hfind
      have hstartIndex := hstart.index_eq hindex
      have hstartBefore := hstart.before_eq
      cases before with
      | nil =>
          obtain ⟨hpart, hmore⟩ := List.cons.inj h
          obtain ⟨rfl, rfl⟩ := Prod.mk.inj hpart
          have hmatches := matches_of_matchAt? hstartIndex hmatch
          have hrest := text_cutFrom regex fuel (start.index == stop.index) stop
          rw [Cut.text, hmore] at hrest
          rw [hstartBefore, ← hrest] at hmatches
          exact hmatches
      | cons part before =>
          obtain ⟨rfl, hmore⟩ := List.cons.inj h
          have hmatches := ih _ stop (hstop.index_eq hstartIndex) before hmore
          rw [hstop.before_eq, hstartBefore] at hmatches
          simpa [Cut.text] using hmatches

/-- A text is cut at pieces that the expression matches. -/
theorem matchedBy_cut (regex : Regex) (text : List CodePoint) : (regex.cut text).MatchedBy regex :=
  fun before kept found after h =>
    matches_of_cutFrom regex _ false (Cursor.start text) rfl before kept found after h

end Regex

end LogRedaction
