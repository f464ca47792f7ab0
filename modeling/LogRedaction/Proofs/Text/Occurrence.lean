/-
LogRedaction.Proofs.Text.Occurrence — a text divided by a word in it.

The occurrences of a word in a text are looked for from the left, and each next one after the end
of the one before. `Occurrences` says which pieces of the text they leave between them: a piece is
followed by the word, and the word stands nowhere earlier (`First`).

When something else takes the place of the word, it can only join what it has a character in common
with. So a word that shares none with the replacement stands nowhere where it did not stand before
(`not_infix_replaced`), and still stands where it did if the word that is replaced has none of its
characters either (`infix_intercalate_iff`). For the same reason a text that was put together from a
word and pieces without its characters is divided into these pieces again:
`occurrences_intercalate`.

## §1 The first occurrence
## §2 All occurrences
## §3 Pieces without a character of the word
## §4 What stands in a text after a replacement
## §5 The first of two words
-/
import Mathlib.Data.List.Infix

namespace LogRedaction.Text

variable {α : Type}

/-! ## §1 The first occurrence -/

/-- The word after the piece is the first one in the text that the three make up. -/
def First (word piece rest : List α) : Prop :=
  ∀ a b, piece ++ word ++ rest = a ++ word ++ b → piece.length ≤ a.length

theorem exists_first {word text : List α} (h : word <:+: text) :
    ∃ piece rest, text = piece ++ word ++ rest ∧ First word piece rest := by
  induction text with
  | nil =>
      obtain rfl : word = [] := List.eq_nil_of_infix_nil h
      exact ⟨[], [], rfl, fun _ _ _ => Nat.zero_le _⟩
  | cons c text ih =>
      by_cases hstart : word <+: c :: text
      · obtain ⟨rest, hrest⟩ := hstart
        exact ⟨[], rest, hrest.symm, fun _ _ _ => Nat.zero_le _⟩
      have htail : word <:+: text := (List.infix_cons_iff.mp h).resolve_left hstart
      obtain ⟨piece, rest, rfl, hfirst⟩ := ih htail
      refine ⟨c :: piece, rest, rfl, fun a b hab => ?_⟩
      cases a with
      | nil => exact absurd ⟨b, hab.symm⟩ hstart
      | cons d a => exact Nat.succ_le_succ (hfirst a b (List.cons.inj hab).2)

theorem not_prefix_of_first {word piece rest : List α} {c : α}
    (h : First word (c :: piece) rest) : ¬ word <+: c :: piece ++ word ++ rest := by
  rintro ⟨b, hb⟩
  exact absurd (h [] b hb.symm) (Nat.not_succ_le_zero _)

theorem first_of_cons {word piece rest : List α} {c : α}
    (h : First word (c :: piece) rest) : First word piece rest :=
  fun a b hab => Nat.le_of_succ_le_succ (h (c :: a) b (congrArg (c :: ·) hab))

/-- The word stands nowhere in a piece before the first one. -/
theorem not_infix_of_first {word piece rest : List α} (hword : word ≠ [])
    (h : First word piece rest) : ¬ word <:+: piece := by
  rintro ⟨a, b, rfl⟩
  have hle := h a (b ++ word ++ rest) (by simp only [List.append_assoc])
  have hpos := List.length_pos_of_ne_nil hword
  simp only [List.length_append] at hle
  omega

/-- The word is the first one if it stands nowhere in the text up to its last character. What
follows does not matter. -/
theorem first_iff {word piece rest : List α} (hword : word ≠ []) :
    First word piece rest ↔ ¬ word <:+: piece ++ word.dropLast := by
  have hpos := List.length_pos_of_ne_nil hword
  constructor
  · rintro h ⟨a, b, hab⟩
    have hlonger : piece ++ word ++ rest = a ++ word ++ (b ++ [word.getLast hword] ++ rest) := by
      have hlast := List.dropLast_append_getLast hword
      calc piece ++ word ++ rest
        _ = piece ++ (word.dropLast ++ [word.getLast hword]) ++ rest := by rw [hlast]
        _ = a ++ word ++ (b ++ [word.getLast hword] ++ rest) := by
          rw [← List.append_assoc piece, ← hab]
          simp only [List.append_assoc]
    have hle := h a _ hlonger
    have hlength := congrArg List.length hab
    simp only [List.length_append, List.length_dropLast] at hlength
    omega
  · intro h a b hab
    by_contra hlt
    have hwhole : a ++ word <+: piece ++ word ++ rest := ⟨b, hab.symm⟩
    have hpart : piece ++ word.dropLast <+: piece ++ word ++ rest := by
      rw [List.append_assoc, List.prefix_append_right_inj]
      exact (List.dropLast_prefix word).trans (List.prefix_append ..)
    have hwithin : a ++ word <+: piece ++ word.dropLast := by
      refine List.prefix_of_prefix_length_le hwhole hpart ?_
      simp only [List.length_append, List.length_dropLast]
      omega
    exact h ((List.suffix_append a word).isInfix.trans hwithin.isInfix)

theorem First.congr {word piece rest : List α} (hword : word ≠ []) (h : First word piece rest)
    (other : List α) : First word piece other :=
  (first_iff hword).mpr ((first_iff hword).mp h)

theorem length_rest_lt {word : List α} (hword : word ≠ []) (piece rest : List α) :
    rest.length < (piece ++ word ++ rest).length := by
  have hpos := List.length_pos_of_ne_nil hword
  simp only [List.length_append]
  omega

/-! ## §2 All occurrences -/

/-- The pieces that the occurrences of a word leave of a text. -/
inductive Occurrences (word : List α) : List α → List (List α) → Prop where
  | none {text : List α} : ¬ word <:+: text → Occurrences word text [text]
  | next {piece rest : List α} {pieces : List (List α)} :
      First word piece rest → Occurrences word rest pieces →
      Occurrences word (piece ++ word ++ rest) (piece :: pieces)

theorem exists_occurrences {word : List α} (hword : word ≠ []) (text : List α) :
    ∃ pieces, Occurrences word text pieces := by
  induction hn : text.length using Nat.strong_induction_on generalizing text with
  | _ n ih =>
      subst hn
      by_cases h : word <:+: text
      · obtain ⟨piece, rest, rfl, hfirst⟩ := exists_first h
        obtain ⟨pieces, hpieces⟩ := ih _ (length_rest_lt hword piece rest) rest rfl
        exact ⟨piece :: pieces, .next hfirst hpieces⟩
      · exact ⟨[text], .none h⟩

section Occurrences

variable {word text : List α} {pieces : List (List α)} (h : Occurrences word text pieces)
include h

theorem ne_nil_of_occurrences : pieces ≠ [] := by
  cases h <;> exact List.cons_ne_nil _ _

/-- The pieces with the word between them are the text. -/
theorem intercalate_of_occurrences : word.intercalate pieces = text := by
  induction h with
  | none _ => exact List.intercalate_singleton
  | next _ hmore ih =>
      rw [List.intercalate_cons_of_ne_nil (ne_nil_of_occurrences hmore), ih]

theorem not_infix_of_occurrences (hword : word ≠ []) : ∀ piece ∈ pieces, ¬ word <:+: piece := by
  induction h with
  | none hnone =>
      intro piece hpiece
      rwa [List.mem_singleton.mp hpiece]
  | next hfirst _ ih =>
      intro piece hpiece
      rcases List.mem_cons.mp hpiece with rfl | hpiece
      · exact not_infix_of_first hword hfirst
      · exact ih piece hpiece

/-- Where the word stands, its replacement takes its place. -/
theorem infix_intercalate_of_occurrences (hword : word <:+: text) (replacement : List α) :
    replacement <:+: replacement.intercalate pieces := by
  cases h with
  | none hnone => exact absurd hword hnone
  | next _ hmore =>
      rw [List.intercalate_cons_of_ne_nil (ne_nil_of_occurrences hmore)]
      exact ⟨_, _, rfl⟩

end Occurrences

/-! ## §3 Pieces without a character of the word -/

/-- The word is the first one after a piece that has none of its characters. -/
theorem first_of_disjoint {word piece : List α} (hword : word ≠ [])
    (hdisjoint : ∀ c ∈ piece, c ∉ word) (rest : List α) : First word piece rest := by
  intro a b hab
  by_contra hlt
  obtain ⟨c, more, rfl⟩ := List.exists_cons_of_ne_nil hword
  rw [List.append_assoc, List.append_assoc] at hab
  rcases List.append_eq_append_iff.mp hab with ⟨gap, rfl, -⟩ | ⟨gap, rfl, hgap⟩
  · simp at hlt
  · -- The word begins inside the piece.
    cases gap with
    | nil => simp at hlt
    | cons d gap =>
        obtain ⟨rfl, -⟩ := List.cons.inj hgap
        exact hdisjoint c (by simp) (by simp)

/-- A text that is put together with the word between pieces is divided into these again, if they
have none of its characters. -/
theorem occurrences_intercalate {word : List α} (hword : word ≠ []) {pieces : List (List α)}
    (hpieces : pieces ≠ []) (hdisjoint : ∀ piece ∈ pieces, ∀ c ∈ piece, c ∉ word) :
    Occurrences word (word.intercalate pieces) pieces := by
  induction pieces with
  | nil => exact absurd rfl hpieces
  | cons piece pieces ih =>
      have hpiece := hdisjoint piece (by simp)
      cases pieces with
      | nil =>
          rw [List.intercalate_singleton]
          refine .none fun hwithin => ?_
          obtain ⟨c, more, rfl⟩ := List.exists_cons_of_ne_nil hword
          exact hpiece c (hwithin.subset (by simp)) (by simp)
      | cons other pieces =>
          rw [List.intercalate_cons_of_ne_nil (List.cons_ne_nil _ _)]
          exact .next (first_of_disjoint hword hpiece _)
            (ih (List.cons_ne_nil _ _) fun p hp => hdisjoint p (List.mem_cons_of_mem _ hp))

/-! ## §4 What stands in a text after a replacement -/

/-- A word stands on one side of a character that it does not have. -/
theorem infix_of_infix_append_cons {word a b : List α} {c : α} (hc : c ∉ word)
    (h : word <:+: a ++ c :: b) : word <:+: a ∨ word <:+: b := by
  rcases List.infix_append_iff.mp h with ha | hcons | ⟨front, back, rfl, hfront, hback⟩
  · exact .inl ha
  · refine (List.infix_cons_iff.mp hcons).elim (fun hprefix => ?_) .inr
    cases word with
    | nil => exact .inr (List.nil_infix)
    | cons d word =>
        obtain ⟨rfl, -⟩ := List.cons_prefix_cons.mp hprefix
        exact absurd (List.mem_cons_self ..) hc
  · cases back with
    | nil => exact .inl (by simpa using hfront.isInfix)
    | cons d back =>
        obtain ⟨rfl, -⟩ := List.cons_prefix_cons.mp hback
        exact absurd (by simp) hc

/-- A word stands on one side of a text that has none of its characters. -/
theorem infix_of_infix_append {word filler : List α} (hfiller : filler ≠ [])
    (hdisjoint : ∀ c ∈ filler, c ∉ word) {a b : List α} (h : word <:+: a ++ filler ++ b) :
    word <:+: a ∨ word <:+: b := by
  induction filler generalizing a with
  | nil => exact absurd rfl hfiller
  | cons c filler ih =>
      rw [List.append_assoc, List.cons_append] at h
      refine (infix_of_infix_append_cons (hdisjoint c (by simp)) h).elim .inl fun hmore => ?_
      by_cases hnil : filler = []
      · subst hnil
        exact .inr hmore
      · refine (ih hnil (fun d hd => hdisjoint d (by simp [hd])) (a := []) hmore).imp_left ?_
        exact fun hempty => hempty.trans List.nil_infix

theorem infix_of_infix_intercalate {word filler : List α} (hword : word ≠ [])
    (hfiller : filler ≠ []) (hdisjoint : ∀ c ∈ filler, c ∉ word) {pieces : List (List α)}
    (h : word <:+: filler.intercalate pieces) : ∃ piece ∈ pieces, word <:+: piece := by
  induction pieces with
  | nil => exact absurd (List.eq_nil_of_infix_nil h) hword
  | cons piece pieces ih =>
      by_cases hmore : pieces = []
      · subst hmore
        rw [List.intercalate_singleton] at h
        exact ⟨piece, by simp, h⟩
      rw [List.intercalate_cons_of_ne_nil hmore] at h
      rcases infix_of_infix_append hfiller hdisjoint h with hpiece | hrest
      · exact ⟨piece, by simp, hpiece⟩
      · obtain ⟨other, hother, hwithin⟩ := ih hrest
        exact ⟨other, by simp [hother], hwithin⟩

/-- The filler neither takes the word away from a piece nor lets it stand across. -/
theorem infix_intercalate_iff {word filler : List α} (hword : word ≠ [])
    (hfiller : filler ≠ []) (hdisjoint : ∀ c ∈ filler, c ∉ word) {pieces : List (List α)} :
    word <:+: filler.intercalate pieces ↔ ∃ piece ∈ pieces, word <:+: piece := by
  refine ⟨infix_of_infix_intercalate hword hfiller hdisjoint, ?_⟩
  rintro ⟨piece, hpiece, hwithin⟩
  refine hwithin.trans ?_
  clear hwithin
  induction pieces with
  | nil => cases hpiece
  | cons first pieces ih =>
      rcases pieces with _ | ⟨second, pieces⟩
      · rw [List.intercalate_singleton, List.mem_singleton.mp hpiece]
      rw [List.intercalate_cons_of_ne_nil (List.cons_ne_nil _ _)]
      rcases List.mem_cons.mp hpiece with rfl | hpiece
      · exact ⟨[], filler ++ filler.intercalate (second :: pieces), by simp⟩
      · exact (ih hpiece).trans (List.suffix_append ..).isInfix

/-- A word that does not stand before a filler is not found there, nor across the filler. -/
theorem First.behind {word filler before piece rest : List α} (hword : word ≠ [])
    (hfiller : filler ≠ []) (hdisjoint : ∀ c ∈ filler, c ∉ word) (hbefore : ¬ word <:+: before)
    (h : First word piece rest) : First word (before ++ filler ++ piece) rest := by
  rw [first_iff hword, List.append_assoc]
  intro hfound
  rcases infix_of_infix_append hfiller hdisjoint hfound with hleft | hright
  · exact hbefore hleft
  · exact (first_iff hword).mp h hright

section Occurrences

variable {word text : List α} {pieces : List (List α)} (h : Occurrences word text pieces)
include h

theorem isInfix_of_mem_occurrences : ∀ piece ∈ pieces, piece <:+: text := by
  induction h with
  | none _ =>
      intro piece hpiece
      rw [List.mem_singleton.mp hpiece]
  | @next piece rest pieces _ _ ih =>
      intro other hother
      rcases List.mem_cons.mp hother with rfl | hother
      · exact ⟨[], word ++ rest, by simp⟩
      · exact (ih other hother).trans ⟨piece ++ word, [], by simp⟩

/-- Replacing a word creates no other one that the replacement shares no character with. -/
theorem not_infix_replaced {other filler : List α} (hother : other ≠ []) (hfiller : filler ≠ [])
    (hdisjoint : ∀ c ∈ filler, c ∉ other) (hnone : ¬ other <:+: text) :
    ¬ other <:+: filler.intercalate pieces := by
  intro hfound
  obtain ⟨piece, hpiece, hwithin⟩ := infix_of_infix_intercalate hother hfiller hdisjoint hfound
  exact hnone (hwithin.trans (isInfix_of_mem_occurrences h piece hpiece))

end Occurrences

/-! ## §5 The first of two words -/

/-- Neither of two words stands in the text, or one of them stands before the other one does. -/
theorem first_of_two {u v : List α} (hu : u ≠ []) (hv : v ≠ []) (text : List α) :
    (¬ u <:+: text ∧ ¬ v <:+: text) ∨
      (∃ piece rest, text = piece ++ u ++ rest ∧ First u piece rest ∧ ¬ v <:+: piece) ∨
      ∃ piece rest, text = piece ++ v ++ rest ∧ First v piece rest ∧ ¬ u <:+: piece := by
  by_cases hlast : v <:+: text
  · obtain ⟨piece, rest, rfl, hpiece⟩ := exists_first hlast
    by_cases hearlier : u <:+: piece
    · obtain ⟨piece, between, rfl, hfirst⟩ := exists_first hearlier
      have hnone : ¬ v <:+: piece := fun hwithin =>
        not_infix_of_first hv hpiece (hwithin.trans ⟨[], u ++ between, by simp⟩)
      exact .inr (.inl ⟨piece, between ++ v ++ rest, by simp only [List.append_assoc],
        hfirst.congr hu _, hnone⟩)
    · exact .inr (.inr ⟨piece, rest, rfl, hpiece, hearlier⟩)
  · by_cases hstands : u <:+: text
    · obtain ⟨piece, rest, rfl, hpiece⟩ := exists_first hstands
      refine .inr (.inl ⟨piece, rest, rfl, hpiece, fun hwithin => hlast ?_⟩)
      exact hwithin.trans ⟨[], u ++ rest, by simp⟩
    · exact .inl ⟨hstands, hlast⟩

end LogRedaction.Text
