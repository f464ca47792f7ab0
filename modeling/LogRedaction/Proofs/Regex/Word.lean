/-
LogRedaction.Proofs.Regex.Word — expressions that match one word.

An expression that is a sequence of literals, and that does not ignore case, matches its word and
nothing else. There is nothing to choose on the way, so matching is a comparison with what follows a
position (`run_literals`, `run_literals_of_not_isPrefix`), the first match is the first place where
the word stands, and cutting a text by the matches is dividing it by the word:
`replace_of_occurrences`.

Two words without a common character are replaced in either order (`replace_comm`). What the one
leaves in the place of its word stands apart from the other one, so replacing goes on before and
behind it as if the text were cut there: `replace_around`.

## §1 Matching at a position
## §2 The first match
## §3 All matches
## §4 Two words
-/
import LogRedaction.Proofs.Text.Occurrence
import LogRedaction.Regex.Search

namespace LogRedaction.Regex

open Text

/-- The characters of a word as patterns. -/
def literals (word : List CodePoint) : List Pattern := word.map fun c => .literal c.toNat

/-- The expression is the word. -/
structure IsWord (regex : Regex) (word : List CodePoint) : Prop where
  pattern : regex.pattern = .ofList (literals word)
  folding : regex.flags.folding = .exact

/-! ## §1 Matching at a position -/

/-- The position behind a word that stands there. -/
def Cursor.past (c : Cursor) (word rest : List CodePoint) : Cursor :=
  ⟨word.reverse ++ c.before, rest, c.index + word.length⟩

theorem upTo_past {c : Cursor} {piece rest : List CodePoint} (hafter : c.after = piece ++ rest) :
    c.upTo (c.past piece rest) = piece := by
  simp [Cursor.upTo, Cursor.past, hafter]

theorem run_ofList_cons (flags : Flags) (p : Pattern) (rest : List Pattern) (k : Continuation) :
    (Pattern.ofList (p :: rest)).run flags k = p.run flags ((Pattern.ofList rest).run flags k) := by
  cases rest <;> rfl

theorem literal_exact (c d : CodePoint) : Folding.exact.literal c.toNat d.toNat = (d == c) := by
  by_cases h : d = c
  · subst h
    simp [Folding.literal, Folding.hasCase]
  · have hcode : d.toNat ≠ c.toNat := fun hcode => h (CodePoint.toNat_inj.mp hcode)
    simp [Folding.literal, Folding.hasCase, h, hcode]

section Matching

variable {flags : Flags} (hflags : flags.folding = .exact)
include hflags

theorem run_literals (k : Continuation) (word before rest : List CodePoint) (index : Nat)
    (captures : Array Capture) :
    (Pattern.ofList (literals word)).run flags k ⟨⟨before, word ++ rest, index⟩, captures⟩ =
      k ⟨Cursor.past ⟨before, word ++ rest, index⟩ word rest, captures⟩ := by
  induction word generalizing before index with
  | nil => rfl
  | cons c word ih =>
      rw [literals, List.map_cons, run_ofList_cons, Pattern.run]
      simp only [Cursor.step?, Cursor.next?, List.cons_append, hflags, literal_exact,
        beq_self_eq_true, if_true, Option.bind_some, State.moveTo]
      refine (ih (c :: before) (index + 1)).trans ?_
      simp [Cursor.past, Nat.add_assoc, Nat.add_comm 1]

theorem run_literals_of_not_isPrefix (k : Continuation) {word after : List CodePoint}
    (h : ¬ word <+: after) (before : List CodePoint) (index : Nat) (captures : Array Capture) :
    (Pattern.ofList (literals word)).run flags k ⟨⟨before, after, index⟩, captures⟩ = none := by
  induction word generalizing before after index with
  | nil => exact absurd List.nil_prefix h
  | cons c word ih =>
      rw [literals, List.map_cons, run_ofList_cons, Pattern.run]
      cases after with
      | nil => rfl
      | cons d after =>
          simp only [Cursor.step?, Cursor.next?, hflags, literal_exact]
          by_cases hd : d = c
          · subst hd
            have htail : ¬ word <+: after :=
              fun hword => h (List.cons_prefix_cons.mpr ⟨rfl, hword⟩)
            rw [beq_self_eq_true, if_pos rfl]
            exact ih htail (d :: before) (index + 1)
          · rw [beq_eq_false_iff_ne.mpr hd, if_neg Bool.false_ne_true]
            rfl

end Matching

theorem fill_cons (cut : Cut) (kept found replacement : List CodePoint) :
    Cut.fill { cut with parts := (kept, found) :: cut.parts } replacement =
      kept ++ replacement ++ cut.fill replacement := by
  simp [Cut.fill]

section Word

variable {regex : Regex} {word : List CodePoint} (h : regex.IsWord word)
include h

theorem IsWord.matchAt?_word (hword : word ≠ []) (nonempty : Bool) (before rest : List CodePoint)
    (index : Nat) :
    regex.matchAt? nonempty ⟨before, word ++ rest, index⟩ =
      some (Cursor.past ⟨before, word ++ rest, index⟩ word rest) := by
  have hpos := List.length_pos_of_ne_nil hword
  have hmoved : ((Cursor.past ⟨before, word ++ rest, index⟩ word rest).index == index) = false := by
    simp [Cursor.past]
    omega
  simp only [matchAt?, h.pattern, run_literals h.folding, hmoved, Bool.and_false,
    Bool.false_eq_true, if_false, Option.map_some]

theorem IsWord.matchAt?_of_not_isPrefix {after : List CodePoint} (hnone : ¬ word <+: after)
    (nonempty : Bool) (before : List CodePoint) (index : Nat) :
    regex.matchAt? nonempty ⟨before, after, index⟩ = none := by
  simp only [matchAt?, h.pattern, run_literals_of_not_isPrefix h.folding _ hnone, Option.map_none]

/-! ## §2 The first match -/

theorem IsWord.findFrom?_of_not_isInfix {text : List CodePoint} (hnone : ¬ word <:+: text)
    (nonempty : Bool) (before : List CodePoint) (index : Nat) :
    regex.findFrom? nonempty before index text = none := by
  induction text generalizing nonempty before index with
  | nil =>
      rw [findFrom?, matchAt?_of_not_isPrefix h (fun hp => hnone hp.isInfix)]
      rfl
  | cons c text ih =>
      rw [findFrom?, matchAt?_of_not_isPrefix h (fun hp => hnone hp.isInfix)]
      exact ih (fun hi => hnone (List.infix_cons hi)) false _ _

theorem IsWord.findFrom?_of_first (hword : word ≠ []) {piece rest : List CodePoint}
    (hfirst : First word piece rest) (nonempty : Bool) (before : List CodePoint) (index : Nat) :
    let start := Cursor.past ⟨before, piece ++ word ++ rest, index⟩ piece (word ++ rest)
    regex.findFrom? nonempty before index (piece ++ word ++ rest) =
      some (start, start.past word rest) := by
  induction piece generalizing nonempty before index with
  | nil =>
      obtain ⟨c, more, rfl⟩ := List.exists_cons_of_ne_nil hword
      have hmatch := matchAt?_word h hword nonempty before rest index
      simp only [List.nil_append, List.cons_append] at hmatch ⊢
      rw [findFrom?, hmatch]
      rfl
  | cons c piece ih =>
      have hnone := matchAt?_of_not_isPrefix h (not_prefix_of_first hfirst) nonempty before index
      have ih := ih (first_of_cons hfirst) false (c :: before) (index + 1)
      simp only [List.cons_append] at hnone ⊢
      rw [findFrom?, hnone]
      refine ih.trans ?_
      simp [Cursor.past, Nat.add_assoc, Nat.add_comm 1]

theorem IsWord.occursIn_iff (hword : word ≠ []) (text : List CodePoint) :
    regex.occursIn text = true ↔ word <:+: text := by
  rw [occursIn]
  constructor
  · intro hsome
    by_contra hnone
    rw [findFrom?_of_not_isInfix h hnone] at hsome
    exact Bool.false_ne_true hsome
  · intro hwithin
    obtain ⟨piece, rest, rfl, hfirst⟩ := exists_first hwithin
    rw [findFrom?_of_first h hword hfirst]
    rfl

/-! ## §3 All matches -/

theorem IsWord.fill_cutFrom (hword : word ≠ []) (replacement : List CodePoint) {text : List CodePoint}
    {pieces : List (List CodePoint)} (hpieces : Occurrences word text pieces) :
    ∀ {fuel : Nat}, text.length < fuel → ∀ (nonempty : Bool) (before : List CodePoint) (index : Nat),
      (regex.cutFrom fuel nonempty ⟨before, text, index⟩).fill replacement =
        replacement.intercalate pieces := by
  induction hpieces with
  | none hnone =>
      intro fuel hfuel nonempty before index
      obtain ⟨fuel, rfl⟩ := Nat.exists_eq_succ_of_ne_zero (Nat.ne_zero_of_lt hfuel)
      rw [cutFrom, findFrom?_of_not_isInfix h hnone, List.intercalate_singleton]
      rfl
  | @next piece rest pieces hfirst hmore ih =>
      intro fuel hfuel nonempty before index
      obtain ⟨fuel, rfl⟩ := Nat.exists_eq_succ_of_ne_zero (Nat.ne_zero_of_lt hfuel)
      have hshorter : rest.length < fuel :=
        (length_rest_lt hword piece rest).trans_le (Nat.le_of_lt_succ hfuel)
      have hmatch := findFrom?_of_first h hword hfirst nonempty before index
      rw [cutFrom]
      simp only [hmatch]
      rw [fill_cons, upTo_past (List.append_assoc piece word rest),
        List.intercalate_cons_of_ne_nil (ne_nil_of_occurrences hmore)]
      exact congrArg (piece ++ replacement ++ ·) (ih hshorter _ _ _)

/-- Replacing the matches is replacing the occurrences of the word. -/
theorem IsWord.replace_of_occurrences (hword : word ≠ []) {text : List CodePoint}
    {pieces : List (List CodePoint)} (hpieces : Occurrences word text pieces)
    (replacement : List CodePoint) :
    regex.replace replacement text = replacement.intercalate pieces :=
  fill_cutFrom h hword replacement hpieces (by omega) false [] 0

section

variable (hword : word ≠ [])
include hword

theorem IsWord.replace_of_not_infix {text : List CodePoint} (hnone : ¬ word <:+: text)
    (replacement : List CodePoint) : regex.replace replacement text = text := by
  rw [h.replace_of_occurrences hword (.none hnone), List.intercalate_singleton]

theorem IsWord.replace_of_first {piece rest : List CodePoint} (hfirst : First word piece rest)
    (replacement : List CodePoint) :
    regex.replace replacement (piece ++ word ++ rest) =
      piece ++ replacement ++ regex.replace replacement rest := by
  obtain ⟨pieces, hpieces⟩ := exists_occurrences hword rest
  rw [h.replace_of_occurrences hword (.next hfirst hpieces),
    h.replace_of_occurrences hword hpieces,
    List.intercalate_cons_of_ne_nil (ne_nil_of_occurrences hpieces)]

/-- Nothing is found across a filler that has no character of the word. -/
theorem IsWord.replace_around {filler : List CodePoint} (hfiller : filler ≠ [])
    (hdisjoint : ∀ c ∈ filler, c ∉ word) (replacement before after : List CodePoint) :
    regex.replace replacement (before ++ filler ++ after) =
      regex.replace replacement before ++ filler ++ regex.replace replacement after := by
  obtain ⟨pieces, hpieces⟩ := exists_occurrences hword before
  induction hpieces with
  | @none before hbefore =>
      rw [h.replace_of_not_infix hword hbefore]
      by_cases hafter : word <:+: after
      · obtain ⟨piece, rest, rfl, hfirst⟩ := exists_first hafter
        have hbehind := hfirst.behind hword hfiller hdisjoint hbefore
        rw [h.replace_of_first hword hfirst]
        have := h.replace_of_first hword hbehind replacement
        simpa only [List.append_assoc] using this
      · have hnone : ¬ word <:+: before ++ filler ++ after := fun hfound =>
          (infix_of_infix_append hfiller hdisjoint hfound).elim hbefore hafter
        rw [h.replace_of_not_infix hword hnone, h.replace_of_not_infix hword hafter]
  | @next piece rest pieces hfirst _ ih =>
      have hlonger := h.replace_of_first hword (hfirst.congr hword (rest ++ filler ++ after))
        replacement
      rw [ih] at hlonger
      rw [h.replace_of_first hword hfirst]
      simpa only [List.append_assoc] using hlonger

/-- Replacing a word neither makes another one nor takes it away, if the two have no character in
common and the replacement has none of the other. -/
theorem IsWord.infix_replace_iff {other replacement : List CodePoint} (hother : other ≠ [])
    (hreplacement : replacement ≠ []) (hword' : ∀ c ∈ word, c ∉ other)
    (hdisjoint : ∀ c ∈ replacement, c ∉ other) (text : List CodePoint) :
    other <:+: regex.replace replacement text ↔ other <:+: text := by
  obtain ⟨pieces, hpieces⟩ := exists_occurrences hword text
  rw [h.replace_of_occurrences hword hpieces, infix_intercalate_iff hother hreplacement hdisjoint,
    ← infix_intercalate_iff hother hword hword', intercalate_of_occurrences hpieces]

end

end Word

/-! ## §4 Two words -/

/-- Where the first of two words stands before the other one, both orders replace it, and go on
with the rest. -/
theorem IsWord.replace_comm_step {first second : Regex} {u v replacement : List CodePoint}
    (hfirst : first.IsWord u) (hsecond : second.IsWord v) (hu : u ≠ []) (hv : v ≠ [])
    (hreplacement : replacement ≠ []) (huv : ∀ c ∈ u, c ∉ v)
    (hdisjoint : ∀ c ∈ replacement, c ∉ v) {piece rest : List CodePoint} (hpiece : First u piece rest)
    (hnone : ¬ v <:+: piece)
    (hrest : first.replace replacement (second.replace replacement rest) =
      second.replace replacement (first.replace replacement rest)) :
    first.replace replacement (second.replace replacement (piece ++ u ++ rest)) =
      second.replace replacement (first.replace replacement (piece ++ u ++ rest)) := by
  calc first.replace replacement (second.replace replacement (piece ++ u ++ rest))
    _ = first.replace replacement (piece ++ u ++ second.replace replacement rest) := by
      rw [hsecond.replace_around hv hu huv, hsecond.replace_of_not_infix hv hnone]
    _ = piece ++ replacement ++ first.replace replacement (second.replace replacement rest) :=
      hfirst.replace_of_first hu (hpiece.congr hu _) replacement
    _ = piece ++ replacement ++ second.replace replacement (first.replace replacement rest) := by
      rw [hrest]
    _ = second.replace replacement (piece ++ replacement ++ first.replace replacement rest) := by
      rw [hsecond.replace_around hv hreplacement hdisjoint, hsecond.replace_of_not_infix hv hnone]
    _ = second.replace replacement (first.replace replacement (piece ++ u ++ rest)) := by
      rw [hfirst.replace_of_first hu hpiece]

/-- Two words without a common character are replaced in either order. -/
theorem IsWord.replace_comm {first second : Regex} {u v replacement : List CodePoint}
    (hfirst : first.IsWord u) (hsecond : second.IsWord v) (hu : u ≠ []) (hv : v ≠ [])
    (hreplacement : replacement ≠ []) (huv : ∀ c ∈ u, c ∉ v)
    (hdisjointu : ∀ c ∈ replacement, c ∉ u) (hdisjointv : ∀ c ∈ replacement, c ∉ v)
    (text : List CodePoint) :
    first.replace replacement (second.replace replacement text) =
      second.replace replacement (first.replace replacement text) := by
  have hvu : ∀ c ∈ v, c ∉ u := fun c hc hcu => huv c hcu hc
  induction hn : text.length using Nat.strong_induction_on generalizing text with
  | _ n ih =>
      subst hn
      rcases first_of_two hu hv text with
        ⟨hnou, hnov⟩ | ⟨piece, rest, rfl, hpiece, hnone⟩ | ⟨piece, rest, rfl, hpiece, hnone⟩
      · rw [hsecond.replace_of_not_infix hv hnov, hfirst.replace_of_not_infix hu hnou,
          hsecond.replace_of_not_infix hv hnov]
      · exact replace_comm_step hfirst hsecond hu hv hreplacement huv hdisjointv hpiece hnone
          (ih rest.length (length_rest_lt hu piece rest) rest rfl)
      · exact (replace_comm_step hsecond hfirst hv hu hreplacement hvu hdisjointu hpiece hnone
          (ih rest.length (length_rest_lt hv piece rest) rest rfl).symm).symm

end LogRedaction.Regex
