/-
LogRedaction.Proofs.Regex.Escaped — escaped text is an expression for the text.

Every character that could mean more than itself has a backslash before it when a text is escaped,
and a character after a backslash means itself unless it is a letter or a digit. So the units that
an escaped text is read in are the characters of the text again (`tokens_escape`), each becomes a
literal (`step_escapedUnit`), and the expression is the word that was escaped: `read_escape`. There
is no condition on the text.

## §1 Units
## §2 Steps
## §3 The whole expression
-/
import LogRedaction.Proofs.Regex.Plain
import LogRedaction.Regex.Escape

namespace LogRedaction.Regex

/-! ## §1 Units -/

/-- The unit of an escaped text that stands for a character. -/
def escapedUnit (c : CodePoint) : Token := if isSpecial c then .escaped c else .plain c

theorem isMeta_of_not_isSpecial {c : CodePoint} (h : isSpecial c = false) :
    isMeta c = false ∧ c ≠ .scalar '\x7b' ∧ c ≠ .scalar '\\' := by
  have hmeta : (".^$*+?[\\|()" : Text).toList.all isSpecial = true := by
    decide
  refine ⟨Bool.eq_false_iff.mpr fun hc => ?_, ?_, ?_⟩
  · rw [List.all_eq_true.mp hmeta c (List.contains_iff_mem.mp hc)] at h
    cases h
  · rintro rfl
    exact absurd h (by decide)
  · rintro rfl
    exact absurd h (by decide)

theorem tokens_escape (text : List CodePoint) :
    tokens (escape text) = (text.map escapedUnit, false) := by
  induction text with
  | nil => rfl
  | cons c rest ih =>
      rw [escape, List.flatMap_cons, List.map_cons, escapedUnit]
      change tokens (_ ++ escape rest) = _
      cases hspecial : isSpecial c with
      | true =>
          rw [if_pos rfl, if_pos rfl, List.cons_append, List.singleton_append, tokens, ih]
      | false =>
          obtain ⟨-, -, hne⟩ := isMeta_of_not_isSpecial hspecial
          rw [if_neg Bool.false_ne_true, if_neg Bool.false_ne_true, List.singleton_append, tokens,
            ih]
          · exact fun hc _ => hne hc
          · exact fun _ _ hc _ => hne hc

/-- An escaped text that is left to read. -/
def escapedSource (text : List CodePoint) (position : Nat) : Source :=
  ⟨text.map escapedUnit, position, false⟩

theorem advance_escapedSource (c : CodePoint) (rest : List CodePoint) (position : Nat) :
    (escapedSource (c :: rest) position).advance =
      .ok (escapedSource rest (position + (escapedUnit c).length)) := by
  simp [Source.advance, escapedSource, Source.settle]

/-! ## §2 Steps -/

section Steps

variable [Unicode.CharacterNames]

/-- A special character after a backslash means itself: it is no letter and no digit. -/
theorem readEscape_special {c : CodePoint} (h : isSpecial c = true) (groups : Groups)
    (source : Source) : readEscape groups source c = .ok (.literal c.toNat, source) := by
  have hmem : c ∈ ("()[]\x7b\x7d?*+-|^$\\.&~# \t\n\r\x0b\x0c" : Text).toList :=
    List.contains_iff_mem.mp h
  simp only [Text.toList_ofString, String.reduceToList, List.map_cons, List.map_nil, List.mem_cons,
    List.not_mem_nil, or_false] at hmem
  rcases hmem with rfl | rfl | rfl | rfl | rfl | rfl | rfl | rfl | rfl | rfl | rfl | rfl | rfl |
    rfl | rfl | rfl | rfl | rfl | rfl | rfl | rfl | rfl | rfl | rfl | rfl <;> rfl

/-- A unit of an escaped text is read as the character it stands for. -/
theorem step_escapedUnit {r : Reader} {c : CodePoint} {rest : List CodePoint} {position : Nat}
    (hsource : r.source = escapedSource (c :: rest) position) (hverbose : r.level.verbose = false) :
    r.step (escapedUnit c) = .ok ((r.resume (escapedSource rest
      (position + (escapedUnit c).length))).push (.literal c.toNat)) := by
  have hadvance := advance_escapedSource c rest position
  cases hspecial : isSpecial c with
  | true =>
      have hunit : escapedUnit c = .escaped c := if_pos hspecial
      rw [hunit] at hadvance ⊢
      rw [Reader.step, hsource, hadvance]
      simp only [bind, Except.bind, readEscape_special hspecial]
      rfl
  | false =>
      obtain ⟨hmeta, hbrace, -⟩ := isMeta_of_not_isSpecial hspecial
      have hunit : escapedUnit c = .plain c := if_neg (by simp [hspecial])
      rw [hunit] at hadvance ⊢
      rw [Reader.step]
      · simp only [hsource, hadvance, bind, Except.bind, hverbose, Bool.false_and,
          Bool.false_eq_true, if_false]
        exact stepPlain_literal hmeta hbrace _ _
      · exact ne_of_isMeta hmeta rfl
      · exact fun _ _ _ => ne_of_isMeta hmeta rfl

end Steps

theorem escapedUnit_ne_close (c : CodePoint) : escapedUnit c ≠ .plain (.scalar ')') := by
  cases hspecial : isSpecial c with
  | true => simp [escapedUnit, hspecial]
  | false =>
      rw [escapedUnit, if_neg (by simp [hspecial])]
      exact fun hc => ne_of_isMeta (isMeta_of_not_isSpecial hspecial).1 rfl (Token.plain.inj hc)

/-! ## §3 The whole expression -/

theorem open_notMem_escape (text : List CodePoint) :
    .plain (.scalar '(') ∉ (tokens (escape text)).1 := by
  rw [tokens_escape]
  intro hmem
  obtain ⟨c, -, hopen⟩ := List.mem_map.mp hmem
  unfold escapedUnit at hopen
  split at hopen
  · cases hopen
  · rename_i hspecial
    obtain rfl : c = .scalar '(' := Token.plain.inj hopen
    exact hspecial (by decide)

/-- The escaped text can be read as an expression, and is read as the text that was escaped. -/
theorem read_escape [Host] (text : List CodePoint) :
    ∃ regex, Regex.read (Text.ofList (escape text)) = .ok regex ∧ regex.IsWord text := by
  have hsource : Source.ofText (Text.ofList (escape text)).toList =
      .ok (escapedSource text 0) := by
    rw [Source.ofText, tokens_escape]
    simp [Source.settle, escapedSource]
  obtain ⟨position, hrun⟩ := run_units escapedUnit (P := fun _ => True)
    (fun c rest _ => ⟨trivial, escapedUnit_ne_close c, fun r position hsource hverbose =>
      ⟨_, step_escapedUnit hsource hverbose⟩⟩)
    trivial (r := { source := escapedSource text 0 }) (Nat.le_refl _) rfl rfl
  have hlength : (escapedSource text 0).rest.length = text.length := List.length_map _
  rw [@read_eq_parse _ (Text.ofList (escape text)) (open_notMem_escape text)]
  refine parse_of_run position hsource ?_
  rw [hlength, hrun, List.append_nil]

end LogRedaction.Regex
