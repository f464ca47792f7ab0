/-
LogRedaction.Proofs.Regex.Plain — text that is an expression for itself.

Plain text has no character that an expression gives a meaning of its own, and no brace that begins
a count. A brace that begins none is a character like any other, so whether one is plain depends on
what follows it. The reader takes plain text character by character (`step_plain`), and what it has
read in the end is the word that the text is: `read_plain`.

## §1 Plain text
## §2 Sources
## §3 Counts
## §4 Steps
## §5 The whole expression
-/
import LogRedaction.Proofs.Regex.Word

namespace LogRedaction.Regex

/-! ## §1 Plain text -/

/-- The character means more than itself in an expression, wherever it stands. -/
def isMeta (c : CodePoint) : Bool :=
  (".^$*+?[\\|()" : Text).toList.contains c

/-- What is left after a count and a comma and a count, each of which may be missing. -/
def afterCounts (text : List CodePoint) : List CodePoint :=
  match text.dropWhile isDecimal with
  | .scalar ',' :: more => more.dropWhile isDecimal
  | rest => rest

/-- What follows an opening brace makes it a quantifier. -/
def opensCount (text : List CodePoint) : Bool :=
  text.head? != some (.scalar '\x7d') && (afterCounts text).head? == some (.scalar '\x7d')

/-- The text means itself when it is read as an expression. -/
def isPlain : List CodePoint → Bool
  | [] => true
  | c :: rest => !isMeta c && !(c == .scalar '\x7b' && opensCount rest) && isPlain rest

theorem isPlain_cons {c : CodePoint} {rest : List CodePoint} (h : isPlain (c :: rest) = true) :
    isMeta c = false ∧ (c = .scalar '\x7b' → opensCount rest = false) ∧ isPlain rest = true := by
  rw [isPlain] at h
  simp only [Bool.and_eq_true, Bool.not_eq_true', Bool.and_eq_false_iff, beq_eq_false_iff_ne] at h
  obtain ⟨⟨hmeta, hbrace⟩, hrest⟩ := h
  exact ⟨hmeta, fun hc => hbrace.resolve_left (fun hne => hne hc), hrest⟩

theorem isMeta_of_isPlain {text : List CodePoint} (h : isPlain text = true) :
    ∀ c ∈ text, isMeta c = false := by
  induction text with
  | nil => simp
  | cons c rest ih =>
      obtain ⟨hmeta, -, hrest⟩ := isPlain_cons h
      simpa [hmeta] using ih hrest

theorem dropWhile_append_of_head? {p : CodePoint → Bool} {text more : List CodePoint} {c : CodePoint}
    (h : (text.dropWhile p).head? = some c) :
    (text ++ more).dropWhile p = text.dropWhile p ++ more := by
  rw [List.dropWhile_append, if_neg]
  intro hempty
  rw [List.isEmpty_iff.mp hempty] at h
  exact absurd h (by simp)

theorem afterCounts_append {text : List CodePoint} {c : CodePoint}
    (h : (afterCounts text).head? = some c) (more : List CodePoint) : afterCounts (text ++ more) = afterCounts text ++ more := by
  unfold afterCounts at h ⊢
  split at h
  · rename_i rest hrest
    have hcomma : (text.dropWhile isDecimal).head? = some (.scalar ',') := by rw [hrest]; rfl
    rw [dropWhile_append_of_head? hcomma, hrest]
    exact dropWhile_append_of_head? h
  · rename_i hcomma
    rw [dropWhile_append_of_head? h]
    obtain ⟨rest, hrest⟩ := List.head?_eq_some_iff.mp h
    have hc : c ≠ .scalar ',' := by
      rintro rfl
      exact hcomma rest hrest
    rw [hrest]
    simp [hc]

theorem opensCount_append {text : List CodePoint} (h : opensCount text = true)
    (more : List CodePoint) : opensCount (text ++ more) = true := by
  simp only [opensCount, Bool.and_eq_true, bne_iff_ne, ne_eq, beq_iff_eq] at h ⊢
  obtain ⟨hfirst, hafter⟩ := h
  rw [afterCounts_append hafter]
  cases text with
  | nil => simp [afterCounts] at hafter
  | cons c rest => exact ⟨hfirst, by rw [List.head?_append, hafter]; rfl⟩

theorem isPlain_of_append {text more : List CodePoint} (h : isPlain (text ++ more) = true) :
    isPlain text = true := by
  induction text with
  | nil => rfl
  | cons c rest ih =>
      obtain ⟨hmeta, hcount, hrest⟩ := isPlain_cons h
      rw [isPlain, ih hrest, hmeta]
      by_cases hc : c = .scalar '\x7b'
      · have hopens : opensCount rest = false := by
          refine Bool.eq_false_iff.mpr fun htrue => ?_
          have hmore := opensCount_append htrue more
          exact absurd hmore (Bool.eq_false_iff.mp (hcount hc))
        simp [hopens]
      · simp [hc]

/-- The characters that mean more than themselves somewhere in an expression. -/
def metacharacters : List CodePoint :=
  [.scalar '.', .scalar '^', .scalar '$', .scalar '*', .scalar '+', .scalar '?', .scalar '\x7b',
    .scalar '\x7d', .scalar '[', .scalar ']', .scalar '\\', .scalar '|', .scalar '(', .scalar ')']

/-- Text without any of them is plain, also where a brace or a bracket would be. -/
theorem isPlain_of_forall_not_mem {text : List CodePoint} (h : ∀ c ∈ text, c ∉ metacharacters) :
    isPlain text = true := by
  induction text with
  | nil => rfl
  | cons c rest ih =>
      have hc := h c (List.mem_cons_self ..)
      have hrest := ih fun d hd => h d (List.mem_cons_of_mem _ hd)
      simp only [metacharacters, List.mem_cons, List.not_mem_nil, or_false, not_or] at hc
      rw [isPlain, hrest]
      simp [isMeta, hc]

/-- A part of plain text is plain. -/
theorem isPlain_of_isInfix {part text : List CodePoint} (h : isPlain text = true)
    (hpart : part <:+: text) : isPlain part = true := by
  obtain ⟨before, after, rfl⟩ := hpart
  induction before with
  | nil => exact isPlain_of_append h
  | cons c before ih => exact ih (isPlain_cons h).2.2

/-! ## §2 Sources -/

/-- Plain text that is left to read. -/
def plainSource (text : List CodePoint) (position : Nat) : Source :=
  ⟨text.map .plain, position, false⟩

theorem settle_plainSource (text : List CodePoint) (position : Nat) :
    (plainSource text position).settle = .ok (plainSource text position) := by
  simp [Source.settle, plainSource]

theorem advance_plainSource (c : CodePoint) (rest : List CodePoint) (position : Nat) :
    (plainSource (c :: rest) position).advance = .ok (plainSource rest (position + 1)) :=
  settle_plainSource rest (position + 1)

theorem next?_plainSource (c : CodePoint) (rest : List CodePoint) (position : Nat) :
    (plainSource (c :: rest) position).next? = some (.plain c) := rfl

theorem sees_plainSource (text : List CodePoint) (position : Nat) (c : CodePoint) :
    (plainSource text position).sees c = (text.head? == some c) := by
  cases text with
  | nil => rfl
  | cons d rest =>
      rw [Source.sees, Source.next?, plainSource, List.map_cons, List.head?_cons, List.head?_cons]
      by_cases h : d = c
      · subst h
        simp
      · simp [h]

theorem accept_plainSource_cons (c : CodePoint) (rest : List CodePoint) (position : Nat) :
    (plainSource (c :: rest) position).accept c = .ok (true, plainSource rest (position + 1)) := by
  rw [Source.accept, sees_plainSource, List.head?_cons, beq_self_eq_true, if_pos rfl,
    advance_plainSource]
  rfl

theorem accept_plainSource_of_ne {text : List CodePoint} {c : CodePoint} (h : text.head? ≠ some c)
    (position : Nat) :
    (plainSource text position).accept c = .ok (false, plainSource text position) := by
  rw [Source.accept, sees_plainSource, beq_eq_false_iff_ne.mpr h, if_neg Bool.false_ne_true]
  rfl

theorem takeWhile_plainSource (inClass : CodePoint → Bool) (text : List CodePoint) (position : Nat)
    {most : Nat} (hmost : text.length ≤ most) :
    ∃ position', (plainSource text position).takeWhile inClass most =
      .ok (text.takeWhile inClass, plainSource (text.dropWhile inClass) position') := by
  induction text generalizing position most with
  | nil =>
      refine ⟨position, ?_⟩
      cases most <;> rfl
  | cons c rest ih =>
      obtain ⟨most, rfl⟩ := Nat.exists_eq_succ_of_ne_zero (Nat.ne_zero_of_lt hmost)
      by_cases hc : inClass c
      · obtain ⟨position', hrest⟩ := ih (position + 1) (Nat.le_of_succ_le_succ hmost)
        refine ⟨position', ?_⟩
        rw [List.takeWhile_cons_of_pos hc, List.dropWhile_cons_of_pos hc, Source.takeWhile]
        simp only [next?_plainSource, if_pos hc, advance_plainSource, bind, Except.bind, hrest]
        rfl
      · refine ⟨position, ?_⟩
        rw [List.takeWhile_cons_of_neg hc, List.dropWhile_cons_of_neg hc, Source.takeWhile]
        simp only [next?_plainSource, if_neg hc]
        rfl

theorem readDigits_plainSource (text : List CodePoint) (position : Nat) :
    ∃ position', readDigits (plainSource text position) =
      .ok (text.takeWhile isDecimal, plainSource (text.dropWhile isDecimal) position') := by
  rw [readDigits, plainSource, List.length_map]
  exact takeWhile_plainSource isDecimal text position (Nat.le_refl _)

/-! ## §3 Counts -/

/-- A brace that opens no count is left where it is. -/
theorem readBounds_plainSource {text : List CodePoint} (h : opensCount text = false) (position : Nat) :
    readBounds (plainSource text position) = .ok none := by
  rw [readBounds, sees_plainSource]
  by_cases hclosed : text.head? = some (.scalar '\x7d')
  · simp [hclosed, pure, Except.pure]
  have hsees : (text.head? == some (.scalar '\x7d')) = false := beq_eq_false_iff_ne.mpr hclosed
  have hafter : (afterCounts text).head? ≠ some (.scalar '\x7d') := by
    simpa [opensCount, hclosed] using h
  obtain ⟨position₁, hlow⟩ := readDigits_plainSource text position
  simp only [hsees, Bool.false_eq_true, if_false, hlow, bind, Except.bind]
  rw [afterCounts] at hafter
  split at hafter
  · rename_i more hmore
    obtain ⟨position₂, hhigh⟩ := readDigits_plainSource more (position₁ + 1)
    simp only [hmore, accept_plainSource_cons, if_true, hhigh,
      accept_plainSource_of_ne hafter]
    rfl
  · rename_i hcomma
    have hhead : (text.dropWhile isDecimal).head? ≠ some (.scalar ',') := by
      intro h
      obtain ⟨more, hmore⟩ := List.head?_eq_some_iff.mp h
      exact hcomma more hmore
    simp only [accept_plainSource_of_ne hhead, Bool.false_eq_true, if_false, pure, Except.pure,
      accept_plainSource_of_ne hafter]
    rfl

/-! ## §4 Steps -/

theorem ne_of_isMeta {c d : CodePoint} (hc : isMeta c = false) (hd : isMeta d = true) :
    c ≠ d := by
  rintro rfl
  rw [hc] at hd
  exact Bool.false_ne_true hd

section Steps

variable [Unicode.CharacterNames]

theorem stepPlain_literal {c : CodePoint} (hmeta : isMeta c = false)
    (hbrace : c ≠ .scalar '\x7b') (r : Reader) (start : Nat) : r.stepPlain c start = .ok (r.push (.literal c.toNat)) := by
  rw [Reader.stepPlain]
  · rfl
  all_goals first | exact hbrace | exact ne_of_isMeta hmeta rfl

theorem stepPlain_plain {r : Reader} {c : CodePoint} {rest : List CodePoint} {position : Nat}
    (hsource : r.source = plainSource rest position) (hmeta : isMeta c = false)
    (hcount : c = .scalar '\x7b' → opensCount rest = false) (start : Nat) :
    r.stepPlain c start = .ok (r.push (.literal c.toNat)) := by
  by_cases hbrace : c = .scalar '\x7b'
  · subst hbrace
    simp only [Reader.stepPlain, hsource, readBounds_plainSource (hcount rfl), bind, Except.bind]
    rfl
  · exact stepPlain_literal hmeta hbrace r start

theorem step_plain {r : Reader} {c : CodePoint} {rest : List CodePoint} {position : Nat}
    (hsource : r.source = plainSource (c :: rest) position) (hverbose : r.level.verbose = false)
    (hmeta : isMeta c = false) (hcount : c = .scalar '\x7b' → opensCount rest = false) :
    r.step (.plain c) =
      .ok ((r.resume (plainSource rest (position + 1))).push (.literal c.toNat)) := by
  rw [Reader.step]
  · simp only [hsource, advance_plainSource, bind, Except.bind, hverbose, Bool.false_and,
      Bool.false_eq_true, if_false]
    exact stepPlain_plain rfl hmeta hcount _
  · exact ne_of_isMeta hmeta rfl
  · exact fun _ _ _ => ne_of_isMeta hmeta rfl

/-- Where every character is read from its unit as a literal, the reader goes over the whole text
and adds the literals to the open alternative. `P` is what the rest of the text has to satisfy. -/
theorem run_units (unit : CodePoint → Token) {P : List CodePoint → Prop}
    (hstep : ∀ c rest, P (c :: rest) → P rest ∧ unit c ≠ .plain (.scalar ')') ∧
      ∀ (r : Reader) (position : Nat), r.source = ⟨unit c :: rest.map unit, position, false⟩ →
        r.level.verbose = false → ∃ position', r.step (unit c) =
          .ok ((r.resume ⟨rest.map unit, position', false⟩).push (.literal c.toNat)))
    {text : List CodePoint} (h : P text) {fuel : Nat} {r : Reader} {position : Nat}
    (hfuel : text.length ≤ fuel) (hsource : r.source = ⟨text.map unit, position, false⟩)
    (hverbose : r.level.verbose = false) :
    ∃ position', r.run fuel = .ok { r with
      source := ⟨[], position', false⟩
      level := { r.level with current := (literals text).reverse ++ r.level.current } } := by
  induction text generalizing fuel r position with
  | nil =>
      refine ⟨position, ?_⟩
      have hrun : r.run fuel = .ok r := by
        cases fuel with
        | zero => rfl
        | succ fuel => simp only [Reader.run, hsource, List.map_nil]
      rw [hrun, ← List.map_nil (f := unit), ← hsource]
      rfl
  | cons c rest ih =>
      obtain ⟨fuel, rfl⟩ := Nat.exists_eq_succ_of_ne_zero (Nat.ne_zero_of_lt hfuel)
      obtain ⟨hrest, hunit, hread⟩ := hstep c rest h
      have hclose : ¬(unit c = .plain (.scalar ')') ∧ r.stack.isEmpty = true) := fun hc => hunit hc.1
      have hnext : r.source.rest = unit c :: rest.map unit := by rw [hsource]; rfl
      obtain ⟨position₁, hread⟩ := hread r position hsource hverbose
      obtain ⟨position', hrun⟩ := ih hrest
        (r := (r.resume ⟨rest.map unit, position₁, false⟩).push (.literal c.toNat))
        (Nat.le_of_succ_le_succ hfuel) rfl hverbose
      refine ⟨position', ?_⟩
      simp only [Reader.run, hnext, if_neg hclose, hread, hrun]
      simp [Reader.resume, Reader.push, literals]

end Steps

/-! ## §5 The whole expression -/

/-- Plain text has no escapes. -/
theorem tokens_plain {text : List CodePoint} (h : isPlain text = true) :
    tokens text = (text.map .plain, false) := by
  induction text with
  | nil => rfl
  | cons c rest ih =>
      obtain ⟨hmeta, -, hrest⟩ := isPlain_cons h
      have hne : c ≠ .scalar '\\' := ne_of_isMeta hmeta rfl
      rw [tokens, ih hrest]
      · rfl
      · exact fun hc _ => hne hc
      · exact fun _ _ hc _ => hne hc

theorem open_notMem_plain {text : List CodePoint} (h : isPlain text = true) :
    .plain (.scalar '(') ∉ (tokens text).1 := by
  rw [tokens_plain h]
  intro hmem
  obtain ⟨c, hc, hopen⟩ := List.mem_map.mp hmem
  exact ne_of_isMeta (isMeta_of_isPlain h c hc) rfl (Token.plain.inj hopen)

theorem finishSequence_literals (text : List CodePoint) :
    finishSequence (literals text).reverse = literals text := by
  rw [finishSequence, List.reverse_reverse]
  induction text with
  | nil => rfl
  | cons c rest ih =>
      rw [literals, List.map_cons, List.flatMap_cons]
      exact congrArg _ ih

theorem check_literals (template : Bool) : ∀ (text : List CodePoint),
    (Pattern.ofList (literals text)).check template = .ok ⟨⟩
  | [] => rfl
  | [_] => rfl
  | _ :: c :: rest => check_literals template (c :: rest)

section Expressions

variable [Host]

/-- The stack is large enough for an expression without groups. -/
theorem read_eq_parse {text : Text} (h : .plain (.scalar '(') ∉ (tokens text.toList).1) :
    Regex.read text = parse text := by
  rw [Regex.read, if_neg]
  exact fun hover => h (Host.opens_of_overflows hover)

/-- If the reader goes over the whole text and has added literals only, the text is their word. -/
theorem parse_of_run {text : Text} {word : List CodePoint} {source : Source} (position : Nat)
    (hsource : Source.ofText text.toList = .ok source)
    (hrun : Reader.run source.rest.length { source } = .ok {
      source := ⟨[], position, false⟩
      level := { current := (literals word).reverse } }) :
    ∃ regex, parse text = .ok regex ∧ regex.IsWord word := by
  have hpattern : Level.pattern { current := (literals word).reverse } =
      .ofList (literals word) := by
    rw [Level.pattern, Level.alternatives, List.nil_append, finishSequence_literals,
      joinAlternatives]
  refine ⟨⟨text, { unicode := true }, 0, .ofList (literals word)⟩, ?_, rfl, rfl⟩
  simp only [parse, hsource, bind, Except.bind, hrun, hpattern, settleFlags, check_literals]
  rfl

/-- Plain text can be read as an expression, and is read as the word that it is. -/
theorem read_plain {text : Text} (h : isPlain text.toList = true) :
    ∃ regex, Regex.read text = .ok regex ∧ regex.IsWord text.toList := by
  have hsource : Source.ofText text.toList = .ok (plainSource text.toList 0) := by
    rw [Source.ofText, tokens_plain h]
    exact settle_plainSource text.toList 0
  obtain ⟨position, hrun⟩ := run_units .plain (P := (isPlain · = true))
    (fun c rest hplain => by
      obtain ⟨hmeta, hcount, hrest⟩ := isPlain_cons hplain
      refine ⟨hrest, fun hc => ne_of_isMeta hmeta rfl (Token.plain.inj hc), ?_⟩
      exact fun r position hsource hverbose =>
        ⟨position + 1, step_plain hsource hverbose hmeta hcount⟩)
    h (r := { source := plainSource text.toList 0 }) (Nat.le_refl _) rfl rfl
  have hlength : (plainSource text.toList 0).rest.length = text.toList.length := List.length_map _
  rw [read_eq_parse (open_notMem_plain h)]
  refine parse_of_run position hsource ?_
  rw [hlength, hrun, List.append_nil]

end Expressions

end LogRedaction.Regex
