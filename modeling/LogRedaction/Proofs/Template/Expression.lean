/-
LogRedaction.Proofs.Template.Expression — the tokens of a template are the matches of an expression.

There is a regular expression whose matches in a template are its tokens. The dollar sign in front
is optional: it is tried first, and given back where only one stands before the brace. The name
takes all it can get, and nothing of it is given back, since the brace after it may be missing. So
at each position the expression matches the token that begins there (`matchAt?_token`), or nothing,
and the two ways of reading a template agree, from the left with no second look and by the matches
of the expression: `cutPieces_cut`.

## §1 The expression
## §2 The parts of a match
## §3 Matching at a position
## §4 Templates cut at the tokens
-/
import LogRedaction.Proofs.Regex.Cut
import LogRedaction.Proofs.Regex.Word
import LogRedaction.Proofs.Template.Token

namespace LogRedaction.Template

open Regex

/-! ## §1 The expression -/

/-- The expression whose matches are the tokens. -/
def tokenExpression : Text := "(\\$)?\\$\\\x7b([^\x7d]*)(\\\x7d)?"

/-- One character, or nothing; it is kept as a group. -/
def optionalChar (group : Nat) (c : CodePoint) : Pattern :=
  .repeated .greedy 0 (some 1) (.capture group (.literal c.toNat))

/-- A name, and the brace after it if there is one. -/
def nameAndBrace : Pattern :=
  .seq (.capture 2 (.repeated .greedy 0 none (.notLiteral '\x7d'.toNat)))
    (optionalChar 3 (.scalar '\x7d'))

/-- The expression of tokens, read. -/
def tokenRegex : Regex where
  source := tokenExpression
  flags := { unicode := true }
  groups := 3
  pattern := .seq (optionalChar 1 (.scalar '$'))
    (.seq (.literal '$'.toNat) (.seq (.literal '\x7b'.toNat) nameAndBrace))

theorem tokenRegex_exact : tokenRegex.flags.folding = .exact := rfl

theorem parse_tokenExpression [Unicode.CharacterNames] :
    Regex.parse tokenExpression = .ok tokenRegex := rfl

/-! ## §2 The parts of a match -/

/-- Once, or not at all. -/
theorem repeatRun_once (body : Continuation → Continuation) (k : Continuation) (s : State) :
    repeatRun .greedy 0 (some 1) body k s = (body k s).or (k s) := by
  have hlast : ∀ room last, moreFirst body k room (some 0) last = k := by
    intro room last
    cases room <;> rfl
  change moreFirst body k s.cursor.after (some 1) none s = _
  have hmore : (exhausted (some 1) none s) = false := rfl
  cases s.cursor.after with
  | nil =>
      rw [moreFirst, hmore]
      cases body k s <;> rfl
  | cons x room =>
      rw [moreFirst, hmore, Option.map_some, hlast]
      cases body k s <;> rfl

section Run

variable {flags : Flags} (hflags : flags.folding = .exact) (k : Continuation)
  (before : List CodePoint) (index : Nat) (captures : Array Capture)
include hflags

/-- Where the character stands it is tried first to take it, and then to leave it. -/
theorem run_optionalChar_present (group : Nat) (c : CodePoint) (rest : List CodePoint) :
    ∃ captures', (optionalChar group c).run flags k ⟨⟨before, c :: rest, index⟩, captures⟩ =
      (k ⟨⟨c :: before, rest, index + 1⟩, captures'⟩).or
        (k ⟨⟨before, c :: rest, index⟩, captures⟩) := by
  have hbody := run_literals hflags (fun s => k (s.leave group)) [c] before rest index
    (State.enter ⟨⟨before, c :: rest, index⟩, captures⟩ group).captures
  exact ⟨_, (repeatRun_once _ k _).trans (congrArg (Option.or · _) hbody)⟩

theorem run_optionalChar_absent (group : Nat) {c : CodePoint} {after : List CodePoint}
    (h : ¬ [c] <+: after) :
    (optionalChar group c).run flags k ⟨⟨before, after, index⟩, captures⟩ =
      k ⟨⟨before, after, index⟩, captures⟩ := by
  refine (repeatRun_once _ k _).trans ?_
  rw [Pattern.run]
  exact congrArg (Option.or · _) (run_literals_of_not_isPrefix hflags _ h before index _)

end Run

/-- Of as many characters as there are, the position behind the last comes first. -/
theorem exists_reach (test : CodePoint → Bool) (before after : List CodePoint) (index : Nat)
    (passed : List Cursor) : ∃ more, reach test before index none passed after =
      Cursor.past ⟨before, after, index⟩ (after.takeWhile test) (after.dropWhile test) :: more := by
  induction after generalizing before index passed with
  | nil => exact ⟨passed, rfl⟩
  | cons x after ih =>
      rw [reach]
      cases hx : test x with
      | true =>
          obtain ⟨more, hmore⟩ :=
            ih (x :: before) (index + 1) (⟨before, x :: after, index⟩ :: passed)
          refine ⟨more, ?_⟩
          rw [List.takeWhile_cons_of_pos hx, List.dropWhile_cons_of_pos hx]
          refine Eq.trans (if_neg (by simp)) (hmore.trans ?_)
          simp [Cursor.past, Nat.add_assoc, Nat.add_comm 1]
      | false =>
          rw [List.takeWhile_cons_of_neg (by simp [hx]), List.dropWhile_cons_of_neg (by simp [hx])]
          exact ⟨passed, if_pos (by simp)⟩

section Parts

variable (before : List CodePoint) (index : Nat) (captures : Array Capture)

/-- The name is taken as far as it goes, if what follows answers there. -/
theorem run_name {k : Continuation} {name rest : List CodePoint} (hname : .scalar '\x7d' ∉ name)
    (hrest : ∀ c ∈ rest.head?, c = .scalar '\x7d')
    (hk : ∀ captures, (k ⟨Cursor.past ⟨before, name ++ rest, index⟩ name rest, captures⟩).isSome) :
    ∃ captures', (Pattern.capture 2 (.repeated .greedy 0 none (.notLiteral '\x7d'.toNat))).run
      tokenRegex.flags k ⟨⟨before, name ++ rest, index⟩, captures⟩ =
        k ⟨Cursor.past ⟨before, name ++ rest, index⟩ name rest, captures'⟩ := by
  have htest : (fun x : CodePoint => !tokenRegex.flags.folding.literal '\x7d'.toNat x.toNat) =
      (· != .scalar '\x7d') := by
    funext x
    exact congrArg (! ·) (literal_exact (.scalar '\x7d') x)
  have htake : (name ++ rest).takeWhile (· != .scalar '\x7d') = name := by
    rw [List.takeWhile_append_of_pos (ne_brace hname)]
    cases rest with
    | nil => simp
    | cons c rest => simp [hrest c rfl]
  have hdrop : (name ++ rest).dropWhile (· != .scalar '\x7d') = rest := by
    rw [List.dropWhile_append_of_pos (ne_brace hname)]
    cases rest with
    | nil => simp
    | cons c rest => simp [hrest c rfl]
  obtain ⟨more, hreach⟩ := exists_reach (· != .scalar '\x7d') before (name ++ rest) index []
  rw [htake, hdrop] at hreach
  rw [Pattern.run, Pattern.run]
  simp only [Pattern.test?, htest, stops, State.enter, hreach, Greed.order, Nat.sub_zero,
    List.take_length]
  rw [List.findSome?_cons]
  split
  · rename_i answer hanswer
    exact ⟨_, hanswer.symm⟩
  · rename_i hnone
    have hsome := hk (State.leave ⟨Cursor.past ⟨before, name ++ rest, index⟩ name rest,
      (State.enter ⟨⟨before, name ++ rest, index⟩, captures⟩ 2).captures⟩ 2).captures
    exact absurd (hsome.symm.trans (congrArg Option.isSome hnone)) (by simp)

/-- After an opening brace: the name, and the brace after it if there is one. -/
theorem run_nameAndBrace {name closing rest : List CodePoint} (hname : .scalar '\x7d' ∉ name)
    (hclosing : closing = [.scalar '\x7d'] ∨ closing = [] ∧ rest = []) :
    ∃ captures', nameAndBrace.run tokenRegex.flags some
      ⟨⟨before, name ++ closing ++ rest, index⟩, captures⟩ =
        some ⟨Cursor.past ⟨before, name ++ closing ++ rest, index⟩ (name ++ closing) rest,
          captures'⟩ := by
  rw [List.append_assoc]
  have hbrace : ∀ captures, ∃ captures', (optionalChar 3 (.scalar '\x7d')).run tokenRegex.flags some
      ⟨Cursor.past ⟨before, name ++ (closing ++ rest), index⟩ name (closing ++ rest), captures⟩ =
        some ⟨Cursor.past ⟨before, name ++ (closing ++ rest), index⟩ (name ++ closing) rest,
          captures'⟩ := by
    intro captures
    rcases hclosing with rfl | ⟨rfl, rfl⟩
    · obtain ⟨captures', hrun⟩ := run_optionalChar_present tokenRegex_exact some
        (name.reverse ++ before) (index + name.length) captures 3 (.scalar '\x7d') rest
      refine ⟨captures', hrun.trans ?_⟩
      simp [Cursor.past, Nat.add_assoc]
    · rw [List.append_nil, List.append_nil]
      exact ⟨captures, run_optionalChar_absent tokenRegex_exact some _ _ captures 3
        (by simp)⟩
  have hhead : ∀ c ∈ (closing ++ rest).head?, c = .scalar '\x7d' := by
    rcases hclosing with rfl | ⟨rfl, rfl⟩ <;> simp
  obtain ⟨captures', hrun⟩ := run_name before index captures
    (k := (optionalChar 3 (.scalar '\x7d')).run tokenRegex.flags some) hname hhead fun captures => by
      obtain ⟨captures', hrun⟩ := hbrace captures
      exact hrun ▸ rfl
  obtain ⟨captures'', hrun'⟩ := hbrace captures'
  exact ⟨captures'', hrun.trans hrun'⟩

/-- What has to follow the optional dollar sign. -/
def afterOptional : Pattern :=
  .seq (.literal '$'.toNat) (.seq (.literal '\x7b'.toNat) nameAndBrace)

theorem run_opened {name closing rest : List CodePoint} (hname : .scalar '\x7d' ∉ name)
    (hclosing : closing = [.scalar '\x7d'] ∨ closing = [] ∧ rest = []) :
    ∃ captures', afterOptional.run tokenRegex.flags some
      ⟨⟨before, .scalar '$' :: .scalar '\x7b' :: (name ++ closing ++ rest), index⟩, captures⟩ =
        some ⟨Cursor.past ⟨before, .scalar '$' :: .scalar '\x7b' :: (name ++ closing ++ rest), index⟩
          (.scalar '$' :: .scalar '\x7b' :: (name ++ closing)) rest, captures'⟩ := by
  obtain ⟨captures', hrun⟩ := run_nameAndBrace (.scalar '\x7b' :: .scalar '$' :: before) (index + 2)
    captures hname hclosing
  refine ⟨captures', (run_literals tokenRegex_exact
    (nameAndBrace.run tokenRegex.flags some) [.scalar '$', .scalar '\x7b'] before
    (name ++ closing ++ rest) index captures).trans (hrun.trans ?_)⟩
  simp [Cursor.past, Nat.add_assoc, Nat.add_comm 2]

theorem run_unopened {after : List CodePoint} (h : ¬ [.scalar '$', .scalar '\x7b'] <+: after) :
    afterOptional.run tokenRegex.flags some ⟨⟨before, after, index⟩, captures⟩ = none :=
  run_literals_of_not_isPrefix tokenRegex_exact
    (nameAndBrace.run tokenRegex.flags some) h before index captures

end Parts

/-! ## §3 Matching at a position -/

section Match

variable (before : List CodePoint) (index : Nat)

theorem matchAt?_eq (c : Cursor) : tokenRegex.matchAt? false c =
    ((optionalChar 1 (.scalar '$')).run tokenRegex.flags (afterOptional.run tokenRegex.flags some)
      ⟨c, Array.replicate 3 {}⟩).map (·.cursor) :=
  rfl

theorem matchAt?_of_not_startsToken {text : List CodePoint} (h : ¬ StartsToken text) :
    tokenRegex.matchAt? false ⟨before, text, index⟩ = none := by
  rw [matchAt?_eq]
  obtain ⟨hplain, hescaped⟩ := not_or.mp h
  have hnone := fun captures => run_unopened before index captures hplain
  by_cases hdollar : [.scalar '$'] <+: text
  · obtain ⟨rest, rfl⟩ := hdollar
    have hrest : ¬ [.scalar '$', .scalar '\x7b'] <+: rest := fun hrest =>
      hescaped (List.cons_prefix_cons.mpr ⟨rfl, hrest⟩)
    obtain ⟨captures', hrun⟩ := run_optionalChar_present tokenRegex_exact
      (afterOptional.run tokenRegex.flags some) before index (Array.replicate 3 {}) 1 (.scalar '$')
      rest
    rw [run_unopened _ _ _ hrest, Option.none_or] at hrun
    exact congrArg (Option.map _) (hrun.trans (hnone _))
  · have hrun := run_optionalChar_absent tokenRegex_exact
      (afterOptional.run tokenRegex.flags some) before index (Array.replicate 3 {}) 1 hdollar
    exact congrArg (Option.map _) (hrun.trans (hnone _))

theorem matchAt?_token {token rest : List CodePoint} {piece : Piece} (h : Token token rest piece) :
    tokenRegex.matchAt? false ⟨before, token ++ rest, index⟩ =
      some (Cursor.past ⟨before, token ++ rest, index⟩ token rest) := by
  rw [matchAt?_eq]
  obtain ⟨name, closing, hname, hclosing, rfl | rfl⟩ := h.shape
  · obtain ⟨captures', hrun⟩ := run_optionalChar_present tokenRegex_exact
      (afterOptional.run tokenRegex.flags some) before index (Array.replicate 3 {}) 1 (.scalar '$')
      (.scalar '\x7b' :: (name ++ closing ++ rest))
    obtain ⟨captures'', hopened⟩ := run_opened before index (Array.replicate 3 {}) hname hclosing
    rw [run_unopened _ _ _ (by simp)] at hrun
    exact congrArg (Option.map _) (hrun.trans hopened)
  · obtain ⟨captures', hrun⟩ := run_optionalChar_present tokenRegex_exact
      (afterOptional.run tokenRegex.flags some) before index (Array.replicate 3 {}) 1 (.scalar '$')
      (.scalar '$' :: .scalar '\x7b' :: (name ++ closing ++ rest))
    obtain ⟨captures'', hopened⟩ :=
      run_opened (.scalar '$' :: before) (index + 1) captures' hname hclosing
    rw [hopened] at hrun
    refine (congrArg (Option.map _) hrun).trans ?_
    simp [Cursor.past, Nat.add_assoc, Nat.add_comm 1]

end Match

/-! ## §4 Templates cut at the tokens -/

/-- The pieces of a cut template: the characters between the tokens, and the tokens. -/
def cutPieces (cut : Cut) : List Piece :=
  cut.parts.flatMap (fun (kept, token) => kept.map .char ++ pieces token) ++ cut.rest.map .char

theorem cutPieces_cons (kept found : List CodePoint) (cut : Cut) :
    cutPieces { cut with parts := (kept, found) :: cut.parts } =
      kept.map .char ++ pieces found ++ cutPieces cut := by
  simp [cutPieces]

/-- A character at which nothing matches is kept. -/
theorem cutFrom_cons {regex : Regex} {nonempty : Bool} {before rest : List CodePoint} {c : CodePoint}
    {index : Nat} (h : regex.matchAt? nonempty ⟨before, c :: rest, index⟩ = none) (fuel : Nat) :
    let cut := regex.cutFrom (fuel + 1) nonempty ⟨before, c :: rest, index⟩
    let later := regex.cutFrom (fuel + 1) false ⟨c :: before, rest, index + 1⟩
    cutPieces cut = .char c :: cutPieces later ∧
      cut.parts.map Prod.snd = later.parts.map Prod.snd := by
  simp only [cutFrom, findFrom?, h]
  cases hfind : regex.findFrom? false (c :: before) (index + 1) rest with
  | none => exact ⟨rfl, rfl⟩
  | some found =>
      obtain ⟨start, stop⟩ := found
      obtain ⟨⟨piece, hafter, hstart⟩, -⟩ := leadsTo_of_findFrom? hfind
      have hkept : Cursor.upTo ⟨before, c :: rest, index⟩ start =
          c :: Cursor.upTo ⟨c :: before, rest, index + 1⟩ start := by
        rw [hstart]
        simp only [Cursor.upTo, Cursor.past]
        have hlength : index + 1 + piece.length - index = piece.length + 1 := by omega
        rw [hlength, Nat.add_sub_cancel_left, List.take_succ_cons]
      simp only [cutPieces_cons, hkept]
      exact ⟨rfl, rfl⟩

/-- A match of something is cut out, and what follows it is cut on its own. -/
theorem cutFrom_match {regex : Regex} {nonempty : Bool} {before token rest : List CodePoint}
    {index : Nat} (htoken : token ≠ [])
    (h : regex.matchAt? nonempty ⟨before, token ++ rest, index⟩ =
      some (Cursor.past ⟨before, token ++ rest, index⟩ token rest)) (fuel : Nat) :
    let later := regex.cutFrom fuel false (Cursor.past ⟨before, token ++ rest, index⟩ token rest)
    regex.cutFrom (fuel + 1) nonempty ⟨before, token ++ rest, index⟩ =
      { later with parts := ([], token) :: later.parts } := by
  obtain ⟨c, more, rfl⟩ := List.exists_cons_of_ne_nil htoken
  simp only [cutFrom, List.cons_append, findFrom?] at h ⊢
  simp only [h]
  have hmoved : (index ==
      (Cursor.past ⟨before, c :: (more ++ rest), index⟩ (c :: more) rest).index) = false := by
    simp [Cursor.past]
  have hupto := @upTo_past ⟨before, c :: (more ++ rest), index⟩ (c :: more) rest rfl
  rw [hmoved, hupto]
  simp [Cursor.upTo]

/-- Cut at the matches of the expression, a template has its pieces. -/
theorem cutPieces_cutFrom (text : List CodePoint) :
    ∀ (fuel : Nat) (before : List CodePoint) (index : Nat), text.length < fuel →
      let cut := tokenRegex.cutFrom fuel false ⟨before, text, index⟩
      cutPieces cut = pieces text ∧
        ∀ token ∈ cut.parts.map Prod.snd, ∃ piece, Token token [] piece := by
  induction text using reading_induction with
  | nil =>
      intro fuel before index hfuel
      obtain ⟨fuel, rfl⟩ := Nat.exists_eq_succ_of_ne_zero (Nat.ne_zero_of_lt hfuel)
      have hnone := @matchAt?_of_not_startsToken before index [] (by simp [StartsToken])
      simp only [cutFrom, findFrom?, hnone]
      simp [cutPieces]
  | char c rest hstart ih =>
      intro fuel before index hfuel
      obtain ⟨fuel, rfl⟩ := Nat.exists_eq_succ_of_ne_zero (Nat.ne_zero_of_lt hfuel)
      obtain ⟨hpieces, htokens⟩ :=
        cutFrom_cons (matchAt?_of_not_startsToken before index hstart) fuel
      obtain ⟨ihpieces, ihtokens⟩ :=
        ih (fuel + 1) (c :: before) (index + 1) (Nat.lt_of_succ_lt hfuel)
      simp only [hpieces, htokens, ihpieces]
      exact ⟨(pieces_char hstart).symm, ihtokens⟩
  | token token rest piece htoken ih =>
      intro fuel before index hfuel
      obtain ⟨fuel, rfl⟩ := Nat.exists_eq_succ_of_ne_zero (Nat.ne_zero_of_lt hfuel)
      have hshorter : rest.length < fuel := by
        have hpos := List.length_pos_iff.mpr htoken.ne_nil
        rw [List.length_append] at hfuel
        omega
      have hcut := cutFrom_match htoken.ne_nil (matchAt?_token before index htoken) fuel
      obtain ⟨ihpieces, ihtokens⟩ :=
        ih fuel (token.reverse ++ before) (index + token.length) hshorter
      have hsingle : pieces token = [piece] := by
        simpa using pieces_token htoken.alone
      simp only [hcut, cutPieces_cons, hsingle, List.map_nil, List.nil_append, List.map_cons,
        List.forall_mem_cons, pieces_token htoken]
      exact ⟨congrArg (piece :: ·) ihpieces, ⟨piece, htoken.alone⟩, ihtokens⟩

/-- The tokens of a template are the matches of the expression, and the characters between them are
read one by one. -/
theorem cutPieces_cut (text : List CodePoint) : cutPieces (tokenRegex.cut text) = pieces text ∧
    ∀ token ∈ (tokenRegex.cut text).parts.map Prod.snd, ∃ piece, Token token [] piece :=
  cutPieces_cutFrom text _ [] 0 (by omega)

end LogRedaction.Template
