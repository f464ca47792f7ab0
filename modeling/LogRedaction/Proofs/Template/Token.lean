/-
LogRedaction.Proofs.Template.Token — the tokens of a template.

A token is a placeholder as it is written, escaped or not, with its closing brace or without one.
What is read as which piece is said here once, as a relation: `Token`. A template is then read from
the left, one character where no token begins and a whole token where one does (`pieces_char`,
`pieces_token`), and `reading_induction` is induction along this reading. A name takes everything up
to the next closing brace, so a token can only be open at the end of the template.

## §1 Tokens
## §2 Pieces
-/
import LogRedaction.Template
import Mathlib.Data.List.TakeWhile

namespace LogRedaction.Template

/-! ## §1 Tokens -/

/-- The token stands before the rest of a template and is read as the piece. It is a placeholder,
escaped or not, that ends with the first closing brace, or with the template if there is none. -/
inductive Token : (token rest : List CodePoint) → Piece → Prop where
  | placeholder {name : List CodePoint} (rest : List CodePoint) : .scalar '\x7d' ∉ name →
      Token (.scalar '$' :: .scalar '\x7b' :: (name ++ [.scalar '\x7d'])) rest (.placeholder name)
  | escaped {name : List CodePoint} (rest : List CodePoint) : .scalar '\x7d' ∉ name →
      Token (.scalar '$' :: .scalar '$' :: .scalar '\x7b' :: (name ++ [.scalar '\x7d'])) rest
        (.escaped name)
  | unclosed {name : List CodePoint} : .scalar '\x7d' ∉ name →
      Token (.scalar '$' :: .scalar '\x7b' :: name) [] (.unclosed name)
  | unclosedEscaped {name : List CodePoint} : .scalar '\x7d' ∉ name →
      Token (.scalar '$' :: .scalar '$' :: .scalar '\x7b' :: name) [] (.unclosed name)

/-- A token begins here. -/
def StartsToken (text : List CodePoint) : Prop :=
  [.scalar '$', .scalar '\x7b'] <+: text ∨ [.scalar '$', .scalar '$', .scalar '\x7b'] <+: text

theorem Token.alone {token rest : List CodePoint} {piece : Piece} (h : Token token rest piece) :
    Token token [] piece := by
  cases h with
  | placeholder _ hname => exact .placeholder [] hname
  | escaped _ hname => exact .escaped [] hname
  | unclosed hname => exact .unclosed hname
  | unclosedEscaped hname => exact .unclosedEscaped hname

/-- A token is an opening brace after one or two dollar signs, a name, and the closing brace. -/
theorem Token.shape {token rest : List CodePoint} {piece : Piece} (h : Token token rest piece) :
    ∃ name closing, .scalar '\x7d' ∉ name ∧ (closing = [.scalar '\x7d'] ∨ closing = [] ∧ rest = []) ∧
      (token = .scalar '$' :: .scalar '\x7b' :: (name ++ closing) ∨
        token = .scalar '$' :: .scalar '$' :: .scalar '\x7b' :: (name ++ closing)) := by
  cases h with
  | placeholder _ hname => exact ⟨_, _, hname, .inl rfl, .inl rfl⟩
  | escaped _ hname => exact ⟨_, _, hname, .inl rfl, .inr rfl⟩
  | unclosed hname => exact ⟨_, [], hname, .inr ⟨rfl, rfl⟩, .inl (by rw [List.append_nil])⟩
  | unclosedEscaped hname => exact ⟨_, [], hname, .inr ⟨rfl, rfl⟩, .inr (by rw [List.append_nil])⟩

theorem Token.ne_nil {token rest : List CodePoint} {piece : Piece} (h : Token token rest piece) :
    token ≠ [] := by
  cases h <;> exact List.cons_ne_nil _ _

/-- A text has a name before its first closing brace, or it is a name. -/
theorem exists_name (text : List CodePoint) : ∃ name, .scalar '\x7d' ∉ name ∧
    (text = name ∨ ∃ rest, text = name ++ .scalar '\x7d' :: rest) := by
  by_cases h : .scalar '\x7d' ∈ text
  · obtain ⟨name, rest, rfl, hname⟩ := List.eq_append_cons_of_mem h
    exact ⟨name, hname, .inr ⟨rest, rfl⟩⟩
  · exact ⟨text, h, .inl rfl⟩

theorem exists_token {text : List CodePoint} (h : StartsToken text) :
    ∃ token rest piece, text = token ++ rest ∧ Token token rest piece := by
  rcases h with ⟨more, rfl⟩ | ⟨more, rfl⟩
  · obtain ⟨name, hname, rfl | ⟨rest, rfl⟩⟩ := exists_name more
    · exact ⟨_, [], _, (List.append_nil _).symm, .unclosed hname⟩
    · exact ⟨_, rest, _, by simp, .placeholder rest hname⟩
  · obtain ⟨name, hname, rfl | ⟨rest, rfl⟩⟩ := exists_name more
    · exact ⟨_, [], _, (List.append_nil _).symm, .unclosedEscaped hname⟩
    · exact ⟨_, rest, _, by simp, .escaped rest hname⟩

/-- Templates are read from the left, a character or a token at a time. -/
@[elab_as_elim]
theorem reading_induction {P : List CodePoint → Prop} (nil : P [])
    (char : ∀ c rest, ¬ StartsToken (c :: rest) → P rest → P (c :: rest))
    (token : ∀ token rest piece, Token token rest piece → P rest → P (token ++ rest))
    (text : List CodePoint) : P text := by
  induction hn : text.length using Nat.strong_induction_on generalizing text with
  | _ n ih =>
      subst hn
      by_cases hstart : StartsToken text
      · obtain ⟨word, rest, piece, rfl, htoken⟩ := exists_token hstart
        have hpos := List.length_pos_iff.mpr htoken.ne_nil
        exact token word rest piece htoken
          (ih rest.length (by rw [List.length_append]; omega) rest rfl)
      · cases text with
        | nil => exact nil
        | cons c rest => exact char c rest hstart (ih rest.length (by simp) rest rfl)

/-! ## §2 Pieces -/

theorem ne_brace {name : List CodePoint} (hname : .scalar '\x7d' ∉ name) :
    ∀ c ∈ name, (c != .scalar '\x7d') = true :=
  fun _ hc => bne_iff_ne.mpr fun h => hname (h ▸ hc)

theorem nameOf_append {name : List CodePoint} (hname : .scalar '\x7d' ∉ name) (rest : List CodePoint) :
    nameOf (name ++ .scalar '\x7d' :: rest) = name := by
  rw [nameOf, List.takeWhile_append_of_pos (ne_brace hname),
    List.takeWhile_cons_of_neg (by decide), List.append_nil]

theorem afterName_append {name : List CodePoint} (hname : .scalar '\x7d' ∉ name)
    (rest : List CodePoint) : afterName (name ++ .scalar '\x7d' :: rest) = .scalar '\x7d' :: rest := by
  rw [afterName, List.dropWhile_append_of_pos (ne_brace hname),
    List.dropWhile_cons_of_neg (by decide)]

theorem nameOf_open {name : List CodePoint} (hname : .scalar '\x7d' ∉ name) : nameOf name = name :=
  List.takeWhile_eq_self_iff.mpr (ne_brace hname)

theorem afterName_open {name : List CodePoint} (hname : .scalar '\x7d' ∉ name) : afterName name = [] :=
  List.dropWhile_eq_nil_iff.mpr (ne_brace hname)

@[simp] theorem pieces_nil : pieces [] = [] := by rw [pieces]

theorem pieces_char {c : CodePoint} {rest : List CodePoint} (h : ¬ StartsToken (c :: rest)) :
    pieces (c :: rest) = .char c :: pieces rest := by
  rw [pieces]
  · rintro more rfl rfl
    exact h (.inr ⟨more, rfl⟩)
  · rintro more rfl rfl
    exact h (.inl ⟨more, rfl⟩)

theorem pieces_opened (more : List CodePoint) : pieces (.scalar '$' :: .scalar '\x7b' :: more) =
    match afterName more with
    | [] => [.unclosed (nameOf more)]
    | _ :: rest => .placeholder (nameOf more) :: pieces rest := by
  rw [pieces]
  split <;> rename_i h <;> simp only [h]

theorem pieces_openedEscaped (more : List CodePoint) :
    pieces (.scalar '$' :: .scalar '$' :: .scalar '\x7b' :: more) =
    match afterName more with
    | [] => [.unclosed (nameOf more)]
    | _ :: rest => .escaped (nameOf more) :: pieces rest := by
  rw [pieces]
  split <;> rename_i h <;> simp only [h]

theorem pieces_token {token rest : List CodePoint} {piece : Piece} (h : Token token rest piece) :
    pieces (token ++ rest) = piece :: pieces rest := by
  cases h with
  | placeholder _ hname =>
      simp only [List.cons_append, List.append_assoc, List.nil_append, pieces_opened,
        afterName_append hname, nameOf_append hname]
  | escaped _ hname =>
      simp only [List.cons_append, List.append_assoc, List.nil_append, pieces_openedEscaped,
        afterName_append hname, nameOf_append hname]
  | unclosed hname =>
      simp only [List.append_nil, pieces_opened, afterName_open hname, nameOf_open hname,
        pieces_nil]
  | unclosedEscaped hname =>
      simp only [List.append_nil, pieces_openedEscaped, afterName_open hname, nameOf_open hname,
        pieces_nil]

end LogRedaction.Template
