/-
LogRedaction.Proofs.Template.Segment — templates that are put together from parts.

A template is meant as literal text, placeholders and escaped placeholders one after the other. If
no literal text contains or begins a placeholder, and no name has a closing brace, then the template
is read as these parts, whatever stands next to each other (`pieces_written`): a literal text does
not end with a dollar sign, and a token ends with its brace. So the template expands to what the
parts stand for, and a value that has taken the place of its placeholder is not read again:
`expand_ofSegments`.

## §1 Parts
## §2 The pieces of parts
## §3 Expansion
-/
import LogRedaction.Proofs.Template.Expression
import Mathlib.Data.List.Forall2

namespace LogRedaction.Template

/-! ## §1 Parts -/

/-- After each dollar sign of the text there is a character, and it is no opening brace. -/
def IsLiteral (text : List CodePoint) : Prop :=
  ∀ before after, text = before ++ .scalar '$' :: after →
    ∃ c more, after = c :: more ∧ c ≠ .scalar '\x7b'

theorem isLiteral_cons_iff {c : CodePoint} {text : List CodePoint} : IsLiteral (c :: text) ↔
    (c = .scalar '$' → ∃ d more, text = d :: more ∧ d ≠ .scalar '\x7b') ∧ IsLiteral text := by
  constructor
  · intro h
    exact ⟨fun hc => h [] text (by rw [hc, List.nil_append]),
      fun before after hafter => h (c :: before) after (congrArg (c :: ·) hafter)⟩
  · rintro ⟨hc, h⟩ before after hafter
    cases before with
    | nil =>
        obtain ⟨rfl, rfl⟩ := List.cons.inj hafter
        exact hc rfl
    | cons d before => exact h before after (List.cons.inj hafter).2

theorem isLiteral_nil : IsLiteral [] := fun _ _ h => by simp at h

instance decidableIsLiteral : (text : List CodePoint) → Decidable (IsLiteral text)
  | [] => isTrue isLiteral_nil
  | [c] => decidable_of_iff (c ≠ .scalar '$') (by rw [isLiteral_cons_iff]; simp [isLiteral_nil])
  | c :: d :: more =>
    have := decidableIsLiteral (d :: more)
    decidable_of_iff ((c = .scalar '$' → d ≠ .scalar '\x7b') ∧ IsLiteral (d :: more))
      (by rw [isLiteral_cons_iff (c := c)]; simp)

/-- A part of a template, as it is meant. -/
inductive Segment where
  | literal (text : Text)
  | placeholder (name : Text)
  | escaped (name : Text)
deriving DecidableEq, Repr

namespace Segment

/-- How the part is written. -/
def written : Segment → List CodePoint
  | literal text => text.toList
  | placeholder name => .scalar '$' :: .scalar '\x7b' :: (name.toList ++ [.scalar '\x7d'])
  | escaped name => .scalar '$' :: .scalar '$' :: .scalar '\x7b' :: (name.toList ++ [.scalar '\x7d'])

/-- The part can be written: a literal text has no placeholder in it and begins none, and a name
has no closing brace in it. -/
def Writable : Segment → Prop
  | literal text => IsLiteral text.toList
  | placeholder name | escaped name => .scalar '\x7d' ∉ name.toList

instance : (segment : Segment) → Decidable segment.Writable
  | literal text => inferInstanceAs (Decidable (IsLiteral text.toList))
  | placeholder name | escaped name => inferInstanceAs (Decidable (.scalar '\x7d' ∉ name.toList))

/-- What the part stands for. -/
inductive StandsFor (mapping : Mapping) : Segment → Text → Prop where
  | literal (text : Text) : StandsFor mapping (.literal text) text
  | placeholder {name value : Text} :
      mapping.lookup name = some value → StandsFor mapping (.placeholder name) value
  | escaped (name : Text) : StandsFor mapping (.escaped name)
      (Text.ofList (Regex.escape (.scalar '$' :: .scalar '\x7b' :: name.toList ++ [.scalar '\x7d'])))

/-- The pieces as which the part is read. -/
def pieces : Segment → List Piece
  | literal text => text.toList.map .char
  | placeholder name => [.placeholder name.toList]
  | escaped name => [.escaped name.toList]

end Segment

/-- The template of the parts one after the other. -/
def ofSegments (segments : List Segment) : Text :=
  Text.ofList (segments.flatMap Segment.written)

/-! ## §2 The pieces of parts -/

/-- A literal text has no beginning of a placeholder in it, whatever follows. -/
theorem not_startsToken_literal {text : List CodePoint} {c : CodePoint}
    (h : IsLiteral (c :: text)) (rest : List CodePoint) :
    ¬ StartsToken (c :: (text ++ rest)) := by
  rintro (hstart | hstart)
  · obtain ⟨rfl, hmore⟩ := List.cons_prefix_cons.mp hstart
    obtain ⟨d, more, rfl, hd⟩ := h [] text rfl
    exact hd (List.cons_prefix_cons.mp hmore).1.symm
  · obtain ⟨rfl, hmore⟩ := List.cons_prefix_cons.mp hstart
    obtain ⟨d, more, rfl, hd⟩ := h [] text rfl
    obtain ⟨rfl, hlast⟩ := List.cons_prefix_cons.mp hmore
    obtain ⟨e, more, rfl, he⟩ := h [.scalar '$'] more rfl
    exact he (List.cons_prefix_cons.mp hlast).1.symm

theorem pieces_literal_append {text : List CodePoint} (h : IsLiteral text) (rest : List CodePoint) :
    pieces (text ++ rest) = text.map .char ++ pieces rest := by
  induction text with
  | nil => rfl
  | cons c text ih =>
      have hmore := ih (isLiteral_cons_iff.mp h).2
      rw [List.cons_append, pieces_char (not_startsToken_literal h rest), hmore]
      rfl

/-- A part is read as what it is meant to be, and what follows it on its own. -/
theorem pieces_written_append {segment : Segment} (h : segment.Writable) (rest : List CodePoint) :
    pieces (segment.written ++ rest) = segment.pieces ++ pieces rest := by
  cases segment with
  | literal text => exact pieces_literal_append h rest
  | placeholder name =>
      simpa [Segment.written, Segment.pieces] using pieces_token (Token.placeholder rest h)
  | escaped name =>
      simpa [Segment.written, Segment.pieces] using pieces_token (Token.escaped rest h)

theorem pieces_written {segments : List Segment} (h : ∀ segment ∈ segments, segment.Writable) :
    pieces (segments.flatMap Segment.written) = segments.flatMap Segment.pieces := by
  induction segments with
  | nil => exact pieces_nil
  | cons segment segments ih =>
      obtain ⟨hsegment, hmore⟩ := List.forall_mem_cons.mp h
      rw [List.flatMap_cons, List.flatMap_cons, pieces_written_append hsegment, ih hmore]

/-! ## §3 Expansion -/

theorem expandPieces_append_ok {mapping : Mapping} {first second : List Piece}
    {text more : List CodePoint} (hfirst : expandPieces mapping first = .ok text)
    (hsecond : expandPieces mapping second = .ok more) :
    expandPieces mapping (first ++ second) = .ok (text ++ more) := by
  induction first generalizing text with
  | nil =>
      obtain rfl := Except.ok.inj hfirst
      exact hsecond
  | cons piece first ih =>
      rw [expandPieces] at hfirst
      split at hfirst
      · cases hfirst
      rename_i start hpiece
      split at hfirst
      · cases hfirst
      rename_i rest hrest
      obtain rfl := Except.ok.inj hfirst
      rw [List.cons_append, expandPieces, hpiece, ih hrest, List.append_assoc]

theorem expandPieces_chars (mapping : Mapping) (text : List CodePoint) :
    expandPieces mapping (text.map .char) = .ok text := by
  induction text with
  | nil => rfl
  | cons c text ih => rw [List.map_cons, expandPieces, Piece.expand, ih]; rfl

theorem expandPieces_segment {mapping : Mapping} {segment : Segment} {text : Text}
    (h : segment.StandsFor mapping text) :
    expandPieces mapping segment.pieces = .ok text.toList := by
  cases h with
  | literal => exact expandPieces_chars mapping text.toList
  | placeholder hvalue =>
      simp [Segment.pieces, expandPieces, Piece.expand, hvalue]
  | escaped name =>
      simp [Segment.pieces, expandPieces, Piece.expand]

theorem expandPieces_segments {mapping : Mapping} {segments : List Segment} {texts : List Text}
    (h : List.Forall₂ (Segment.StandsFor mapping) segments texts) :
    expandPieces mapping (segments.flatMap Segment.pieces) = .ok (Text.join texts).toList := by
  induction h with
  | nil => rfl
  | cons hsegment _ ih =>
      rw [List.flatMap_cons, expandPieces_append_ok (expandPieces_segment hsegment) ih]
      simp

/-- A part stands for something if its name has a value. -/
theorem exists_standsFor {mapping : Mapping} {segments : List Segment}
    (h : ∀ name, .placeholder name ∈ segments → ∃ value, mapping.lookup name = some value) :
    ∃ texts, List.Forall₂ (Segment.StandsFor mapping) segments texts := by
  induction segments with
  | nil => exact ⟨[], .nil⟩
  | cons segment segments ih =>
      obtain ⟨texts, htexts⟩ := ih fun name hname => h name (List.mem_cons_of_mem _ hname)
      cases segment with
      | literal text => exact ⟨_, .cons (.literal text) htexts⟩
      | escaped name => exact ⟨_, .cons (.escaped name) htexts⟩
      | placeholder name =>
          obtain ⟨value, hvalue⟩ := h name (List.mem_cons_self ..)
          exact ⟨_, .cons (.placeholder hvalue) htexts⟩

theorem expand_of_standsFor {mapping : Mapping} {segments : List Segment} {texts : List Text}
    (hwritable : ∀ segment ∈ segments, segment.Writable)
    (htexts : List.Forall₂ (Segment.StandsFor mapping) segments texts) (rule : Option Text) :
    expand mapping (ofSegments segments) rule = .ok (Text.join texts) := by
  rw [expand, ofSegments, pieces_written hwritable, expandPieces_segments htexts]

/-- Parts that can be written expand to what they stand for one after the other, if each name has a
value; and a template is read as the matches of one expression cut it, characters and tokens. -/
theorem expand_ofSegments :
    (∀ (mapping : Mapping) (segments : List Segment),
      (∀ segment ∈ segments, segment.Writable) →
      (∀ name, .placeholder name ∈ segments → ∃ value, mapping.lookup name = some value) →
      ∃ texts, List.Forall₂ (Segment.StandsFor mapping) segments texts ∧
        ∀ rule, expand mapping (ofSegments segments) rule = .ok (Text.join texts)) ∧
    ∃ regex, (∀ names : Unicode.CharacterNames, @Regex.parse names tokenExpression = .ok regex) ∧
      ∀ template : List CodePoint, cutPieces (regex.cut template) = pieces template ∧
        ∀ token ∈ (regex.cut template).parts.map Prod.snd, ∃ piece, Token token [] piece := by
  refine ⟨fun mapping segments hwritable hvalues => ?_,
    tokenRegex, fun names => @parse_tokenExpression names, cutPieces_cut⟩
  obtain ⟨texts, htexts⟩ := exists_standsFor hvalues
  exact ⟨texts, htexts, expand_of_standsFor hwritable htexts⟩

/-- A value with a placeholder in it, and names and literal text with dollar signs. -/
theorem expand_ofSegments_dollars :
    let mapping : Mapping := [("username", "$\x7btenant-id\x7d\\"), ("a\n$\x7bb", "x")]
    let segments : List Segment := [.literal "$$ $x", .placeholder "username", .literal "\x7d",
      .escaped "$$\x7busername", .placeholder "a\n$\x7bb"]
    (∀ segment ∈ segments, segment.Writable) ∧
    ∃ texts, List.Forall₂ (Segment.StandsFor mapping) segments texts ∧
      expand mapping (ofSegments segments) (some "key") = .ok (Text.join texts) := by
  intro mapping segments
  have hwritable : ∀ segment ∈ segments, segment.Writable := by decide +kernel
  have hvalues : ∀ name, .placeholder name ∈ segments →
      ∃ value, mapping.lookup name = some value := by
    intro name hname
    obtain rfl | rfl : name = "username" ∨ name = "a\n$\x7bb" := by
      simpa [segments] using hname
    · exact ⟨_, rfl⟩
    · exact ⟨_, rfl⟩
  obtain ⟨texts, htexts, hexpand⟩ := expand_ofSegments.1 mapping segments hwritable hvalues
  exact ⟨hwritable, texts, htexts, hexpand (some "key")⟩

end LogRedaction.Template
