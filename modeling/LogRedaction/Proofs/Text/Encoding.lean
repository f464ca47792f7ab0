/-
LogRedaction.Proofs.Text.Encoding — the texts that can be written.

Only characters have bytes. A text can be written if no half of a surrogate pair is in it
(`writable_iff_forall`); then it is made of its characters (`ofChars_chars`), and nothing is lost
when these are encoded. What is put together from texts that can be written can be written too, and
so can what is left of one.
-/
import LogRedaction.Text.Utf8

namespace LogRedaction.Text

/-- The text can be written. -/
def Writable (text : Text) : Prop := encodeError? text.toList = none

instance (text : Text) : Decidable text.Writable := inferInstanceAs (Decidable (_ = none))

/-- The characters in a text. -/
def chars (text : Text) : List Char := text.toList.filterMap CodePoint.char?

@[simp] theorem chars_ofChars (chars : List Char) : (ofChars chars).chars = chars := by
  simp only [Text.chars, toList_ofChars, List.filterMap_map]
  exact List.filterMap_some

theorem mem_chars_iff {text : Text} {c : Char} : c ∈ text.chars ↔ .scalar c ∈ text.toList := by
  rw [chars, List.mem_filterMap]
  constructor
  · rintro ⟨d | n, hd, h⟩
    · rwa [Option.some.inj h] at hd
    · cases h
  · exact fun h => ⟨.scalar c, h, rfl⟩

theorem surrogatesFrom_eq_none_iff {position : Nat} {codes : List CodePoint} :
    surrogatesFrom position codes = none ↔ ∀ c ∈ codes, c.isSurrogate = false := by
  induction codes generalizing position with
  | nil => simp [surrogatesFrom]
  | cons c rest ih =>
      cases c with
      | scalar c => simp [surrogatesFrom, CodePoint.isSurrogate, ih]
      | surrogate n => simp [surrogatesFrom, CodePoint.isSurrogate]

theorem encodeError?_eq_none_iff {codes : List CodePoint} :
    encodeError? codes = none ↔ ∀ c ∈ codes, c.isSurrogate = false := surrogatesFrom_eq_none_iff

theorem writable_iff_forall {text : Text} :
    text.Writable ↔ ∀ c ∈ text.toList, c.isSurrogate = false := encodeError?_eq_none_iff

@[simp] theorem encodeError?_map_scalar (chars : List Char) :
    encodeError? (chars.map .scalar) = none :=
  encodeError?_eq_none_iff.mpr (by simp [CodePoint.isSurrogate])

@[simp] theorem writable_ofChars (chars : List Char) : (ofChars chars).Writable :=
  encodeError?_map_scalar chars

theorem writable_append {a b : Text} : (a ++ b).Writable ↔ a.Writable ∧ b.Writable := by
  simp only [writable_iff_forall, toList_append, List.mem_append, or_imp, forall_and]

/-- A text that can be written is made of characters. -/
theorem map_scalar_filterMap {codes : List CodePoint} (h : ∀ c ∈ codes, c.isSurrogate = false) :
    (codes.filterMap CodePoint.char?).map .scalar = codes := by
  induction codes with
  | nil => rfl
  | cons c rest ih =>
      cases c with
      | scalar c => simp [CodePoint.char?, ih fun d hd => h d (List.mem_cons_of_mem _ hd)]
      | surrogate n => exact absurd (h _ (List.mem_cons_self ..)) (by simp [CodePoint.isSurrogate])

theorem ofChars_chars {text : Text} (h : text.Writable) : ofChars text.chars = text :=
  Text.ext (map_scalar_filterMap (writable_iff_forall.mp h))

theorem characters_eq_ok_iff {codes : List CodePoint} {chars : List Char} :
    characters codes = .ok chars ↔ codes = chars.map .scalar := by
  rw [characters]
  constructor
  · intro h
    split at h
    · cases h
    · rename_i hnone
      rw [← Except.ok.inj h, map_scalar_filterMap (encodeError?_eq_none_iff.mp hnone)]
  · rintro rfl
    simp only [encodeError?_map_scalar]
    exact congrArg Except.ok (chars_ofChars chars)

theorem characters_eq_error_iff {codes : List CodePoint} {e : EncodeError} :
    characters codes = .error e ↔ encodeError? codes = some e := by
  rw [characters]
  cases encodeError? codes <;> simp

/-- The characters of a text that can be written. -/
theorem characters_of_writable {text : Text} (h : text.Writable) :
    characters text.toList = .ok text.chars :=
  characters_eq_ok_iff.mpr (congrArg toList (ofChars_chars h)).symm

end LogRedaction.Text
