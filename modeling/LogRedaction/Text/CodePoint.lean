/-
LogRedaction.Text.CodePoint — texts as sequences of code points.

A text need not consist of characters: it may hold halves of surrogate pairs whose other
half is missing. They come from escapes in documents, and from arguments and names of files
whose bytes are no characters. What is read from a file consists of characters, and only
characters can be written to one.

## §1 Code points
## §2 Texts
-/

namespace LogRedaction

/-! ## §1 Code points -/

/-- A character, or half of a surrogate pair. -/
inductive CodePoint where
  | scalar (c : Char)
  | surrogate (n : Fin 0x800)
deriving DecidableEq, Repr

namespace CodePoint

instance : Coe Char CodePoint := ⟨scalar⟩

/-- The number of a code point. -/
def toNat : CodePoint → Nat
  | scalar c => c.toNat
  | surrogate n => 0xD800 + n

/-- The code point with a number. -/
def ofNat (code : Nat) : CodePoint :=
  if h : 0xD800 ≤ code ∧ code < 0xE000 then surrogate ⟨code - 0xD800, by omega⟩
  else scalar (Char.ofNat code)

/-- The character that a code point is. -/
def char? : CodePoint → Option Char
  | scalar c => some c
  | surrogate _ => none

/-- It is half of a surrogate pair. -/
def isSurrogate : CodePoint → Bool
  | scalar _ => false
  | surrogate _ => true

instance : LE CodePoint := ⟨fun a b => a.toNat ≤ b.toNat⟩

instance (a b : CodePoint) : Decidable (a ≤ b) := inferInstanceAs (Decidable (a.toNat ≤ b.toNat))

@[simp] theorem toNat_scalar (c : Char) : (scalar c).toNat = c.toNat := rfl

/-- Characters are outside of the range of surrogate pairs. -/
theorem toNat_scalar_ne_surrogate (c : Char) (n : Fin 0x800) :
    (scalar c).toNat ≠ (surrogate n).toNat := by
  have hvalid : c.toNat < 0xD800 ∨ 0xDFFF < c.toNat ∧ c.toNat < 0x110000 := c.valid
  have hn := n.isLt
  simp only [toNat]
  omega

theorem toNat_inj {a b : CodePoint} : a.toNat = b.toNat ↔ a = b := by
  refine ⟨fun h => ?_, fun h => h ▸ rfl⟩
  cases a with
  | scalar c =>
    cases b with
    | scalar d => exact congrArg scalar (Char.toNat_inj.mp h)
    | surrogate n => exact absurd h (toNat_scalar_ne_surrogate c n)
  | surrogate m =>
    cases b with
    | scalar d => exact absurd h.symm (toNat_scalar_ne_surrogate d m)
    | surrogate n => exact congrArg surrogate (Fin.ext (by simpa [toNat] using h))

theorem map_scalar_inj {a b : List Char} : a.map scalar = b.map scalar ↔ a = b :=
  List.map_inj_right fun _ _ h => CodePoint.scalar.inj h

end CodePoint

/-! ## §2 Texts -/

/-- A sequence of code points. -/
structure Text where
  ofList ::
  toList : List CodePoint
deriving DecidableEq, Repr

namespace Text

/-- The text with these characters. -/
def ofChars (chars : List Char) : Text := ofList (chars.map .scalar)

/-- A string as a text. -/
@[coe] def ofString (s : String) : Text := ofChars s.toList

instance : Coe String Text := ⟨ofString⟩

/-- One after the other. -/
def append (a b : Text) : Text := ofList (a.toList ++ b.toList)

instance : Append Text := ⟨append⟩

/-- All one after the other. -/
def join (texts : List Text) : Text := ofList (texts.flatMap toList)

/-- All one after the other, with a separator between them. -/
def intercalate (separator : Text) (texts : List Text) : Text :=
  ofList (separator.toList.intercalate (texts.map toList))

/-- The number of code points. -/
def length (text : Text) : Nat := text.toList.length

/-- No code points. -/
def isEmpty (text : Text) : Bool := text.toList.isEmpty

/-- The numbers of the code points. Texts are sorted by them. -/
def codes (text : Text) : List Nat := text.toList.map CodePoint.toNat

@[ext] theorem ext {a b : Text} (h : a.toList = b.toList) : a = b := by
  cases a; cases b; simpa using h

theorem toList_inj {a b : Text} : a.toList = b.toList ↔ a = b := ⟨ext, fun h => h ▸ rfl⟩

@[simp] theorem ofList_toList (text : Text) : ofList text.toList = text := rfl

@[simp] theorem toList_ofChars (chars : List Char) : (ofChars chars).toList = chars.map .scalar := rfl

@[simp] theorem toList_ofString (s : String) : (s : Text).toList = s.toList.map .scalar := rfl

@[simp] theorem toList_append (a b : Text) : (a ++ b).toList = a.toList ++ b.toList := rfl

@[simp] theorem toList_join (texts : List Text) : (join texts).toList = texts.flatMap toList := rfl

@[simp] theorem toList_intercalate (separator : Text) (texts : List Text) :
    (intercalate separator texts).toList = separator.toList.intercalate (texts.map toList) := rfl

@[simp] theorem ofString_inj {s t : String} : (s : Text) = t ↔ s = t := by
  constructor
  · intro h
    have hlist := congrArg toList h
    simp only [toList_ofString] at hlist
    exact String.toList_inj.mp (CodePoint.map_scalar_inj.mp hlist)
  · rintro rfl; rfl

@[simp] theorem toList_eq_nil_iff {text : Text} : text.toList = [] ↔ text = "" := by
  rw [← toList_inj]; simp

@[simp] theorem ofList_eq_empty_iff {codes : List CodePoint} : ofList codes = "" ↔ codes = [] := by
  rw [← toList_inj]; simp

@[simp] theorem append_empty (text : Text) : text ++ ("" : Text) = text := by ext1; simp

@[simp] theorem empty_append (text : Text) : ("" : Text) ++ text = text := by ext1; simp

theorem append_assoc (a b c : Text) : a ++ b ++ c = a ++ (b ++ c) := by ext1; simp

@[simp] theorem join_nil : join [] = "" := by ext1; simp

@[simp] theorem join_cons (text : Text) (rest : List Text) :
    join (text :: rest) = text ++ join rest := by
  ext1; simp

theorem join_append (a b : List Text) : join (a ++ b) = join a ++ join b := by ext1; simp

end Text

end LogRedaction
