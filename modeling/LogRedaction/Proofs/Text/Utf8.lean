/-
LogRedaction.Proofs.Text.Utf8 — encoded text is read back, also when it is cut anywhere.

`spells_encodeChar` says that the bytes of a character are a lead byte and its tails, with the
bounds of the first tail just so that every code point passes. Everything else is about where a
cut falls. `Waits` describes what a cut leaves over: nothing, or a beginning of the next character
that is not all of it. `exists_cut` finds the characters before any cut, and `decodeSome_encode`
says that decoding gives back exactly those and keeps the beginning for later.

The way back is `encode_of_decodeFrom`: bytes that are decoded without an error are an encoded text
and a beginning. So a long form or a surrogate never passes for a character.
-/
import LogRedaction.Text.Utf8
import Mathlib.Data.List.Basic

namespace LogRedaction.Text

/-! ## One character -/

/-- Tails that can be read to the end are cut short wherever the bytes end before that. -/
theorem readTails_cutShort : ∀ {count low high good code : Nat} {a b rest : List UInt8}
    {result : Nat}, readTails low high count good code (a ++ b) = .all result rest →
      a.length < count → readTails low high count good code a = .cutShort
  | 0, _, _, _, _, _, _, _, _, _, hlen => absurd hlen (Nat.not_lt_zero _)
  | _ + 1, _, _, _, _, [], _, _, _, _, _ => rfl
  | count + 1, low, high, good, code, x :: a, b, rest, result, h, hlen => by
      rw [List.cons_append, readTails] at h
      rw [readTails]
      split at h
      · rename_i hx
        rw [if_pos hx]
        exact readTails_cutShort h (by simpa using hlen)
      · cases h

theorem readTails_cons {low high count good code n : Nat} {rest : List UInt8} (hn : n < 64)
    (hlow : low ≤ n + 0x80) (hhigh : n + 0x80 ≤ high) :
    readTails low high (count + 1) good code (UInt8.ofNat (n + 0x80) :: rest) =
      readTails 0x80 0xBF count (good + 1) (0x40 * code + n) rest := by
  have hbyte : (UInt8.ofNat (n + 0x80)).toNat = n + 0x80 := by
    rw [UInt8.toNat_ofNat']; omega
  rw [readTails, hbyte, if_pos ⟨hlow, hhigh⟩, Nat.add_sub_cancel]

/-- The bytes are one character with the given code point. -/
def Spells (bytes : List UInt8) (code : Nat) : Prop :=
  ∃ byte tails lead, bytes = byte :: tails ∧ lead? byte = some lead ∧ lead.tails = tails.length ∧
    ∀ rest, readTails lead.low lead.high lead.tails 0 lead.bits (tails ++ rest) = .all code rest

theorem spells_one {v : Nat} (hv : v ≤ 0x7F) : Spells [UInt8.ofNat v] v := by
  have hbyte : (UInt8.ofNat v).toNat = v := by rw [UInt8.toNat_ofNat']; omega
  refine ⟨_, _, ⟨0, 0, 0, v⟩, rfl, ?_, rfl, fun rest => by simp [readTails]⟩
  rw [lead?, hbyte, if_pos (by omega)]

theorem spells_two {v : Nat} (hlow : 0x7F < v) (hhigh : v ≤ 0x7FF) :
    Spells [UInt8.ofNat (v / 64 % 32 + 0xC0), UInt8.ofNat (v % 64 + 0x80)] v := by
  have hbyte : (UInt8.ofNat (v / 64 % 32 + 0xC0)).toNat = v / 64 + 0xC0 := by
    rw [UInt8.toNat_ofNat']; omega
  refine ⟨_, _, ⟨1, 0x80, 0xBF, v / 64⟩, rfl, ?_, rfl, fun rest => ?_⟩
  · rw [lead?, hbyte, if_neg (by omega), if_neg (by omega), if_pos (by omega)]
    simp
  · simp only [List.cons_append, List.nil_append]
    rw [readTails_cons (by omega) (by omega) (by omega), readTails]
    congr 1
    omega

/-- The first tail is bounded from below where code points would be too small, and from above
where they would be surrogates. -/
theorem spells_three {v : Nat} (hlow : 0x7FF < v) (hhigh : v ≤ 0xFFFF)
    (hv : v < 0xD800 ∨ 0xDFFF < v) :
    Spells [UInt8.ofNat (v / 4096 % 16 + 0xE0), UInt8.ofNat (v / 64 % 64 + 0x80),
      UInt8.ofNat (v % 64 + 0x80)] v := by
  have hbyte : (UInt8.ofNat (v / 4096 % 16 + 0xE0)).toNat = v / 4096 + 0xE0 := by
    rw [UInt8.toNat_ofNat']; omega
  have hlead : ∃ low high, lead? (UInt8.ofNat (v / 4096 % 16 + 0xE0)) =
      some ⟨2, low, high, v / 4096⟩ ∧ low ≤ v / 64 % 64 + 0x80 ∧ v / 64 % 64 + 0x80 ≤ high := by
    rw [lead?, hbyte, if_neg (by omega), if_neg (by omega), if_neg (by omega)]
    by_cases h0 : v / 4096 = 0
    · exact ⟨0xA0, 0xBF, by simp [h0], by omega, by omega⟩
    rw [if_neg (by omega)]
    by_cases h13 : v / 4096 = 13
    · exact ⟨0x80, 0x9F, by simp [h13], by omega, by omega⟩
    rw [if_neg (by omega), if_pos (by omega)]
    exact ⟨0x80, 0xBF, by simp, by omega, by omega⟩
  obtain ⟨low, high, hlead, hfirst⟩ := hlead
  refine ⟨_, _, _, rfl, hlead, rfl, fun rest => ?_⟩
  simp only [List.cons_append, List.nil_append]
  rw [readTails_cons (by omega) hfirst.1 hfirst.2, readTails_cons (by omega) (by omega) (by omega),
    readTails]
  congr 1
  omega

theorem spells_four {v : Nat} (hlow : 0xFFFF < v) (hhigh : v < 0x110000) :
    Spells [UInt8.ofNat (v / 262144 % 8 + 0xF0), UInt8.ofNat (v / 4096 % 64 + 0x80),
      UInt8.ofNat (v / 64 % 64 + 0x80), UInt8.ofNat (v % 64 + 0x80)] v := by
  have hbyte : (UInt8.ofNat (v / 262144 % 8 + 0xF0)).toNat = v / 262144 + 0xF0 := by
    rw [UInt8.toNat_ofNat']; omega
  have hlead : ∃ low high, lead? (UInt8.ofNat (v / 262144 % 8 + 0xF0)) =
      some ⟨3, low, high, v / 262144⟩ ∧
        low ≤ v / 4096 % 64 + 0x80 ∧ v / 4096 % 64 + 0x80 ≤ high := by
    rw [lead?, hbyte, if_neg (by omega), if_neg (by omega), if_neg (by omega), if_neg (by omega),
      if_neg (by omega), if_neg (by omega)]
    by_cases h0 : v / 262144 = 0
    · exact ⟨0x90, 0xBF, by simp [h0], by omega, by omega⟩
    rw [if_neg (by omega)]
    by_cases h4 : v / 262144 = 4
    · exact ⟨0x80, 0x8F, by simp [h4], by omega, by omega⟩
    rw [if_pos (by omega)]
    exact ⟨0x80, 0xBF, by simp, by omega, by omega⟩
  obtain ⟨low, high, hlead, hfirst⟩ := hlead
  refine ⟨_, _, _, rfl, hlead, rfl, fun rest => ?_⟩
  simp only [List.cons_append, List.nil_append]
  rw [readTails_cons (by omega) hfirst.1 hfirst.2, readTails_cons (by omega) (by omega) (by omega),
    readTails_cons (by omega) (by omega) (by omega), readTails]
  congr 1
  omega

theorem spells_encodeChar (c : Char) : Spells (String.utf8EncodeChar c) c.toNat := by
  have hv : c.val.toNat < 0xD800 ∨ (0xDFFF < c.val.toNat ∧ c.val.toNat < 0x110000) := c.valid
  rw [String.utf8EncodeChar, ← Char.toNat_val]
  split
  · exact spells_one (by omega)
  split
  · exact spells_two (by omega) (by omega)
  split
  · exact spells_three (by omega) (by omega) (by omega)
  · exact spells_four (by omega) (by omega)

/-! ## Decoding one character, or the beginning of one -/

theorem decodeFrom_spells {bytes : List UInt8} {code : Nat} (h : Spells bytes code)
    (fuel position : Nat) (rest : List UInt8) :
    ∃ position', decodeFrom (fuel + 1) position (bytes ++ rest) =
      { decodeFrom fuel position' rest with
        chars := Char.ofNat code :: (decodeFrom fuel position' rest).chars } := by
  obtain ⟨byte, tails, lead, rfl, hlead, -, hread⟩ := h
  refine ⟨position + 1 + lead.tails, ?_⟩
  rw [List.cons_append, decodeFrom]
  simp only [hlead, hread rest]

theorem decodeFrom_beginning {a b : List UInt8} {code : Nat} (h : Spells (a ++ b) code)
    (hb : b ≠ []) (fuel position : Nat) : decodeFrom fuel position a = ⟨[], a, none⟩ := by
  obtain ⟨byte, tails, lead, heq, hlead, hcount, hread⟩ := h
  cases a with
  | nil => cases fuel <;> rfl
  | cons x a =>
      cases fuel with
      | zero => rfl
      | succ fuel =>
          obtain ⟨rfl, rfl⟩ : x = byte ∧ a ++ b = tails := by simpa using heq
          have hlen : a.length < lead.tails := by
            rw [hcount, List.length_append]
            have := List.length_pos_iff.mpr hb
            omega
          have hcut : readTails lead.low lead.high lead.tails 0 lead.bits a = .cutShort :=
            readTails_cutShort (by simpa using hread []) hlen
          rw [decodeFrom]
          simp only [hlead, hcut]

/-! ## Cuts through encoded text -/

theorem encodeUtf8_cons (c : Char) (text : List Char) :
    encodeUtf8 (c :: text) = String.utf8EncodeChar c ++ encodeUtf8 text := rfl

theorem encodeUtf8_append (a b : List Char) : encodeUtf8 (a ++ b) = encodeUtf8 a ++ encodeUtf8 b :=
  List.flatMap_append

/-- The bytes begin the first character of the text, but are not all of it. -/
def Waits (bytes : List UInt8) : List Char → Prop
  | [] => bytes = []
  | c :: _ => ∃ more, more ≠ [] ∧ String.utf8EncodeChar c = bytes ++ more

theorem waits_nil (text : List Char) : Waits [] text := by
  cases text with
  | nil => rfl
  | cons c text => exact ⟨_, String.utf8EncodeChar_ne_nil, rfl⟩

/-- Bytes that wait for the rest of a character are not the whole of what is left. -/
theorem eq_nil_of_waits {text : List Char} (h : Waits (encodeUtf8 text) text) : text = [] := by
  cases text with
  | nil => rfl
  | cons c text =>
      obtain ⟨more, hmore, heq⟩ := h
      have hlen := congrArg List.length heq
      rw [encodeUtf8_cons, List.append_assoc, List.length_append, List.length_append] at hlen
      have := List.length_pos_iff.mpr hmore
      omega

/-- Every cut through encoded text falls behind some of its characters, and perhaps into the
next one. -/
theorem exists_cut : ∀ (text : List Char) {a b : List UInt8}, encodeUtf8 text = a ++ b →
    ∃ before after rest, text = before ++ after ∧ a = encodeUtf8 before ++ rest ∧
      rest ++ b = encodeUtf8 after ∧ Waits rest after
  | [], a, b, h => by
      obtain ⟨rfl, rfl⟩ : a = [] ∧ b = [] := by simpa [encodeUtf8] using h.symm
      exact ⟨[], [], [], rfl, rfl, rfl, rfl⟩
  | c :: text, a, b, h => by
      rw [encodeUtf8_cons] at h
      rcases List.append_eq_append_iff.mp h with ⟨a', rfl, h'⟩ | ⟨more, hc, rfl⟩
      · obtain ⟨before, after, rest, rfl, rfl, hrest, hwaits⟩ := exists_cut text h'
        refine ⟨c :: before, after, rest, rfl, ?_, hrest, hwaits⟩
        rw [encodeUtf8_cons, List.append_assoc]
      · by_cases hmore : more = []
        · subst hmore
          refine ⟨[c], text, [], rfl, ?_, rfl, waits_nil text⟩
          simpa [encodeUtf8] using hc.symm
        · refine ⟨[], c :: text, a, rfl, rfl, ?_, more, hmore, hc⟩
          rw [encodeUtf8_cons, hc, List.append_assoc]

/-- Encoded characters are decoded, and then what follows them. -/
theorem decodeFrom_append : ∀ (before : List Char) {fuel position : Nat} {rest : List UInt8},
    (encodeUtf8 before ++ rest).length ≤ fuel → ∃ fuel' position', rest.length ≤ fuel' ∧
      decodeFrom fuel position (encodeUtf8 before ++ rest) =
        { decodeFrom fuel' position' rest with
          chars := before ++ (decodeFrom fuel' position' rest).chars }
  | [], fuel, position, rest, hlen => ⟨fuel, position, hlen, rfl⟩
  | c :: before, fuel, position, rest, hlen => by
      rw [encodeUtf8_cons, List.append_assoc] at hlen ⊢
      have hpos : 0 < (String.utf8EncodeChar c).length :=
        List.length_pos_iff.mpr String.utf8EncodeChar_ne_nil
      rw [List.length_append] at hlen
      cases fuel with
      | zero => omega
      | succ fuel =>
          obtain ⟨between, heq⟩ :=
            decodeFrom_spells (spells_encodeChar c) fuel position (encodeUtf8 before ++ rest)
          obtain ⟨fuel', position', hrest, hmore⟩ :=
            @decodeFrom_append before fuel between rest (by omega)
          refine ⟨fuel', position', hrest, ?_⟩
          rw [heq, hmore, Char.ofNat_toNat]
          rfl

theorem decodeFrom_waits {rest : List UInt8} {after : List Char} (h : Waits rest after)
    (fuel position : Nat) : decodeFrom fuel position rest = ⟨[], rest, none⟩ := by
  cases after with
  | nil =>
      obtain rfl : rest = [] := h
      cases fuel <;> rfl
  | cons c after =>
      obtain ⟨more, hmore, heq⟩ := h
      exact decodeFrom_beginning (heq ▸ spells_encodeChar c) hmore fuel position

theorem decodeSome_encode {before after : List Char} {rest : List UInt8}
    (hwaits : Waits rest after) :
    decodeSome (encodeUtf8 before ++ rest) = ⟨before, rest, none⟩ := by
  obtain ⟨fuel, position, -, heq⟩ := @decodeFrom_append before _ 0 rest (Nat.le_refl _)
  rw [decodeSome, heq, decodeFrom_waits hwaits, List.append_nil]

/-! ## Decoding is the inverse of encoding -/

theorem encodeUtf8_inj {a b : List Char} (h : encodeUtf8 a = encodeUtf8 b) : a = b := by
  have ha := @decodeSome_encode a [] [] rfl
  have hb := @decodeSome_encode b [] [] rfl
  rw [h, hb] at ha
  injection ha with hchars
  exact hchars.symm

theorem toNat_ofNat {n : Nat} (h : n.isValidChar) : (Char.ofNat n).val.toNat = n := by
  rw [Char.ofNat, dif_pos h]
  rfl

/-- Reading the last tails backwards: the byte that was read, and how the reading went on. -/
theorem readTails_eq_all {low high count good code result : Nat} {bytes rest : List UInt8}
    (h : readTails low high (count + 1) good code bytes = .all result rest) :
    ∃ b more, bytes = b :: more ∧ low ≤ b.toNat ∧ b.toNat ≤ high ∧
      readTails 0x80 0xBF count (good + 1) (0x40 * code + (b.toNat - 0x80)) more =
        .all result rest := by
  cases bytes with
  | nil => cases h
  | cons b more =>
      rw [readTails] at h
      split at h
      · rename_i hb
        exact ⟨b, more, rfl, hb.1, hb.2, h⟩
      · cases h

theorem readTails_eq_nothing {low high good code result : Nat} {bytes rest : List UInt8}
    (h : readTails low high 0 good code bytes = .all result rest) :
    result = code ∧ bytes = rest := by
  rw [readTails] at h
  injection h with hcode hbytes
  exact ⟨hcode.symm, hbytes⟩

theorem ofNat_toNat {byte : UInt8} {n : Nat} (h : n = byte.toNat) : UInt8.ofNat n = byte := by
  rw [h, UInt8.ofNat_toNat]

theorem encode_one {a : UInt8} (ha : a.toNat < 0x80) :
    String.utf8EncodeChar (Char.ofNat a.toNat) = [a] := by
  rw [String.utf8EncodeChar, toNat_ofNat (.inl (by omega)), if_pos (by omega), UInt8.ofNat_toNat]

theorem encode_two {a b : UInt8} (ha : 0xC2 ≤ a.toNat) (ha' : a.toNat < 0xE0) (hb : 0x80 ≤ b.toNat)
    (hb' : b.toNat ≤ 0xBF) :
    String.utf8EncodeChar (Char.ofNat (0x40 * (a.toNat - 0xC0) + (b.toNat - 0x80))) = [a, b] := by
  rw [String.utf8EncodeChar, toNat_ofNat (.inl (by omega)), if_neg (by omega), if_pos (by omega)]
  refine congrArg₂ List.cons (ofNat_toNat (by omega)) ?_
  exact congrArg₂ List.cons (ofNat_toNat (by omega)) rfl

theorem encode_three {a b c : UInt8} {n : Nat} (ha : a.toNat = n + 0xE0) (hn : n < 16)
    (hlow : n = 0 → 0xA0 ≤ b.toNat) (hhigh : n = 0xD → b.toNat ≤ 0x9F) (hb : 0x80 ≤ b.toNat)
    (hb' : b.toNat ≤ 0xBF) (hc : 0x80 ≤ c.toNat) (hc' : c.toNat ≤ 0xBF) :
    String.utf8EncodeChar
      (Char.ofNat (0x40 * (0x40 * n + (b.toNat - 0x80)) + (c.toNat - 0x80))) = [a, b, c] := by
  rw [String.utf8EncodeChar]
  rw [toNat_ofNat (by unfold Nat.isValidChar; omega)]
  rw [if_neg (by omega), if_neg (by omega), if_pos (by omega)]
  refine congrArg₂ List.cons (ofNat_toNat (by omega)) ?_
  refine congrArg₂ List.cons (ofNat_toNat (by omega)) ?_
  exact congrArg₂ List.cons (ofNat_toNat (by omega)) rfl

theorem encode_four {a b c d : UInt8} {n : Nat} (ha : a.toNat = n + 0xF0) (hn : n < 5)
    (hlow : n = 0 → 0x90 ≤ b.toNat) (hhigh : n = 4 → b.toNat ≤ 0x8F) (hb : 0x80 ≤ b.toNat)
    (hb' : b.toNat ≤ 0xBF) (hc : 0x80 ≤ c.toNat) (hc' : c.toNat ≤ 0xBF) (hd : 0x80 ≤ d.toNat)
    (hd' : d.toNat ≤ 0xBF) :
    String.utf8EncodeChar (Char.ofNat
      (0x40 * (0x40 * (0x40 * n + (b.toNat - 0x80)) + (c.toNat - 0x80)) + (d.toNat - 0x80))) =
        [a, b, c, d] := by
  rw [String.utf8EncodeChar]
  rw [toNat_ofNat (by unfold Nat.isValidChar; omega)]
  rw [if_neg (by omega), if_neg (by omega), if_neg (by omega)]
  refine congrArg₂ List.cons (ofNat_toNat (by omega)) ?_
  refine congrArg₂ List.cons (ofNat_toNat (by omega)) ?_
  refine congrArg₂ List.cons (ofNat_toNat (by omega)) ?_
  exact congrArg₂ List.cons (ofNat_toNat (by omega)) rfl

/-- Three bytes are read; `n` is what the first of them adds to the code point. -/
theorem encode_of_read_three {byte : UInt8} {n low high code : Nat} {bytes rest : List UInt8}
    (hbyte : byte.toNat = n + 0xE0) (hn : n < 16) (hlow : 0x80 ≤ low) (hhigh : high ≤ 0xBF)
    (hfirst : n = 0 → 0xA0 ≤ low) (hlast : n = 0xD → high ≤ 0x9F)
    (h : readTails low high 2 0 n bytes = .all code rest) :
    byte :: bytes = String.utf8EncodeChar (Char.ofNat code) ++ rest := by
  obtain ⟨b, bytes, rfl, hb, hb', h⟩ := readTails_eq_all h
  obtain ⟨c, bytes, rfl, hc, hc', h⟩ := readTails_eq_all h
  obtain ⟨hcode, rfl⟩ := readTails_eq_nothing h
  rw [hcode, encode_three hbyte hn (by omega) (by omega) (by omega) (by omega) hc hc']
  rfl

/-- The same for four bytes. -/
theorem encode_of_read_four {byte : UInt8} {n low high code : Nat} {bytes rest : List UInt8}
    (hbyte : byte.toNat = n + 0xF0) (hn : n < 5) (hlow : 0x80 ≤ low) (hhigh : high ≤ 0xBF)
    (hfirst : n = 0 → 0x90 ≤ low) (hlast : n = 4 → high ≤ 0x8F)
    (h : readTails low high 3 0 n bytes = .all code rest) :
    byte :: bytes = String.utf8EncodeChar (Char.ofNat code) ++ rest := by
  obtain ⟨b, bytes, rfl, hb, hb', h⟩ := readTails_eq_all h
  obtain ⟨c, bytes, rfl, hc, hc', h⟩ := readTails_eq_all h
  obtain ⟨d, bytes, rfl, hd, hd', h⟩ := readTails_eq_all h
  obtain ⟨hcode, rfl⟩ := readTails_eq_nothing h
  rw [hcode, encode_four hbyte hn (by omega) (by omega) (by omega) (by omega) hc hc' hd hd']
  rfl

/-- What is read as a character is the encoding of that character. -/
theorem encode_of_read {byte : UInt8} {lead : Lead} {bytes rest : List UInt8} {code : Nat}
    (hlead : lead? byte = some lead)
    (hread : readTails lead.low lead.high lead.tails 0 lead.bits bytes = .all code rest) :
    byte :: bytes = String.utf8EncodeChar (Char.ofNat code) ++ rest := by
  rw [lead?] at hlead
  split at hlead
  · cases hlead
    obtain ⟨hcode, rfl⟩ := readTails_eq_nothing hread
    rw [hcode, encode_one (by omega)]
    rfl
  split at hlead
  · cases hlead
  split at hlead
  · cases hlead
    obtain ⟨b, bytes, rfl, hb, hb', hread⟩ := readTails_eq_all hread
    obtain ⟨hcode, rfl⟩ := readTails_eq_nothing hread
    rw [hcode, encode_two (by omega) (by omega) hb hb']
    rfl
  split at hlead
  · cases hlead
    simp only at hread
    refine encode_of_read_three ?_ ?_ ?_ ?_ ?_ ?_ hread <;> omega
  split at hlead
  · cases hlead
    simp only at hread
    refine encode_of_read_three ?_ ?_ ?_ ?_ ?_ ?_ hread <;> omega
  split at hlead
  · cases hlead
    simp only at hread
    refine encode_of_read_three ?_ ?_ ?_ ?_ ?_ ?_ hread <;> omega
  split at hlead
  · cases hlead
    simp only at hread
    refine encode_of_read_four ?_ ?_ ?_ ?_ ?_ ?_ hread <;> omega
  split at hlead
  · cases hlead
    simp only at hread
    refine encode_of_read_four ?_ ?_ ?_ ?_ ?_ ?_ hread <;> omega
  split at hlead
  · cases hlead
    simp only at hread
    refine encode_of_read_four ?_ ?_ ?_ ?_ ?_ ?_ hread <;> omega
  · cases hlead

/-- Bytes that are decoded without an error are the text and what is cut short. -/
theorem encode_of_decodeFrom : ∀ {fuel position : Nat} {bytes : List UInt8},
    (decodeFrom fuel position bytes).error = none →
      bytes = encodeUtf8 (decodeFrom fuel position bytes).chars ++
        (decodeFrom fuel position bytes).rest
  | 0, _, _, _ => rfl
  | _ + 1, _, [], _ => rfl
  | fuel + 1, position, byte :: bytes, h => by
      rw [decodeFrom] at h ⊢
      split at h
      · cases h
      rename_i lead hlead
      split at h
      · rfl
      · split at h
        · rename_i hsurrogate
          rw [if_pos hsurrogate]
          rfl
        · cases h
      · rename_i code rest hread
        have hmore := encode_of_decodeFrom h
        simp only
        rw [encode_of_read hlead hread, encodeUtf8_cons, List.append_assoc, ← hmore]

theorem encode_of_decodeSome {bytes rest : List UInt8} {text : List Char}
    (h : decodeSome bytes = ⟨text, rest, none⟩) : bytes = encodeUtf8 text ++ rest := by
  have hbytes := @encode_of_decodeFrom bytes.length 0 bytes (congrArg Decoded.error h)
  rw [← decodeSome, h] at hbytes
  exact hbytes

theorem endError_eq_none {bytes : List UInt8} (h : endError bytes = none) : bytes = [] := by
  cases bytes with
  | nil => rfl
  | cons byte bytes =>
      rw [endError] at h
      split at h <;> cases h

end LogRedaction.Text
