/-
LogRedaction.Proofs.Text.Undecodable — what is read of bytes that are no text.

Bytes begin with the encoding of a text and go on with something else: no character stands at the
first undecodable position (`NoCharacter`). The error names the byte that is there
(`decodeFrom_error`). What a chunk leaves over is cut short (`Incomplete`), which is less than being
the beginning of a character: two bytes that begin a surrogate are kept as well until the third.

The reader stops with the error of the chunk that it cannot decode. `decodeChunks_refused` is an
induction on the chunks that finds this chunk, with the invariant that what has been given out and
what is held back stand for the text before it. From it `readLines_undecodable` counts the lines
that have been seen by then: all those that are certain to be complete before the chunk, and only
lines of the text before the undecodable position.

## §1 Bytes that are refused
## §2 Bytes that wait
## §3 Chunks
## §4 Lines
-/
import LogRedaction.Proofs.Text.Lines

namespace LogRedaction.Text

/-! ## §1 Bytes that are refused -/

/-- The bytes do not begin with a character. -/
def NoCharacter (bytes : List UInt8) : Prop := ∀ c, ¬ String.utf8EncodeChar c <+: bytes

/-- Bytes that spoil a character spoil it whatever follows. -/
theorem readTails_spoiled_append : ∀ {count low high good code spoiled : Nat} {a : List UInt8},
    readTails low high count good code a = .spoiled spoiled → ∀ b,
      readTails low high count good code (a ++ b) = .spoiled spoiled
  | 0, _, _, _, _, _, _, h, _ => by rw [readTails] at h; cases h
  | _ + 1, _, _, _, _, _, [], h, _ => by rw [readTails] at h; cases h
  | count + 1, low, high, good, code, spoiled, x :: a, h, b => by
      rw [readTails] at h
      rw [List.cons_append, readTails]
      split at h
      · rename_i hx
        rw [if_pos hx]
        exact readTails_spoiled_append h b
      · rename_i hx
        rw [if_neg hx]
        exact h

/-- A character that stands at the beginning is read. -/
theorem read_of_isPrefix {c : Char} {byte : UInt8} {bytes : List UInt8}
    (h : String.utf8EncodeChar c <+: byte :: bytes) : ∃ lead rest, lead? byte = some lead ∧
      readTails lead.low lead.high lead.tails 0 lead.bits bytes = .all c.toNat rest := by
  obtain ⟨rest, heq⟩ := h
  obtain ⟨first, tails, lead, hchar, hlead, -, hread⟩ := spells_encodeChar c
  rw [hchar, List.cons_append] at heq
  obtain ⟨rfl, rfl⟩ := List.cons.inj heq
  exact ⟨lead, rest, hlead, hread rest⟩

theorem noCharacter_of_lead {byte : UInt8} (h : lead? byte = none) (bytes : List UInt8) :
    NoCharacter (byte :: bytes) := by
  intro c hc
  obtain ⟨lead, rest, hlead, -⟩ := read_of_isPrefix hc
  rw [h] at hlead
  cases hlead

theorem noCharacter_of_tails {byte : UInt8} {lead : Lead} {bytes : List UInt8}
    (hlead : lead? byte = some lead) (h : ∀ code rest,
      readTails lead.low lead.high lead.tails 0 lead.bits bytes ≠ .all code rest) :
    NoCharacter (byte :: bytes) := by
  intro c hc
  obtain ⟨lead', rest, hlead', hread⟩ := read_of_isPrefix hc
  rw [hlead] at hlead'
  obtain rfl := Option.some.inj hlead'
  exact h _ _ hread

/-- Decoding stops at the first position where no character stands, whatever follows the bytes, and
the error names the byte there. -/
theorem decodeFrom_error : ∀ {fuel position : Nat} {bytes : List UInt8} {e : Utf8Error},
    (decodeFrom fuel position bytes).error = some e →
      ∃ rest, bytes = encodeUtf8 (decodeFrom fuel position bytes).chars ++ rest ∧
        (∀ more, NoCharacter (rest ++ more)) ∧ rest.head? = some e.byte
  | 0, _, _, _, h => by rw [decodeFrom] at h; cases h
  | _ + 1, _, [], _, h => by simp [decodeFrom] at h
  | fuel + 1, position, byte :: bytes, e, h => by
      rw [decodeFrom] at h ⊢
      split at h
      · rename_i hlead
        obtain rfl := Option.some.inj h
        exact ⟨byte :: bytes, rfl, fun more => noCharacter_of_lead hlead _, rfl⟩
      rename_i lead hlead
      split at h
      · cases h
      · rename_i hread
        split at h
        · cases h
        rename_i hsurrogate
        rw [if_neg hsurrogate]
        obtain rfl := Option.some.inj h
        refine ⟨byte :: bytes, rfl, fun more =>
          @noCharacter_of_tails byte lead (bytes ++ more) hlead ?_, rfl⟩
        intro code rest hall
        rw [readTails_spoiled_append hread more] at hall
        cases hall
      · rename_i code rest hread
        obtain ⟨last, heq, hnone, hbyte⟩ := decodeFrom_error h
        refine ⟨last, ?_, hnone, hbyte⟩
        simp only
        rw [encode_of_read hlead hread, encodeUtf8_cons, List.append_assoc, ← heq]

/-- Where no character stands, none is decoded. -/
theorem chars_eq_nil {bytes : List UInt8} (h : NoCharacter bytes) (fuel position : Nat) :
    (decodeFrom fuel position bytes).chars = [] := by
  cases fuel with
  | zero => rfl
  | succ fuel =>
      cases bytes with
      | nil => rfl
      | cons byte bytes =>
          rw [decodeFrom]
          split
          · rfl
          rename_i lead hlead
          split
          · rfl
          · split <;> rfl
          · rename_i code rest hread
            exact absurd ⟨rest, (encode_of_read hlead hread).symm⟩ (h (Char.ofNat code))

/-- A text at the beginning of the bytes ends before the position where no character stands. -/
theorem isPrefix_of_noCharacter {a b : List Char} {more rest : List UInt8} (h : NoCharacter rest)
    (heq : encodeUtf8 a ++ more = encodeUtf8 b ++ rest) : a <+: b := by
  obtain ⟨_, _, -, ha⟩ := @decodeFrom_append a _ 0 more (Nat.le_refl _)
  obtain ⟨_, _, -, hb⟩ := @decodeFrom_append b _ 0 rest (Nat.le_refl _)
  rw [heq, hb] at ha
  injection ha with hchars
  rw [chars_eq_nil h, List.append_nil] at hchars
  exact ⟨_, hchars.symm⟩

/-! ## §2 Bytes that wait -/

/-- The bytes are cut short: no character can be decoded, and nothing is wrong yet. -/
def Incomplete (bytes : List UInt8) : Prop := decodeSome bytes = ⟨[], bytes, none⟩

theorem Incomplete.noCharacter {bytes : List UInt8} (h : Incomplete bytes) : NoCharacter bytes := by
  rintro c ⟨rest, rfl⟩
  have hlength : (String.utf8EncodeChar c ++ rest).length =
      (String.utf8EncodeChar c ++ rest).length - 1 + 1 := by
    have := List.length_pos_iff.mpr (String.utf8EncodeChar_ne_nil (c := c))
    rw [List.length_append]
    omega
  rw [Incomplete, decodeSome, hlength] at h
  obtain ⟨position, hdecoded⟩ := decodeFrom_spells (spells_encodeChar c)
    ((String.utf8EncodeChar c ++ rest).length - 1) 0 rest
  rw [h] at hdecoded
  injection hdecoded with hchars
  cases hchars

/-- What decoding without an error leaves over is cut short. -/
theorem incomplete_of_decodeFrom : ∀ {fuel position : Nat} {bytes : List UInt8},
    bytes.length ≤ fuel → (decodeFrom fuel position bytes).error = none →
      Incomplete (decodeFrom fuel position bytes).rest
  | 0, _, bytes, hlength, _ => by
      obtain rfl : bytes = [] := List.eq_nil_of_length_eq_zero (by omega)
      rfl
  | _ + 1, _, [], _, _ => rfl
  | fuel + 1, position, byte :: bytes, hlength, h => by
      rw [decodeFrom] at h ⊢
      split at h
      · cases h
      rename_i lead hlead
      split at h
      · rename_i hread
        simp only [Incomplete, decodeSome, List.length_cons, decodeFrom, hlead, hread]
      · rename_i hread
        split at h
        · rename_i hsurrogate
          rw [if_pos hsurrogate]
          simp only [Incomplete, decodeSome, List.length_cons, decodeFrom, hlead, hread,
            hsurrogate, if_true]
        · cases h
      · rename_i code rest hread
        have hcons := congrArg List.length (encode_of_read hlead hread)
        have hpos := List.length_pos_iff.mpr (String.utf8EncodeChar_ne_nil (c := Char.ofNat code))
        rw [List.length_append] at hcons
        exact incomplete_of_decodeFrom (by omega) h

/-- The error at the end of the bytes names the first byte that is left. -/
theorem head_of_endError {bytes : List UInt8} {e : Utf8Error} (h : endError bytes = some e) :
    bytes.head? = some e.byte := by
  cases bytes with
  | nil => cases h
  | cons byte bytes =>
      rw [endError] at h
      split at h <;> obtain rfl := Option.some.inj h <;> rfl

/-! ## §3 Chunks -/

theorem error_of_feed {carry : Carry} {chunk : List UInt8} {e : Utf8Error}
    (h : carry.feed chunk = .error e) : (decodeSome (carry.bytes ++ chunk)).error = some e := by
  rw [Carry.feed] at h
  simp only at h
  split at h
  · rename_i hsome
    rw [hsome, Except.error.inj h]
  · cases h

/-- The chunks before the refused one are decoded, with what is held and kept after them. -/
theorem decodeChunks_refused : ∀ {chunks : List (List UInt8)} {carry : Carry}
    {texts : List (List Char)} {e : Utf8Error}, Incomplete carry.bytes →
    decodeChunks carry chunks = (texts, some e) →
      ∃ done todo before, ∃ next : Carry, chunks = done ++ todo ∧
        carry.bytes ++ done.flatten = encodeUtf8 before ++ next.bytes ∧ Incomplete next.bytes ∧
        (∀ after, texts.flatten ++ unifyNewlines (next.held ++ after) =
          unifyNewlines (carry.held ++ (before ++ after))) ∧
        ((∃ chunk more, todo = chunk :: more ∧
            (decodeSome (next.bytes ++ chunk)).error = some e) ∨
          todo = [] ∧ endError next.bytes = some e)
  | [], carry, texts, e, hwaits, h => by
      rw [decodeChunks, Carry.finish] at h
      cases hend : endError carry.bytes with
      | none => rw [hend] at h; cases h
      | some e' =>
          rw [hend] at h
          cases h
          exact ⟨[], [], [], carry, rfl, by simp [encodeUtf8], hwaits, fun _ => rfl,
            .inr ⟨rfl, hend⟩⟩
  | chunk :: chunks, carry, texts, e, hwaits, h => by
      rw [decodeChunks] at h
      cases hfeed : carry.feed chunk with
      | error e' =>
          rw [hfeed] at h
          cases h
          exact ⟨[], chunk :: chunks, [], carry, rfl, by simp [encodeUtf8], hwaits, fun _ => rfl,
            .inl ⟨chunk, chunks, rfl, error_of_feed hfeed⟩⟩
      | ok result =>
          obtain ⟨out, between⟩ := result
          rw [hfeed] at h
          simp only at h
          rcases hmore : decodeChunks between chunks with ⟨texts', error⟩
          rw [hmore] at h
          obtain ⟨rfl, rfl⟩ := Prod.mk.inj h
          obtain ⟨first, hdecoded, hout⟩ := decoded_of_feed hfeed
          have hkept : Incomplete between.bytes := by
            have hrest := @incomplete_of_decodeFrom _ 0 (carry.bytes ++ chunk) (Nat.le_refl _)
              (congrArg Decoded.error hdecoded)
            rw [← decodeSome, hdecoded] at hrest
            exact hrest
          obtain ⟨done, todo, before, next, rfl, hbytes, hnext, hheld, hrefused⟩ :=
            decodeChunks_refused hkept hmore
          refine ⟨chunk :: done, todo, first ++ before, next, rfl, ?_, hnext, fun after => ?_,
            hrefused⟩
          · rw [List.flatten_cons, ← List.append_assoc, encode_of_decodeSome hdecoded,
              List.append_assoc, hbytes, encodeUtf8_append, List.append_assoc]
          · rw [List.flatten_cons, List.append_assoc, hheld, hout, List.append_assoc]

theorem chunksOf_eq_append {size : Nat} (hsize : 0 < size) :
    ∀ {done todo : List (List UInt8)} {fuel : Nat} {bytes : List UInt8}, bytes.length ≤ fuel →
      chunksOf size fuel bytes = done ++ todo → done.flatten = bytes.take (size * done.length) ∧
        ∃ fuel', (bytes.drop (size * done.length)).length ≤ fuel' ∧
          chunksOf size fuel' (bytes.drop (size * done.length)) = todo
  | [], todo, fuel, bytes, hlength, h => ⟨rfl, fuel, hlength, h⟩
  | chunk :: done, todo, 0, bytes, hlength, h => by cases h
  | chunk :: done, todo, fuel + 1, [], hlength, h => by cases h
  | chunk :: done, todo, fuel + 1, b :: bytes, hlength, h => by
      rw [chunksOf, List.cons_append] at h
      · obtain ⟨hchunk, hmore⟩ := List.cons.inj h
        have hrest : ((b :: bytes).drop size).length ≤ fuel := by
          rw [List.length_drop]
          simp only [List.length_cons] at hlength ⊢
          omega
        obtain ⟨hdone, fuel', hfuel, htodo⟩ := chunksOf_eq_append hsize hrest hmore
        have hcount : size * (chunk :: done).length = size + size * done.length := by
          rw [List.length_cons, Nat.mul_succ, Nat.add_comm]
        rw [hcount, List.take_add, ← List.drop_drop, List.flatten_cons, hdone, hchunk]
        exact ⟨rfl, fuel', hfuel, htodo⟩
      · simp

theorem chunksOf_eq_cons {size fuel : Nat} {bytes chunk : List UInt8} {more : List (List UInt8)}
    (h : chunksOf size fuel bytes = chunk :: more) : chunk = bytes.take size := by
  cases fuel with
  | zero => cases h
  | succ fuel =>
      cases bytes with
      | nil => cases h
      | cons b bytes =>
          rw [chunksOf] at h
          · exact (List.cons.inj h).1.symm
          · simp

theorem chunksOf_eq_nil {size fuel : Nat} {bytes : List UInt8} (hlength : bytes.length ≤ fuel)
    (h : chunksOf size fuel bytes = []) : bytes = [] := by
  cases fuel with
  | zero => exact List.eq_nil_of_length_eq_zero (by omega)
  | succ fuel =>
      cases bytes with
      | nil => rfl
      | cons b bytes =>
          rw [chunksOf] at h
          · cases h
          · simp

/-- The reader stops with the error at the chunk with the number, counted from zero. What comes
before the chunk is a text and bytes that wait, and with these the chunk cannot be decoded; or no
chunk is left, and the bytes have waited in vain. -/
def RefusedAt (bytes : List UInt8) (n : Nat) (e : Utf8Error) : Prop :=
  ∃ before waiting, bytes.take (chunkSize * n) = encodeUtf8 before ++ waiting ∧
    Incomplete waiting ∧
    ((decodeSome (waiting ++ (bytes.drop (chunkSize * n)).take chunkSize)).error = some e ∨
      bytes.length ≤ chunkSize * n ∧ endError waiting = some e)

/-! ## §4 Lines -/

/-- The number of ends of lines in a text. -/
def lineEnds (text : List Char) : Nat := (unifyNewlines text).count '\n'

theorem length_completeLines (pending text : List Char) :
    (completeLines pending text).1.length = text.count '\n' := by
  induction text generalizing pending with
  | nil => rfl
  | cons c text ih =>
      rw [completeLines]
      by_cases hc : c = '\n'
      · rw [if_pos hc, hc, List.count_cons_self, List.length_cons, ih]
      · rw [if_neg hc, ih, List.count_cons_of_ne hc]

theorem completeLines_append (pending a b : List Char) : (completeLines pending (a ++ b)).1 =
    (completeLines pending a).1 ++ (completeLines (completeLines pending a).2 b).1 := by
  induction a generalizing pending with
  | nil => rfl
  | cons c a ih =>
      rw [List.cons_append, completeLines, completeLines]
      by_cases hc : c = '\n'
      · rw [if_pos hc, if_pos hc]
        simp only [ih, List.cons_append]
      · rw [if_neg hc, if_neg hc, ih]

/-- The complete lines of a beginning of the text are its first lines. -/
theorem take_lines {text seen later : List Char} (h : unifyNewlines text = seen ++ later) :
    (completeLines [] seen).1 = (lines text).take (seen.count '\n') := by
  have hcount := length_completeLines [] seen
  have hall : ∃ more, lines text = (completeLines [] seen).1 ++ more := by
    rw [lines, h]
    simp only [completeLines_append]
    split
    · exact ⟨_, rfl⟩
    · exact ⟨_, List.append_assoc _ _ _⟩
  obtain ⟨more, hmore⟩ := hall
  rw [hmore, ← hcount, List.take_left]

theorem unifyNewlines_feed (text : List Char) :
    ∃ front, unifyNewlines (text ++ ['\n']) = front ++ ['\n'] := by
  by_cases hreturn : text.getLast? = some '\r'
  · -- The return at the end and the line feed are one end of a line.
    obtain ⟨before, rfl⟩ := List.getLast?_eq_some_iff.mp hreturn
    refine ⟨unifyNewlines before, ?_⟩
    rw [List.append_assoc, unifyNewlines_append _ _ (by simp)]
    rfl
  · refine ⟨unifyNewlines text, ?_⟩
    rw [unifyNewlines_append _ _ (fun h => absurd h hreturn)]
    rfl

/-- What has been given out has the end of every line that is ended by a line feed before. -/
theorem lineEnds_le {seen a b : List Char}
    (h : seen ++ ['\n'] = unifyNewlines (a ++ ['\n'] ++ b ++ ['\n'])) :
    lineEnds (a ++ ['\n']) ≤ seen.count '\n' := by
  obtain ⟨front, hfront⟩ := unifyNewlines_feed b
  rw [List.append_assoc (a ++ ['\n']), unifyNewlines_append _ _ (by simp), hfront,
    ← List.append_assoc] at h
  rw [List.append_cancel_right h, List.count_append, lineEnds]
  omega

theorem decodeChunks_of_readLines {bytes : List UInt8} {e : Utf8Error}
    (h : (readLines bytes).2 = some e) : ∃ texts, decodeChunks {} (chunks bytes) = (texts, some e) ∧
      (readLines bytes).1 = (completeLines [] texts.flatten).1 := by
  rcases hdecode : decodeChunks {} (chunks bytes) with ⟨texts, error⟩
  have hfile : decodeFile bytes = (texts.flatten, error) := by rw [decodeFile, hdecode]
  rw [readLines, hfile] at h ⊢
  cases error with
  | none => cases h
  | some e' =>
      obtain rfl := Option.some.inj h
      exact ⟨texts, rfl, rfl⟩

/-- Where the reader stops there is a position, in what has waited and what follows, at which no
character stands. -/
theorem exists_rest {waiting bytes : List UInt8} {size : Nat} {e : Utf8Error}
    (hwaits : Incomplete waiting)
    (h : (decodeSome (waiting ++ bytes.take size)).error = some e ∨
      bytes = [] ∧ endError waiting = some e) :
    ∃ text rest, waiting ++ bytes = encodeUtf8 text ++ rest ∧ NoCharacter rest ∧
      rest.head? = some e.byte := by
  rcases h with herror | ⟨rfl, hend⟩
  · obtain ⟨rest, hchunk, hnone, hbyte⟩ := decodeFrom_error herror
    refine ⟨(decodeSome (waiting ++ bytes.take size)).chars, rest ++ bytes.drop size, ?_,
      hnone _, ?_⟩
    · rw [← List.append_assoc, decodeSome, ← hchunk, List.append_assoc, List.take_append_drop]
    · rw [List.head?_append, hbyte, Option.some_or]
  · exact ⟨[], waiting, List.append_nil _, hwaits.noCharacter, head_of_endError hend⟩

/-- What is seen of bytes that are no text. They are a text up to a position where no character
stands; the error names the byte there. The lines that are seen are the first lines of this text: no
more than have an end before the position, and no fewer than are ended by line feeds before the
chunk that is refused. -/
theorem readLines_undecodable {bytes : List UInt8} {e : Utf8Error}
    (h : (readLines bytes).2 = some e) :
    ∃ text rest n k, bytes = encodeUtf8 text ++ rest ∧ NoCharacter rest ∧
      rest.head? = some e.byte ∧ RefusedAt bytes n e ∧ k ≤ lineEnds text ∧
      (∀ a b, bytes.take (chunkSize * n) = encodeUtf8 (a ++ ['\n']) ++ b →
        lineEnds (a ++ ['\n']) ≤ k) ∧
      (readLines bytes).1 = (lines text).take k ∧ (readLines bytes).1.length = k := by
  obtain ⟨texts, hdecode, hlines⟩ := decodeChunks_of_readLines h
  obtain ⟨done, todo, before, next, hchunks, hbytes, hwaits, hseen, hrefused⟩ :=
    decodeChunks_refused (show Incomplete [] from rfl) hdecode
  obtain ⟨hdone, fuel, hfuel, htodo⟩ :=
    chunksOf_eq_append (by decide) (Nat.le_refl bytes.length) hchunks
  have hbefore : bytes.take (chunkSize * done.length) = encodeUtf8 before ++ next.bytes :=
    hdone.symm.trans hbytes
  have hrest : (decodeSome (next.bytes ++
        (bytes.drop (chunkSize * done.length)).take chunkSize)).error = some e ∨
      bytes.drop (chunkSize * done.length) = [] ∧ endError next.bytes = some e := by
    rcases hrefused with ⟨chunk, later, rfl, herror⟩ | ⟨rfl, hend⟩
    · exact .inl (chunksOf_eq_cons htodo ▸ herror)
    · exact .inr ⟨chunksOf_eq_nil hfuel htodo, hend⟩
  obtain ⟨more, rest, hmore, hnone, hbyte⟩ := exists_rest hwaits hrest
  have hseen : ∀ after, texts.flatten ++ unifyNewlines (next.held ++ after) =
      unifyNewlines (before ++ after) := hseen
  refine ⟨before ++ more, rest, done.length, texts.flatten.count '\n', ?_, hnone, hbyte,
    ⟨before, next.bytes, hbefore, hwaits, ?_⟩, ?_, ?_, ?_, ?_⟩
  · rw [← List.take_append_drop (chunkSize * done.length) bytes, hbefore, List.append_assoc, hmore,
      encodeUtf8_append, List.append_assoc]
  · rwa [List.drop_eq_nil_iff] at hrest
  · rw [lineEnds, ← hseen more, List.count_append]
    exact Nat.le_add_right _ _
  · intro a b hlast
    obtain ⟨middle, rfl⟩ := isPrefix_of_noCharacter hwaits.noCharacter (hlast.symm.trans hbefore)
    -- A line feed ends the line that is held back, if one is, and nothing is held back then.
    have hheld : unifyNewlines (next.held ++ ['\n']) = ['\n'] := by
      rw [Carry.held]
      cases next.returned <;> rfl
    exact lineEnds_le (hheld ▸ hseen ['\n'])
  · rw [hlines]
    exact take_lines (hseen more).symm
  · rw [hlines, length_completeLines]

end LogRedaction.Text
