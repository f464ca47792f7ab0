/-
LogRedaction.Proofs.Text.Lines — what the lines of a text are, and that reading a file finds them.

`LinesOf` says it without an algorithm: a line is what stands before a line feed, a carriage
return or both, and a rest that is not empty is a line as well. `linesOf_iff` says that `lines`
computes just that.

`readLines_encode` is the main statement. A file is read in chunks, and the ends of chunks fall
anywhere: into a character, or between a carriage return and its line feed. The reader keeps the
beginning of the character in one place and the carriage return in another. `Carry.held` is the
return as text again; with it `decodeChunks_encode` is an induction on the chunks whose invariant
says that what was held and what is still to come make up the rest of the text. The way back is
`encode_of_readLines`: bytes that are read to the end without a fault are an encoded text.

## §1 Line feeds for all ends
## §2 Lines
## §3 Chunks
-/
import LogRedaction.Text.Lines
import LogRedaction.Proofs.Text.Utf8

namespace LogRedaction.Text

/-! ## §1 Line feeds for all ends -/

theorem unifyNewlines_cons {c : Char} (h : c ≠ '\r') (rest : List Char) :
    unifyNewlines (c :: rest) = c :: unifyNewlines rest := by
  rw [unifyNewlines]
  · intro _ hc; exact absurd hc h
  · exact h

theorem unifyNewlines_return {rest : List Char} (h : rest.head? ≠ some '\n') :
    unifyNewlines ('\r' :: rest) = '\n' :: unifyNewlines rest := by
  rw [unifyNewlines]
  rintro more rfl
  exact h rfl

/-- What must not be torn apart at the end of a text is not torn apart at the end of its rest. -/
theorem untorn_tail {c : Char} {rest b : List Char}
    (h : (c :: rest).getLast? = some '\r' → b.head? ≠ some '\n') :
    rest.getLast? = some '\r' → b.head? ≠ some '\n' := by
  intro hlast
  cases rest with
  | nil => simp at hlast
  | cons x rest => exact h (by simpa using hlast)

/-- Texts can be treated one after the other unless a return and its line feed are torn apart. -/
theorem unifyNewlines_append (a b : List Char)
    (h : a.getLast? = some '\r' → b.head? ≠ some '\n') :
    unifyNewlines (a ++ b) = unifyNewlines a ++ unifyNewlines b := by
  induction a using unifyNewlines.induct with
  | case1 => rfl
  | case2 rest ih =>
      simp only [List.cons_append, unifyNewlines, ih (untorn_tail (untorn_tail h))]
  | case3 rest hfeed ih =>
      have hrest : rest.head? ≠ some '\n' := by
        cases rest with
        | nil => simp
        | cons x rest => intro hx; exact hfeed rest (by simpa using hx)
      have hall : (rest ++ b).head? ≠ some '\n' := by
        cases rest with
        | nil => exact h rfl
        | cons x rest => simpa using hrest
      rw [List.cons_append, unifyNewlines_return hall, unifyNewlines_return hrest,
        ih (untorn_tail h)]
      rfl
  | case4 c rest _ hc ih =>
      rw [List.cons_append, unifyNewlines_cons hc, unifyNewlines_cons hc, ih (untorn_tail h)]
      rfl

/-- The character ends lines. -/
def isLineEnd (c : Char) : Bool := c == '\n' || c == '\r'

theorem unifyNewlines_line {line : List Char} (h : ∀ c ∈ line, isLineEnd c = false)
    (rest : List Char) : unifyNewlines (line ++ rest) = line ++ unifyNewlines rest := by
  induction line with
  | nil => rfl
  | cons c line ih =>
      have hc : c ≠ '\r' := by rintro rfl; exact absurd (h '\r' (by simp)) (by decide)
      rw [List.cons_append, unifyNewlines_cons hc, ih fun x hx => h x (by simp [hx])]
      rfl

/-! ## §2 Lines -/

/-- The lines of a text, without their ends. -/
inductive LinesOf : List Char → List (List Char) → Prop where
  | nil : LinesOf [] []
  | rest {line : List Char} : line ≠ [] → (∀ c ∈ line, isLineEnd c = false) → LinesOf line [line]
  | feed {line text : List Char} {more : List (List Char)} : (∀ c ∈ line, isLineEnd c = false) →
      LinesOf text more → LinesOf (line ++ '\n' :: text) (line :: more)
  | returnFeed {line text : List Char} {more : List (List Char)} :
      (∀ c ∈ line, isLineEnd c = false) →
      LinesOf text more → LinesOf (line ++ '\r' :: '\n' :: text) (line :: more)
  | returned {line text : List Char} {more : List (List Char)} : (∀ c ∈ line, isLineEnd c = false) →
      text.head? ≠ some '\n' → LinesOf text more → LinesOf (line ++ '\r' :: text) (line :: more)

theorem feed_not_mem {line : List Char} (h : ∀ c ∈ line, isLineEnd c = false) : '\n' ∉ line :=
  fun hfeed => absurd (h '\n' hfeed) (by decide)

theorem completeLines_line {line : List Char} (h : '\n' ∉ line) : ∀ (pending rest : List Char),
    completeLines pending (line ++ rest) = completeLines (line.reverse ++ pending) rest := by
  induction line with
  | nil => intro pending rest; rfl
  | cons c line ih =>
      intro pending rest
      have hc : c ≠ '\n' := by rintro rfl; exact h (by simp)
      rw [List.cons_append, completeLines, if_neg hc, ih fun hmem => h (by simp [hmem])]
      simp

/-- One line and its end in front of lines. -/
theorem lines_cons {line text unified : List Char} (h : ∀ c ∈ line, isLineEnd c = false)
    (hunified : unifyNewlines text = line ++ '\n' :: unifyNewlines unified) :
    lines text = line :: lines unified := by
  rw [lines, hunified, completeLines_line (feed_not_mem h), completeLines, if_pos rfl, lines]
  simp only [List.append_nil, List.reverse_reverse]
  split <;> rfl

theorem lines_eq_of_linesOf {text : List Char} {ls : List (List Char)} (h : LinesOf text ls) :
    lines text = ls := by
  induction h with
  | nil => rfl
  | @rest line hne hline =>
      rw [lines, ← List.append_nil line, unifyNewlines_line hline,
        completeLines_line (feed_not_mem hline)]
      simp [unifyNewlines, completeLines, hne]
  | feed hline _ ih =>
      rw [← ih]
      exact lines_cons hline (by rw [unifyNewlines_line hline, unifyNewlines_cons (by decide)])
  | returnFeed hline _ ih =>
      rw [← ih]
      exact lines_cons hline (by rw [unifyNewlines_line hline, unifyNewlines])
  | returned hline hhead _ ih =>
      rw [← ih]
      exact lines_cons hline (by rw [unifyNewlines_line hline, unifyNewlines_return hhead])

/-- A text is a line without its end, and nothing else or an end and more text. -/
theorem exists_linesOf : ∀ (n : Nat) (text : List Char), text.length ≤ n → ∃ ls, LinesOf text ls
  | 0, text, hn => by
      obtain rfl : text = [] := List.eq_nil_of_length_eq_zero (by omega)
      exact ⟨[], .nil⟩
  | n + 1, text, hn => by
      have hsplit := List.takeWhile_append_dropWhile (p := fun c => !isLineEnd c) (l := text)
      have hline : ∀ c ∈ text.takeWhile (fun c => !isLineEnd c), isLineEnd c = false := by
        have hall := List.all_takeWhile (p := fun c => !isLineEnd c) (l := text)
        intro c hc
        simpa using List.all_eq_true.mp hall c hc
      generalize text.takeWhile (fun c => !isLineEnd c) = line at hsplit hline
      cases hrest : text.dropWhile (fun c => !isLineEnd c) with
      | nil =>
          obtain rfl : line = text := by simpa [hrest] using hsplit
          by_cases hne : line = []
          · exact ⟨[], hne ▸ .nil⟩
          · exact ⟨[line], .rest hne hline⟩
      | cons c rest =>
          rw [hrest] at hsplit
          have hlen : rest.length ≤ n := by
            have := congrArg List.length hsplit
            simp at this
            omega
          have hc : isLineEnd c = true := by
            have := List.head?_dropWhile_not (fun c => !isLineEnd c) text
            rw [hrest] at this
            simpa using this
          have hcases : c = '\n' ∨ c = '\r' := by simpa [isLineEnd] using hc
          rcases hcases with rfl | rfl
          · obtain ⟨more, hmore⟩ := exists_linesOf n rest hlen
            exact ⟨line :: more, hsplit ▸ LinesOf.feed hline hmore⟩
          · by_cases hfeed : rest.head? = some '\n'
            · cases rest with
              | nil => simp at hfeed
              | cons d rest =>
                  obtain rfl : d = '\n' := by simpa using hfeed
                  obtain ⟨more, hmore⟩ := exists_linesOf n rest (by simp at hlen; omega)
                  exact ⟨line :: more, hsplit ▸ LinesOf.returnFeed hline hmore⟩
            · obtain ⟨more, hmore⟩ := exists_linesOf n rest hlen
              exact ⟨line :: more, hsplit ▸ LinesOf.returned hline hfeed hmore⟩

theorem linesOf_iff {text : List Char} {ls : List (List Char)} :
    LinesOf text ls ↔ lines text = ls := by
  constructor
  · exact lines_eq_of_linesOf
  · rintro rfl
    obtain ⟨ls, h⟩ := exists_linesOf text.length text (Nat.le_refl _)
    rw [lines_eq_of_linesOf h]
    exact h

theorem isLineEnd_of_linesOf {text : List Char} {ls : List (List Char)} (h : LinesOf text ls) :
    ∀ line ∈ ls, ∀ c ∈ line, isLineEnd c = false := by
  induction h with
  | nil => simp
  | rest _ hline => simpa using hline
  | feed hline _ ih => exact List.forall_mem_cons.mpr ⟨hline, ih⟩
  | returnFeed hline _ ih => exact List.forall_mem_cons.mpr ⟨hline, ih⟩
  | returned hline _ _ ih => exact List.forall_mem_cons.mpr ⟨hline, ih⟩

/-- Lines that are written one after the other are found again. -/
theorem linesOf_written {ls : List (List Char)} (h : ∀ line ∈ ls, ∀ c ∈ line, isLineEnd c = false) :
    LinesOf (ls.flatMap (· ++ ['\n'])) ls := by
  induction ls with
  | nil => exact .nil
  | cons line ls ih =>
      obtain ⟨hline, hmore⟩ := List.forall_mem_cons.mp h
      rw [List.flatMap_cons, List.append_assoc]
      exact .feed hline (ih hmore)

/-! ## §3 Chunks -/

theorem chunksOf_flatten {size : Nat} (hsize : 0 < size) :
    ∀ (fuel : Nat) (bytes : List UInt8), bytes.length ≤ fuel →
      (chunksOf size fuel bytes).flatten = bytes
  | 0, bytes, h => by
      obtain rfl : bytes = [] := List.eq_nil_of_length_eq_zero (by omega)
      rfl
  | _ + 1, [], _ => rfl
  | fuel + 1, b :: bytes, h => by
      have hlen : ((b :: bytes).drop size).length ≤ fuel := by
        rw [List.length_drop]
        simp only [List.length_cons] at h ⊢
        omega
      rw [chunksOf, List.flatten_cons, chunksOf_flatten hsize fuel _ hlen, List.take_append_drop]
      simp

theorem chunks_flatten (bytes : List UInt8) : (chunks bytes).flatten = bytes :=
  chunksOf_flatten (by decide) bytes.length bytes (Nat.le_refl _)

/-- The carriage return that waits for the next chunk. -/
def Carry.held (carry : Carry) : List Char := if carry.returned then ['\r'] else []

/-- Decoding one chunk moves the beginning of the text on. What was held before the chunk and what
is held after it stand where the text was cut. -/
theorem feed_decoded {carry : Carry} {chunk rest : List UInt8} {before : List Char}
    (h : decodeSome (carry.bytes ++ chunk) = ⟨before, rest, none⟩) :
    ∃ out next, carry.feed chunk = .ok (out, next) ∧ next.bytes = rest ∧
      ∀ after, out ++ unifyNewlines (next.held ++ after) =
        unifyNewlines (carry.held ++ (before ++ after)) := by
  obtain ⟨bytes, returned⟩ := carry
  rcases List.eq_nil_or_concat before with rfl | ⟨front, last, rfl⟩
  · refine ⟨[], ⟨rest, returned⟩, ?_, rfl, fun _ => rfl⟩
    simp only [Carry.feed, h]
    cases returned <;> rfl
  by_cases hlast : last = '\r'
  · subst hlast
    refine ⟨unifyNewlines ((Carry.mk bytes returned).held ++ front), ⟨rest, true⟩, ?_, rfl,
      fun after => ?_⟩
    · simp only [Carry.feed, h]
      cases returned <;> simp [Carry.held, List.dropLast_cons_of_ne_nil]
    · rw [← unifyNewlines_append _ _ (fun _ => by simp [Carry.held])]
      simp [Carry.held]
  · refine ⟨unifyNewlines ((Carry.mk bytes returned).held ++ (front ++ [last])), ⟨rest, false⟩,
      ?_, rfl, fun after => ?_⟩
    · simp only [Carry.feed, h]
      cases returned <;> simp [Carry.held, hlast]
    · rw [← unifyNewlines_append]
      · simp [Carry.held]
      · rw [← List.append_assoc, List.getLast?_concat]
        intro hreturn
        exact absurd (Option.some.inj hreturn) hlast

theorem decodeChunks_encode : ∀ (chunks : List (List UInt8)) {carry : Carry} {text : List Char},
    Waits carry.bytes text → carry.bytes ++ chunks.flatten = encodeUtf8 text →
      ∃ texts, decodeChunks carry chunks = (texts, none) ∧
        texts.flatten = unifyNewlines (carry.held ++ text)
  | [], carry, text, hwaits, hbytes => by
      have hcarry : carry.bytes = encodeUtf8 text := by simpa using hbytes
      obtain rfl : text = [] := eq_nil_of_waits (hcarry ▸ hwaits)
      have hnil : carry.bytes = [] := hcarry
      refine ⟨[unifyNewlines carry.held], ?_, by simp⟩
      simp only [decodeChunks, Carry.finish, hnil, endError, Carry.held]
      cases carry.returned <;> rfl
  | chunk :: chunks, carry, text, hwaits, hbytes => by
      rw [List.flatten_cons, ← List.append_assoc] at hbytes
      obtain ⟨before, after, rest, rfl, hchunk, hafter, hrest⟩ := exists_cut text hbytes.symm
      have hdecoded : decodeSome (carry.bytes ++ chunk) = ⟨before, rest, none⟩ := by
        rw [hchunk, decodeSome_encode hrest]
      obtain ⟨out, next, hfeed, rfl, hout⟩ := feed_decoded hdecoded
      obtain ⟨texts, hmore, htexts⟩ := decodeChunks_encode chunks hrest hafter
      refine ⟨out :: texts, ?_, ?_⟩
      · simp only [decodeChunks, hfeed, hmore]
      · rw [List.flatten_cons, htexts, hout]

/-- However the chunks fall, the lines of a file are the lines of its text. -/
theorem readLines_encode (text : List Char) : readLines (encodeUtf8 text) = (lines text, none) := by
  obtain ⟨texts, hdecode, htexts⟩ := @decodeChunks_encode (chunks (encodeUtf8 text)) {} text
    (waits_nil text) (chunks_flatten _)
  have hfile : decodeFile (encodeUtf8 text) = (unifyNewlines text, none) := by
    rw [decodeFile, hdecode]
    simpa [Carry.held] using htexts
  rw [readLines, hfile, lines]

/-- A chunk that is taken has been decoded. -/
theorem decoded_of_feed {carry next : Carry} {chunk : List UInt8} {out : List Char}
    (h : carry.feed chunk = .ok (out, next)) :
    ∃ before, decodeSome (carry.bytes ++ chunk) = ⟨before, next.bytes, none⟩ ∧
      ∀ after, out ++ unifyNewlines (next.held ++ after) =
        unifyNewlines (carry.held ++ (before ++ after)) := by
  have hnone : (decodeSome (carry.bytes ++ chunk)).error = none := by
    rw [Carry.feed] at h
    simp only at h
    split at h
    · cases h
    · rename_i hnone
      exact hnone
  rcases hdecoded : decodeSome (carry.bytes ++ chunk) with ⟨before, rest, error⟩
  rw [hdecoded] at hnone
  obtain rfl : error = none := hnone
  obtain ⟨out', next', hfeed, rfl, hout⟩ := feed_decoded hdecoded
  obtain ⟨rfl, rfl⟩ := Prod.mk.inj (Except.ok.inj (h.symm.trans hfeed))
  exact ⟨before, rfl, hout⟩

theorem encode_of_decodeChunks : ∀ {chunks : List (List UInt8)} {carry : Carry},
    (decodeChunks carry chunks).2 = none → ∃ text, carry.bytes ++ chunks.flatten = encodeUtf8 text
  | [], carry, h => by
      refine ⟨[], ?_⟩
      rw [decodeChunks, Carry.finish] at h
      cases hend : endError carry.bytes with
      | none => rw [endError_eq_none hend]; rfl
      | some e => rw [hend] at h; cases h
  | chunk :: chunks, carry, h => by
      rw [decodeChunks] at h
      cases hfeed : carry.feed chunk with
      | error e => rw [hfeed] at h; cases h
      | ok result =>
          rw [hfeed] at h
          obtain ⟨before, hdecoded, -⟩ := decoded_of_feed hfeed
          have hbefore := encode_of_decodeSome hdecoded
          obtain ⟨after, hafter⟩ := encode_of_decodeChunks h
          refine ⟨before ++ after, ?_⟩
          rw [List.flatten_cons, ← List.append_assoc, hbefore, List.append_assoc, hafter,
            encodeUtf8_append]

/-- A file that is read to its end is an encoded text. -/
theorem encode_of_readLines {bytes : List UInt8} (h : (readLines bytes).2 = none) :
    ∃ text, bytes = encodeUtf8 text := by
  have hfile : (decodeFile bytes).2 = none := by
    rw [readLines] at h
    simp only at h
    split at h
    · cases h
    · rename_i hnone
      exact hnone
  obtain ⟨text, htext⟩ := encode_of_decodeChunks hfile
  refine ⟨text, ?_⟩
  rw [← htext, chunks_flatten]
  rfl

end LogRedaction.Text
