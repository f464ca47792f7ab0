/-
LogRedaction.Proofs.Trail.Reading — reading a report back.

A report says of each file which rules hit which of its lines, and whether the file was copied to
its end (`TrailSection`). It is written as plain lines, with paths and the keys of rules as they
are. Nothing is escaped, and yet it can be read back (`readTrail_recordText`): a path or a key never
comes first in a line, so the first character tells what the line is about; the number of a line
ends at a comma; and what stands before and after a key is known by then, so the key is all that is
between, quotes and commas included. Only a path or a key that goes over more than one line could be
taken for something else.

## §1 Sections
## §2 Reading a line
## §3 Reading a report
-/
import LogRedaction.Proofs.Copying

namespace LogRedaction

open Text

/-! ## §1 Sections -/

/-- What a report says of one file. -/
structure TrailSection where
  label : Text
  /-- The hits, each with the number of its line. -/
  hits : List (Nat × Hit)
  /-- The file has been copied to its end. -/
  ended : Bool
deriving DecidableEq, Repr

namespace TrailSection

/-- The section as records. -/
def records (s : TrailSection) : List Record :=
  ⟨.start, s.label⟩ :: (s.hits.map fun (n, hit) => (hit.entry s.label n).record) ++
    (if s.ended then [⟨.finish, s.label⟩] else [])

/-- The path and the keys are each on one line. -/
structure OnLines (s : TrailSection) : Prop where
  label : .scalar '\n' ∉ s.label.toList
  keys : ∀ hit ∈ s.hits, .scalar '\n' ∉ hit.2.key.toList

end TrailSection

/-- Sections as records. -/
def trailRecords (trail : List TrailSection) : List Record := trail.flatMap TrailSection.records

/-! ## §2 Reading a line -/

/-- What the line of a hit starts with. -/
def hitOpening (substituted : Bool) : List CodePoint :=
  (if substituted then ("Replaced, " : Text) else "Not Replaced, ").toList

/-- What stands between the number of a line and the key. -/
def hitMiddle (substituted : Bool) : List CodePoint :=
  (if substituted then (", true, rule '" : Text) else ", false, rule '").toList

/-- What the line of a hit ends with. -/
def hitEnding (substituted : Bool) : List CodePoint :=
  (if substituted then ("'" : Text) else "' (detect only)").toList

/-- The line of a hit. -/
theorem toList_format (label : Text) (n : Nat) (hit : Hit) :
    (hit.entry label n).format.toList = hitOpening hit.substituted ++
      ((Nat.toDigits 10 n).map .scalar ++
        (hitMiddle hit.substituted ++ (hit.key.toList ++ hitEnding hit.substituted))) := by
  obtain ⟨key, substituted⟩ := hit
  have hnumber : (n : Int).repr.toList = Nat.toDigits 10 n := by
    show n.repr.toList = _
    simp
  have hdescription : Hit.description ⟨key, substituted⟩ ≠ "" := by
    intro h
    have hlist := congrArg Text.toList h
    simp [Hit.description] at hlist
  rw [Hit.entry, AuditEntry.format, if_neg hdescription]
  cases substituted <;>
    simp [Hit.description, hnumber, hitOpening, hitMiddle, hitEnding]

/-- A line of a report that has been read. -/
inductive TrailLine where
  | start (label : Text)
  | hit (number : Nat) (hit : Hit)
  | finish (label : Text)

/-- The code point is a decimal digit. -/
def isDecimal : CodePoint → Bool
  | .scalar c => c.isDigit
  | .surrogate _ => false

/-- Reads the rest of the line of a hit. -/
def readHit (substituted : Bool) (text : List CodePoint) : Option TrailLine :=
  match (text.dropWhile isDecimal).dropPrefix? (hitMiddle substituted) with
  | none => none
  | some rest =>
    match rest.dropSuffix? (hitEnding substituted) with
    | none => none
    | some key =>
      let digits := (text.takeWhile isDecimal).filterMap CodePoint.char?
      some (.hit (Nat.ofDigitChars 10 digits 0) ⟨Text.ofList key, substituted⟩)

/-- Reads a line. -/
def readTrailLine (line : List CodePoint) : Option TrailLine :=
  (line.dropPrefix? ("=== " : Text).toList).map (fun label => .start (Text.ofList label)) <|>
  (line.dropPrefix? ("--- Completed " : Text).toList).map (fun label => .finish (Text.ofList label)) <|>
  (line.dropPrefix? (hitOpening true)).bind (readHit true) <|>
  (line.dropPrefix? (hitOpening false)).bind (readHit false)

theorem dropPrefix?_append (mark rest : List CodePoint) :
    (mark ++ rest).dropPrefix? mark = some rest :=
  List.dropPrefix?_eq_some_iff.mpr ⟨mark, rfl, beq_self_eq_true mark⟩

theorem dropSuffix?_append (rest mark : List CodePoint) :
    (rest ++ mark).dropSuffix? mark = some rest :=
  List.dropSuffix?_eq_some_iff.mpr ⟨mark, rfl, beq_self_eq_true mark⟩

/-- A line with another first character does not have the mark. -/
theorem dropPrefix?_of_head_ne {c d : CodePoint} (h : c ≠ d) (line mark : List CodePoint) :
    (c :: line).dropPrefix? (d :: mark) = none := by
  simp [List.dropPrefix?, h]

theorem readTrailLine_start (label : Text) :
    readTrailLine (Record.render ⟨.start, label⟩).toList = some (.start label) := by
  have hline : (Record.render ⟨.start, label⟩).toList = ("=== " : Text).toList ++ label.toList :=
    Text.toList_append ..
  rw [hline, readTrailLine, dropPrefix?_append]
  rfl

theorem readTrailLine_finish (label : Text) :
    readTrailLine (Record.render ⟨.finish, label⟩).toList = some (.finish label) := by
  have hline : (Record.render ⟨.finish, label⟩).toList =
      ("--- Completed " : Text).toList ++ label.toList := Text.toList_append ..
  have hstart : (("--- Completed " : Text).toList ++ label.toList).dropPrefix?
      ("=== " : Text).toList = none := dropPrefix?_of_head_ne (by decide) _ _
  rw [hline, readTrailLine, hstart, dropPrefix?_append]
  rfl

/-- The number of a line goes as far as there are digits. -/
theorem readHit_written (n : Nat) (hit : Hit) :
    readHit hit.substituted ((Nat.toDigits 10 n).map .scalar ++ (hitMiddle hit.substituted ++
      (hit.key.toList ++ hitEnding hit.substituted))) = some (.hit n hit) := by
  have hdecimal : ∀ c ∈ (Nat.toDigits 10 n).map CodePoint.scalar, isDecimal c = true := by
    rw [List.forall_mem_map]
    exact isDigit_of_mem n
  -- Behind the digits there is a comma.
  have hcomma : ∃ rest, hitMiddle hit.substituted = .scalar ',' :: rest := by
    cases hit.substituted <;> exact ⟨_, rfl⟩
  obtain ⟨middle, hmiddle⟩ := hcomma
  have hdigits : ∀ rest, ((Nat.toDigits 10 n).map CodePoint.scalar ++
      (hitMiddle hit.substituted ++ rest)).takeWhile isDecimal =
        (Nat.toDigits 10 n).map .scalar := by
    intro rest
    rw [List.takeWhile_append_of_pos hdecimal, hmiddle, List.cons_append,
      List.takeWhile_cons_of_neg (by decide), List.append_nil]
  have hrest : ∀ rest, ((Nat.toDigits 10 n).map CodePoint.scalar ++
      (hitMiddle hit.substituted ++ rest)).dropWhile isDecimal =
        hitMiddle hit.substituted ++ rest := by
    intro rest
    rw [List.dropWhile_append_of_pos hdecimal, hmiddle, List.cons_append,
      List.dropWhile_cons_of_neg (by decide)]
  have hnumber : ((Nat.toDigits 10 n).map CodePoint.scalar).filterMap CodePoint.char? =
      Nat.toDigits 10 n := chars_ofChars _
  rw [readHit, hrest, hdigits, hnumber, dropPrefix?_append]
  simp only [dropSuffix?_append, Nat.ofDigitChars_ten_toDigits]

theorem readTrailLine_hit (label : Text) (n : Nat) (hit : Hit) :
    readTrailLine (hit.entry label n).record.render.toList = some (.hit n hit) := by
  have hline : (hit.entry label n).record.render.toList = _ := toList_format label n hit
  have hread := readHit_written n hit
  rw [hline, readTrailLine]
  cases hsubstituted : hit.substituted with
  | true =>
      rw [hsubstituted] at hread
      have hother : ∀ rest, (hitOpening true ++ rest).dropPrefix? ("=== " : Text).toList = none ∧
          (hitOpening true ++ rest).dropPrefix? ("--- Completed " : Text).toList = none := fun rest =>
        ⟨dropPrefix?_of_head_ne (by decide) _ _, dropPrefix?_of_head_ne (by decide) _ _⟩
      rw [(hother _).1, (hother _).2, dropPrefix?_append, Option.bind_some, hread]
      rfl
  | false =>
      rw [hsubstituted] at hread
      have hother : ∀ rest, (hitOpening false ++ rest).dropPrefix? ("=== " : Text).toList = none ∧
          (hitOpening false ++ rest).dropPrefix? ("--- Completed " : Text).toList = none ∧
          (hitOpening false ++ rest).dropPrefix? (hitOpening true) = none := fun rest =>
        ⟨dropPrefix?_of_head_ne (by decide) _ _, dropPrefix?_of_head_ne (by decide) _ _,
          dropPrefix?_of_head_ne (by decide) _ _⟩
      rw [(hother _).1, (hother _).2.1, (hother _).2.2, dropPrefix?_append, Option.bind_some, hread]
      rfl

/-! ## §3 Reading a report -/

/-- The records as text. -/
def recordText (records : List Record) : List CodePoint := records.flatMap Record.line

/-- Reads lines; the given section has begun before them. -/
def readSections : Option TrailSection → List (List CodePoint) → Option (List TrailSection)
  | begun, [] => some begun.toList
  | begun, line :: lines =>
    match readTrailLine line, begun with
    | some (.start label), _ =>
      (readSections (some ⟨label, [], false⟩) lines).map (begun.toList ++ ·)
    | some (.hit n hit), some s => readSections (some { s with hits := s.hits ++ [(n, hit)] }) lines
    | some (.finish label), some s =>
      if label = s.label then (readSections none lines).map ({ s with ended := true } :: ·)
      else none
    | _, _ => none

/-- Reads the text of a report, which ends with the end of a line. -/
def readTrail (text : List CodePoint) : Option (List TrailSection) :=
  let lines := text.splitOn (.scalar '\n')
  if lines.getLast? = some [] then readSections none lines.dropLast else none

section Steps

variable {line : List CodePoint} {lines : List (List CodePoint)} {s : TrailSection}

theorem readSections_start {label : Text} (h : readTrailLine line = some (.start label))
    (begun : Option TrailSection) : readSections begun (line :: lines) =
      (readSections (some ⟨label, [], false⟩) lines).map (begun.toList ++ ·) := by
  simp [readSections, h]

theorem readSections_hit {n : Nat} {hit : Hit} (h : readTrailLine line = some (.hit n hit)) :
    readSections (some s) (line :: lines) =
      readSections (some { s with hits := s.hits ++ [(n, hit)] }) lines := by
  simp [readSections, h]

theorem readSections_finish (h : readTrailLine line = some (.finish s.label)) :
    readSections (some s) (line :: lines) =
      (readSections none lines).map ({ s with ended := true } :: ·) := by
  simp [readSections, h]

end Steps

/-- The hits go to the section that has begun. -/
theorem readSections_hits (label : Text) (lines : List (List CodePoint)) (hits : List (Nat × Hit))
    (s : TrailSection) :
    readSections (some s) ((hits.map fun (n, hit) => (hit.entry label n).record.render.toList) ++
      lines) = readSections (some { s with hits := s.hits ++ hits }) lines := by
  induction hits generalizing s with
  | nil => simp
  | cons hit hits ih =>
      rw [List.map_cons, List.cons_append, readSections_hit (readTrailLine_hit label hit.1 hit.2),
        ih]
      simp

/-- A section that has not ended is left when the next begins, or when nothing follows. -/
theorem readSections_records (trail : List TrailSection) (begun : Option TrailSection) :
    readSections begun ((trailRecords trail).map fun record => record.render.toList) =
      some (begun.toList ++ trail) := by
  induction trail generalizing begun with
  | nil => simp [trailRecords, readSections]
  | cons s trail ih =>
      obtain ⟨label, hits, ended⟩ := s
      have hlines : (trailRecords (⟨label, hits, ended⟩ :: trail)).map
          (fun record => record.render.toList) = (Record.render ⟨.start, label⟩).toList ::
            ((hits.map fun (n, hit) => (hit.entry label n).record.render.toList) ++
              ((if ended then [(Record.render ⟨.finish, label⟩).toList] else []) ++
                (trailRecords trail).map fun record => record.render.toList)) := by
        cases ended <;> simp [trailRecords, TrailSection.records, Function.comp_def]
      rw [hlines, readSections_start (readTrailLine_start label), readSections_hits,
        List.nil_append]
      cases ended with
      | true =>
          rw [if_pos rfl, List.singleton_append, readSections_finish (readTrailLine_finish label),
            ih none]
          simp
      | false =>
          rw [if_neg Bool.false_ne_true, List.nil_append, ih]
          simp

/-- The lines of a text are those of its records. -/
theorem splitOn_recordText {records : List Record}
    (h : ∀ record ∈ records, .scalar '\n' ∉ record.render.toList) :
    (recordText records).splitOn (.scalar '\n') =
      (records.map fun record => record.render.toList) ++ [[]] := by
  induction records with
  | nil => rfl
  | cons record records ih =>
      obtain ⟨hrecord, hmore⟩ := List.forall_mem_cons.mp h
      have hline : recordText (record :: records) =
          record.render.toList ++ .scalar '\n' :: recordText records := by
        simp [recordText, Record.line]
      rw [hline, List.splitOn_eq_splitOnP, List.splitOnP_append_cons_of_forall_mem ?_ _ (by simp),
        ← List.splitOn_eq_splitOnP, ih hmore]
      · rfl
      · intro c hc
        exact beq_false_of_ne fun hfeed => hrecord (hfeed ▸ hc)

/-- No record of a section goes over more than one line. -/
theorem TrailSection.OnLines.feed_not_mem {s : TrailSection} (h : s.OnLines) :
    ∀ record ∈ s.records, .scalar '\n' ∉ record.render.toList := by
  intro record hrecord
  rw [TrailSection.records, List.mem_append, List.mem_cons, List.mem_map] at hrecord
  rcases hrecord with (rfl | ⟨⟨n, hit⟩, hhit, rfl⟩) | hfinish
  · simpa [Record.render] using h.label
  · have hkey := h.keys _ hhit
    have hline : (hit.entry s.label n).record.render.toList = _ := toList_format s.label n hit
    rw [hline]
    cases hit.substituted <;>
      simp [hitOpening, hitMiddle, hitEnding, not_mem_digits (show '\n'.isDigit = false by rfl) n, hkey]
  · cases hended : s.ended with
    | true =>
        rw [hended, if_pos rfl, List.mem_singleton] at hfinish
        simpa [hfinish, Record.render] using h.label
    | false => simp [hended] at hfinish

/-- What is written in a report can be read. -/
theorem readTrail_recordText {trail : List TrailSection} (h : ∀ s ∈ trail, s.OnLines) :
    readTrail (recordText (trailRecords trail)) = some trail := by
  have hlines : ∀ record ∈ trailRecords trail, .scalar '\n' ∉ record.render.toList := by
    intro record hrecord
    obtain ⟨s, hs, hrecord⟩ := List.mem_flatMap.mp hrecord
    exact (h s hs).feed_not_mem record hrecord
  rw [readTrail, splitOn_recordText hlines]
  simp only [List.getLast?_concat, if_true, List.dropLast_concat]
  exact readSections_records trail none

/-- Different trails are written differently. -/
theorem recordText_inj {a b : List TrailSection} (ha : ∀ s ∈ a, s.OnLines)
    (hb : ∀ s ∈ b, s.OnLines) :
    recordText (trailRecords a) = recordText (trailRecords b) ↔ a = b := by
  constructor
  · intro h
    have hread := readTrail_recordText ha
    rw [h, readTrail_recordText hb] at hread
    exact (Option.some.inj hread).symm
  · rintro rfl
    rfl

end LogRedaction
