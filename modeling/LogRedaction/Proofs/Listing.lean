/-
LogRedaction.Proofs.Listing — the detections can be read off the list of compiled rules.

The pieces of the list are joined to blocks of lines first (`join_listPieces`). The list is then
read line by line. Quoting leaves no line feed in a text, so whatever the rules say, the lines that
begin like that of a detection are the detections (`listedDetections_listRules`). Whoever reads the
list sees one for each rule, in order, and sees it as the expression was read.
-/
import LogRedaction.Listing
import LogRedaction.Proofs.Rule
import LogRedaction.Yaml.Token
import Mathlib.Tactic.SplitIfs

namespace LogRedaction

open Text

/-! ## The text of the list -/

namespace Text

theorem intercalate_cons (separator first : Text) (rest : List Text) :
    intercalate separator (first :: rest) = first ++ join (rest.map (separator ++ ·)) := by
  ext1
  induction rest generalizing first with
  | nil => simp
  | cons second rest ih =>
      have hrest := ih second
      simp only [toList_intercalate, List.map_cons] at hrest ⊢
      rw [List.intercalate_cons_cons, hrest]
      simp

theorem intercalate_singleton (separator text : Text) : intercalate separator [text] = text := by
  rw [intercalate_cons, List.map_nil, join_nil, append_empty]

theorem intercalate_cons_cons (separator first second : Text) (rest : List Text) :
    intercalate separator (first :: second :: rest) =
      first ++ separator ++ intercalate separator (second :: rest) := by
  rw [intercalate_cons, intercalate_cons, List.map_cons, join_cons]
  simp only [append_assoc]

theorem intercalate_map (separator before first : Text) (rest : List Text) :
    intercalate separator ((first :: rest).map (before ++ ·)) =
      before ++ intercalate (separator ++ before) (first :: rest) := by
  have hrest : rest.map ((separator ++ ·) ∘ (before ++ ·)) = rest.map (separator ++ before ++ ·) :=
    List.map_congr_left fun text _ => (append_assoc separator before text).symm
  rw [List.map_cons, intercalate_cons, intercalate_cons, List.map_map, hrest, append_assoc]

theorem join_intercalate (separator : Text) : ∀ items : List (List Text),
    join ([separator].intercalate items) = intercalate separator (items.map join)
  | [] => rfl
  | [item] => by rw [List.intercalate_singleton, List.map_singleton, intercalate_singleton]
  | first :: second :: rest => by
      rw [List.intercalate_cons_cons, join_append, join_append, join_intercalate separator _,
        List.map_cons, List.map_cons, List.map_cons, intercalate_cons_cons, join_cons, join_nil,
        append_empty]

/-- Items between brackets, each on a line of its own; a block without items has one line. -/
def jsonBlock (opening closing indent : Text) (items : List Text) : Text :=
  if items.isEmpty then opening ++ closing
  else
    opening ++ "\n" ++ intercalate ",\n" (items.map fun item => indent ++ "  " ++ item) ++ "\n" ++
      indent ++ closing

theorem jsonBlock_cons (opening closing indent first : Text) (rest : List Text) :
    jsonBlock opening closing indent (first :: rest) =
      opening ++ "\n" ++ (indent ++ "  " ++ intercalate (",\n" ++ (indent ++ "  ")) (first :: rest)) ++
        "\n" ++ indent ++ closing := by
  rw [jsonBlock, if_neg (by simp), intercalate_map]

end Text

/-- The text of an entry. -/
def listEntry (name value : Text) : Text := jsonText name ++ ": " ++ value

/-- One rule of the list. -/
def listRule (rule : Rule) (compiled : CompiledRule) : Text :=
  jsonBlock "\x7b" "\x7d" "  " [
    listEntry "key" (jsonText rule.key),
    listEntry "detect" (jsonText compiled.detect.source),
    listEntry "replace" (jsonText rule.replace),
    listEntry "placeholders" (jsonBlock "[" "]" "    " (rule.placeholders.map jsonText))]

/-- The list of rules with what they are compiled to. -/
def listRules (rules : List Rule) (compiled : List CompiledRule) : Text :=
  jsonBlock "[" "]" "" (List.zipWith listRule rules compiled) ++ "\n"

theorem join_joinPieces (opening closing : List Text) (separator : Text)
    (items : List (List Text)) :
    join (joinPieces opening separator items closing) =
      join opening ++ intercalate separator (items.map join) ++ join closing := by
  rw [joinPieces, join_append, join_append, join_intercalate]

theorem join_entryPieces (name : Text) (value : List Text) :
    join (entryPieces name value) = listEntry name (join value) := by
  rw [entryPieces, join_cons, join_cons, listEntry, append_assoc]

theorem join_namePieces (names : List Text) :
    join (namePieces names) = jsonBlock "[" "]" "    " (names.map jsonText) := by
  cases names with
  | nil => decide +kernel
  | cons first rest =>
      have hindent : (",\n      " : Text) = ",\n" ++ ("    " ++ "  ") := by decide +kernel
      rw [namePieces, List.foldr_cons_eq_append, List.map_cons, jsonBlock_cons, intercalate_cons,
        List.map_map, hindent]
      ext1
      simp [Function.comp_def]

theorem join_rulePieces (rule : Rule) (compiled : CompiledRule) :
    join (rulePieces rule compiled) = listRule rule compiled := by
  have hvalue : ∀ text : Text, join [text] = text := by simp
  rw [rulePieces, join_joinPieces, listRule, jsonBlock_cons]
  simp only [List.map_cons, List.map_nil, join_entryPieces, join_namePieces, hvalue]
  ext1
  simp

/-- The pieces are those of blocks of lines. -/
theorem join_listPieces (rules : List Rule) (compiled : List CompiledRule) :
    join (listPieces rules compiled) = listRules rules compiled := by
  have hitems : (List.zipWith rulePieces rules compiled).map join =
      List.zipWith listRule rules compiled := by
    rw [List.map_zipWith]
    exact congrArg (List.zipWith · rules compiled)
      (funext fun rule => funext fun compiled => join_rulePieces rule compiled)
  rw [listPieces, listRules, ← hitems]
  rcases List.zipWith rulePieces rules compiled with _ | ⟨first, rest⟩
  · rfl
  · rw [join_joinPieces, List.map_cons, jsonBlock_cons]
    ext1
    simp

/-! ## Quoted texts -/

/-- What is meant by a character after a backslash. -/
def unescape : CodePoint → CodePoint
  | .scalar 'n' => .scalar '\n'
  | .scalar 'r' => .scalar '\r'
  | .scalar 't' => .scalar '\t'
  | .scalar 'b' => .scalar '\x08'
  | .scalar 'f' => .scalar '\x0c'
  | c => c

/-- The text up to the closing quote. -/
def readQuoted : List CodePoint → Option (List CodePoint)
  | [] => none
  | .scalar '\x22' :: _ => some []
  | .scalar '\\' :: .scalar 'u' :: a :: b :: c :: d :: rest =>
    (readQuoted rest).map
      (CodePoint.ofNat (Yaml.hexValue ([a, b, c, d].filterMap CodePoint.char?)) :: ·)
  | .scalar '\\' :: c :: rest => (readQuoted rest).map (unescape c :: ·)
  | c :: rest => (readQuoted rest).map (c :: ·)

theorem hexValue_hexDigits : ∀ n < 0x20,
    Yaml.hexValue ((hexDigits 4 n).filterMap CodePoint.char?) = n := by
  decide +kernel

theorem ofNat_of_control {c : CodePoint} (h : c.toNat < 0x20) : CodePoint.ofNat c.toNat = c := by
  rw [← CodePoint.toNat_inj, CodePoint.ofNat, dif_neg (by omega)]
  cases c with
  | scalar c => simp only [CodePoint.toNat_scalar, Char.ofNat_toNat]
  | surrogate n => exact absurd h (by simp only [CodePoint.toNat]; omega)

theorem readQuoted_jsonChar (c : CodePoint) (rest : List CodePoint) :
    readQuoted (jsonChar c ++ rest) = (readQuoted rest).map (c :: ·) := by
  rw [jsonChar]
  split_ifs with hmark hfeed hreturn htab hback hform hcontrol
  · rcases hmark with rfl | rfl <;> rfl
  · subst hfeed; rfl
  · subst hreturn; rfl
  · subst htab; rfl
  · subst hback; rfl
  · subst hform; rfl
  · have hvalue := hexValue_hexDigits c.toNat hcontrol
    rw [hexDigits, hexDigits, hexDigits, hexDigits, hexDigits] at hvalue ⊢
    simp only [List.nil_append, List.cons_append] at hvalue ⊢
    rw [readQuoted, hvalue, ofNat_of_control hcontrol]
  · obtain ⟨hquote, hslash⟩ := not_or.mp hmark
    rw [List.singleton_append, readQuoted]
    · exact hquote
    · intro a b c d more hc
      exact absurd hc hslash
    · intro d more hc
      exact absurd hc hslash

theorem readQuoted_chars (text rest : List CodePoint) :
    readQuoted (text.flatMap jsonChar ++ .scalar '\x22' :: rest) = some text := by
  induction text with
  | nil => rfl
  | cons c text ih => rw [List.flatMap_cons, List.append_assoc, readQuoted_jsonChar, ih]; rfl

theorem not_mem_hexDigits {c : CodePoint} (h : ∀ n < 16, hexDigit n ≠ c) (width n : Nat) :
    c ∉ hexDigits width n := by
  induction width generalizing n with
  | zero => exact List.not_mem_nil
  | succ width ih =>
      rw [hexDigits, List.mem_append, List.mem_singleton, not_or]
      exact ⟨ih _, fun hlast => h _ (Nat.mod_lt _ (by decide)) hlast.symm⟩

/-- No line ends within a quoted text. -/
theorem feed_not_mem_jsonChar (c : CodePoint) : .scalar '\n' ∉ jsonChar c := by
  rw [jsonChar]
  split_ifs with hmark hfeed hreturn htab hback hform hcontrol
  · rcases hmark with rfl | rfl <;> decide
  · decide
  · decide
  · decide
  · decide
  · decide
  · simp only [List.mem_cons, not_or]
    exact ⟨by decide, by decide, not_mem_hexDigits (by decide +kernel) 4 _⟩
  · rw [List.mem_singleton]
    exact fun h => hfeed h.symm

/-! ## Lines of the list -/

/-- How the line of a detection begins. -/
def detectionMark : List CodePoint := ("    \x22detect\x22: \x22" : Text).toList

/-- The detection that a line of the list shows. -/
def detectionOn (line : List CodePoint) : Option Text :=
  ((line.dropPrefix? detectionMark).bind readQuoted).map Text.ofList

/-- The detections that a list shows, in order. -/
def listedDetections (listing : Text) : List Text :=
  (listing.toList.splitOn (.scalar '\n')).filterMap detectionOn

theorem listedDetections_append (a b : Text) :
    listedDetections (a ++ "\n" ++ b) = listedDetections a ++ listedDetections b := by
  have hsplit : (a ++ "\n" ++ b).toList = a.toList ++ .scalar '\n' :: b.toList := by simp
  rw [listedDetections, hsplit, List.splitOn, List.splitOnP_append_cons _ _ (by rfl),
    List.filterMap_append]
  rfl

theorem listedDetections_line {line : Text} (h : .scalar '\n' ∉ line.toList) :
    listedDetections line = (detectionOn line.toList).toList := by
  rw [listedDetections, List.splitOn, List.splitOnP_eq_singleton]
  · rw [List.filterMap_cons]
    cases detectionOn line.toList <;> rfl
  · rintro c hc
    exact beq_eq_false_iff_ne.mpr fun hfeed => h (hfeed ▸ hc)

/-- A part of the list shows these detections, also if there is a comma after it. -/
def Shows (part : Text) (detections : List Text) : Prop :=
  listedDetections part = detections ∧ listedDetections (part ++ ",") = detections

theorem listedDetections_intercalate {items : List Text} {shown : List (List Text)}
    (h : List.Forall₂ Shows items shown) :
    listedDetections (intercalate ",\n" items) = shown.flatten := by
  induction h with
  | nil => decide +kernel
  | @cons item detections items shown hitem hitems ih =>
      cases hitems with
      | nil => rw [intercalate_singleton, hitem.1, List.flatten_singleton]
      | cons hnext hmore =>
          have hcomma : item ++ ",\n" = item ++ "," ++ "\n" := by rw [Text.append_assoc]; rfl
          rw [Text.intercalate_cons_cons, hcomma, listedDetections_append, hitem.2, ih]
          rfl

/-- A block shows what its items show. -/
theorem shows_block {before opening closing indent : Text} {items : List Text}
    {shown : List (List Text)} (hopening : listedDetections (before ++ opening) = [])
    (hclosing : Shows (indent ++ closing) []) (hempty : Shows (before ++ (opening ++ closing)) [])
    (hitems : List.Forall₂ Shows (items.map fun item => indent ++ "  " ++ item) shown) :
    Shows (before ++ jsonBlock opening closing indent items) shown.flatten := by
  rw [jsonBlock]
  split
  · rename_i hnone
    rw [List.isEmpty_iff.mp hnone] at hitems
    cases hitems
    exact hempty
  · have hblock : ∀ after, listedDetections (indent ++ closing ++ after) = [] →
        listedDetections (before ++ (opening ++ "\n" ++
          intercalate ",\n" (items.map fun item => indent ++ "  " ++ item) ++ "\n" ++ indent ++
            closing) ++ after) = shown.flatten := by
      intro after hafter
      have hparts : before ++ (opening ++ "\n" ++
          intercalate ",\n" (items.map fun item => indent ++ "  " ++ item) ++ "\n" ++ indent ++
            closing) ++ after = before ++ opening ++ "\n" ++
          (intercalate ",\n" (items.map fun item => indent ++ "  " ++ item) ++ "\n" ++
            (indent ++ closing ++ after)) := by
        simp only [Text.append_assoc]
      rw [hparts, listedDetections_append, listedDetections_append, hopening, hafter,
        listedDetections_intercalate hitems, List.nil_append, List.append_nil]
    refine ⟨?_, hblock "," hclosing.2⟩
    have hplain := hblock "" (by rw [Text.append_empty]; exact hclosing.1)
    rwa [Text.append_empty] at hplain

/-! ## The list -/

theorem feed_not_mem_jsonText (text : Text) : .scalar '\n' ∉ (jsonText text).toList := by
  rw [jsonText]
  simp only [List.mem_cons, List.mem_append, List.mem_flatMap, not_or]
  refine ⟨by decide, ?_, by decide⟩
  rintro ⟨c, -, hc⟩
  exact feed_not_mem_jsonChar c hc

theorem shows_of_forall {part : Text} {detections : List Text}
    (h : ∀ after : Text, .scalar '\n' ∉ after.toList → listedDetections (part ++ after) = detections) :
    Shows part detections := by
  refine ⟨?_, h "," (by decide +kernel)⟩
  have hempty := h "" (by decide +kernel)
  rwa [Text.append_empty] at hempty

/-- What is written about a rule before its detection and after it shows none. -/
theorem shows_text {before text : Text} (hbefore : .scalar '\n' ∉ before.toList)
    (hmark : ∀ after, (before.toList ++ after).dropPrefix? detectionMark = none) :
    Shows (before ++ jsonText text) [] := by
  refine shows_of_forall fun after hafter => ?_
  rw [listedDetections_line, detectionOn]
  · rw [Text.toList_append, Text.toList_append, List.append_assoc, hmark]
    rfl
  · simp only [Text.toList_append, List.mem_append, not_or]
    exact ⟨⟨hbefore, feed_not_mem_jsonText text⟩, hafter⟩

theorem shows_detection (detection : Text) :
    Shows ("    \x22detect\x22: " ++ jsonText detection) [detection] := by
  have hmark : detectionMark = ("    \x22detect\x22: " : Text).toList ++ [.scalar '\x22'] := by
    decide +kernel
  refine shows_of_forall fun after hafter => ?_
  have hline : ("    \x22detect\x22: " ++ jsonText detection ++ after).toList =
      detectionMark ++ (detection.toList.flatMap jsonChar ++ .scalar '\x22' :: after.toList) := by
    simp only [hmark, jsonText, Text.toList_append, List.append_assoc, List.cons_append,
      List.nil_append]
  have hdrop : (detectionMark ++ (detection.toList.flatMap jsonChar ++ .scalar '\x22' ::
      after.toList)).dropPrefix? detectionMark =
        some (detection.toList.flatMap jsonChar ++ .scalar '\x22' :: after.toList) :=
    List.dropPrefix?_eq_some_iff.mpr ⟨detectionMark, rfl, beq_self_eq_true _⟩
  rw [listedDetections_line, detectionOn, hline, hdrop, Option.bind_some, readQuoted_chars,
    Option.map_some, Text.ofList_toList]
  · rfl
  · simp only [Text.toList_append, List.mem_append, not_or]
    exact ⟨⟨by decide +kernel, feed_not_mem_jsonText detection⟩, hafter⟩

theorem shows_placeholders (names : List Text) :
    Shows ("    \x22placeholders\x22: " ++ jsonBlock "[" "]" "    " (names.map jsonText)) [] := by
  have hitems : List.Forall₂ Shows ((names.map jsonText).map fun item => "    " ++ "  " ++ item)
      (names.map fun _ => []) := by
    rw [List.map_map, List.forall₂_map_left_iff, List.forall₂_map_right_iff, List.forall₂_same]
    intro name _
    exact shows_text (by decide +kernel) fun _ => rfl
  have hblock := @shows_block "    \x22placeholders\x22: " "[" "]" "    " _ _ (by decide +kernel)
    (by constructor <;> decide +kernel) (by constructor <;> decide +kernel) hitems
  rwa [List.flatten_eq_nil_iff.mpr (by simp)] at hblock

theorem shows_listRule (rule : Rule) (compiled : CompiledRule) :
    Shows ("  " ++ listRule rule compiled) [compiled.detect.source] := by
  have hname : ∀ name value : Text, "  " ++ "  " ++ listEntry name value =
      "    " ++ jsonText name ++ ": " ++ value := by
    intro name value
    rw [show ("    " : Text) = "  " ++ "  " by decide +kernel, listEntry]
    simp only [Text.append_assoc]
  refine @shows_block "  " _ _ _ _ [[], [compiled.detect.source], [], []] (by decide +kernel)
    (by constructor <;> decide +kernel) (by constructor <;> decide +kernel) ?_
  simp only [List.map_cons, List.map_nil, hname]
  exact .cons (shows_text (by decide +kernel) fun _ => rfl)
    (.cons (shows_detection _) (.cons (shows_text (by decide +kernel) fun _ => rfl)
      (.cons (shows_placeholders _) .nil)))

/-- The list shows the detection of each rule, in order. -/
theorem listedDetections_listRules {rules : List Rule} {compiled : List CompiledRule}
    (h : rules.length = compiled.length) :
    listedDetections (listRules rules compiled) = compiled.map (·.detect.source) := by
  have hitems : List.Forall₂ Shows
      ((List.zipWith listRule rules compiled).map fun item => "" ++ "  " ++ item)
      (compiled.map fun rule => [rule.detect.source]) := by
    induction rules generalizing compiled with
    | nil =>
        obtain rfl := List.length_eq_zero_iff.mp h.symm
        exact .nil
    | cons rule rules ih =>
        obtain ⟨first, more, rfl⟩ := List.exists_cons_of_length_eq_add_one h.symm
        exact .cons (shows_listRule rule first) (ih (Nat.succ.inj h))
  have hblock := @shows_block "" "[" "]" "" _ _ (by decide +kernel)
    (by constructor <;> decide +kernel) (by constructor <;> decide +kernel) hitems
  have hlast : listRules rules compiled =
      "" ++ jsonBlock "[" "]" "" (List.zipWith listRule rules compiled) ++ "\n" ++ "" := by
    rw [listRules, Text.empty_append, Text.append_empty]
  rw [hlast, listedDetections_append, hblock.1, ← List.flatMap_def, ← List.map_eq_flatMap,
    show listedDetections "" = [] by decide +kernel, List.append_nil]

variable [Host]

theorem Regex.source_of_read {text : Text} {regex : Regex} (h : Regex.read text = .ok regex) :
    regex.source = text := by
  rw [Regex.read] at h
  split at h
  · cases h
  simp only [Regex.parse, bind_eq_ok_iff] at h
  obtain ⟨_, -, r, -, h⟩ := h
  simp only [bind, Except.bind] at h
  repeat' split at h
  -- The ways that end in a refusal are gone after this.
  all_goals cases h
  all_goals rfl

/-- The texts in the list are those from which the detections of the rules have been read. -/
theorem listed_of_compileAll {mapping : Mapping} {rules : List Rule}
    {compiled : List CompiledRule} (h : Rule.compileAll mapping rules = .ok compiled) :
    List.Forall₂ (fun text rule => Regex.read text = .ok rule.detect)
      (listedDetections (listRules rules compiled)) compiled := by
  have hrules := Rule.compileAll_eq_ok_iff.mp h
  rw [listedDetections_listRules hrules.length_eq]
  clear h
  induction hrules with
  | nil => exact .nil
  | cons hcompile _ ih =>
      obtain ⟨text, regex, -, -, hread, -, rfl⟩ := Rule.compile_eq_ok_iff.mp hcompile
      refine .cons ?_ ih
      rwa [← Regex.source_of_read hread] at hread

end LogRedaction
