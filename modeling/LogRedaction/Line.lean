/-
LogRedaction.Line — redacting one line by a list of rules.

The rules are applied in order, each to the text that the one before has left. A rule whose
detection matches is a *hit*; what it then does depends on its expanded replacement, which is
either blank, or an expression all of whose matches give way to the pseudonym.

The redaction stops at the first rule that cannot be applied. The hits before it are kept, since
they have been noted by then.
-/
import LogRedaction.Audit
import LogRedaction.Rule

namespace LogRedaction

variable [Host]

/-- A rule that matched a line. -/
structure Hit where
  key : Text
  /-- The rule replaces something; otherwise it only notes the line. -/
  substituted : Bool
deriving DecidableEq, Repr

/-- How an entry says which rule it is about. -/
def Hit.description (hit : Hit) : Text :=
  "rule '" ++ hit.key ++ "'" ++ (if hit.substituted then "" else " (detect only)")

/-- The entry about a hit on a line. -/
def Hit.entry (source : Text) (lineNumber : Int) (hit : Hit) : AuditEntry :=
  ⟨source, lineNumber, hit.substituted, hit.description⟩

/-- Why a rule cannot be applied to a line. -/
inductive LineError where
  | unresolved (e : Template.Unresolved)
  | refused (pattern : Text) (refusal : Regex.Refusal)
deriving DecidableEq, Repr

/-- The wording of an error. -/
def LineError.message : LineError → Text
  | unresolved e => e.message
  | refused pattern refusal => refusal.message pattern

/-- What is to be done to a line that a rule matches. -/
inductive Treatment where
  /-- The line is noted and left as it is. -/
  | note
  /-- All matches of the expression are replaced. -/
  | replace (regex : Regex)

namespace CompiledRule

/-- What the rule does to the lines that it matches. -/
def treatment (mapping : Mapping) (rule : CompiledRule) : Except LineError Treatment :=
  match Template.expand mapping rule.replace (some rule.key) with
  | .error e => .error (.unresolved e)
  | .ok replace =>
    if Text.isAllBlank replace then .ok .note
    else match Regex.read replace with
      | .ok regex => .ok (.replace regex)
      | .error refusal => .error (.refused replace refusal)

/-- What the rule makes of a text: nothing if it does not match, or else the text and the hit. -/
def apply (mapping : Mapping) (pseudonym : List CodePoint) (rule : CompiledRule)
    (text : List CodePoint) : Except LineError (Option (List CodePoint × Hit)) :=
  if rule.detect.occursIn text then
    match rule.treatment mapping with
    | .error e => .error e
    | .ok .note => .ok (some (text, ⟨rule.key, false⟩))
    | .ok (.replace regex) => .ok (some (regex.replace pseudonym text, ⟨rule.key, true⟩))
  else .ok none

end CompiledRule

/-- The course of redacting a line. -/
structure LineCourse where
  /-- The text that is left. -/
  text : List CodePoint
  /-- The rules that matched, in order. -/
  hits : List Hit
  /-- Why the rules after the last hit were not applied. -/
  failure : Option LineError

/-- Applies the rules in order. -/
def applyRules (mapping : Mapping) (pseudonym : List CodePoint) :
    List CompiledRule → List CodePoint → LineCourse
  | [], text => ⟨text, [], none⟩
  | rule :: rest, text =>
    match rule.apply mapping pseudonym text with
    | .error e => ⟨text, [], some e⟩
    | .ok none => applyRules mapping pseudonym rest text
    | .ok (some (text, hit)) =>
      let course := applyRules mapping pseudonym rest text
      { course with hits := hit :: course.hits }

/-- What has become of a line. -/
structure RedactedLine where
  text : Text
  /-- Some rule matched. -/
  matched : Bool
  entries : List AuditEntry
deriving DecidableEq, Repr

/-- The outcome of a course without failure. -/
def LineCourse.outcome (course : LineCourse) (source : Text) (lineNumber : Int) :
    Except LineError RedactedLine :=
  match course.failure with
  | some e => .error e
  | none => .ok {
      text := Text.ofList course.text
      matched := !course.hits.isEmpty
      entries := course.hits.map (Hit.entry source lineNumber) }

/-- Runs every rule over one line. -/
def redactLine (rules : List CompiledRule) (mapping : Mapping) (lineNumber : Int)
    (pseudonym source line : Text) : Except LineError RedactedLine :=
  (applyRules mapping pseudonym.toList rules line.toList).outcome source lineNumber

end LogRedaction
