/-
LogRedaction.Configuration — lists of rules as data and in files.

Data is a mapping with a list of rules, or a mapping with such a mapping in a section of its
own. Rules are checked in order, and of each rule first the key, then what it detects, then what
it replaces; the first flaw is the error.

## §1 Rules from data
## §2 Rules from files
-/
import LogRedaction.Disk.Basic
import LogRedaction.Rule
import LogRedaction.Text.Lines
import LogRedaction.Yaml.Content

namespace LogRedaction

/-! ## §1 Rules from data -/

/-- What is wrong with data. Rules are counted from one. -/
inductive RulesError where
  | noMapping
  | sectionNoMapping
  | noList
  | ruleNoMapping (number : Nat)
  | noKey (number : Nat)
  | noDetection (key : Text)
  | badReplacement (key : Text)
deriving DecidableEq, Repr

/-- The wording of an error. -/
def RulesError.message : RulesError → Text
  | noMapping => "Rule configuration must be a mapping"
  | sectionNoMapping => "'log_redactor' must be a mapping"
  | noList => "'patterns' must be a list of rule definitions"
  | ruleNoMapping number => "Pattern #" ++ toString number ++ " must be a mapping"
  | noKey number => "Pattern #" ++ toString number ++ " has no key"
  | noDetection key => "Pattern '" ++ key ++ "' has no detect pattern"
  | badReplacement key => "Pattern '" ++ key ++ "' has a non-string replace pattern"

/-- The section that may hold the rules. -/
def rulesSection : Text := "log_redactor"

/-- The first of some keys that a mapping has. -/
def firstOf (entries : List (Value × Value)) (keys : List Text) : Value :=
  (keys.findSome? (Value.lookup entries)).getD .null

namespace Rule

/-- The key of a rule, which is not empty. -/
def keyOf? (entries : List (Value × Value)) : Option Text :=
  match Value.lookup entries "key" with
  | some (.text key) => if key = "" then none else some key
  | _ => none

/-- What a rule detects, which is not blank. -/
def detectOf? (entries : List (Value × Value)) : Option Text :=
  match firstOf entries ["detect", "detect_pattern"] with
  | .text detect => if Text.isAllBlank detect then none else some detect
  | _ => none

/-- What a rule replaces; nothing by default. -/
def replaceOf? (entries : List (Value × Value)) : Option Text :=
  match firstOf entries ["replace", "replace_pattern"] with
  | .null => some ""
  | .text replace => some replace
  | _ => none

/-- The rule with a number. -/
def ofValue (number : Nat) : Value → Except RulesError Rule
  | .mapping entries =>
    match keyOf? entries, detectOf? entries, replaceOf? entries with
    | none, _, _ => .error (.noKey number)
    | some key, none, _ => .error (.noDetection key)
    | some key, some _, none => .error (.badReplacement key)
    | some key, some detect, some replace => .ok ⟨key, detect, replace⟩
  | _ => .error (.ruleNoMapping number)

/-- Rules numbered from the given number on. -/
def ofValues : (number : Nat) → List Value → Except RulesError (List Rule)
  | _, [] => .ok []
  | number, value :: rest =>
    match ofValue number value with
    | .error e => .error e
    | .ok rule => (ofValues (number + 1) rest).map (rule :: ·)

/-- The rules in a mapping without a section. -/
def ofEntries (entries : List (Value × Value)) : Except RulesError (List Rule) :=
  match Value.lookup entries "patterns" with
  | some (.list items) => ofValues 1 items
  | _ => .error .noList

/-- The rules that data holds. A section that is empty holds none. -/
def ofData : Value → Except RulesError (List Rule)
  | .mapping entries =>
    match Value.lookup entries rulesSection with
    | none => ofEntries entries
    | some (.mapping inner) => ofEntries inner
    | some value => if value.isEmpty then ofEntries [] else .error .sectionNoMapping
  | _ => .error .noMapping

end Rule

/-! ## §2 Rules from files -/

/-- Why a file gives no rules. -/
inductive RulesFileError where
  /-- The path starts with the tilde of a user who has no home directory. -/
  | noHome
  | nulInPath
  | unencodable (path : Path) (e : Text.EncodeError)
  | unreadable (path : Path) (e : DiskError)
  | undecodable (path : Path) (e : Text.Utf8Error)
  /-- What is said about the document may have several lines. -/
  | malformed (path : Path) (complaint : Text)
  /-- The form is right, but a scalar has no value. -/
  | noValue (fault : Yaml.Fault)
  /-- The stack is used up by the document. -/
  | tooDeep
  | content (e : RulesError)
deriving DecidableEq, Repr

/-- The wording of an error. -/
def RulesFileError.message : RulesFileError → Text
  | noHome => noHomeMessage
  | nulInPath => nulMessage
  | unencodable path e => "Pattern file " ++ path.toText ++ " is not valid UTF-8: " ++ e.message
  | unreadable path e => "Cannot read pattern file " ++ path.toText ++ ": " ++ e.message
  | undecodable path e => "Pattern file " ++ path.toText ++ " is not valid UTF-8: " ++ e.message
  | malformed path complaint =>
    "Pattern file " ++ path.toText ++ " is not valid YAML: " ++ complaint
  | noValue fault => fault.message
  | tooDeep => overflowMessage
  | content e => e.message

variable [Host]

/-- The rules in the bytes of a file. Nothing at all is an empty mapping. The document is read
while the bytes are decoded, so a fault in front of bytes that are no text comes first. -/
def Rule.ofBytes (path : Path) (bytes : List UInt8) : Except RulesFileError (List Rule) :=
  if Host.overflowsOn bytes then .error .tooDeep
  else
    let (text, broken) := Text.decodeFile bytes
    match Yaml.load text broken.isSome, broken with
    | .error .unreadable, some e => .error (.undecodable path e)
    | .error .malformed, _ => .error (.malformed path (Host.complaint bytes))
    | .error fault, _ => .error (.noValue fault)
    | .ok value, _ =>
      match Rule.ofData (if value.isEmpty then .mapping [] else value) with
      | .ok rules => .ok rules
      | .error e => .error (.content e)

/-- The rules in the file with a path. -/
def Rule.ofFile (disk : Disk) (text : Text) : Except RulesFileError (List Rule) :=
  match (Path.ofText text).expandHome? Host.home? with
  | none => .error .noHome
  | some path =>
    match path.fault? with
    | some .nul => .error .nulInPath
    | some (.unencodable e) => .error (.unencodable path e)
    | none =>
      match disk.read path with
      | .error e => .error (.unreadable path ⟨e, path.toText, none⟩)
      | .ok bytes => Rule.ofBytes path bytes

end LogRedaction
