/-
LogRedaction.CommandLine.Reading — reading a command line by a grammar.

First each argument is looked at by itself: it is an option, a plain argument, or the bare
mark `--` after which all are plain. An option may be written by any beginning that only one
name has; a value may follow after an equal sign. A negative number is a plain argument, and
so is what holds a space. Then the arguments are read from left to right.

## §1 Looking at single arguments
## §2 Results
## §3 Reading options
## §4 Reading all arguments
-/
import LogRedaction.CommandLine.Grammar
import LogRedaction.Text.Integer

namespace LogRedaction.CommandLine

/-! ## §1 Looking at single arguments -/

/-- After it all arguments are plain. -/
def separator : Text := "--"

/-- An option as it is used. -/
structure OptionUse where
  /-- Nothing if no option has this name. -/
  spec : Option OptionSpec
  name : Text
  /-- What is written together with it. -/
  value : Option Text
deriving DecidableEq, Repr

/-- What an argument is. -/
inductive Kind where
  | plain
  | separator
  | option (use : OptionUse)
deriving DecidableEq, Repr

/-- The text in front of the first equal sign, and the text after it. -/
def splitValue (text : Text) : Text × Option Text :=
  let front := text.toList.takeWhile (· != .scalar '=')
  match text.toList.drop front.length with
  | [] => (text, none)
  | _ :: value => (Text.ofList front, some (Text.ofList value))

/-- The uses that a beginning of an option with two dashes may mean. -/
def longUses (grammar : Grammar) (argument : Text) : List OptionUse :=
  let (front, value) := splitValue argument
  (grammar.names.filter fun (name, _) => front.toList.isPrefixOf name.toList).map
    fun (name, spec) => ⟨some spec, name, value⟩

/-- The uses that an option with one dash may mean: a letter with what follows, or a beginning. -/
def shortUses (grammar : Grammar) (argument : Text) : List OptionUse :=
  let letter := Text.ofList (argument.toList.take 2)
  grammar.names.filterMap fun (name, spec) =>
    if name = letter then some ⟨some spec, name, some (Text.ofList (argument.toList.drop 2))⟩
    else if argument.toList.isPrefixOf name.toList then some ⟨some spec, name, none⟩
    else none

/-- The uses that an argument may mean. -/
def possibleUses (grammar : Grammar) (argument : Text) : List OptionUse :=
  match argument.toList with
  | .scalar '-' :: .scalar '-' :: _ => longUses grammar argument
  | _ => shortUses grammar argument

/-- A negative number with or without a fraction; a line feed may follow. -/
def isNegativeNumber (argument : Text) : Bool :=
  let isDigit (c : CodePoint) : Bool := (Unicode.digitValue? c.toNat).isSome
  match argument.toList with
  | .scalar '-' :: text =>
    let text := if text.getLast? = some (.scalar '\n') then text.dropLast else text
    match text.dropWhile isDigit with
    | [] => !text.isEmpty
    | .scalar '.' :: fraction => !fraction.isEmpty && fraction.all isDigit
    | _ => false
  | _ => false

/-- The use that an argument means; nothing if it is plain. -/
def useOf (grammar : Grammar) (argument : Text) : Except Stop (Option OptionUse) :=
  if argument.toList.head? ≠ some (.scalar '-') then .ok none
  else match grammar.find? argument with
    | some spec => .ok (some ⟨some spec, argument, none⟩)
    | none =>
      if argument.length = 1 then .ok none
      else
        let (front, value) := splitValue argument
        match value, grammar.find? front with
        | some value, some spec => .ok (some ⟨some spec, front, some value⟩)
        | _, _ =>
          match possibleUses grammar argument with
          | [use] => .ok (some use)
          | [] =>
            if isNegativeNumber argument || argument.toList.contains ' ' then .ok none
            else .ok (some ⟨none, argument, none⟩)
          | uses => .error (.usage grammar.program (.ambiguous argument (uses.map (·.name))))

/-- An argument and what it is. -/
structure Item where
  text : Text
  kind : Kind
deriving DecidableEq, Repr

/-- What the arguments are. -/
def itemsOf (grammar : Grammar) : List Text → Except Stop (List Item)
  | [] => .ok []
  | argument :: rest =>
    if argument = separator then
      .ok (⟨argument, .separator⟩ :: rest.map fun text => ⟨text, .plain⟩)
    else
      match useOf grammar argument with
      | .error stop => .error stop
      | .ok use =>
        let kind := match use with
          | some use => .option use
          | none => .plain
        (itemsOf grammar rest).map (⟨argument, kind⟩ :: ·)

/-! ## §2 Results -/

/-- What an option was set to. -/
inductive Setting where
  | on
  | text (s : Text)
  | number (n : Int)
  /-- The value was the bare mark, which is taken away. -/
  | blank
deriving DecidableEq, Repr

/-- What a command line says. -/
structure Line where
  /-- The options with their full names, the last one first. -/
  settings : List (Text × Setting) := []
  /-- The positional part. -/
  positional : Option (List Text) := none
  /-- What the grammar has no place for. -/
  extras : List Text := []
deriving DecidableEq, Repr

namespace Line

/-- What an option was set to last. -/
def setting? (line : Line) (name : Text) : Option Setting := line.settings.lookup name

/-- The line with another setting. -/
def put (line : Line) (spec : OptionSpec) (setting : Setting) : Line :=
  { line with settings := (spec.fullName, setting) :: line.settings }

/-- The line with more extras. -/
def withExtras (line : Line) (extras : List Text) : Line :=
  { line with extras := line.extras ++ extras }

end Line

/-! ## §3 Reading options -/

/-- The value of an option. -/
def readValue (grammar : Grammar) (spec : OptionSpec) (value : Text) : Except Stop Setting :=
  if value = separator then .ok .blank
  else if spec.kind = .number then
    match Text.readInteger 10 value with
    | .ok n => .ok (.number n)
    | .error _ => .error (.usage grammar.program (.noNumber spec.shown value))
  else .ok (.text value)

/-- Sets flags in order; a flag that asks for help ends the reading. -/
def setFlags (line : Line) : List OptionSpec → Except Stop Line
  | [] => .ok line
  | spec :: rest => if spec.kind = .help then .error .help else setFlags (line.put spec .on) rest

/-- A flag with those that the letters after it stand for. Names of one letter belong to flags. -/
def flagsOf (grammar : Grammar) (spec : OptionSpec) : List CodePoint → Except Stop (List OptionSpec)
  | [] => .ok [spec]
  | letter :: rest =>
    match grammar.find? (Text.ofList ['-', letter]) with
    | some next => (flagsOf grammar next rest).map (spec :: ·)
    | none => .error (.usage grammar.program (.valueIgnored spec.shown (Text.ofList (letter :: rest))))

/-- A flag written together with something else. Only after a single dash can this be more flags. -/
def readFlagWith (grammar : Grammar) (line : Line) (spec : OptionSpec) (name value : Text) :
    Except Stop Line :=
  if name.toList.take 2 = [.scalar '-', .scalar '-'] ∨ value = "" then
    .error (.usage grammar.program (.valueIgnored spec.shown value))
  else
    match flagsOf grammar spec value.toList with
    | .error stop => .error stop
    | .ok flags => setFlags line flags

/-! ## §4 Reading all arguments -/

/-- The argument is an option. -/
def Item.isOption (item : Item) : Bool :=
  match item.kind with
  | .option _ => true
  | _ => false

/-- The first bare mark is taken away from arguments. -/
def withoutSeparator (texts : List Text) : List Text := texts.erase separator

/-- Reads arguments that are no options, with what follows them. They are the positional part, or
the first of its command, unless that has been read before. What is left to read comes back. -/
def readPlain (grammar : Grammar) (line : Line) (plain rest : List Item) : Line × List Item :=
  let texts := plain.map (·.text)
  let extra := (line.withExtras texts, rest)
  if line.positional.isSome || !plain.any (fun item => item.kind = .plain) then extra
  else match grammar.positional with
    | .nothing => extra
    | .arguments _ => ({ line with positional := some (withoutSeparator texts) }, rest)
    | .command _ _ => ({ line with positional := some (texts ++ rest.map (·.text)) }, [])

theorem length_readPlain_le (grammar : Grammar) (line : Line) (plain rest : List Item) :
    (readPlain grammar line plain rest).2.length ≤ rest.length := by
  unfold readPlain
  split
  · simp
  · split <;> simp

/-- Reads an argument that is no option, with those after it up to the next option. -/
def readRun (grammar : Grammar) (line : Line) (item : Item) (rest : List Item) : Line × List Item :=
  readPlain grammar line (item :: rest.takeWhile fun item => !item.isOption)
    (rest.dropWhile fun item => !item.isOption)

theorem length_readRun_le (grammar : Grammar) (line : Line) (item : Item) (rest : List Item) :
    (readRun grammar line item rest).2.length ≤ rest.length :=
  Nat.le_trans (length_readPlain_le grammar line _ _) (List.dropWhile_sublist _).length_le

/-- Reads arguments from left to right. -/
def readItems (grammar : Grammar) (line : Line) : List Item → Except Stop Line
  | [] => .ok line
  | ⟨text, .option use⟩ :: rest =>
    match use.spec, use.value with
    | none, _ => readItems grammar (line.withExtras [text]) rest
    | some spec, some value =>
      if spec.takesValue then
        match readValue grammar spec value with
        | .error stop => .error stop
        | .ok setting => readItems grammar (line.put spec setting) rest
      else
        match readFlagWith grammar line spec use.name value with
        | .error stop => .error stop
        | .ok line => readItems grammar line rest
    | some spec, none =>
      if spec.takesValue then
        match rest with
        | ⟨value, .plain⟩ :: rest =>
          match readValue grammar spec value with
          | .error stop => .error stop
          | .ok setting => readItems grammar (line.put spec setting) rest
        | _ => .error (.usage grammar.program (.valueMissing spec.shown))
      else
        match setFlags line [spec] with
        | .error stop => .error stop
        | .ok line => readItems grammar line rest
  | item :: rest =>
    have := length_readRun_le grammar line item rest
    readItems grammar (readRun grammar line item rest).1 (readRun grammar line item rest).2
termination_by items => items.length

/-- What the grammar asks for and the line does not have. -/
def missingFrom (grammar : Grammar) (line : Line) : List Text :=
  let options := grammar.options.filter fun spec =>
    spec.required && (line.setting? spec.fullName).isNone
  let positional := if line.positional.isNone then grammar.positional.name?.toList else []
  options.map (·.shown) ++ positional

/-- Reads a command line. Extras are left to the caller. -/
def Grammar.read (grammar : Grammar) (arguments : List Text) : Except Stop Line :=
  match itemsOf grammar arguments with
  | .error stop => .error stop
  | .ok items =>
    match readItems grammar {} items with
    | .error stop => .error stop
    | .ok line =>
      match missingFrom grammar line with
      | [] => .ok line
      | names => .error (.usage grammar.program (.missing names))

end LogRedaction.CommandLine
