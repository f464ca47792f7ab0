/-
LogRedaction.Yaml.Fault — why a document has no value.

Most faults make a document malformed; which rule of the format is broken is not told apart.
The others concern the value of a scalar whose form is right: a date that does not exist, or
a tag that does not fit the text. They are told apart, because they are not faults of form.
-/
import LogRedaction.Text.Quoted

namespace LogRedaction.Yaml

/-- Parts of a time with a range of their own. -/
inductive TimePart where
  | month
  | hour
  | minute
  | second
deriving DecidableEq, Repr

/-- Why a document has no value. -/
inductive Fault where
  | malformed
  | outOfRange (part : TimePart)
  | yearOutOfRange (year : Nat)
  | dayOutOfRange
  /-- The distance of a time zone in seconds is a day or more. -/
  | zoneOutOfRange (seconds : Int)
  | notInteger (text : Text) (base : Nat)
  | integerTooLong (digits : Nat)
  | notFloat (text : Text)
  | emptyNumber
  | notBool (text : Text)
  | notTime
  | timeOfMapping
  | numberTooLarge
  | noSuchCodePoint
  | codePointTooLarge
  /-- What comes next in the file is no text. -/
  | unreadable
deriving DecidableEq, Repr

/-- A number of seconds as days and seconds of the day. -/
def secondsText (seconds : Int) : Text :=
  let days := Int.fdiv seconds 86400
  let rest := Int.fmod seconds 86400
  let shownDays : List Text := if days = 0 then [] else ["days=" ++ toString days]
  let shownRest : List Text := if rest = 0 then [] else ["seconds=" ++ toString rest]
  let parts := shownDays ++ shownRest
  "datetime.timedelta(" ++ (if parts = [] then ("0" : Text) else Text.intercalate ", " parts) ++ ")"

/-- The longest quotation of a text that is no whole number. -/
def longestQuote : Nat := 200

/-- The wording of a fault of a value. -/
def Fault.message : Fault → Text
  | malformed => "malformed"
  | outOfRange .month => "month must be in 1..12"
  | outOfRange .hour => "hour must be in 0..23"
  | outOfRange .minute => "minute must be in 0..59"
  | outOfRange .second => "second must be in 0..59"
  | yearOutOfRange year => "year " ++ toString year ++ " is out of range"
  | dayOutOfRange => "day is out of range for month"
  | zoneOutOfRange seconds =>
    "offset must be a timedelta strictly between -timedelta(hours=24) and timedelta(hours=24), not "
      ++ secondsText seconds ++ "."
  | notInteger text base =>
    "invalid literal for int() with base " ++ toString base ++ ": " ++
      Text.ofList ((Text.quoted text).toList.take longestQuote)
  | integerTooLong digits =>
    "Exceeds the limit (4300 digits) for integer string conversion: value has " ++
      toString digits ++ " digits; use sys.set_int_max_str_digits() to increase the limit"
  | notFloat text => "could not convert string to float: " ++ Text.quoted text
  | emptyNumber => "string index out of range"
  | notBool text => Text.quoted text
  | notTime => "'NoneType' object has no attribute 'groupdict'"
  | timeOfMapping => "expected string or bytes-like object, got 'list'"
  | numberTooLarge => "int too large to convert to float"
  | noSuchCodePoint => "chr() arg not in range(0x110000)"
  | codePointTooLarge => "Python int too large to convert to C int"
  | unreadable => "unreadable"

end LogRedaction.Yaml
