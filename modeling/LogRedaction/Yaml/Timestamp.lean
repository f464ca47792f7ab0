/-
LogRedaction.Yaml.Timestamp — dates and times.

A time is a date, and possibly a time of day with a time zone. The form is read first; then
every part has to be in its range, the time zone before the date and the date before the time
of day.
-/
import LogRedaction.Yaml.Token

namespace LogRedaction.Yaml

/-- A date. -/
structure Date where
  year : Nat
  month : Nat
  day : Nat
deriving DecidableEq, Repr

/-- A time of day. -/
structure DayTime where
  hour : Nat
  minute : Nat
  second : Nat
  /-- How far the time zone is away, in seconds. -/
  zone : Int
deriving DecidableEq, Repr

/-- A date, possibly with a time of day. -/
structure Timestamp where
  date : Date
  time : Option DayTime
deriving DecidableEq, Repr

namespace Timestamp

/-! ## §1 The form -/

/-- A number of at least and at most so many digits, and the rest. -/
def number? (least most : Nat) (text : List Char) : Option (Nat × List Char) :=
  let digits := (text.take most).takeWhile isDigit
  if digits.length < least then none
  else some (digits.foldl (fun n c => 10 * n + (c.toNat - 0x30)) 0, text.drop digits.length)

/-- The rest after a character that has to be next. -/
def after? (c : Char) : List Char → Option (List Char)
  | [] => none
  | d :: rest => if d = c then some rest else none

/-- A date, and the rest. -/
def date? (text : List Char) : Option (Date × List Char) := do
  let (year, rest) ← number? 4 4 text
  let (month, rest) ← number? 1 2 (← after? '-' rest)
  let (day, rest) ← number? 1 2 (← after? '-' rest)
  return (⟨year, month, day⟩, rest)

/-- A space or a tab. -/
def isGap (c : Char) : Bool := c == ' ' || c == '\t'

/-- What stands between a date and a time of day. -/
def afterSeparator? : List Char → Option (List Char)
  | [] => none
  | c :: rest =>
    if c = 'T' ∨ c = 't' then some rest
    else if isGap c then some (rest.dropWhile isGap)
    else none

/-- A distance from the middle time zone without its sign, and the rest. -/
def distance? (text : List Char) : Option (Nat × List Char) := do
  let (hours, rest) ← number? 1 2 text
  match after? ':' rest with
  | none => return (3600 * hours, rest)
  | some rest =>
    let (minutes, rest) ← number? 2 2 rest
    return (3600 * hours + 60 * minutes, rest)

/-- A time zone, which may be missing, and the rest. -/
def zone? (text : List Char) : Option (Int × List Char) :=
  match text.dropWhile isGap with
  | 'Z' :: rest => some (0, rest)
  | '+' :: rest => (distance? rest).map fun (n, rest) => ((n : Int), rest)
  | '-' :: rest => (distance? rest).map fun (n, rest) => (-(n : Int), rest)
  | _ => some (0, text)

/-- A time of day, and the rest. -/
def dayTime? (text : List Char) : Option (DayTime × List Char) := do
  let (hour, rest) ← number? 1 2 text
  let (minute, rest) ← number? 2 2 (← after? ':' rest)
  let (second, rest) ← number? 2 2 (← after? ':' rest)
  let rest := match after? '.' rest with
    | some fraction => fraction.dropWhile isDigit
    | none => rest
  let (zone, rest) ← zone? rest
  return (⟨hour, minute, second, zone⟩, rest)

/-- Nothing is left, or a line feed. -/
def atEnd (text : List Char) : Bool := text = [] || text = ['\n']

/-- The time that a text has the form of. -/
def ofText? (text : List Char) : Option Timestamp := do
  let (date, rest) ← date? text
  if atEnd rest then return ⟨date, none⟩
  let (time, rest) ← dayTime? (← afterSeparator? rest)
  guard (atEnd rest)
  return ⟨date, some time⟩

/-! ## §2 Ranges -/

/-- The year has a 29th of February. -/
def isLeap (year : Nat) : Bool := year % 4 = 0 && (year % 100 ≠ 0 || year % 400 = 0)

/-- How many days a month has. -/
def daysIn (year month : Nat) : Nat :=
  if month = 2 then if isLeap year then 29 else 28
  else if month ∈ [4, 6, 9, 11] then 30
  else 31

/-- The first part of a date that is out of range. -/
def dateFault? (date : Date) : Option Fault :=
  if date.year < 1 then some (.yearOutOfRange date.year)
  else if date.month < 1 ∨ 12 < date.month then some (.outOfRange .month)
  else if date.day < 1 ∨ daysIn date.year date.month < date.day then some .dayOutOfRange
  else none

/-- The first part of a time of day that is out of range. -/
def dayTimeFault? (time : DayTime) : Option Fault :=
  if 23 < time.hour then some (.outOfRange .hour)
  else if 59 < time.minute then some (.outOfRange .minute)
  else if 59 < time.second then some (.outOfRange .second)
  else none

/-- A time zone is less than a day away. -/
def zoneFault? (time : DayTime) : Option Fault :=
  if 86400 ≤ time.zone.natAbs then some (.zoneOutOfRange time.zone) else none

/-- The first fault of a time. -/
def fault? (t : Timestamp) : Option Fault :=
  match t.time with
  | none => dateFault? t.date
  | some time => (zoneFault? time).or ((dateFault? t.date).or (dayTimeFault? time))

end Timestamp

end LogRedaction.Yaml
