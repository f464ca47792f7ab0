/-
LogRedaction.Log — what is noted in the program's own log.

An event says what happened; its level and its wording follow from it.
-/
import LogRedaction.Text.CodePoint

namespace LogRedaction

/-- How much an event matters. -/
inductive Level where
  | debug
  | info
  | error
deriving DecidableEq, Repr

/-- The name of a level. -/
def Level.name : Level → Text
  | debug => "DEBUG"
  | info => "INFO"
  | error => "ERROR"

/-- Something worth noting. -/
inductive Event where
  | compiling (key : Text)
  | reading (name : Text)
  | replaced (source : Text) (line : Int) (key : Text)
  | noted (source : Text) (line : Int) (key : Text)
  | failed (path reason : Text)
  | completed (path : Text) (lines matched substitutions : Nat)
  | swapped (source tempName : Text)
  | discarded (path : Text)
deriving DecidableEq, Repr

/-- The level of an event. -/
def Event.level : Event → Level
  | compiling _ | reading _ | replaced _ _ _ | noted _ _ _ => .debug
  | completed _ _ _ _ | swapped _ _ | discarded _ => .info
  | failed _ _ => .error

/-- The wording of an event. -/
def Event.message : Event → Text
  | compiling key => "Compiling pattern " ++ key ++ "."
  | reading name => "Reading log file " ++ name ++ "."
  | replaced source line key =>
    "Replaced " ++ source ++ ":" ++ toString line ++ " (rule " ++ key ++ ")"
  | noted source line key =>
    "Not replaced " ++ source ++ ":" ++ toString line ++ " (rule " ++ key ++ ")"
  | failed path reason =>
    "Error occurred while file read/write operation on " ++ path ++ ": " ++ reason
  | completed path lines matched substitutions =>
    "Completed scanning log file: " ++ path ++ " (" ++ toString lines ++ " lines, " ++
      toString matched ++ " matched, " ++ toString substitutions ++ " replaced)"
  | swapped source tempName => "Replaced " ++ source ++ " with redacted copy " ++ tempName
  | discarded path => "Discarded temp file " ++ path

/-- The event with its level, as the given logger writes it. -/
def Event.record (event : Event) (logger : Text) : Text :=
  event.level.name ++ " " ++ logger ++ ": " ++ event.message

end LogRedaction
