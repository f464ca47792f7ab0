/-
LogRedaction.Disk.Path — names of files.

A path is read from text once: empty parts and parts that are a single dot are dropped, and
two dots are kept. Two slashes at the start, but not three, are a root of their own.
-/
import LogRedaction.Text.Utf8

namespace LogRedaction

/-- The name of a file or of a directory. -/
structure Path where
  /-- Empty for a relative path. -/
  root : Text
  parts : List Text
deriving DecidableEq, Repr

namespace Path

/-- The pieces between the slashes. -/
def splitSlashes : List CodePoint → List (List CodePoint)
  | [] => [[]]
  | c :: rest =>
    if c = '/' then [] :: splitSlashes rest
    else match splitSlashes rest with
      | [] => [[c]]
      | piece :: more => (c :: piece) :: more

/-- The root of a path. -/
def rootOf : List CodePoint → Text
  | .scalar '/' :: .scalar '/' :: .scalar '/' :: _ => "/"
  | .scalar '/' :: .scalar '/' :: _ => "//"
  | .scalar '/' :: _ => "/"
  | _ => ""

/-- The path that a text names. -/
def ofText (text : Text) : Path where
  root := rootOf text.toList
  parts := ((splitSlashes text.toList).filter fun piece =>
    piece ≠ [] ∧ piece ≠ [.scalar '.']).map Text.ofList

/-- The path as text; a single dot if there is nothing in it. -/
def toText (path : Path) : Text :=
  if path.root = "" ∧ path.parts = [] then "."
  else path.root ++ Text.intercalate "/" path.parts

/-- The path starts at a root. -/
def isAbsolute (path : Path) : Bool := path.root ≠ ""

/-- The last part. -/
def name (path : Path) : Text := path.parts.getLast?.getD ""

/-- The path without its last part. -/
def parent (path : Path) : Path := { path with parts := path.parts.dropLast }

/-- The path in the same directory with another last part. -/
def sibling (path : Path) (name : Text) : Path := { path with parts := path.parts.dropLast ++ [name] }

/-- The path seen from a directory. -/
def absolute (directory path : Path) : Path :=
  if path.isAbsolute then path else { directory with parts := directory.parts ++ path.parts }

/-- The home directory in place of a tilde with the name of a user; nothing if no such user has
one. `home?` knows the home directories, that of the present user for no name. -/
def expandHome? (home? : Text → Option Path) (path : Path) : Option Path :=
  if path.isAbsolute then some path
  else match path.parts with
    | [] => some path
    | first :: rest =>
      match first.toList with
      | .scalar '~' :: user =>
        (home? (Text.ofList user)).map fun home => { home with parts := home.parts ++ rest }
      | _ => some path

/-- The text holds a character that no file name can hold. -/
def hasNul (path : Path) : Bool := path.parts.any fun part => part.toList.contains '\x00'

end Path

/-- What is said of a tilde that names an unknown user. -/
def noHomeMessage : Text := "Could not determine home directory."

/-- What is said of a path that holds a character that no file name can hold. -/
def nulMessage : Text := "embedded null byte"

/-- Why a path can be that of no file. -/
inductive PathFault where
  | unencodable (e : Text.EncodeError)
  | nul
deriving DecidableEq, Repr

/-- The wording of a fault. -/
def PathFault.message : PathFault → Text
  | unencodable e => e.message
  | nul => nulMessage

/-- The fault of a path. -/
def Path.fault? (path : Path) : Option PathFault :=
  match Text.nameError? path.toText with
  | some e => some (.unencodable e)
  | none => if path.hasNul then some .nul else none

end LogRedaction
