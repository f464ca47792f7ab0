/-
LogRedaction.Disk.Basic — directories and files, and the operations on them.

A disk is a table from locations to entries. A location is the list of names from the root;
the root itself is always a directory. Operations take paths. A path is followed part by part
from the working directory, as it stands: two dots lead to the directory above the one
reached so far, and every part but the last has to be a directory.

A file has a serial number besides its content. It is kept when the file is moved, so that
whoever holds a file open goes on writing to that file wherever it is.

## §1 Errors
## §2 The table
## §3 Following a path
## §4 Operations
-/
import LogRedaction.Disk.Path
import LogRedaction.Text.Quoted

namespace LogRedaction

/-! ## §1 Errors -/

/-- Why an operation is refused. -/
inductive DiskRefusal where
  | notFound
  | busy
  | exists
  | notDirectory
  | isDirectory
  | invalid
  | nameTooLong
  | notEmpty
deriving DecidableEq, Repr

/-- The number of a refusal. -/
def DiskRefusal.number : DiskRefusal → Nat
  | notFound => 2
  | busy => 16
  | «exists» => 17
  | notDirectory => 20
  | isDirectory => 21
  | invalid => 22
  | nameTooLong => 36
  | notEmpty => 39

/-- The wording of a refusal. -/
def DiskRefusal.reason : DiskRefusal → Text
  | notFound => "No such file or directory"
  | busy => "Device or resource busy"
  | «exists» => "File exists"
  | notDirectory => "Not a directory"
  | isDirectory => "Is a directory"
  | invalid => "Invalid argument"
  | nameTooLong => "File name too long"
  | notEmpty => "Directory not empty"

/-- A refused operation with its paths. -/
structure DiskError where
  refusal : DiskRefusal
  path : Text
  /-- Where something was to be moved. -/
  target : Option Text := none
deriving DecidableEq, Repr

/-- The wording of an error. -/
def DiskError.message (e : DiskError) : Text :=
  let target : Text := match e.target with
    | some target => " -> " ++ Text.quoted target
    | none => ""
  "[Errno " ++ toString e.refusal.number ++ "] " ++ e.refusal.reason ++ ": " ++
    Text.quoted e.path ++ target

/-! ## §2 The table -/

/-- The names from the root. -/
abbrev Location := List Text

/-- What is at a location. -/
inductive Entry where
  | directory
  | file (serial : Nat) (content : List UInt8)
deriving DecidableEq, Repr

/-- Directories and files. -/
structure Disk where
  entries : List (Location × Entry)
  /-- No file has this serial number or a greater one. -/
  nextSerial : Nat
  /-- Relative paths start here. -/
  workingDirectory : Location
deriving Repr

namespace Disk

/-- What is at a location. -/
def get? (disk : Disk) (location : Location) : Option Entry :=
  if location = [] then some .directory else disk.entries.lookup location

/-- The table without a location. -/
def eraseFrom (entries : List (Location × Entry)) (location : Location) : List (Location × Entry) :=
  entries.filter fun entry => entry.1 ≠ location

/-- Puts an entry at a location, in place of what was there. -/
def put (disk : Disk) (location : Location) (entry : Entry) : Disk :=
  { disk with entries := (location, entry) :: eraseFrom disk.entries location }

/-- Takes away what is at a location. -/
def erase (disk : Disk) (location : Location) : Disk :=
  { disk with entries := eraseFrom disk.entries location }

/-- Something lies below the location. -/
def hasChildren (disk : Disk) (location : Location) : Bool :=
  disk.entries.any fun entry => entry.1 ≠ location && location.isPrefixOf entry.1

/-- The content of the file at a location; nothing if there is none. -/
def bytesAt (disk : Disk) (location : Location) : List UInt8 :=
  match disk.get? location with
  | some (.file _ content) => content
  | _ => []

/-- The working directory as a path. -/
def workingPath (disk : Disk) : Path := ⟨"/", disk.workingDirectory⟩

/-! ## §3 Following a path -/

/-- The longest name of a file, in bytes. -/
def maxNameSize : Nat := 255

/-- The longest path, in bytes. -/
def maxPathSize : Nat := 4095

/-- One part further from a directory. -/
def enter (disk : Disk) (location : Location) (part : Text) : Except DiskRefusal Location :=
  if part = ".." then .ok location.dropLast
  else if Text.nameSize part > maxNameSize then .error .nameTooLong
  else match disk.get? (location ++ [part]) with
    | none => .error .notFound
    | some .directory => .ok (location ++ [part])
    | some (.file _ _) => .error .notDirectory

/-- From one directory to the next. -/
def follow (disk : Disk) : Location → List Text → Except DiskRefusal Location
  | location, [] => .ok location
  | location, part :: rest =>
    match disk.enter location part with
    | .ok location => disk.follow location rest
    | .error e => .error e

/-- Where a path starts. -/
def origin (disk : Disk) (path : Path) : Location :=
  if path.isAbsolute then [] else disk.workingDirectory

/-- Where the last part of a path leads. -/
inductive Target where
  /-- A directory reached without a name: the root, the working directory, or one by two dots. -/
  | directory (location : Location)
  /-- A name in a directory, and what it names. -/
  | entry (location : Location) (found : Option Entry)
deriving Repr

/-- Follows a path to its end. -/
def locate (disk : Disk) (path : Path) : Except DiskRefusal Target :=
  if Text.nameSize path.toText > maxPathSize then .error .nameTooLong
  else match path.parts.getLast? with
    | none => .ok (.directory (disk.origin path))
    | some last =>
      match disk.follow (disk.origin path) path.parts.dropLast with
      | .error e => .error e
      | .ok location =>
        if last = ".." then .ok (.directory location.dropLast)
        else if Text.nameSize last > maxNameSize then .error .nameTooLong
        else .ok (.entry (location ++ [last]) (disk.get? (location ++ [last])))

/-! ## §4 Operations -/

/-- The content of a file. -/
def read (disk : Disk) (path : Path) : Except DiskRefusal (List UInt8) :=
  match disk.locate path with
  | .error e => .error e
  | .ok (.directory _) => .error .isDirectory
  | .ok (.entry _ none) => .error .notFound
  | .ok (.entry _ (some .directory)) => .error .isDirectory
  | .ok (.entry _ (some (.file _ content))) => .ok content

/-- A new file at a location. -/
def putNew (disk : Disk) (location : Location) (content : List UInt8) : Disk :=
  { disk.put location (.file disk.nextSerial content) with nextSerial := disk.nextSerial + 1 }

/-- Makes a file where nothing is. -/
def create (disk : Disk) (path : Path) (content : List UInt8) : Except DiskRefusal Disk :=
  match disk.locate path with
  | .error e => .error e
  | .ok (.directory _) => .error .exists
  | .ok (.entry _ (some _)) => .error .exists
  | .ok (.entry location none) => .ok (disk.putNew location content)

/-- Opens a file to write to it, and makes it if it is missing; its serial number. If `truncate`,
its content is lost. -/
def openToWrite (disk : Disk) (path : Path) (truncate : Bool) : Except DiskRefusal (Nat × Disk) :=
  match disk.locate path with
  | .error e => .error e
  | .ok (.directory _) => .error .isDirectory
  | .ok (.entry _ (some .directory)) => .error .isDirectory
  | .ok (.entry location none) => .ok (disk.nextSerial, disk.putNew location [])
  | .ok (.entry location (some (.file serial _))) =>
    .ok (serial, if truncate then disk.put location (.file serial []) else disk)

/-- Changes the content of the file with a serial number, if it still exists. -/
def modify (disk : Disk) (serial : Nat) (change : List UInt8 → List UInt8) : Disk :=
  { disk with entries := disk.entries.map fun (location, entry) =>
      match entry with
      | .file n content => (location, .file n (if n = serial then change content else content))
      | .directory => (location, .directory) }

/-- Makes a directory where nothing is. -/
def makeDirectory (disk : Disk) (path : Path) : Except DiskRefusal Disk :=
  match disk.locate path with
  | .error e => .error e
  | .ok (.directory _) => .error .exists
  | .ok (.entry _ (some _)) => .error .exists
  | .ok (.entry location none) => .ok (disk.put location .directory)

/-- The path leads to a directory. -/
def isDirectory (disk : Disk) (path : Path) : Bool :=
  match disk.locate path with
  | .ok (.directory _) => true
  | .ok (.entry _ (some .directory)) => true
  | _ => false

/-- Makes a directory and those above it, unless they exist. The error names the directory that
cannot be made. `missing` is how many parts may be dropped. -/
def makeDirectories (disk : Disk) : (missing : Nat) → Path → Except DiskError Disk
  | missing, path =>
    match disk.makeDirectory path with
    | .ok disk => .ok disk
    | .error .notFound =>
      match missing with
      | 0 => .error ⟨.notFound, path.toText, none⟩
      | missing + 1 =>
        match disk.makeDirectories missing path.parent with
        | .error e => .error e
        | .ok disk =>
          match disk.makeDirectory path with
          | .ok disk => .ok disk
          | .error e => if disk.isDirectory path then .ok disk else .error ⟨e, path.toText, none⟩
    | .error e => if disk.isDirectory path then .ok disk else .error ⟨e, path.toText, none⟩

/-- Takes a file away. -/
def unlink (disk : Disk) (path : Path) : Except DiskRefusal Disk :=
  match disk.locate path with
  | .error e => .error e
  | .ok (.directory _) => .error .isDirectory
  | .ok (.entry _ none) => .error .notFound
  | .ok (.entry _ (some .directory)) => .error .isDirectory
  | .ok (.entry location (some (.file _ _))) => .ok (disk.erase location)

/-- Moves a directory with everything below it. -/
def moveTree (disk : Disk) (source target : Location) : Disk :=
  let entries := eraseFrom disk.entries target
  { disk with entries := entries.map fun (location, entry) =>
      (if source.isPrefixOf location then target ++ location.drop source.length else location, entry) }

/-- Moves a file or a directory, in place of what is at the target. A file cannot take the place
of a directory, nor a directory that of a file or of a directory that is not empty. -/
def rename (disk : Disk) (source target : Path) : Except DiskRefusal Disk :=
  match disk.locate source, disk.locate target with
  | .error e, _ => .error e
  | .ok _, .error e => .error e
  | .ok (.directory _), .ok _ => .error .busy
  | .ok (.entry _ _), .ok (.directory _) => .error .busy
  | .ok (.entry _ none), .ok (.entry _ _) => .error .notFound
  | .ok (.entry old (some entry)), .ok (.entry new found) =>
    if old = new then .ok disk
    else if old.isPrefixOf new then .error (if entry = .directory then .invalid else .notDirectory)
    else if new.isPrefixOf old then .error .notEmpty
    else match entry, found with
      | .directory, some (.file _ _) => .error .notDirectory
      | .directory, some .directory =>
        if disk.hasChildren new then .error .notEmpty else .ok (disk.moveTree old new)
      | .directory, none => .ok (disk.moveTree old new)
      | .file _ _, some .directory => .error .isDirectory
      | .file _ _, _ => .ok ((disk.erase old).put new entry)

end Disk

end LogRedaction
