/-
LogRedaction.Placement — putting complete copies in place of their sources.

A copy is moved over its source only if it is complete. The first file that cannot be
replaced stops the rest.
-/
import LogRedaction.Copying

namespace LogRedaction

/-- Why a file cannot be replaced. -/
inductive PlacementError where
  /-- The file has no complete copy. -/
  | refused (source : Path) (state : CopyState)
  | disk (source temp : Path) (e : DiskError)
  | path (fault : PathFault)
deriving DecidableEq, Repr

/-- The wording of an error. -/
def PlacementError.message : PlacementError → Text
  | refused source state =>
    "Refusing to replace " ++ source.toText ++ ": file is " ++ state.name
  | disk source temp e =>
    "Error occurred while replacing " ++ source.toText ++ " with " ++ temp.toText ++ ": " ++
      e.message
  | path fault => fault.message

/-- The complete copy of a file. -/
def FileCopy.finished? (file : FileCopy) : Option Path :=
  if file.state = .completed then file.temp else none

/-- Moves a copy over its source. -/
def putInPlace (file : FileCopy) : Action PlacementError Path := do
  match file.finished? with
  | none => throw (.refused file.source file.state)
  | some temp =>
    if let some fault := temp.fault?.or file.source.fault? then throw (.path fault)
    Action.changeDisk (·.rename temp file.source)
      (fun e => .disk file.source temp ⟨e, temp.toText, some file.source.toText⟩)
    Action.note (.swapped file.source.toText temp.name)
    return file.source

/-- Puts copies in place in order. -/
def putAllInPlace : List FileCopy → Action PlacementError (List Path)
  | [] => return []
  | file :: rest => do
    let path ← putInPlace file
    let paths ← putAllInPlace rest
    return path :: paths

/-- Why a temporary copy cannot be discarded. -/
inductive DiscardError where
  | path (fault : PathFault)
  | disk (e : DiskError)
deriving DecidableEq, Repr

/-- The wording of an error. -/
def DiscardError.message : DiscardError → Text
  | path fault => fault.message
  | disk e => e.message

/-- Takes away a temporary copy; says whether there was one. `text` is how its path was given. -/
def discardCopy (text : Option Text) : Action DiscardError Bool := do
  match text with
  | none => return false
  | some text =>
    let path := Path.ofText text
    if let some fault := path.fault? then throw (.path fault)
    match (← get).disk.unlink path with
    | .error .notFound => return false
    | .error e => throw (.disk ⟨e, path.toText, none⟩)
    | .ok disk =>
      modify fun w => { w with disk }
      Action.note (.discarded text)
      return true

end LogRedaction
