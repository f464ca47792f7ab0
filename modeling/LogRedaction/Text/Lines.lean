/-
LogRedaction.Text.Lines — the lines of a text.

A line ends at a line feed, at a carriage return, or at a carriage return with a line feed
after it, and nowhere else. What follows the last end is a line unless it is empty.

## §1 Lines of a whole text
## §2 Lines of bytes that arrive in chunks

Files are read in chunks. A chunk is decoded whole before any of its lines is seen; a
character cut short by its end, and a carriage return that ends it, wait for the next chunk.
So bytes that are no text are noticed when their chunk is reached, after the complete lines
of the chunks before it.
-/
import LogRedaction.Text.Utf8

namespace LogRedaction.Text

/-! ## §1 Lines of a whole text -/

/-- The text with a line feed for each end of a line. -/
def unifyNewlines : List Char → List Char
  | [] => []
  | '\r' :: '\n' :: rest => '\n' :: unifyNewlines rest
  | '\r' :: rest => '\n' :: unifyNewlines rest
  | c :: rest => c :: unifyNewlines rest

/-- The complete lines of a text whose lines end at line feeds, and the rest after the last. The
given characters are put in front, in reverse. -/
def completeLines : (pending : List Char) → List Char → List (List Char) × List Char
  | pending, [] => ([], pending)
  | pending, c :: rest =>
    if c = '\n' then
      let (lines, last) := completeLines [] rest
      (pending.reverse :: lines, last)
    else completeLines (c :: pending) rest

/-- The lines of a text, without their ends. -/
def lines (text : List Char) : List (List Char) :=
  let (complete, pending) := completeLines [] (unifyNewlines text)
  if pending.isEmpty then complete else complete ++ [pending.reverse]

/-! ## §2 Lines of bytes that arrive in chunks -/

/-- How many bytes are read at a time. -/
def chunkSize : Nat := 8192

/-- The bytes in chunks of the given size, the last one possibly shorter. -/
def chunksOf (size : Nat) : (fuel : Nat) → List UInt8 → List (List UInt8)
  | 0, _ => []
  | _, [] => []
  | fuel + 1, bytes => bytes.take size :: chunksOf size fuel (bytes.drop size)

/-- The bytes as they are read. -/
def chunks (bytes : List UInt8) : List (List UInt8) := chunksOf chunkSize bytes.length bytes

/-- What waits for the next chunk. -/
structure Carry where
  /-- The beginning of a character. -/
  bytes : List UInt8 := []
  /-- A carriage return ended the chunk. -/
  returned : Bool := false
deriving Repr

/-- The characters of the next chunk with a line feed for each end of a line, and what waits. -/
def Carry.feed (carry : Carry) (chunk : List UInt8) : Except Utf8Error (List Char × Carry) :=
  let decoded := decodeSome (carry.bytes ++ chunk)
  match decoded.error with
  | some e => .error e
  | none =>
    let chars := if carry.returned && !decoded.chars.isEmpty then '\r' :: decoded.chars
      else decoded.chars
    let returned := if decoded.chars.isEmpty then carry.returned
      else decoded.chars.getLast? == some '\r'
    let chars := if returned then chars.dropLast else chars
    .ok (unifyNewlines chars, ⟨decoded.rest, returned⟩)

/-- The characters that are left when no chunk follows. -/
def Carry.finish (carry : Carry) : Except Utf8Error (List Char) :=
  match endError carry.bytes with
  | some e => .error e
  | none => .ok (if carry.returned then ['\n'] else [])

/-- The texts of the chunks as far as they can be decoded, and the error that stops this. -/
def decodeChunks (carry : Carry) : List (List UInt8) → List (List Char) × Option Utf8Error
  | [] =>
    match carry.finish with
    | .ok text => ([text], none)
    | .error e => ([], some e)
  | chunk :: rest =>
    match carry.feed chunk with
    | .ok (text, carry) =>
      let (texts, e) := decodeChunks carry rest
      (text :: texts, e)
    | .error e => ([], some e)

/-- The text of a file as far as it can be decoded, and the error that stops this. -/
def decodeFile (bytes : List UInt8) : List Char × Option Utf8Error :=
  let (texts, e) := decodeChunks {} (chunks bytes)
  (texts.flatten, e)

/-- The lines of a file that are seen before bytes that are no text, or all of them, without their
ends; and the error that stops the reading. -/
def readLines (bytes : List UInt8) : List (List Char) × Option Utf8Error :=
  let (text, e) := decodeFile bytes
  let (complete, pending) := completeLines [] text
  match e with
  | some e => (complete, some e)
  | none => (if pending.isEmpty then complete else complete ++ [pending.reverse], none)

end LogRedaction.Text
