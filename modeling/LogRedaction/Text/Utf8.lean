/-
LogRedaction.Text.Utf8 — characters as bytes.

Characters have bytes, and half of a surrogate pair has none; so a text can be written only if
all of it are characters. In names of files the halves from U+DC80 to U+DCFF stand for single
bytes that are no characters.

A character is a lead byte and up to three tails. The lead byte says how many tails follow
and bounds the first one, which excludes long forms, surrogates and code points out of
range. Decoding tells two kinds of trouble apart: bytes that cannot become a character
whatever follows, and bytes that end in the middle of one.

## §1 Encoding
## §2 Names of files
## §3 Decoding
-/
import LogRedaction.Text.Hexadecimal

namespace LogRedaction.Text

/-! ## §1 Encoding -/

/-- The bytes of characters. -/
def encodeUtf8 (text : List Char) : List UInt8 := text.flatMap String.utf8EncodeChar

/-- Code points that have no bytes: those from `start` up to `stop`, and the first of them. -/
structure EncodeError where
  start : Nat
  stop : Nat
  code : CodePoint
deriving DecidableEq, Repr

/-- The wording of an error. -/
def EncodeError.message (e : EncodeError) : Text :=
  let place := if e.stop = e.start + 1 then
      "character '\\u" ++ Text.ofList (hexDigits 4 e.code.toNat) ++ "' in position " ++ toString e.start
    else "characters in position " ++ toString e.start ++ "-" ++ toString (e.stop - 1)
  "'utf-8' codec can't encode " ++ place ++ ": surrogates not allowed"

/-- The first halves of surrogate pairs in a row, from a position on. -/
def surrogatesFrom (position : Nat) : List CodePoint → Option EncodeError
  | [] => none
  | .scalar _ :: rest => surrogatesFrom (position + 1) rest
  | .surrogate n :: rest =>
    let more := (rest.takeWhile CodePoint.isSurrogate).length
    some ⟨position, position + 1 + more, .surrogate n⟩

/-- Why a text has no bytes. -/
def encodeError? (text : List CodePoint) : Option EncodeError := surrogatesFrom 0 text

/-- The characters of a text, if it can be written. -/
def characters (text : List CodePoint) : Except EncodeError (List Char) :=
  match encodeError? text with
  | some e => .error e
  | none => .ok (text.filterMap CodePoint.char?)

/-! ## §2 Names of files -/

/-- The code point stands for bytes of a name. -/
def hasNameBytes (c : CodePoint) : Bool :=
  !c.isSurrogate || 0xDC80 ≤ c.toNat && c.toNat ≤ 0xDCFF

/-- How many bytes a name has. -/
def nameSize (text : Text) : Nat :=
  text.toList.foldl (fun size c => size + match c with
    | .scalar c => c.utf8Size
    | .surrogate _ => 1) 0

/-- Why a text names no file: the first halves of surrogate pairs that stand for no byte. -/
def nameError? (text : Text) : Option EncodeError :=
  match text.toList.dropWhile hasNameBytes with
  | [] => none
  | code :: rest =>
    let start := (text.toList.takeWhile hasNameBytes).length
    some ⟨start, start + 1 + (rest.takeWhile CodePoint.isSurrogate).length, code⟩

/-! ## §3 Decoding -/

/-- What a lead byte says. -/
structure Lead where
  /-- How many tails follow. -/
  tails : Nat
  /-- The least first tail. -/
  low : Nat
  /-- The greatest first tail. -/
  high : Nat
  /-- The highest bits of the code point. -/
  bits : Nat
deriving DecidableEq, Repr

/-- The meaning of a byte that starts a character. -/
def lead? (byte : UInt8) : Option Lead :=
  let b := byte.toNat
  if b < 0x80 then some ⟨0, 0, 0, b⟩
  else if b < 0xC2 then none
  else if b < 0xE0 then some ⟨1, 0x80, 0xBF, b - 0xC0⟩
  else if b = 0xE0 then some ⟨2, 0xA0, 0xBF, 0⟩
  else if b = 0xED then some ⟨2, 0x80, 0x9F, 0xD⟩
  else if b < 0xF0 then some ⟨2, 0x80, 0xBF, b - 0xE0⟩
  else if b = 0xF0 then some ⟨3, 0x90, 0xBF, 0⟩
  else if b < 0xF4 then some ⟨3, 0x80, 0xBF, b - 0xF0⟩
  else if b = 0xF4 then some ⟨3, 0x80, 0x8F, 4⟩
  else none

/-- What came of reading tails. -/
inductive Tails where
  | all (code : Nat) (rest : List UInt8)
  /-- The bytes end before the last tail. -/
  | cutShort
  /-- After so many tails comes a byte that is none. -/
  | spoiled (good : Nat)

/-- Reads so many tails; the first one is bounded. -/
def readTails (low high : Nat) : (count good code : Nat) → List UInt8 → Tails
  | 0, _, code, rest => .all code rest
  | _ + 1, _, _, [] => .cutShort
  | count + 1, good, code, b :: rest =>
    if low ≤ b.toNat ∧ b.toNat ≤ high then
      readTails 0x80 0xBF count (good + 1) (0x40 * code + (b.toNat - 0x80)) rest
    else .spoiled good

/-- Why bytes are no text. -/
inductive Utf8Reason where
  | startByte
  | continuation
  | unexpectedEnd
deriving DecidableEq, Repr

/-- Bytes that are no text: those from `start` up to `stop`, and the first of them. -/
structure Utf8Error where
  start : Nat
  stop : Nat
  byte : UInt8
  reason : Utf8Reason
deriving DecidableEq, Repr

/-- The wording of a reason. -/
def Utf8Reason.message : Utf8Reason → Text
  | startByte => "invalid start byte"
  | continuation => "invalid continuation byte"
  | unexpectedEnd => "unexpected end of data"

/-- The wording of an error. -/
def Utf8Error.message (e : Utf8Error) : Text :=
  let place := if e.stop = e.start + 1 then
      "byte 0x" ++ Text.ofList (hexDigits 2 e.byte.toNat) ++
        " in position " ++ toString e.start
    else "bytes in position " ++ toString e.start ++ "-" ++ toString (e.stop - 1)
  "'utf-8' codec can't decode " ++ place ++ ": " ++ e.reason.message

/-- Bytes as far as they are text. -/
structure Decoded where
  chars : List Char
  /-- The beginning of a character that is cut short. -/
  rest : List UInt8
  error : Option Utf8Error
deriving Repr

/-- Two bytes that begin a surrogate: they wait for the third before they are refused. -/
def beginsSurrogate : List UInt8 → Bool
  | [0xED, b] => 0xA0 ≤ b.toNat && b.toNat ≤ 0xBF
  | _ => false

/-- Decodes bytes that start at a position. -/
def decodeFrom : (fuel : Nat) → (position : Nat) → List UInt8 → Decoded
  | 0, _, bytes => ⟨[], bytes, none⟩
  | _, _, [] => ⟨[], [], none⟩
  | fuel + 1, position, byte :: rest =>
    match lead? byte with
    | none => ⟨[], [], some ⟨position, position + 1, byte, .startByte⟩⟩
    | some lead =>
      match readTails lead.low lead.high lead.tails 0 lead.bits rest with
      | .cutShort => ⟨[], byte :: rest, none⟩
      | .spoiled good =>
        if beginsSurrogate (byte :: rest) then ⟨[], byte :: rest, none⟩
        else ⟨[], [], some ⟨position, position + 1 + good, byte, .continuation⟩⟩
      | .all code rest =>
        let decoded := decodeFrom fuel (position + 1 + lead.tails) rest
        { decoded with chars := Char.ofNat code :: decoded.chars }

/-- Decodes bytes; a character may be cut short by their end. -/
def decodeSome (bytes : List UInt8) : Decoded := decodeFrom bytes.length 0 bytes

/-- The error of bytes that end in the middle of a character. -/
def endError : List UInt8 → Option Utf8Error
  | [] => none
  | byte :: rest =>
    if beginsSurrogate (byte :: rest) then some ⟨0, 1, byte, .continuation⟩
    else some ⟨0, rest.length + 1, byte, .unexpectedEnd⟩

/-- The text that bytes stand for. -/
def decodeUtf8? (bytes : List UInt8) : Option (List Char) :=
  match decodeSome bytes with
  | ⟨chars, [], none⟩ => some chars
  | _ => none

end LogRedaction.Text
