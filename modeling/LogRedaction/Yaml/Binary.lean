/-
LogRedaction.Yaml.Binary — binary data in base 64.

Four characters stand for three bytes. Characters that are not of base 64 are skipped. The end
may be marked by equal signs, which fill up the last four characters.
-/

namespace LogRedaction.Yaml

/-- A character of base 64. -/
def isBase64 (c : Char) : Bool :=
  ('A' ≤ c && c ≤ 'Z') || ('a' ≤ c && c ≤ 'z') || ('0' ≤ c && c ≤ '9') || c == '+' || c == '/'

/-- The number of bytes. `place` characters of the last four have been seen, and then `marks` equal
signs. Nothing if the last four are not filled up. -/
def sizeFrom (place marks size : Nat) : List Char → Option Nat
  | [] => if place = 0 then some size else none
  | c :: rest =>
    if c = '=' then
      if place ≥ 2 then
        if place + marks + 1 ≥ 4 then some size else sizeFrom place (marks + 1) size rest
      else sizeFrom place marks size rest
    else if isBase64 c then
      if place = 0 then sizeFrom 1 0 size rest
      else sizeFrom ((place + 1) % 4) 0 (size + 1) rest
    else sizeFrom place marks size rest

/-- The number of bytes that a text stands for. -/
def binarySize? (text : List Char) : Option Nat :=
  if text.all fun c => c.toNat < 0x80 then sizeFrom 0 0 0 text else none

end LogRedaction.Yaml
