import PodAttach.Text.Split
import PodAttach.Text.Digits
import PodAttach.Text.Utf8

/-!
# Hardware addresses

Six bytes, written as pairs of hexadecimal digits with colons between them.
-/

namespace PodAttach.Net.Mac

/-- One pair: two characters of one byte each that denote a number in base sixteen.  A plus sign
may stand in front of a single digit. -/
def octet? : List Char → Option UInt8
  | [a, b] =>
    if a == '+' then (Text.hexValue? b).map UInt8.ofNat
    else match Text.hexValue? a, Text.hexValue? b with
      | some x, some y => some (UInt8.ofNat (x * 16 + y))
      | _, _ => none
  | _ => none

/-- The bytes that a text of six pairs denotes. -/
def parse? (s : String) : Option Bytes :=
  match (Text.pieces ':' s.toList).mapM octet? with
  | some bytes => if bytes.length = 6 then some bytes else none
  | none => none

/-- A byte as two hexadecimal digits in lower case. -/
def octetChars (b : UInt8) : List Char :=
  [Text.hexDigit (b.toNat / 16), Text.hexDigit (b.toNat % 16)]

/-- Bytes as pairs of digits with colons between them. -/
def render (bytes : Bytes) : String :=
  String.ofList (Text.join ':' (bytes.map octetChars))

end PodAttach.Net.Mac
