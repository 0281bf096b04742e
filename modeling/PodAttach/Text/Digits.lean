/-!
# Whole numbers as text

Decimal and hexadecimal numbers, read from and written to characters.  A
number is read only if the whole text is digits; how many digits there may
be, and how large the number, is for the caller to say.
-/

namespace PodAttach.Text

/-- An ASCII digit. -/
def isDigit (c : Char) : Bool :=
  '0' ≤ c && c ≤ '9'

/-- The value of an ASCII digit. -/
def digitValue (c : Char) : Nat :=
  c.toNat - '0'.toNat

/-- The value of an ASCII hexadecimal digit. -/
def hexValue? (c : Char) : Option Nat :=
  if isDigit c then some (digitValue c)
  else if 'a' ≤ c && c ≤ 'f' then some (c.toNat - 'a'.toNat + 10)
  else if 'A' ≤ c && c ≤ 'F' then some (c.toNat - 'A'.toNat + 10)
  else none

/-- An ASCII hexadecimal digit. -/
def isHexDigit (c : Char) : Bool :=
  (hexValue? c).isSome

/-- The number that digits denote, the most significant first. -/
def ofDigits (cs : List Char) : Nat :=
  cs.foldl (fun n c => n * 10 + digitValue c) 0

/-- The number that a non-empty run of ASCII digits denotes. -/
def readNat? (cs : List Char) : Option Nat :=
  if cs.isEmpty || !cs.all isDigit then none else some (ofDigits cs)

/-- As `readNat?`, after an optional plus sign. -/
def readSignedNat? : List Char → Option Nat
  | '+' :: cs => readNat? cs
  | cs => readNat? cs

/-- The number that a non-empty run of ASCII hexadecimal digits denotes. -/
def readHex? (cs : List Char) : Option Nat :=
  if cs.isEmpty then none
  else cs.foldlM (fun n c => (hexValue? c).map (n * 16 + ·)) 0

/-- The hexadecimal digit of a value below sixteen, in lower case. -/
def hexDigit (n : Nat) : Char :=
  if n < 10 then Char.ofNat ('0'.toNat + n) else Char.ofNat ('a'.toNat + (n - 10))

/-- The hexadecimal digits of a number, at least `width` of them. -/
def hexDigits (width : Nat) (n : Nat) : List Char :=
  let ds := (Nat.toDigits 16 n)
  List.replicate (width - ds.length) '0' ++ ds

/-- The decimal digits of a number. -/
def decimal (n : Nat) : String :=
  String.ofList (Nat.toDigits 10 n)

/-- The decimal digits of an integer after its sign. -/
def decimalInt (i : Int) : String :=
  if i < 0 then "-" ++ decimal i.natAbs else decimal i.natAbs

end PodAttach.Text
