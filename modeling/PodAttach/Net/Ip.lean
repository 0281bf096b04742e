import PodAttach.Text.Split
import PodAttach.Text.Digits

/-!
# IP addresses

An address of either version is a number below `2 ^ width`.  An IPv4 text
has four decimal parts without leading zeros.  An IPv6 text has eight
groups of up to four hexadecimal digits, of which one run may be left out as
`::` and the last two may be written as an IPv4 address.  `render` writes
IPv6 addresses in the recommended form: lower case, and `::` for the first
of the longest runs of at least two zero groups.
-/

namespace PodAttach.Net

/-- The version of an address. -/
inductive Family where
  | v4
  | v6
  deriving DecidableEq, Repr, Inhabited

/-- The number of bits of an address. -/
def Family.width : Family → Nat
  | .v4 => 32
  | .v6 => 128

/-- An IP address. -/
structure Ip where
  family : Family
  bits : Nat
  bits_lt : bits < Nat.pow 2 family.width
  deriving DecidableEq, Repr

namespace Ip

/-- The address with the lowest `width` bits of a number. -/
def ofBits (family : Family) (n : Nat) : Ip :=
  ⟨family, n % Nat.pow 2 family.width, Nat.mod_lt _ (Nat.two_pow_pos _)⟩

instance : Inhabited Ip := ⟨ofBits .v4 0⟩

/-- Whether the address is of version 4. -/
def isV4 (a : Ip) : Bool := a.family == .v4

/-! ## Reading -/

/-- One decimal part: at most three digits, no leading zero, at most 255. -/
def octet? (cs : List Char) : Option Nat :=
  if 3 < cs.length || (cs.head? == some '0' && 1 < cs.length) then none
  else match Text.readNat? cs with
    | some n => if n ≤ 255 then some n else none
    | none => none

/-- The number that four decimal parts denote. -/
def v4Bits? (cs : List Char) : Option Nat :=
  match (Text.pieces '.' cs).mapM octet? with
  | some [a, b, c, d] => some (a * 0x1000000 + b * 0x10000 + c * 0x100 + d)
  | _ => none

/-- One group: one to four hexadecimal digits. -/
def group? (cs : List Char) : Option Nat :=
  if 4 < cs.length then none else Text.readHex? cs

/-- Groups of which the last may be an IPv4 address in place of two. -/
def tailGroups? : List (List Char) → Option (List Nat)
  | [] => some []
  | [p] => match group? p with
    | some g => some [g]
    | none => (v4Bits? p).map fun n => [n / 0x10000, n % 0x10000]
  | p :: q :: ps => do
    let g ← group? p
    let gs ← tailGroups? (q :: ps)
    return g :: gs

/-- The parts before and after the first `::`. -/
def splitGap : List Char → Option (List Char × List Char)
  | ':' :: ':' :: rest => some ([], rest)
  | c :: rest => (splitGap rest).map fun (l, r) => (c :: l, r)
  | [] => none

/-- The texts between the colons; none for no text at all. -/
def groupTexts (cs : List Char) : List (List Char) :=
  if cs.isEmpty then [] else Text.pieces ':' cs

/-- The number with the given groups, the first one most significant. -/
def ofGroups (gs : List Nat) : Nat :=
  gs.foldl (fun n g => n * 0x10000 + g) 0

/-- The number that an IPv6 text denotes. -/
def v6Bits? (cs : List Char) : Option Nat :=
  match splitGap cs with
  | none => match tailGroups? (groupTexts cs) with
    | some gs => if gs.length = 8 then some (ofGroups gs) else none
    | none => none
  | some (l, r) => do
    let hs ← (groupTexts l).mapM group?
    let ts ← tailGroups? (groupTexts r)
    if hs.length + ts.length ≤ 7 then
      some (ofGroups (hs ++ List.replicate (8 - hs.length - ts.length) 0 ++ ts))
    else none

/-- The address that a text denotes. -/
def ofChars? (cs : List Char) : Option Ip :=
  match v4Bits? cs with
  | some n => some (ofBits .v4 n)
  | none => (v6Bits? cs).map (ofBits .v6)

/-- The address that a text denotes. -/
def parse? (s : String) : Option Ip :=
  ofChars? s.toList

/-- What is said of a text that is no address. -/
def syntaxMessage : String := "invalid IP address syntax"

/-! ## Writing -/

/-- Four decimal parts. -/
def v4Chars (n : Nat) : List Char :=
  Text.join '.'
    ([n / 0x1000000 % 0x100, n / 0x10000 % 0x100, n / 0x100 % 0x100, n % 0x100].map
      (Nat.toDigits 10))

/-- The eight groups of a number. -/
def groups (n : Nat) : List Nat :=
  [7, 6, 5, 4, 3, 2, 1, 0].map fun i => n / Nat.pow 2 (16 * i) % 0x10000

/-- The number of zero groups at the front. -/
def zeroRun (gs : List Nat) : Nat :=
  (gs.takeWhile (· == 0)).length

/-- The first of the longest runs of zero groups: where it starts, and its length. -/
def longestZeros (gs : List Nat) : Nat × Nat :=
  (List.range gs.length).foldl
    (fun (start, len) i =>
      let run := zeroRun (gs.drop i)
      if len < run then (i, run) else (start, len))
    (0, 0)

/-- Groups with colons between them. -/
def groupChars (gs : List Nat) : List Char :=
  Text.join ':' (gs.map (Nat.toDigits 16))

/-- The text of an IPv6 address. -/
def v6Chars (n : Nat) : List Char :=
  if n / 0x100000000 = 0xFFFF then
    [':', ':', 'f', 'f', 'f', 'f', ':'] ++ v4Chars (n % 0x100000000)
  else
    let gs := groups n
    let (start, len) := longestZeros gs
    if len ≤ 1 then groupChars gs
    else groupChars (gs.take start) ++ [':', ':'] ++ groupChars (gs.drop (start + len))

/-- The text of an address. -/
def chars (a : Ip) : List Char :=
  match a.family with
  | .v4 => v4Chars a.bits
  | .v6 => v6Chars a.bits

/-- The text of an address. -/
def render (a : Ip) : String :=
  String.ofList a.chars

end Ip

end PodAttach.Net
