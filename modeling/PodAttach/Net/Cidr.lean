import PodAttach.Net.Ip

/-!
# Address blocks

An address together with the number of its leading bits that name a
network.  Two addresses are in one block when they agree in those bits.  A
text without a slash names all bits; after a slash stands their number, or
for IPv4 a netmask whose set bits come first.
-/

namespace PodAttach.Net

/-- An address with the length of its network part. -/
structure Cidr where
  ip : Ip
  len : Nat
  len_le : len ≤ ip.family.width
  deriving DecidableEq, Repr

namespace Cidr

instance : Inhabited Cidr := ⟨⟨default, 0, Nat.zero_le _⟩⟩

/-- The version of the address. -/
def family (c : Cidr) : Family := c.ip.family

/-- An address with a length that fits. -/
def make? (ip : Ip) (len : Nat) : Option Cidr :=
  if h : len ≤ ip.family.width then some ⟨ip, len, h⟩ else none

/-- The number of bits that name a host. -/
def hostBits (c : Cidr) : Nat := c.ip.family.width - c.len

/-- The bits that name the network, as a number. -/
def networkNumber (c : Cidr) (n : Nat) : Nat := n / Nat.pow 2 c.hostBits

/-- Whether an address lies in the block. -/
def contains (c : Cidr) (a : Ip) : Bool :=
  a.family == c.ip.family && c.networkNumber a.bits == c.networkNumber c.ip.bits

/-- The least address of the block. -/
def networkIp (c : Cidr) : Ip :=
  ⟨c.ip.family, c.networkNumber c.ip.bits * Nat.pow 2 c.hostBits,
    Nat.lt_of_le_of_lt (Nat.div_mul_le_self _ _) c.ip.bits_lt⟩

/-- The block named by its least address. -/
def network (c : Cidr) : Cidr :=
  ⟨c.networkIp, c.len, c.len_le⟩

/-- Another address with the same length of network part. -/
def withIp (c : Cidr) (a : Ip) (h : a.family = c.ip.family) : Cidr :=
  ⟨a, c.len, h ▸ c.len_le⟩

/-! ## Reading -/

/-- The number of set bits of a netmask whose set bits come first. -/
def maskLen? (mask : Nat) : Option Nat :=
  (List.range 33).find? fun len => mask == 0x100000000 - Nat.pow 2 (32 - len)

/-- The length that the text after the slash denotes. -/
def len? (family : Family) (cs : List Char) : Option Nat :=
  match Text.readSignedNat? cs with
  | some n => if n ≤ 255 then some n else none
  | none => match family with
    | .v4 => (Ip.v4Bits? cs).bind maskLen?
    | .v6 => none

/-- The block that a text denotes. -/
def ofChars? (cs : List Char) : Option Cidr :=
  match Text.pieces '/' cs with
  | [addr] => (Ip.ofChars? addr).bind fun ip => make? ip ip.family.width
  | [addr, len] => do
    let ip ← Ip.ofChars? addr
    let n ← len? ip.family len
    make? ip n
  | _ => none

/-- The block that a text denotes. -/
def parse? (s : String) : Option Cidr :=
  ofChars? s.toList

/-- What is said of a text that is no block. -/
def invalidMessage (s : String) : String :=
  "invalid address: " ++ s

/-! ## Writing -/

/-- The text of a block. -/
def chars (c : Cidr) : List Char :=
  c.ip.chars ++ '/' :: Nat.toDigits 10 c.len

/-- The text of a block. -/
def render (c : Cidr) : String :=
  String.ofList c.chars

end Cidr

end PodAttach.Net
