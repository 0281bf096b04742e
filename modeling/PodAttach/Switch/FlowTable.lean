import PodAttach.Net.Mac
import PodAttach.Switch.Flow

/-!
# Flow tables

What the switch makes of flows that are written as lines.  A line has fields
with commas between them, each a word or a key with a value: where the flow is
put, what packets it is for, and what becomes of them.  A packet is handled by
a flow that it matches, of the highest priority that there is among those.
Flows are removed by their cookies.
-/

namespace PodAttach.Switch

open Net

/-! ## Packets -/

/-- A hardware address. -/
structure Hardware where
  bytes : Bytes
  length_eq : bytes.length = 6
  deriving DecidableEq, Repr

/-- What a packet carries. -/
inductive Content where
  /-- An ARP message, with the address of its sender. -/
  | arp (sender : Ip)
  /-- An IPv4 packet, with the address it comes from. -/
  | ipv4 (source : Ip)
  /-- An IPv6 packet, with the address it comes from, and the type of the control message that it
  is, if it is one. -/
  | ipv6 (source : Ip) (control : Option Nat)
  | other
  deriving DecidableEq, Repr

/-- A packet that enters the switch. -/
structure Packet where
  /-- The OpenFlow number of the port that it comes from. -/
  inPort : Nat
  source : Hardware
  destination : Hardware
  content : Content
  deriving DecidableEq, Repr

/-! ## Rules -/

/-- What a packet has to be. -/
inductive Condition where
  | inPort (ofport : Nat)
  | source (mac : Hardware)
  | destination (mac : Hardware)
  | arp
  | arpSender (sender : Ip)
  | ipv4
  | ipv4Source (source : Ip)
  | ipv6
  | ipv6Source (source : Ip)
  | control
  | controlType (type : Nat)
  deriving DecidableEq, Repr

/-- Whether a packet is what it has to be. -/
def Condition.Holds (p : Packet) : Condition → Prop
  | .inPort n => p.inPort = n
  | .source mac => p.source = mac
  | .destination mac => p.destination = mac
  | .arp => ∃ a, p.content = .arp a
  | .arpSender a => p.content = .arp a
  | .ipv4 => ∃ a, p.content = .ipv4 a
  | .ipv4Source a => p.content = .ipv4 a
  | .ipv6 => ∃ a t, p.content = .ipv6 a t
  | .ipv6Source a => ∃ t, p.content = .ipv6 a t
  | .control => ∃ a t, p.content = .ipv6 a (some t)
  | .controlType t => ∃ a, p.content = .ipv6 a (some t)

/-- A flow as the switch has it. -/
structure Rule where
  cookie : Nat := 0
  table : Nat := 0
  priority : Nat := 32768
  conditions : List Condition := []
  action : Action
  deriving DecidableEq, Repr

/-- Whether a rule is for a packet that enters the switch; that is where table 0 is asked. -/
def Rule.Matches (r : Rule) (p : Packet) : Prop :=
  r.table = 0 ∧ ∀ c ∈ r.conditions, c.Holds p

/-- A packet is handled by a rule of the highest priority among those that are for it.  If there
are several, it may be any of them. -/
def Handles (rules : List Rule) (p : Packet) (r : Rule) : Prop :=
  r ∈ rules ∧ r.Matches p ∧ ∀ s ∈ rules, s.Matches p → s.priority ≤ r.priority

/-! ## Reading -/

/-- A byte as two hexadecimal digits. -/
def readByte? (cs : List Char) : Option UInt8 :=
  if cs.length = 2 then (Text.readHex? cs).map UInt8.ofNat else none

/-- The hardware address that a text denotes. -/
def Hardware.read? (s : String) : Option Hardware :=
  match (Text.pieces ':' s.toList).mapM readByte? with
  | some bytes => if h : bytes.length = 6 then some ⟨bytes, h⟩ else none
  | none => none

/-- The address of a version that a text denotes. -/
def readAddress? (family : Family) (s : String) : Option Ip :=
  (Ip.parse? s).filter fun a => a.family == family

/-- The number that a text of decimal digits denotes. -/
def readNumber? (s : String) : Option Nat :=
  Text.readNat? s.toList

/-- The number that a text of hexadecimal digits with their mark denotes. -/
def readCookie? (s : String) : Option Nat :=
  match s.toList with
  | '0' :: 'x' :: cs => Text.readHex? cs
  | _ => none

/-- What becomes of a packet. -/
def Action.read? (s : String) : Option Action :=
  match Text.split ':' s with
  | ["NORMAL"] => some .normal
  | ["drop"] => some .drop
  | ["output", ofport] => (readNumber? ofport).map .output
  | _ => none

/-- One of the fields of a line. -/
inductive Field where
  | cookie (n : Nat)
  | table (n : Nat)
  | priority (n : Nat)
  | condition (c : Condition)
  | action (a : Action)
  deriving DecidableEq, Repr

/-- A field that is one word. -/
def Field.ofWord? : String → Option Field
  | "arp" => some (.condition .arp)
  | "ip" => some (.condition .ipv4)
  | "ipv6" => some (.condition .ipv6)
  | "icmp6" => some (.condition .control)
  | _ => none

/-- A field that is a key with a value. -/
def Field.ofPair? (value : String) : String → Option Field
  | "cookie" => (readCookie? value).map .cookie
  | "table" => (readNumber? value).map .table
  | "priority" => (readNumber? value).map .priority
  | "in_port" => (readNumber? value).map fun n => .condition (.inPort n)
  | "dl_src" => (Hardware.read? value).map fun mac => .condition (.source mac)
  | "dl_dst" => (Hardware.read? value).map fun mac => .condition (.destination mac)
  | "arp_spa" => (readAddress? .v4 value).map fun a => .condition (.arpSender a)
  | "nw_src" => (readAddress? .v4 value).map fun a => .condition (.ipv4Source a)
  | "ipv6_src" => (readAddress? .v6 value).map fun a => .condition (.ipv6Source a)
  | "icmp_type" => (readNumber? value).map fun n => .condition (.controlType n)
  | "actions" => (Action.read? value).map .action
  | _ => none

/-- A field. -/
def Field.read? (s : String) : Option Field :=
  match Text.split '=' s with
  | [word] => Field.ofWord? word
  | [key, value] => Field.ofPair? value key
  | _ => none

/-- What a field says to become of a packet. -/
def Field.action? : Field → Option Action
  | .action a => some a
  | _ => none

/-- A rule with one more field. -/
def Rule.with (r : Rule) : Field → Rule
  | .cookie n => { r with cookie := n }
  | .table n => { r with table := n }
  | .priority n => { r with priority := n }
  | .condition c => { r with conditions := r.conditions ++ [c] }
  | .action a => { r with action := a }

/-- The rule that a line denotes.  It has to say what becomes of the packets. -/
def Rule.read? (line : String) : Option Rule := do
  let fields ← (Text.split ',' line).mapM Field.read?
  let action ← fields.findSome? Field.action?
  return fields.foldl Rule.with { action }

/-- The rules that lines denote; empty lines are passed over. -/
def readRules? (text : String) : Option (List Rule) :=
  ((Text.split '\n' text).filter fun line => line ≠ "").mapM Rule.read?

/-! ## Removing -/

/-- Which rules are meant: those whose cookie agrees with a number in the bits of a mask. -/
structure Selection where
  cookie : Nat
  mask : Nat
  deriving DecidableEq, Repr

/-- The mask of all bits that a cookie has. -/
def wholeMask : Nat := 0xFFFFFFFFFFFFFFFF

/-- The mask that a text denotes. -/
def readMask? (s : String) : Option Nat :=
  if s = "-1" then some wholeMask else readCookie? s

/-- The selection that a text denotes. -/
def Selection.read? (s : String) : Option Selection :=
  match Text.split '=' s with
  | ["cookie", value] => match Text.split '/' value with
    | [cookie, mask] => do
      return { cookie := ← readCookie? cookie, mask := ← readMask? mask }
    | _ => none
  | _ => none

/-- Whether a rule is meant. -/
def Selection.selects (s : Selection) (r : Rule) : Bool :=
  r.cookie &&& s.mask == s.cookie &&& s.mask

/-- What is left of rules when those are removed that are meant. -/
def Selection.remove (s : Selection) (rules : List Rule) : List Rule :=
  rules.filter fun r => !s.selects r

end PodAttach.Switch
