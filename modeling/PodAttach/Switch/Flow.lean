import PodAttach.Net.Ip
import PodAttach.Text.Blank
import PodAttach.Text.Utf8

/-!
# Flows of an interface

What comes from the port of an interface is admitted only with the hardware
address and the addresses of the interface; everything else from there is
dropped.  What goes to its hardware address is delivered to the port.  All
flows of an interface carry one cookie, by which they are removed.
-/

namespace PodAttach.Switch

open Net

/-! ## Cookies -/

/-- The prime of the 64-bit hash. -/
def hashPrime : UInt64 := 0x100000001b3

/-- What the 64-bit hash starts with. -/
def hashBasis : UInt64 := 0xcbf29ce484222325

/-- One byte more. -/
def hashByte (h : UInt64) (b : UInt8) : UInt64 :=
  (h ^^^ b.toUInt64) * hashPrime

/-- The hash of a sequence of bytes. -/
def hash (bytes : Bytes) : UInt64 :=
  bytes.foldl hashByte hashBasis

/-- What the top four bits of a cookie are. -/
def cookieTag : UInt64 := 0x1000000000000000

/-- The bits of a cookie that come from the hash. -/
def cookieMask : UInt64 := 0x0fffffffffffffff

/-- The cookie of the flows of an interface. -/
def cookie (name : String) : UInt64 :=
  cookieTag ||| (hash (Utf8.encode name) &&& cookieMask)

/-- A cookie as a hexadecimal number. -/
def cookieText (c : UInt64) : String :=
  "0x" ++ String.ofList (Nat.toDigits 16 c.toNat)

/-! ## Flows -/

/-- What the payload of a packet has to be. -/
inductive Payload where
  /-- An ARP message from an address. -/
  | arp (sender : Ip)
  /-- An IPv4 packet from an address. -/
  | ipv4 (source : Ip)
  /-- An IPv6 packet from an address. -/
  | ipv6 (source : Ip)
  /-- A control message of IPv6. -/
  | icmpv6 (type : Nat)
  deriving DecidableEq, Repr, Inhabited

/-- What packets a flow is for.  What is not given may be anything. -/
structure Match where
  inPort : Option Nat := none
  sourceMac : Option String := none
  destinationMac : Option String := none
  payload : Option Payload := none
  deriving DecidableEq, Repr, Inhabited

/-- What becomes of a packet. -/
inductive Action where
  /-- It is handled as by any other switch. -/
  | normal
  | drop
  /-- It leaves by a port. -/
  | output (ofport : Nat)
  deriving DecidableEq, Repr, Inhabited

/-- A flow. -/
structure Flow where
  cookie : UInt64
  priority : Nat
  matching : Match
  action : Action
  deriving DecidableEq, Repr, Inhabited

/-- The priority of flows that let packets through. -/
def admitPriority : Nat := 200

/-- The priority of the flow that drops what is not admitted. -/
def dropPriority : Nat := 190

/-- The priority of the flow that delivers packets. -/
def deliverPriority : Nat := 100

/-- The control messages that neighbours are found with; they come from addresses of the link. -/
def neighbourTypes : List Nat := [133, 135, 136]

/-- What an interface may send from one of its addresses. -/
def payloadsOf (ip : Ip) : List Payload :=
  match ip.family with
  | .v4 => [.arp ip, .ipv4 ip]
  | .v6 => [.ipv6 ip]

/-- All that an interface may send. -/
def payloads (ips : List Ip) : List Payload :=
  ips.flatMap payloadsOf ++
    (if ips.all Ip.isV4 then [] else neighbourTypes.map Payload.icmpv6)

/-- The flow that admits one kind of packets. -/
def entrance (cookie : UInt64) (mac : String) (ofport : Nat) (p : Payload) : Flow :=
  ⟨cookie, admitPriority, { inPort := some ofport, sourceMac := some mac, payload := some p },
    .normal⟩

/-- The flows of an interface. -/
def flows (cookie : UInt64) (ips : List Ip) (mac : String) (ofport : Nat) : List Flow :=
  (payloads ips).map (entrance cookie mac ofport) ++ [
    ⟨cookie, dropPriority, { inPort := some ofport }, .drop⟩,
    ⟨cookie, deliverPriority, { destinationMac := some mac }, .output ofport⟩]

/-! ## Writing -/

/-- What a payload has to be, as a text. -/
def Payload.render : Payload → String
  | .arp sender => "arp,arp_spa=" ++ sender.render
  | .ipv4 source => "ip,nw_src=" ++ source.render
  | .ipv6 source => "ipv6,ipv6_src=" ++ source.render
  | .icmpv6 type => "icmp6,icmp_type=" ++ Text.decimal type

/-- The parts of a match. -/
def Match.parts (m : Match) : List String :=
  (m.inPort.map fun n => "in_port=" ++ Text.decimal n).toList ++
    (m.sourceMac.map fun mac => "dl_src=" ++ mac).toList ++
    (m.destinationMac.map fun mac => "dl_dst=" ++ mac).toList ++
    (m.payload.map Payload.render).toList

/-- What becomes of a packet, as a text. -/
def Action.render : Action → String
  | .normal => "NORMAL"
  | .drop => "drop"
  | .output ofport => "output:" ++ Text.decimal ofport

/-- A flow as a text. -/
def Flow.render (f : Flow) : String :=
  String.intercalate ","
    (["cookie=" ++ cookieText f.cookie, "table=0", "priority=" ++ Text.decimal f.priority] ++
      f.matching.parts ++ ["actions=" ++ f.action.render])

/-- Flows as lines. -/
def renderFlows (fs : List Flow) : String :=
  String.intercalate "\n" (fs.map Flow.render) ++ "\n"

end PodAttach.Switch
