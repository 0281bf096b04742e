import PodAttach.Address.Addressing
import PodAttach.Cni.Dns

/-!
# Results

What the runtime gets for a container that was attached.  `toJson` writes a
result in the layout that belongs to its version: up to 0.2.0 one block for
each IP version, after that lists of interfaces, addresses and routes.
-/

namespace PodAttach.Cni

open Net

/-- An interface that belongs to the container. -/
structure Interface where
  name : String
  mac : String := ""
  /-- The namespace that holds it; empty for the node's own. -/
  sandbox : String := ""
  deriving DecidableEq, Repr, Inhabited

/-- An address in a result. -/
structure IpConfig where
  /-- The place of its interface among the interfaces of the result. -/
  interface : Option Nat
  address : Cidr
  gateway : Option Ip
  deriving DecidableEq, Repr, Inhabited

/-- A route in a result. -/
structure ResultRoute where
  destination : Cidr
  gateway : Option Ip
  deriving DecidableEq, Repr, Inhabited

/-- A result. -/
structure Result where
  cniVersion : String
  interfaces : List Interface := []
  ips : List IpConfig := []
  routes : List ResultRoute := []
  dns : Dns := {}
  deriving DecidableEq, Repr, Inhabited

/-- A route with its gateway. -/
def ResultRoute.ofRoute (r : Route) : ResultRoute :=
  ⟨r.destination, some r.gateway⟩

namespace Result

/-- The place of the container's interface; the node's comes before it. -/
def containerIndex : Nat := 1

/-- Puts the interfaces in. -/
def withInterfaces (r : Result) (host container : Interface) : Result :=
  { r with interfaces := [host, container] }

/-- Takes addressing in; its name servers count only as long as there are none. -/
def addAddressing (r : Result) (a : Addressing) : Result :=
  { r with
    ips := r.ips ++ a.addresses.map fun assigned =>
      ⟨some containerIndex, assigned.address, assigned.gateway⟩
    routes := appendNew r.routes (a.routes.map ResultRoute.ofRoute)
    dns := if r.dns.nameservers.isEmpty then { r.dns with nameservers := a.dns } else r.dns }

/-- The addresses of the container. -/
def addresses (r : Result) : List Cidr :=
  r.ips.map IpConfig.address

end Result

/-! ## Writing -/

/-- A text as a value, nothing if it is empty. -/
def nonemptyText? (s : String) : Option Json :=
  if s.isEmpty then none else some (.str s)

/-- An interface as a value. -/
def Interface.toJson (i : Interface) : Json :=
  .ofFields [
    ("name", some (.str i.name)),
    ("mac", nonemptyText? i.mac),
    ("sandbox", nonemptyText? i.sandbox)]

/-- How an IP version is spelled. -/
def familyText : Family → String
  | .v4 => "4"
  | .v6 => "6"

/-- An address as a value. -/
def IpConfig.toJson (i : IpConfig) : Json :=
  .ofFields [
    ("version", some (.str (familyText i.address.family))),
    ("interface", i.interface.map .nat),
    ("address", some (.str i.address.render)),
    ("gateway", i.gateway.map fun g => .str g.render)]

/-- A route as a value. -/
def ResultRoute.toJson (r : ResultRoute) : Json :=
  .ofFields [
    ("dst", some (.str r.destination.render)),
    ("gw", r.gateway.map fun g => .str g.render)]

namespace Result

/-- Whether results of a version have one block for each IP version. -/
def isBlockVersion (version : String) : Bool :=
  version == "0.1.0" || version == "0.2.0"

/-- The block of one IP version: its first address, with all its routes. -/
def blockJson? (r : Result) (family : Family) : Option Json :=
  (r.ips.find? fun i => i.address.family == family).map fun i =>
    .ofFields [
      ("ip", some (.str i.address.render)),
      ("gateway", i.gateway.map fun g => .str g.render),
      ("routes", Json.nonempty?
        ((r.routes.filter fun route => route.destination.family == family).map
          ResultRoute.toJson))]

/-- A result with blocks. -/
def toBlockJson (r : Result) : Json :=
  .ofFields [
    ("cniVersion", some (.str r.cniVersion)),
    ("ip4", r.blockJson? .v4),
    ("ip6", r.blockJson? .v6),
    ("dns", r.dns.toJson?)]

/-- A result with lists. -/
def toListJson (r : Result) : Json :=
  .ofFields [
    ("cniVersion", some (.str r.cniVersion)),
    ("interfaces", Json.nonempty? (r.interfaces.map Interface.toJson)),
    ("ips", Json.nonempty? (r.ips.map IpConfig.toJson)),
    ("routes", Json.nonempty? (r.routes.map ResultRoute.toJson)),
    ("dns", r.dns.toJson?)]

/-- A result in the layout of its version. -/
def toJson (r : Result) : Json :=
  if isBlockVersion r.cniVersion then r.toBlockJson else r.toListJson

/-- The bytes of a result. -/
def toBytes (r : Result) : Bytes :=
  Utf8.encodeChars r.toJson.chars

end Result

end PodAttach.Cni
