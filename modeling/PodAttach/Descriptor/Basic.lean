import PodAttach.Json.Record
import PodAttach.Cni.NetConf

/-!
# Interface descriptors

What the provisioning controller wants attached to a pod: a list of virtual
interfaces, each with the networks and addresses given to it.  `ofDocument?`
reads a descriptor and `toJson` writes one with all its fields.
-/

namespace PodAttach

/-- An address given on a subnet. -/
structure FixedIp where
  subnetId : String := ""
  ipAddress : String
  deriving DecidableEq, Repr, Inhabited

/-- A route that comes with a subnet. -/
structure StaticRoute where
  cidr : String
  gateway : String
  deriving DecidableEq, Repr, Inhabited

/-- A subnet of a network.  Addresses are still texts here. -/
structure Subnet where
  cidr : String
  /-- Blank for no gateway. -/
  gateway : String := ""
  ipVersion : Nat := 0
  dns : List String := []
  ips : List FixedIp := []
  routes : List StaticRoute := []
  deriving DecidableEq, Repr, Inhabited

/-- The network of a virtual interface. -/
structure VifNetwork where
  id : String := ""
  /-- Zero leaves the choice to others. -/
  mtu : Nat := 0
  subnets : List Subnet := []
  deriving DecidableEq, Repr, Inhabited

/-- A virtual interface. -/
structure Vif where
  /-- Names the host end of the pair too. -/
  id : String
  macAddress : String
  bridgeName : String := ""
  network : VifNetwork
  deriving DecidableEq, Repr, Inhabited

/-- A virtual interface in its place in a pod. -/
structure VifEntry where
  /-- The name of the interface inside the container. -/
  ifName : String
  /-- Whether default routes lead through it. -/
  isDefault : Bool := false
  vif : Vif
  deriving DecidableEq, Repr, Inhabited

/-- The descriptor of a pod. -/
structure Descriptor where
  vifs : List VifEntry := []
  /-- Whether the pod lives in the node's own namespace. -/
  hostNetwork : Bool := false
  deriving DecidableEq, Repr, Inhabited

/-- A pod on this node. -/
structure PodRef where
  podNamespace : String
  name : String
  hostNetwork : Bool
  deriving DecidableEq, Repr, Inhabited

/-- The entries for the interface of a given name, in order. -/
def Descriptor.matching (d : Descriptor) (ifname : String) : List VifEntry :=
  d.vifs.filter fun e => e.ifName == ifname

/-! ## Reading -/

open Json

/-- Reads an address. -/
def FixedIp.ofDocument? (d : Document) : Option FixedIp := do
  let fs ← d.record? ["subnet_id", "ip_address"]
  let subnetId ← Fields.withDefault? fs "subnet_id" "" Document.text?
  let ipAddress ← Fields.required? fs "ip_address" Document.text?
  return { subnetId, ipAddress }

/-- Reads a route. -/
def StaticRoute.ofDocument? (d : Document) : Option StaticRoute := do
  let fs ← d.record? ["cidr", "gateway"]
  let cidr ← Fields.required? fs "cidr" Document.text?
  let gateway ← Fields.required? fs "gateway" Document.text?
  return { cidr, gateway }

/-- Reads a subnet. -/
def Subnet.ofDocument? (d : Document) : Option Subnet := do
  let fs ← d.record? ["cidr", "gateway", "ip_version", "dns", "ips", "routes"]
  let cidr ← Fields.required? fs "cidr" Document.text?
  let gateway ← Fields.withDefault? fs "gateway" "" Document.text?
  let ipVersion ← Fields.withDefault? fs "ip_version" 0 (Document.nat? 255)
  let dns ← Fields.withDefault? fs "dns" [] (Document.list? Document.text?)
  let ips ← Fields.withDefault? fs "ips" [] (Document.list? FixedIp.ofDocument?)
  let routes ← Fields.withDefault? fs "routes" [] (Document.list? StaticRoute.ofDocument?)
  return { cidr, gateway, ipVersion, dns, ips, routes }

/-- Reads a network. -/
def VifNetwork.ofDocument? (d : Document) : Option VifNetwork := do
  let fs ← d.record? ["id", "mtu", "subnets"]
  let id ← Fields.withDefault? fs "id" "" Document.text?
  let mtu ← Fields.withDefault? fs "mtu" 0 (Document.nat? Cni.maxUInt32)
  let subnets ← Fields.withDefault? fs "subnets" [] (Document.list? Subnet.ofDocument?)
  return { id, mtu, subnets }

/-- Reads a virtual interface. -/
def Vif.ofDocument? (d : Document) : Option Vif := do
  let fs ← d.record? ["id", "mac_address", "bridge_name", "network"]
  let id ← Fields.required? fs "id" Document.text?
  let macAddress ← Fields.required? fs "mac_address" Document.text?
  let bridgeName ← Fields.withDefault? fs "bridge_name" "" Document.text?
  let network ← Fields.required? fs "network" VifNetwork.ofDocument?
  return { id, macAddress, bridgeName, network }

/-- Reads an entry. -/
def VifEntry.ofDocument? (d : Document) : Option VifEntry := do
  let fs ← d.record? ["if_name", "default", "vif"]
  let ifName ← Fields.required? fs "if_name" Document.text?
  let isDefault ← Fields.withDefault? fs "default" false Document.bool?
  let vif ← Fields.required? fs "vif" Vif.ofDocument?
  return { ifName, isDefault, vif }

/-- Reads a descriptor. -/
def Descriptor.ofDocument? (d : Document) : Option Descriptor := do
  let fs ← d.record? ["vifs", "host_network"]
  let vifs ← Fields.withDefault? fs "vifs" [] (Document.list? VifEntry.ofDocument?)
  let hostNetwork ← Fields.withDefault? fs "host_network" false Document.bool?
  return { vifs, hostNetwork }

/-- The descriptor that the bytes spell. -/
def Descriptor.parse? (bytes : Bytes) : Option Descriptor :=
  match Document.parse? bytes with
  | some d => Descriptor.ofDocument? d
  | none => none

/-! ## Writing -/

/-- An address as a value. -/
def FixedIp.toJson (i : FixedIp) : Json :=
  .obj [("subnet_id", .str i.subnetId), ("ip_address", .str i.ipAddress)]

/-- A route as a value. -/
def StaticRoute.toJson (r : StaticRoute) : Json :=
  .obj [("cidr", .str r.cidr), ("gateway", .str r.gateway)]

/-- A subnet as a value. -/
def Subnet.toJson (s : Subnet) : Json :=
  .obj [
    ("cidr", .str s.cidr),
    ("gateway", .str s.gateway),
    ("ip_version", .nat s.ipVersion),
    ("dns", .texts s.dns),
    ("ips", .arr (s.ips.map FixedIp.toJson)),
    ("routes", .arr (s.routes.map StaticRoute.toJson))]

/-- A network as a value. -/
def VifNetwork.toJson (n : VifNetwork) : Json :=
  .obj [
    ("id", .str n.id),
    ("mtu", .nat n.mtu),
    ("subnets", .arr (n.subnets.map Subnet.toJson))]

/-- A virtual interface as a value. -/
def Vif.toJson (v : Vif) : Json :=
  .obj [
    ("id", .str v.id),
    ("mac_address", .str v.macAddress),
    ("bridge_name", .str v.bridgeName),
    ("network", v.network.toJson)]

/-- An entry as a value. -/
def VifEntry.toJson (e : VifEntry) : Json :=
  .obj [
    ("if_name", .str e.ifName),
    ("default", .bool e.isDefault),
    ("vif", e.vif.toJson)]

/-- A descriptor as a value. -/
def Descriptor.toJson (d : Descriptor) : Json :=
  .obj [
    ("vifs", .arr (d.vifs.map VifEntry.toJson)),
    ("host_network", .bool d.hostNetwork)]

end PodAttach
