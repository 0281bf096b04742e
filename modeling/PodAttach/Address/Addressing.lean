import PodAttach.Address.Route
import PodAttach.Descriptor.Basic
import PodAttach.Text.Blank

/-!
# Addressing of an interface

What the container side of an interface needs: addresses with their
gateways, routes, and name servers.  It is computed subnet by subnet from a
descriptor and merged in order; routes and servers that came before are not
repeated.
-/

namespace PodAttach

open Net

/-- An address given to an interface. -/
structure AssignedAddress where
  /-- The address with the length of its subnet's network part. -/
  address : Cidr
  gateway : Option Ip
  deriving DecidableEq, Repr, Inhabited

/-- Everything that the container side needs. -/
structure Addressing where
  addresses : List AssignedAddress := []
  routes : List Route := []
  dns : List String := []
  deriving DecidableEq, Repr, Inhabited

/-- Appends what is not there yet, in order. -/
def appendNew {α : Type} [BEq α] (xs ys : List α) : List α :=
  ys.foldl (fun acc y => if acc.contains y then acc else acc ++ [y]) xs

namespace Addressing

/-- The addresses alone. -/
def ips (a : Addressing) : List Ip :=
  a.addresses.map fun assigned => assigned.address.ip

/-- One after the other, without repeating routes and servers. -/
def merge (a b : Addressing) : Addressing where
  addresses := a.addresses ++ b.addresses
  routes := appendNew a.routes b.routes
  dns := appendNew a.dns b.dns

/-- The gateway of a subnet; blank text is none. -/
def gatewayOf (text : String) : Except RouteError (Option Ip) :=
  let trimmed := Text.trim text
  if trimmed.isEmpty then .ok none
  else match Ip.parse? trimmed with
    | some gateway => .ok (some gateway)
    | none => .error (.badAddress "gateway" text)

/-- The address that a text denotes, with the length of its subnet's network part.  It has to
lie in the subnet. -/
def addressIn (cidr : String) (block : Cidr) (gateway : Option Ip) (text : String) :
    Except RouteError AssignedAddress :=
  match Ip.parse? text with
  | none => .error (.badAddress "address" text)
  | some ip =>
    if h : ip.family = block.ip.family then
      if block.contains ip then .ok ⟨block.withIp ip h, gateway⟩
      else .error (.invalid ("address " ++ ip.render ++ " is outside subnet " ++ cidr))
    else .error (.invalid ("address " ++ ip.render ++ " is outside subnet " ++ cidr))

/-- The route that comes with a subnet. -/
def staticRoute (r : StaticRoute) : Except RouteError Route :=
  match Ip.parse? r.gateway with
  | none => .error (.badAddress "gateway" r.gateway)
  | some gateway => Route.calculate r.cidr gateway

/-- The addressing that one subnet brings. -/
def ofSubnet (isDefault : Bool) (s : Subnet) : Except RouteError Addressing := do
  let block ← match Cidr.parse? s.cidr with
    | some block => .ok block
    | none => .error (.invalid ("subnet " ++ s.cidr ++ ": " ++ Cidr.invalidMessage s.cidr))
  let gateway ← gatewayOf s.gateway
  let addresses ← s.ips.mapM fun i => addressIn s.cidr block gateway i.ipAddress
  let defaults := if isDefault then (gateway.map Route.toEverywhere).toList else []
  let statics ← s.routes.mapM staticRoute
  return { addresses, routes := defaults ++ statics, dns := s.dns }

/-- The addressing of one virtual interface. -/
def ofVif (e : VifEntry) : Except RouteError Addressing :=
  e.vif.network.subnets.foldlM
    (fun acc s => do return acc.merge (← ofSubnet e.isDefault s)) {}

/-- The addressing of several virtual interfaces that make one interface. -/
def ofVifs (es : List VifEntry) : Except RouteError Addressing :=
  es.foldlM (fun acc e => do return acc.merge (← ofVif e)) {}

end Addressing

end PodAttach
