import PodAttach.Net.Cidr

/-!
# Routes

A route leads to a block of addresses through a gateway of the same IP
version.  The block is named by its least address, so routes to the same
addresses are equal.
-/

namespace PodAttach

open Net

/-- A route. -/
structure Route where
  destination : Cidr
  gateway : Ip
  deriving DecidableEq, Repr, Inhabited

/-- Why a route or an address cannot be had. -/
inductive RouteError where
  /-- The system did not take a route. -/
  | addRoute (reason : String)
  /-- The system did not take an address. -/
  | addAddress (reason : String)
  /-- What is asked for makes no sense. -/
  | invalid (reason : String)
  deriving DecidableEq, Repr, Inhabited

namespace RouteError

/-- The wording of an error. -/
def message : RouteError → String
  | .addRoute reason => "Failed to add route: " ++ reason
  | .addAddress reason => "Failed to add address: " ++ reason
  | .invalid reason => "Invalid route configuration: " ++ reason

/-- The kind of an error. -/
def kind : RouteError → String
  | .addRoute _ => "AddRoute"
  | .addAddress _ => "AddAddress"
  | .invalid _ => "InvalidRoute"

/-- A text that should denote an address does not. -/
def badAddress (what text : String) : RouteError :=
  .invalid (what ++ " " ++ text ++ ": " ++ Ip.syntaxMessage)

/-- Destination and gateway are of different IP versions. -/
def mixedVersions : RouteError :=
  .invalid "IP version mismatch between destination and gateway"

end RouteError

namespace Route

/-- Whether destination and gateway are of one IP version. -/
def IsValid (r : Route) : Prop :=
  r.destination.family = r.gateway.family

instance (r : Route) : Decidable r.IsValid :=
  inferInstanceAs (Decidable (_ = _))

/-- The route to a block, if the gateway is of its version. -/
def toBlock (block : Cidr) (gateway : Ip) : Except RouteError Route :=
  if block.family = gateway.family then .ok ⟨block.network, gateway⟩
  else .error .mixedVersions

/-- The route to the block that a text denotes. -/
def calculate (cidr : String) (gateway : Ip) : Except RouteError Route :=
  match Cidr.parse? cidr with
  | none => .error (.invalid (cidr ++ ": " ++ Cidr.invalidMessage cidr))
  | some block => toBlock block gateway

/-- The block of all addresses of one version. -/
def everywhere : Family → Cidr
  | .v4 => ⟨Ip.ofBits .v4 0, 0, Nat.zero_le _⟩
  | .v6 => ⟨Ip.ofBits .v6 0, 0, Nat.zero_le _⟩

/-- The route to everywhere else. -/
def toEverywhere (gateway : Ip) : Route :=
  ⟨everywhere gateway.family, gateway⟩

end Route

end PodAttach
