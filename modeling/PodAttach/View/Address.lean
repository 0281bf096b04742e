import PodAttach.Address.Addressing
import PodAttach.View.Basic

/-!
# Addresses as they are shown
-/

namespace PodAttach.View

/-- IP addresses. -/
def ips (as : List Net.Ip) : Json :=
  .texts (as.map Net.Ip.render)

/-- A route. -/
def route (r : Route) : Json :=
  .obj [("destination", str r.destination.render), ("gateway", str r.gateway.render)]

/-- An address with its gateway. -/
def assigned (address : Net.Cidr) (gateway : Option Net.Ip) : Json :=
  .obj [("address", str address.render), ("gateway", optStr (gateway.map Net.Ip.render))]

/-- Addresses, routes and name servers. -/
def addressing (a : Addressing) : Json :=
  .obj [
    ("addresses", .arr (a.addresses.map fun x => assigned x.address x.gateway)),
    ("routes", .arr (a.routes.map route)),
    ("dns", .texts a.dns),
    ("ips", ips a.ips)]

end PodAttach.View
