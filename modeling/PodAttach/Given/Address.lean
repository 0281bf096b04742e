import PodAttach.Address.Addressing
import PodAttach.Json.Access

/-!
# Addresses as they are given

The counterparts of what is shown: values read from JSON, with plain defaults
for what is missing.
-/

namespace PodAttach.Given

open Json.Access

/-- IP addresses. -/
def ips (v : Json) (k : String) : List Net.Ip := (texts v k).filterMap Net.Ip.parse?

/-- An address with the length of its network part. -/
def cidr (s : String) : Net.Cidr := (Net.Cidr.parse? s).getD default

/-- An IP address. -/
def ip (s : String) : Net.Ip := (Net.Ip.parse? s).getD default

/-- A route. -/
def route (v : Json) : Route := ⟨cidr (text v "destination"), ip (text v "gateway")⟩

/-- Addresses, routes and name servers. -/
def addressing (v : Json) : Addressing where
  addresses := (items v "addresses").map fun a =>
    ⟨cidr (text a "address"), (text? a "gateway").map ip⟩
  routes := (items v "routes").map route
  dns := texts v "dns"

end PodAttach.Given
