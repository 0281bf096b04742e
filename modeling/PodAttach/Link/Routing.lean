import PodAttach.Kernel.Ask

/-!
# Addresses and routes of a link

Both are handed to the kernel one by one.  A route whose destination and
gateway are of different versions is refused before the kernel sees it.
-/

namespace PodAttach.Link

open Net Kernel

/-- The words for an error of the kernel. -/
def kernelReason (e : Errno) : String :=
  "Received a netlink error message " ++ e.message

/-- Gives a link an address. -/
def addAddress (space : Space) (index : Nat) (address : Cidr) : Work RouteError Unit :=
  Work.request space (.newAddress index address) fun e =>
    .addAddress (address.render ++ ": " ++ kernelReason e)

/-- Adds a route through a link. -/
def addRoute (space : Space) (index : Nat) (route : Route) : Work RouteError Unit :=
  let destination := route.destination.render
  let gateway := route.gateway.render
  if route.IsValid then
    Work.request space (.newRoute index ⟨route.destination.network, route.gateway⟩) fun e =>
      .addRoute (destination ++ " via " ++ gateway ++ ": " ++ kernelReason e)
  else throw (.invalid ("IP version mismatch between " ++ destination ++ " and " ++ gateway))

/-- Gives a link all its addresses, and then all its routes. -/
def configureAddressing (space : Space) (index : Nat) (addresses : List Cidr)
    (routes : List Route) : Work RouteError Unit := do
  addresses.forM (addAddress space index)
  routes.forM (addRoute space index)

end PodAttach.Link
