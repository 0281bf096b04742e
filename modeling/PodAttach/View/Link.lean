import PodAttach.Link.Basic
import PodAttach.Scenario.Netlab
import PodAttach.View.Address

/-!
# Links as they are shown

Hardware addresses that the kernel chooses are not shown as they are.
-/

namespace PodAttach.View

open Scenario

/-- What is shown for a hardware address that the kernel chose. -/
def kernelMac : String := "<kernel>"

/-- What a pair is to be. -/
def pairSpec (s : Link.PairSpec) : Json :=
  .obj [
    ("container_id", str s.containerId),
    ("host_ifname", str s.hostIfname),
    ("netns", str s.netns),
    ("container_ifname", str s.containerIfname),
    ("mtu", .nat s.mtu),
    ("mac", str s.mac),
    ("addresses", .texts (s.addresses.map Net.Cidr.render)),
    ("routes", .arr (s.routes.map route))]

/-- One end of a pair. -/
def linkEnd (e : Link.End) (mac : String) : Json :=
  .obj [("name", str e.name), ("mac", str mac), ("sandbox", str e.sandbox)]

/-- A pair that was built. -/
def pair (p : Link.Pair) : Json :=
  .obj [("host", linkEnd p.host kernelMac), ("container", linkEnd p.container p.container.mac)]

/-- A link; the kernel chose the hardware addresses in the agent's namespace. -/
def link (own : Bool) (l : Kernel.Link) : Json :=
  .obj [
    ("mac", str (if own then kernelMac else Net.Mac.render l.mac)),
    ("mtu", .nat l.mtu),
    ("up", .bool l.up),
    ("addresses", sorted (l.addresses.map Net.Cidr.render)),
    ("routes", sorted (l.routes.map fun r =>
      r.destination.render ++ " via " ++ r.gateway.render))]

/-- The links of one namespace, without the one that it has for itself. -/
def linksOf (n : Netlab) (space : Kernel.Space) : Json :=
  .obj (((n.machine.inSpace space).filter (·.name != Kernel.loopbackName)).map fun l =>
    (l.name, link (space == n.own) l))

/-- All links of a machine. -/
def links (n : Netlab) : Json :=
  .obj (n.namespaces.map fun (_, space) => (space, linksOf n space))

end PodAttach.View
