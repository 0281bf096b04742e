import PodAttach.Cni.Call
import PodAttach.Cni.Result
import PodAttach.Descriptor.Error
import PodAttach.Link.Basic
import PodAttach.Net.LinkName

/-!
# Plans

What is to be attached for a call: the pair of links to build, and the
result that the runtime will get.  Both are computed from the descriptor of
the pod before anything is touched.
-/

namespace PodAttach.Agent

/-- What to build for one interface of a container. -/
structure Plan where
  vifId : String
  pair : Link.PairSpec
  deriving DecidableEq, Repr, Inhabited

namespace Plan

/-- The name of the link that stays with the node. -/
def hostIfname (p : Plan) : String := p.pair.hostIfname

/-- The addresses of the interface. -/
def ips (p : Plan) : List Net.Ip := p.pair.addresses.map Net.Cidr.ip

/-- The result for a call, before the interfaces are known. -/
def resultFor (c : Cni.Call) (a : Addressing) : Cni.Result :=
  Cni.Result.addAddressing
    { cniVersion := c.cniVersion, dns := c.network.effectiveDns } a

/-- The plan for a call.  The first virtual interface says what the link is like, and the
configuration's MTU counts where it does not give one. -/
def ofVif (c : Cni.Call) (v : Vif) (a : Addressing) (r : Cni.Result) : Plan where
  vifId := v.id
  pair := {
    containerId := c.containerId
    hostIfname := Net.LinkName.host v.id
    netns := c.netns
    containerIfname := c.ifname
    mtu := if 0 < v.network.mtu then v.network.mtu else c.network.mtu.getD 0
    mac := Text.lower v.macAddress
    addresses := r.addresses
    routes := a.routes }

/-- The result and the plan for a call, given the descriptor of its pod. -/
def resolve (c : Cni.Call) (d : Descriptor) : Except Cni.CallError (Cni.Result × Plan) :=
  match d.matching c.ifname with
  | [] =>
    .error (DescriptorError.toCallError (.noMatchingVif c.podNamespace c.podName c.ifname))
  | e :: es => match Addressing.ofVifs (e :: es) with
    | .error err => .error ⟨.invalidNetworkConfig, err.message⟩
    | .ok a =>
      let r := resultFor c a
      .ok (r, ofVif c e.vif a r)

end Plan

end PodAttach.Agent
