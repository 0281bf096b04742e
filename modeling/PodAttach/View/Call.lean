import PodAttach.Cni.Call
import PodAttach.Cni.Message
import PodAttach.View.Basic

/-!
# Calls of the runtime as they are shown
-/

namespace PodAttach.View

/-- Name servers and the like. -/
def dns (d : Cni.Dns) : Json :=
  .obj [
    ("nameservers", .texts d.nameservers),
    ("domain", optStr d.domain),
    ("search", .texts d.search),
    ("options", .texts d.options)]

/-- A request. -/
def request (r : Cni.Request) : Json :=
  .obj [
    ("command", str r.command.name),
    ("container_id", str r.args.containerId),
    ("netns", str r.args.netns),
    ("ifname", str r.args.ifname),
    ("args", str r.args.args),
    ("path", str r.args.path),
    ("network_configuration", bytes r.args.networkConfiguration)]

/-- A network configuration. -/
def network (n : Cni.NetConf) : Json :=
  .obj [
    ("cni_version", str n.cniVersion),
    ("name", str n.name),
    ("type", str n.plugin),
    ("mtu", optNat n.mtu),
    ("dns", dns n.dns),
    ("runtime_dns", .obj [
      ("servers", .texts n.runtimeDns.servers), ("searches", .texts n.runtimeDns.searches)]),
    ("effective_dns", dns n.effectiveDns),
    ("prev_result", orNull (n.prevResult.map fun v => str v.render))]

/-- A call. -/
def call (c : Cni.Call) : Json :=
  .obj [
    ("container_id", str c.containerId),
    ("infra_container_id", str c.infraContainerId),
    ("is_infra", .bool c.isInfra),
    ("netns", str c.netns),
    ("ifname", str c.ifname),
    ("cni_version", str c.cniVersion),
    ("pod_name", str c.podName),
    ("pod_namespace", str c.podNamespace),
    ("pod_key", str c.podKey),
    ("path", str c.args.path),
    ("supported", .bool (Cni.isSupported c.cniVersion)),
    ("network", network c.network)]

end PodAttach.View
