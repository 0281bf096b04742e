import PodAttach.Attachment.Basic
import PodAttach.View.Address

/-!
# Attachments as they are shown
-/

namespace PodAttach.View

/-- The port of an attachment. -/
def attachedPort (p : AttachedPort) : Json :=
  .obj [("port_uuid", str p.uuid), ("ofport", optNat p.ofport)]

/-- An attachment. -/
def attachment (a : Attachment) : Json :=
  .obj [
    ("interface_name", str a.interfaceName),
    ("container_id", str a.containerId),
    ("pod_name", str a.podName),
    ("pod_namespace", str a.podNamespace),
    ("vif_id", str a.vifId),
    ("mac", str a.mac),
    ("ips", ips a.ips),
    ("ovs_port", orNull (a.port.map attachedPort))]

/-- A port of the switch. -/
def port (p : Switch.Port) : Json :=
  .obj [
    ("uuid", str p.uuid),
    ("name", str p.name),
    ("ofport", optNat p.ofport),
    ("external_ids", table str p.externalIds)]

end PodAttach.View
