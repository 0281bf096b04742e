import PodAttach.Attachment.Basic
import PodAttach.Cni.Dns
import PodAttach.Given.Address
import PodAttach.Link.Basic

/-!
# Attachments, ports and pairs as they are given
-/

namespace PodAttach.Given

open Json.Access

/-- The port of an attachment. -/
def attachedPort? (v : Json) : Option AttachedPort :=
  match v with
  | .obj _ => some ⟨text v "port_uuid", nat? v "ofport"⟩
  | _ => none

/-- An attachment. -/
def attachment (v : Json) : Attachment where
  interfaceName := text v "interface_name"
  containerId := text v "container_id"
  podName := text v "pod_name"
  podNamespace := text v "pod_namespace"
  vifId := text v "vif_id"
  mac := text v "mac"
  ips := ips v "ips"
  port := attachedPort? (field v "ovs_port")

/-- A table of texts. -/
def textTable (v : Json) (k : String) : Table String :=
  .ofList ((members v k).map fun (k, v) => (k, asText v))

/-- A port of the switch. -/
def port (v : Json) : Switch.Port :=
  ⟨text v "uuid", text v "name", nat? v "ofport", textTable v "external_ids"⟩

/-- What a pair is to be. -/
def pairSpec (v : Json) : Link.PairSpec where
  containerId := text v "container_id"
  hostIfname := text v "host_ifname"
  netns := text v "netns"
  containerIfname := text v "container_ifname"
  mtu := nat v "mtu"
  mac := text v "mac"
  addresses := (texts v "addresses").map cidr
  routes := (items v "routes").map route

/-- Name servers and the like. -/
def dns (v : Json) : Cni.Dns where
  nameservers := texts v "nameservers"
  domain := text? v "domain"
  search := texts v "search"
  options := texts v "options"

end PodAttach.Given
