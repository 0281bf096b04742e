import PodAttach.Cni.Call
import PodAttach.Net.Ip
import PodAttach.Switch.Basic

/-!
# Attachments

What the agent records of an interface that it attached.  The record is
written onto the port of the switch as identifiers (`externalIds`), and can
be had from a port again (`ofPort?`).
-/

namespace PodAttach

open Net

/-- The port of an attached interface. -/
structure AttachedPort where
  uuid : String
  /-- Nothing until the switch gives the port a number. -/
  ofport : Option Nat
  deriving DecidableEq, Repr, Inhabited

/-- An interface that is attached to the switch. -/
structure Attachment where
  /-- The name of the link that stays with the node, and of the port. -/
  interfaceName : String
  containerId : String
  podName : String
  podNamespace : String
  vifId : String
  mac : String
  ips : List Ip
  port : Option AttachedPort
  deriving DecidableEq, Repr, Inhabited

namespace Attachment

/-- The pod of the attachment. -/
def podKey (a : Attachment) : String :=
  PodAttach.podKey a.podNamespace a.podName

/-- Addresses in one text, with commas between them. -/
def addressesText (ips : List Ip) : String :=
  String.ofList (Text.join ',' (ips.map Ip.chars))

/-- The addresses in a text with commas between them; what is no address is passed over. -/
def addressesOf (s : String) : List Ip :=
  (Text.pieces ',' s.toList).filterMap Ip.ofChars?

/-- The identifiers of the attachment's port. -/
def externalIds (a : Attachment) : Table String :=
  .ofList [
    (Switch.idContainer, a.containerId),
    (Switch.idMac, a.mac),
    (Switch.idAddresses, addressesText a.ips),
    (Switch.idPodName, a.podName),
    (Switch.idPodNamespace, a.podNamespace),
    (Switch.idVif, a.vifId)]

/-- The attachment that a port belongs to.  Ports without a container were made by others. -/
def ofPort? (p : Switch.Port) : Option Attachment :=
  match p.externalIds.get? Switch.idContainer with
  | none => none
  | some containerId =>
    let id := fun key => (p.externalIds.get? key).getD ""
    some {
      interfaceName := p.name
      containerId
      podName := id Switch.idPodName
      podNamespace := id Switch.idPodNamespace
      vifId := id Switch.idVif
      mac := id Switch.idMac
      ips := addressesOf (id Switch.idAddresses)
      port := some ⟨p.uuid, p.ofport⟩ }

end Attachment

end PodAttach
