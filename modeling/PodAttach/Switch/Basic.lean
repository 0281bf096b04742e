import PodAttach.Table
import PodAttach.Text.Digits

/-!
# Ports of the switch

A port of the bridge carries identifiers under fixed names, from which the
agent knows what it is for.  The switch gives a port an OpenFlow number some
time after it was made.
-/

namespace PodAttach.Switch

/-- A port as the switch lists it. -/
structure Port where
  uuid : String
  name : String
  ofport : Option Nat
  externalIds : Table String
  deriving DecidableEq, Repr, Inhabited

/-- The identifier that holds the container. -/
def idContainer : String := "container-id"

/-- The identifier that holds the hardware address. -/
def idMac : String := "attached-mac"

/-- The identifier that holds the addresses. -/
def idAddresses : String := "ip-address"

/-- The identifier that holds the pod's name. -/
def idPodName : String := "pod-name"

/-- The identifier that holds the pod's namespace. -/
def idPodNamespace : String := "pod-namespace"

/-- The identifier that holds the virtual interface. -/
def idVif : String := "iface-id"

/-- What went wrong with the switch. -/
inductive Error where
  /-- A tool could not be started or fed. -/
  | spawn (program reason : String)
  /-- A tool reported a failure. -/
  | command (line stderr : String)
  /-- A tool took too long. -/
  | timeout (line : String) (seconds : Nat)
  /-- A port has no OpenFlow number. -/
  | ofPortUnavailable (port : String)
  /-- A tool printed something that cannot be read. -/
  | invalidOutput (what : String)
  /-- Flows could not be installed. -/
  | installFlows (port reason : String)
  /-- Flows could not be removed. -/
  | uninstallFlows (port reason : String)
  /-- Connecting failed, and the port could not be removed again. -/
  | portLeftAttached (port uuid : String) (ofport : Option Nat) (source cleanup : Error)
  deriving DecidableEq, Repr, Inhabited

/-- The kind of an error. -/
def Error.kind : Error → String
  | .spawn .. => "Spawn"
  | .command .. => "Command"
  | .timeout .. => "Timeout"
  | .ofPortUnavailable _ => "OfPortUnavailable"
  | .invalidOutput _ => "InvalidOutput"
  | .installFlows .. => "InstallFlows"
  | .uninstallFlows .. => "UninstallFlows"
  | .portLeftAttached .. => "PortLeftAttached"

/-- The wording of an error. -/
def Error.message : Error → String
  | .spawn program reason => "Failed to run " ++ program ++ ": " ++ reason
  | .command line stderr => line ++ " failed: " ++ stderr
  | .timeout line seconds => line ++ " timed out after " ++ Text.decimal seconds ++ "s"
  | .ofPortUnavailable port => "OpenFlow port of " ++ port ++ " not available"
  | .invalidOutput what => "Unexpected switch output: " ++ what
  | .installFlows port reason => "Failed to install flows for " ++ port ++ ": " ++ reason
  | .uninstallFlows port reason => "Failed to uninstall flows for " ++ port ++ ": " ++ reason
  | .portLeftAttached port _ _ source cleanup =>
    source.message ++ " (port " ++ port ++ " left on the bridge: " ++ cleanup.message ++ ")"

end PodAttach.Switch
