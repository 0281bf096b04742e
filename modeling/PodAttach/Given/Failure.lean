import PodAttach.Failure
import PodAttach.Json.Access

/-!
# Failures as they are given

Every error is given by its kind and the fields that belong to it.
-/

namespace PodAttach.Given

open Json.Access

/-- An error with routes. -/
def routeError (v : Json) : RouteError :=
  match text v "kind" with
  | "AddRoute" => .addRoute (text v "text")
  | "AddAddress" => .addAddress (text v "text")
  | _ => .invalid (text v "text")

/-- An error with links. -/
def linkError (v : Json) : Link.Error :=
  match text v "kind" with
  | "NamespaceAccess" => .namespaceAccess (text v "path") (text v "reason")
  | "LinkNotFound" => .linkNotFound (text v "name")
  | "LinkCreate" => .linkCreate (text v "name") (text v "reason")
  | "LinkConfigure" => .linkConfigure (text v "name") (text v "reason")
  | "LinkDelete" => .linkDelete (text v "name") (text v "reason")
  | "InvalidMac" => .invalidMac (text v "text")
  | "Route" => .route (routeError (field v "route"))
  | _ => .check (text v "text")

/-- How deep errors may be nested. -/
def errorDepth : Nat := 128

/-- An error of the switch, no deeper than a bound. -/
def switchErrorWithin : Nat → Json → Switch.Error
  | 0, _ => .invalidOutput ""
  | depth + 1, v => match text v "kind" with
    | "Spawn" => .spawn (text v "command") (text v "source")
    | "Command" => .command (text v "command") (text v "stderr")
    | "Timeout" => .timeout (text v "command") (nat v "seconds")
    | "OfPortUnavailable" => .ofPortUnavailable (text v "port")
    | "InstallFlows" => .installFlows (text v "port") (text v "reason")
    | "UninstallFlows" => .uninstallFlows (text v "port") (text v "reason")
    | "PortLeftAttached" =>
      .portLeftAttached (text v "port") (text v "port_uuid") (nat? v "ofport")
        (switchErrorWithin depth (field v "source")) (switchErrorWithin depth (field v "cleanup"))
    | _ => .invalidOutput (text v "text")

/-- An error of the switch. -/
def switchError : Json → Switch.Error := switchErrorWithin errorDepth

/-- An error with descriptors. -/
def descriptorError (v : Json) : DescriptorError :=
  match text v "kind" with
  | "NotFound" => .notFound (text v "namespace") (text v "name")
  | "Io" => .io (text v "path") (text v "source")
  | "Malformed" => .malformed (text v "path") (text v "reason")
  | "InvalidPodName" => .invalidPodName (text v "namespace") (text v "name")
  | _ => .noMatchingVif (text v "namespace") (text v "name") (text v "ifname")

/-- An error with the configuration. -/
def configError (v : Json) : Config.Error :=
  match text v "kind" with
  | "FileNotFound" => .fileNotFound (text v "path")
  | "InvalidFormat" => .invalidFormat (text v "text")
  | "MissingRequired" => .missingRequired (text v "field")
  | _ => .invalid (text v "text")

/-- A duration. -/
def durationOf (secs nanos : Nat) : Duration := ⟨secs * 1000000000 + nanos⟩

/-- An error with messages. -/
def protocolError (v : Json) : Cni.ProtocolError :=
  match text v "kind" with
  | "Io" => .io (text v "source")
  | "Serialization" => .serialization (text v "text")
  | "Closed" => .closed
  | _ => .timeout (durationOf (nat v "secs") (nat v "nanos"))

/-- A failure of a group. -/
def failureOf (kind : String) (v : Json) : Failure :=
  match kind with
  | "Switch" => .switch (switchError v)
  | "Interface" => .interface (linkError v)
  | "Descriptor" => .descriptor (descriptorError v)
  | "Config" => .config (configError v)
  | "Protocol" => .protocol (protocolError v)
  | _ => .io (text v "source")

end PodAttach.Given
