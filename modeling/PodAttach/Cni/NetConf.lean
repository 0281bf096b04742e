import PodAttach.Cni.Dns

/-!
# Network configurations

The JSON document that the runtime hands over with every request.
-/

namespace PodAttach.Cni

/-- Name resolution settings given by the runtime for one pod. -/
structure RuntimeDns where
  servers : List String := []
  searches : List String := []
  deriving DecidableEq, Repr, Inhabited

/-- A network configuration. -/
structure NetConf where
  cniVersion : String := ""
  name : String := ""
  plugin : String := ""
  mtu : Option Nat := none
  dns : Dns := {}
  runtimeDns : RuntimeDns := {}
  /-- What an earlier request returned. -/
  prevResult : Option Json := none
  deriving Repr, Inhabited

/-- The largest number of 32 bits. -/
def maxUInt32 : Nat := 0xFFFFFFFF

open Json in
/-- Reads the runtime's settings. -/
def RuntimeDns.ofDocument? (d : Document) : Option RuntimeDns := do
  let fs ← d.record? ["servers", "searches"]
  let texts := Document.list? Document.text?
  let servers ← Fields.withDefault? fs "servers" [] texts
  let searches ← Fields.withDefault? fs "searches" [] texts
  return { servers, searches }

open Json in
/-- Reads the part of a configuration that the runtime fills in. -/
def RuntimeDns.ofRuntimeConfig? (d : Document) : Option RuntimeDns := do
  let fs ← d.record? ["dns"]
  Fields.withDefault? fs "dns" {} RuntimeDns.ofDocument?

namespace NetConf

open Json in
/-- Reads a configuration.  An earlier result is kept as a value; it lies one level deep. -/
def ofDocument? (d : Document) : Option NetConf := do
  let fs ← d.record?
    ["cniVersion", "name", "type", "mtu", "dns", "runtimeConfig", "prevResult"]
  let cniVersion ← Fields.withDefault? fs "cniVersion" "" Document.text?
  let name ← Fields.withDefault? fs "name" "" Document.text?
  let plugin ← Fields.withDefault? fs "type" "" Document.text?
  let mtu ← Fields.withDefault? fs "mtu" none
    (Document.optional? (Document.nat? maxUInt32))
  let dns ← Fields.withDefault? fs "dns" {} Dns.ofDocument?
  let runtimeDns ← Fields.withDefault? fs "runtimeConfig" {} RuntimeDns.ofRuntimeConfig?
  let prevResult ← Fields.withDefault? fs "prevResult" none
    (Document.optional? (Document.value? (maxDepth - 1)))
  return { cniVersion, name, plugin, mtu, dns, runtimeDns, prevResult }

/-- The configuration that the bytes spell. -/
def parse? (bytes : Bytes) : Option NetConf :=
  match Json.Document.parse? bytes with
  | some d => ofDocument? d
  | none => none

/-- The settings for the result: the runtime's servers and search list win where it gives some. -/
def effectiveDns (c : NetConf) : Dns :=
  { c.dns with
    nameservers :=
      if c.runtimeDns.servers.isEmpty then c.dns.nameservers else c.runtimeDns.servers
    search :=
      if c.runtimeDns.searches.isEmpty then c.dns.search else c.runtimeDns.searches }

end NetConf

/-- The versions of the interface that are served. -/
def supportedVersions : List String :=
  ["0.1.0", "0.2.0", "0.3.0", "0.3.1", "0.4.0"]

/-- Whether a version is served. -/
def isSupported (version : String) : Bool :=
  supportedVersions.contains version

end PodAttach.Cni
