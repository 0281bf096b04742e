import PodAttach.Cni.Client
import PodAttach.Plugin.Invocation
import PodAttach.Proc

/-!
# The plugin

What the plugin asks of the agent, what it prints, and whether it ends with
success.  An error is printed as a JSON object on a line of its own.
-/

namespace PodAttach.Plugin

/-- The version in which the plugin speaks when the configuration gives none. -/
def usualVersion : String := "0.4.0"

/-- What the plugin does, request by request to the agent. -/
abbrev Work (α : Type) : Type :=
  Proc Cni.Request (fun _ => Except Cni.ProtocolError Cni.Response) α

/-- Forwards a request: what is printed on success, or the error. -/
def forward (r : Cni.Request) : Work (Except Cni.CallError Bytes) := do
  match ← .question r with
  | .error e => return .error ⟨.unknownRpcError, e.message⟩
  | .ok response => match response.error with
    | some e => return .error e
    | none => return .ok response.result

/-- Whether an outcome is a success, given whether a text can be printed. -/
def isSuccess (prints : Bytes → Bool) : Except Cni.CallError Bytes → Bool
  | .ok bytes => bytes.isEmpty || prints bytes
  | .error _ => false

/-- What the plugin is started with. -/
structure Start where
  env : Environment
  /-- The network configuration, or why it cannot be read. -/
  stdin : Except String Bytes

namespace Start

/-- Whether only the versions are asked for; then nothing is read. -/
def asksVersion (s : Start) : Bool :=
  s.env "CNI_COMMAND" == some "VERSION"

/-- What was read from standard input. -/
def configuration (s : Start) : Bytes :=
  if s.asksVersion then []
  else match s.stdin with
    | .ok bytes => bytes
    | .error _ => []

/-- What the runtime wants. -/
def invocation (s : Start) : Except Cni.CallError Invocation :=
  if s.asksVersion then .ok .version
  else match s.stdin with
    | .ok bytes => s.env.invocation bytes
    | .error reason => .error ⟨.ioFailure, "failed to read network configuration: " ++ reason⟩

/-- The version in which the plugin speaks. -/
def version (s : Start) : String :=
  match Cni.NetConf.parse? s.configuration with
  | some c => if c.cniVersion.isEmpty then usualVersion else c.cniVersion
  | none => usualVersion

/-- The versions that are served. -/
def versions (s : Start) : Json :=
  .obj [("cniVersion", .str s.version), ("supportedVersions", .texts Cni.supportedVersions)]

/-- What the plugin does: what is printed on success, or the error. -/
def work (s : Start) : Work (Except Cni.CallError Bytes) :=
  match s.invocation with
  | .error e => return .error e
  | .ok .version => return .ok (Utf8.encodeChars s.versions.chars)
  | .ok (.request r) => forward r

/-- An error as it is printed. -/
def errorOutput (s : Start) (e : Cni.CallError) : Json :=
  .obj [("cniVersion", .str s.version), ("code", .nat e.code.number), ("msg", .str e.message)]

/-- The bytes that are printed for an outcome. -/
def output (s : Start) : Except Cni.CallError Bytes → Bytes
  | .ok bytes => bytes
  | .error e => Cni.lineOf (s.errorOutput e)

/-! ## With an agent -/

/-- What comes of the plugin's work with an agent. -/
def outcome (s : Start) (agent : Cni.Peer) : Except Cni.CallError Bytes :=
  (s.work.run (fun r () => (agent.send Cni.clientLimit r, ())) ()).1

/-- The bytes that are printed. -/
def printed (s : Start) (agent : Cni.Peer) : Bytes :=
  s.output (s.outcome agent)

/-- Whether the plugin ends with success, given whether a text can be printed. -/
def succeeds (s : Start) (agent : Cni.Peer) (prints : Bytes → Bool) : Bool :=
  isSuccess prints (s.outcome agent)

end Start

end PodAttach.Plugin
