import PodAttach.Cni.Call
import PodAttach.Cni.Message

/-!
# How the plugin is called

The runtime says in variables what it wants, and gives the network
configuration on standard input.  What it wants is forwarded to the agent,
except for the question which versions are served.
-/

namespace PodAttach.Plugin

/-- The variables of a process. -/
abbrev Environment : Type :=
  String → Option String

/-- What the runtime wants. -/
inductive Invocation where
  /-- Which versions are served. -/
  | version
  /-- A request for the agent. -/
  | request (r : Cni.Request)
  deriving DecidableEq, Repr, Inhabited

/-- The error for a bad variable. -/
def badEnvironment (what : String) : Cni.CallError :=
  ⟨.invalidEnvironmentVariables, what⟩

namespace Environment

/-- A variable that must be set and not be empty. -/
def required (env : Environment) (name : String) : Except Cni.CallError String :=
  match env name with
  | some value =>
    if value.isEmpty then .error (badEnvironment ("required env variable " ++ name ++ " missing"))
    else .ok value
  | none => .error (badEnvironment ("required env variable " ++ name ++ " missing"))

/-- A variable that may be missing. -/
def optional (env : Environment) (name : String) : String :=
  (env name).getD ""

/-- The variable of the namespace: where a container is removed, its namespace may be gone. -/
def netns (env : Environment) : Cni.Command → Except Cni.CallError String
  | .del => .ok (env.optional "CNI_NETNS")
  | .add | .check => env.required "CNI_NETNS"

/-- The request for a command. -/
def request (env : Environment) (stdin : Bytes) (command : Cni.Command) :
    Except Cni.CallError Cni.Request := do
  let containerId ← env.required "CNI_CONTAINERID"
  let ifname ← env.required "CNI_IFNAME"
  let netns ← env.netns command
  return ⟨command, {
    containerId, netns, ifname
    args := env.optional "CNI_ARGS"
    path := env.optional "CNI_PATH"
    networkConfiguration := stdin }⟩

/-- What the runtime wants, given the network configuration. -/
def invocation (env : Environment) (stdin : Bytes) : Except Cni.CallError Invocation := do
  match ← env.required "CNI_COMMAND" with
  | "VERSION" => return .version
  | "ADD" => return .request (← env.request stdin .add)
  | "DEL" => return .request (← env.request stdin .del)
  | "CHECK" => return .request (← env.request stdin .check)
  | other => throw (badEnvironment ("unknown CNI_COMMAND: " ++ other))

end Environment

end PodAttach.Plugin
