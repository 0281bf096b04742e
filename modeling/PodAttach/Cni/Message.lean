import PodAttach.Cni.Code
import PodAttach.Json.Record

/-!
# Messages between plugin and agent

A request carries a command and the arguments of the runtime; a response
carries a result or an error.  Both have a JSON form: `toJson` writes it, and
`ofDocument?` reads it and every other spelling of it.
-/

namespace PodAttach.Cni

/-- What the runtime wants done. -/
inductive Command where
  | add
  | del
  | check
  deriving DecidableEq, Repr, Inhabited

/-- The command as the runtime spells it. -/
def Command.name : Command → String
  | .add => "ADD"
  | .del => "DEL"
  | .check => "CHECK"

/-- The command as messages spell it. -/
def Command.tag : Command → String
  | .add => "add"
  | .del => "del"
  | .check => "check"

/-- The command that a tag spells. -/
def Command.ofTag? (s : String) : Option Command :=
  if s = "add" then some .add
  else if s = "del" then some .del
  else if s = "check" then some .check
  else none

/-- The arguments of the runtime, handed on as they are. -/
structure CallArgs where
  containerId : String := ""
  netns : String := ""
  ifname : String := ""
  args : String := ""
  path : String := ""
  /-- The network configuration document. -/
  networkConfiguration : Bytes := []
  deriving DecidableEq, Repr, Inhabited

/-- A request of the plugin. -/
structure Request where
  command : Command
  args : CallArgs
  deriving DecidableEq, Repr, Inhabited

/-- The answer to a request; the result is empty for all commands but `add`. -/
structure Response where
  result : Bytes := []
  error : Option CallError := none
  deriving DecidableEq, Repr, Inhabited

namespace Response

/-- The answer that reports an error. -/
def ofError (e : CallError) : Response := ⟨[], some e⟩

/-- The answer for an outcome. -/
def ofExcept : Except CallError Bytes → Response
  | .ok result => ⟨result, none⟩
  | .error e => ofError e

/-- Whether no error is reported. -/
def isOk (r : Response) : Bool := r.error.isNone

end Response

/-! ## Reading -/

open Json

/-- Bytes that are given as a text; `null` is no bytes. -/
def payload? (d : Document) : Option Bytes :=
  (d.optional? Document.text?).map fun
    | some s => Utf8.encode s
    | none => []

/-- Reads the arguments of a request; what is left out is empty. -/
def CallArgs.ofDocument? (d : Document) : Option CallArgs := do
  let fs ← d.record?
    ["container_id", "netns", "ifname", "args", "path", "network_configuration"]
  let text := fun name => Fields.withDefault? fs name "" Document.text?
  let containerId ← text "container_id"
  let netns ← text "netns"
  let ifname ← text "ifname"
  let args ← text "args"
  let path ← text "path"
  let networkConfiguration ← Fields.withDefault? fs "network_configuration" [] payload?
  return { containerId, netns, ifname, args, path, networkConfiguration }

/-- Reads a request.  The whole document has to be a value, in its unknown parts too. -/
def Request.ofDocument? (d : Document) : Option Request := do
  let _ ← d.value? maxDepth
  let fs ← d.record? ["command", "cni_args"]
  let tag ← Fields.required? fs "command" Document.text?
  let command ← Command.ofTag? tag
  let args ← Fields.required? fs "cni_args" CallArgs.ofDocument?
  return { command, args }

/-- Reads an error code, a number of 32 bits. -/
def Code.ofDocument? (d : Document) : Option Code :=
  d.int?.bind Code.ofNumber?

/-- Reads an error. -/
def CallError.ofDocument? (d : Document) : Option CallError := do
  let fs ← d.record? ["code", "message"]
  let code ← Fields.required? fs "code" Code.ofDocument?
  let message ← Fields.required? fs "message" Document.text?
  return { code, message }

/-- Reads a response. -/
def Response.ofDocument? (d : Document) : Option Response := do
  let fs ← d.record? ["cni_result", "error"]
  let result ← Fields.withDefault? fs "cni_result" [] payload?
  let error ← Fields.withDefault? fs "error" none
    (Document.optional? CallError.ofDocument?)
  return { result, error }

/-! ## Writing -/

/-- A request as a value; a configuration that is no text cannot be written. -/
def Request.toJson (r : Request) : Except Utf8.Fault Json := do
  let configuration ← Utf8.decode r.args.networkConfiguration
  return .obj [
    ("command", .str r.command.tag),
    ("cni_args", .obj [
      ("container_id", .str r.args.containerId),
      ("netns", .str r.args.netns),
      ("ifname", .str r.args.ifname),
      ("args", .str r.args.args),
      ("path", .str r.args.path),
      ("network_configuration", .str configuration)])]

/-- An error as a value. -/
def CallError.toJson (e : CallError) : Json :=
  .obj [("code", .nat e.code.number), ("message", .str e.message)]

/-- A response as a value, without what is empty; a result that is no text cannot be written. -/
def Response.toJson (r : Response) : Except Utf8.Fault Json := do
  let result ← Utf8.decode r.result
  return .ofFields [
    ("cni_result", if r.result.isEmpty then none else some (.str result)),
    ("error", r.error.map CallError.toJson)]

end PodAttach.Cni
