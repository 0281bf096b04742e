import PodAttach.Cni.Line
import PodAttach.Config.Error
import PodAttach.Descriptor.Error
import PodAttach.Link.Basic
import PodAttach.Switch.Basic

/-!
# Failures of the agent

Whatever can go wrong, with the part of the agent that it happened in.
-/

namespace PodAttach

/-- A failure, by the part of the agent that it happened in. -/
inductive Failure where
  | config (e : Config.Error)
  | interface (e : Link.Error)
  | switch (e : Switch.Error)
  | descriptor (e : DescriptorError)
  | protocol (e : Cni.ProtocolError)
  | io (reason : String)
  deriving DecidableEq, Repr, Inhabited

namespace Failure

/-- The wording of a failure. -/
def message : Failure → String
  | .config e => "Configuration error: " ++ e.message
  | .interface e => "Interface operation error: " ++ e.message
  | .switch e => "Switch operation error: " ++ e.message
  | .descriptor e => "Interface descriptor error: " ++ e.message
  | .protocol e => "Protocol error: " ++ e.message
  | .io reason => "IO error: " ++ reason

/-- The kind of a failure: where it happened, and what it was. -/
def kind : Failure → String
  | .config e => "Config." ++ e.kind
  | .interface e => "Interface." ++ e.kind
  | .switch e => "Switch." ++ e.kind
  | .descriptor e => "Descriptor." ++ e.kind
  | .protocol e => "Protocol." ++ e.kind
  | .io _ => "Io"

/-- What the runtime gets when an interface could not be set up or removed. -/
def whileConfiguring (f : Failure) : Cni.CallError :=
  ⟨.configInterfaceFailure, f.message⟩

/-- What the runtime gets when an interface is not as it should be. -/
def whileChecking (f : Failure) : Cni.CallError :=
  ⟨.checkInterfaceFailure, f.message⟩

end Failure

end PodAttach
