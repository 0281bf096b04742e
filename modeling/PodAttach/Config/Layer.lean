import PodAttach.Config.Settings

/-!
# Layers

A layer gives some of the settings as texts.  It is laid over settings one
field after the other, so of several bad texts the first in the layer's order
is reported.
-/

namespace PodAttach.Config

/-- What a layer gives. -/
abbrev Layer : Type :=
  Field → Option String

namespace Layer

/-- A layer that gives nothing. -/
def empty : Layer := fun _ => none

/-- One field of a layer over settings. -/
def applyField (l : Layer) (s : Settings) (field : Field) : Except Error Settings :=
  match l field with
  | some text => s.set field text
  | none => .ok s

/-- A layer over settings, field after field. -/
def apply (l : Layer) (order : List Field) (s : Settings) : Except Error Settings :=
  order.foldlM l.applyField s

end Layer

/-- The order in which files and environments are read. -/
def usualOrder : List Field := [
  .cniSocket, .ovsBridge, .procRoot, .descriptorDir, .networkReadyTimeout, .lockTimeout,
  .ofportWait, .ovsCommandTimeout, .logLevel, .logFormat]

/-- The order in which command lines are read. -/
def commandLineOrder : List Field := [
  .logLevel, .logFormat, .cniSocket, .ovsBridge, .procRoot, .descriptorDir,
  .networkReadyTimeout, .lockTimeout, .ofportWait, .ovsCommandTimeout]

/-! ## Environments -/

/-- What the names of variables start with. -/
def variableStart : String := "OVS_CNI_AGENT_"

/-- The variable of a setting, after the common start. -/
def Field.variable : Field → String
  | .cniSocket => "CNI_SOCKET"
  | .ovsBridge => "OVS_BRIDGE"
  | .procRoot => "HOST_PROC_PATH_PREFIX"
  | .descriptorDir => "DESCRIPTOR_DIR"
  | .networkReadyTimeout => "NETWORK_READY_TIMEOUT"
  | .lockTimeout => "LOCK_TIMEOUT"
  | .ofportWait => "OFPORT_WAIT"
  | .ovsCommandTimeout => "OVS_COMMAND_TIMEOUT"
  | .logLevel => "LOG_LEVEL"
  | .logFormat => "LOG_FORMAT"

/-- What an environment gives. -/
def Layer.ofEnvironment (lookup : String → Option String) : Layer :=
  fun field => lookup (variableStart ++ field.variable)

end PodAttach.Config
