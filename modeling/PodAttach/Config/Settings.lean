import PodAttach.Config.Error
import PodAttach.Duration

/-!
# Settings of the agent

Ten settings, each with a default.  Every setting can be given as a text;
`Settings.set` reads the text, and says what is wrong with it if it denotes
no value.  `Settings.validate` refuses values that cannot work.
-/

namespace PodAttach.Config

/-- How log lines look. -/
inductive LogFormat where
  | text
  | json
  deriving DecidableEq, Repr, Inhabited

namespace LogFormat

/-- The format that a text names; letter case and white space around it do not count. -/
def parse? (s : String) : Option LogFormat :=
  match Text.lower (Text.trim s) with
  | "text" => some .text
  | "json" => some .json
  | _ => none

/-- The name of a format. -/
def name : LogFormat → String
  | .text => "text"
  | .json => "json"

end LogFormat

/-- The settings. -/
structure Settings where
  cniSocket : String := "/var/run/ovs-cni/cni.sock"
  ovsBridge : String := "br-int"
  /-- What stands before the paths of namespaces. -/
  procRoot : String := ""
  descriptorDir : String := "/var/lib/ovs-cni/ports"
  networkReadyTimeout : Duration := .ofSecs 30
  /-- How long a request waits for a busy container; without a limit it waits forever. -/
  lockTimeout : Option Duration := none
  ofportWait : Duration := .ofSecs 1
  ovsCommandTimeout : Duration := .ofSecs 10
  logLevel : String := "info"
  logFormat : LogFormat := .text
  deriving DecidableEq, Repr

instance : Inhabited Settings := ⟨{}⟩

/-- The names of the settings. -/
inductive Field where
  | cniSocket
  | ovsBridge
  | procRoot
  | descriptorDir
  | networkReadyTimeout
  | lockTimeout
  | ofportWait
  | ovsCommandTimeout
  | logLevel
  | logFormat
  deriving DecidableEq, Repr, Inhabited

/-! ## Reading one setting -/

/-- A text denotes no duration. -/
def Error.badDuration (s : String) : Error :=
  .invalidFormat ("Invalid duration '" ++ Text.trim s ++
    "'. Expected e.g. '500ms', '30s' or '2m'")

/-- A text names no log format. -/
def Error.badLogFormat (s : String) : Error :=
  .invalidFormat ("Invalid log format '" ++ Text.lower (Text.trim s) ++
    "'. Expected 'text' or 'json'")

/-- The value that a reader gives, or the error if it gives none. -/
def orError {α : Type} (e : Error) : Option α → Except Error α
  | some a => .ok a
  | none => .error e

/-- The duration that a text denotes. -/
def readDuration (s : String) : Except Error Duration :=
  orError (.badDuration s) (Duration.parse? s)

/-- The limit that a text denotes. -/
def readLimit (s : String) : Except Error (Option Duration) :=
  orError (.badDuration s) (Duration.parseLimit? s)

/-- The log format that a text names. -/
def readLogFormat (s : String) : Except Error LogFormat :=
  orError (.badLogFormat s) (LogFormat.parse? s)

namespace Settings

/-- The settings with one of them given as a text. -/
def set (s : Settings) (field : Field) (text : String) : Except Error Settings :=
  match field with
  | .cniSocket => .ok { s with cniSocket := text }
  | .ovsBridge => .ok { s with ovsBridge := text }
  | .procRoot => .ok { s with procRoot := text }
  | .descriptorDir => .ok { s with descriptorDir := text }
  | .networkReadyTimeout =>
    (readDuration text).map fun d => { s with networkReadyTimeout := d }
  | .lockTimeout => (readLimit text).map fun d => { s with lockTimeout := d }
  | .ofportWait => (readDuration text).map fun d => { s with ofportWait := d }
  | .ovsCommandTimeout => (readDuration text).map fun d => { s with ovsCommandTimeout := d }
  | .logLevel => .ok { s with logLevel := text }
  | .logFormat => (readLogFormat text).map fun f => { s with logFormat := f }

/-! ## Values that cannot work -/

/-- Whether a text is nothing but white space. -/
def isBlankText (s : String) : Bool :=
  (Text.trim s).isEmpty

/-- What makes settings fail that were read without error. -/
def fault? (s : Settings) : Option Error :=
  if isBlankText s.cniSocket then some (.missingRequired "cni_socket")
  else if isBlankText s.ovsBridge then some (.missingRequired "ovs_bridge")
  else if isBlankText s.descriptorDir then some (.missingRequired "descriptor_dir")
  else if s.ofportWait.isZero then some (.invalid "ofport_wait must be greater than zero")
  else if s.ovsCommandTimeout.isZero then
    some (.invalid "ovs_command_timeout must be greater than zero")
  else if !s.procRoot.isEmpty && s.procRoot.toList.head? != some '/' then
    some (.invalid ("host_proc_path_prefix '" ++ s.procRoot ++ "' must be an absolute path"))
  else none

/-- The settings, if they can work. -/
def validate (s : Settings) : Except Error Settings :=
  match s.fault? with
  | some e => .error e
  | none => .ok s

end Settings

end PodAttach.Config
