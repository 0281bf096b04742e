import PodAttach.Cni.Code
import PodAttach.Text.Quoted

/-!
# Why a descriptor is not had

The errors of looking up a descriptor, their wording, and what the runtime
is told.
-/

namespace PodAttach

/-- Why a descriptor is not had. -/
inductive DescriptorError where
  /-- There is none, or not yet. -/
  | notFound (podNamespace name : String)
  /-- A file or directory could not be read. -/
  | io (path reason : String)
  /-- A file does not hold a descriptor. -/
  | malformed (path reason : String)
  /-- The names of the pod are no names of files. -/
  | invalidPodName (podNamespace name : String)
  /-- No interface of the descriptor has the wanted name. -/
  | noMatchingVif (podNamespace name ifname : String)
  deriving DecidableEq, Repr, Inhabited

namespace DescriptorError

/-- The wording of an error. -/
def message : DescriptorError → String
  | .notFound podNamespace name =>
    "Interface descriptor for pod " ++ podNamespace ++ "/" ++ name ++ " not resolved yet"
  | .io path reason => "Failed to read descriptor " ++ path ++ ": " ++ reason
  | .malformed path reason => "Malformed descriptor " ++ path ++ ": " ++ reason
  | .invalidPodName podNamespace name =>
    "Invalid pod name " ++ Text.quoted podNamespace ++ "/" ++ Text.quoted name
  | .noMatchingVif podNamespace name ifname =>
    "No interface named " ++ ifname ++ " in descriptor for pod " ++ podNamespace ++ "/" ++ name

/-- The kind of an error. -/
def kind : DescriptorError → String
  | .notFound .. => "NotFound"
  | .io .. => "Io"
  | .malformed .. => "Malformed"
  | .invalidPodName .. => "InvalidPodName"
  | .noMatchingVif .. => "NoMatchingVif"

/-- The code that the runtime gets. -/
def code : DescriptorError → Cni.Code
  | .notFound .. => .tryAgainLater
  | .io .. => .ioFailure
  | .malformed .. => .invalidNetworkConfig
  | .invalidPodName .. => .invalidNetworkConfig
  | .noMatchingVif .. => .invalidNetworkConfig

/-- The error that the runtime gets. -/
def toCallError (e : DescriptorError) : Cni.CallError :=
  ⟨e.code, e.message⟩

end DescriptorError

end PodAttach
