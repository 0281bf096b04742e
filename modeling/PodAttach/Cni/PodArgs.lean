import PodAttach.Text.Blank
import PodAttach.Text.Quoted
import PodAttach.Text.Split

/-!
# Runtime arguments

The orchestrator names the pod in a text of pairs `KEY=VALUE`, separated by
semicolons.  Keys that are not known are refused unless the pair
`IgnoreUnknown` with the value `1` or `true` stands anywhere in the text.
-/

namespace PodAttach.Cni

/-- The pod that a container belongs to. -/
structure PodArgs where
  podName : String := ""
  podNamespace : String := ""
  infraContainerId : String := ""
  deriving DecidableEq, Repr, Inhabited

/-- Why runtime arguments are refused. -/
inductive PodArgsError where
  /-- A piece does not hold exactly one equals sign. -/
  | badPair (piece : String)
  /-- A key is not known. -/
  | unknownKey (key : String)
  deriving DecidableEq, Repr

/-- The wording of a refusal. -/
def PodArgsError.message : PodArgsError → String
  | .badPair piece => "ARGS: invalid pair " ++ Text.quoted piece
  | .unknownKey key => "ARGS: unknown args " ++ Text.quoted key

namespace PodArgs

/-- The key and the value of one piece. -/
def pair (piece : String) : Except PodArgsError (String × String) :=
  match Text.split '=' piece with
  | [key, value] => .ok (key, value)
  | _ => .error (.badPair piece)

/-- Whether a pair says that keys that are not known are passed over. -/
def ignoresUnknown (p : String × String) : Bool :=
  p.1 == "IgnoreUnknown" && (Text.lower p.2 == "1" || Text.lower p.2 == "true")

/-- Takes one pair in. -/
def set (lenient : Bool) (a : PodArgs) (p : String × String) : Except PodArgsError PodArgs :=
  if p.1 == "K8S_POD_NAME" then .ok { a with podName := p.2 }
  else if p.1 == "K8S_POD_NAMESPACE" then .ok { a with podNamespace := p.2 }
  else if p.1 == "K8S_POD_INFRA_CONTAINER_ID" then .ok { a with infraContainerId := p.2 }
  else if p.1 == "IgnoreUnknown" || lenient then .ok a
  else .error (.unknownKey p.1)

/-- Reads runtime arguments. -/
def parse (s : String) : Except PodArgsError PodArgs := do
  if s.isEmpty then return {}
  let pairs ← (Text.split ';' s).mapM pair
  pairs.foldlM (set (pairs.any ignoresUnknown)) {}

end PodArgs

end PodAttach.Cni
