import PodAttach.Cni.Message
import PodAttach.Cni.NetConf
import PodAttach.Cni.PodArgs

/-!
# Decoded calls

What a request says, made explicit: the pod, the namespace as the agent
sees it, and the sandbox whose lock the call takes.  A container that joins
the namespace of another one names it as `container:<sandbox>`.
-/

namespace PodAttach

/-- `namespace/name`, or the name alone without a namespace. -/
def podKey (podNamespace podName : String) : String :=
  if podNamespace.isEmpty then podName else podNamespace ++ "/" ++ podName

namespace Cni

/-- What stands in front of the sandbox in the namespace of a container that joins it. -/
def sharedMark : String := "container:"

/-- A decoded call. -/
structure Call where
  containerId : String
  /-- The sandbox that owns the namespace, and the key of the lock. -/
  infraContainerId : String
  /-- Whether the container owns its namespace. -/
  isInfra : Bool
  /-- The path of the namespace as the agent sees it. -/
  netns : String
  ifname : String
  cniVersion : String
  podName : String
  podNamespace : String
  network : NetConf
  args : CallArgs
  deriving Repr, Inhabited

namespace Call

/-- The pod of the call. -/
def podKey (c : Call) : String :=
  PodAttach.podKey c.podNamespace c.podName

/-- What follows `mark` in a text that starts with it. -/
def afterMark? (mark s : String) : Option String :=
  if mark.toList.isPrefixOf s.toList then
    some (String.ofList (s.toList.drop mark.toList.length))
  else none

/-- The sandbox of a container, and whether that is the container itself.  A sandbox that is
blank, or is the container, is not another one. -/
def sandboxOf (containerId netns : String) : String × Bool :=
  match afterMark? sharedMark netns with
  | some rest =>
    let sandbox := Text.trim rest
    if sandbox.isEmpty || sandbox == containerId then (containerId, true)
    else (sandbox, false)
  | none => (containerId, true)

/-- The text without the slashes at its end. -/
def withoutEndSlashes (s : String) : String :=
  String.ofList ((s.toList.reverse.dropWhile (· == '/')).reverse)

/-- A container that owns its namespace is its own sandbox. -/
theorem sandboxOf_self {containerId netns : String} (h : (sandboxOf containerId netns).2 = true) :
    (sandboxOf containerId netns).1 = containerId := by
  unfold sandboxOf at h ⊢
  cases hrest : afterMark? sharedMark netns with
  | none => rfl
  | some rest =>
    rw [hrest] at h
    by_cases hown : (Text.trim rest).isEmpty || Text.trim rest == containerId
    · simp only [hown, if_true]
    · simp only [hown] at h
      cases h

/-- The path of a namespace below the place where the agent sees the host's processes. -/
def netnsPath (procRoot netns : String) : String :=
  if netns.isEmpty || (afterMark? sharedMark netns).isSome then netns
  else withoutEndSlashes procRoot ++ netns

/-- Decodes the arguments of a request. -/
def decode (procRoot : String) (args : CallArgs) : Except CallError Call :=
  match NetConf.parse? args.networkConfiguration with
  | none => .error (.undecodable "network config")
  | some network => match PodArgs.parse args.args with
    | .error _ => .error (.undecodable "runtime args")
    | .ok pod =>
      let (infraContainerId, isInfra) := sandboxOf args.containerId args.netns
      .ok {
        containerId := args.containerId
        infraContainerId
        isInfra
        netns := netnsPath procRoot args.netns
        ifname := args.ifname
        cniVersion := network.cniVersion
        podName := pod.podName
        podNamespace := pod.podNamespace
        network
        args }

end Call

end Cni

end PodAttach
