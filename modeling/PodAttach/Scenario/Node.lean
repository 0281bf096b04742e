import PodAttach.Agent.Ask
import PodAttach.Failure
import PodAttach.Switch.Bridge

/-!
# A node to rehearse on

A node without a kernel and a switch: its bridge and its pairs of links are
entries in tables.  Calls on it are logged, take some time, and can be made
to fail.
-/

namespace PodAttach.Scenario

open Agent

/-- Where descriptors come from. -/
inductive Source where
  /-- From a table, by namespace and name. -/
  | table (pods : List ((String × String) × Descriptor))
  /-- From a directory. -/
  | directory (dir : DescriptorDir)
  deriving Repr, Inhabited

namespace Source

/-- Another descriptor for a pod, or none. -/
def setDescriptor (src : Source) (pod : String × String) (d : Option Descriptor) : Source :=
  match src with
  | .directory dir => .directory dir
  | .table pods =>
    let others := pods.filter fun e => e.1 != pod
    .table (match d with
      | some d => others ++ [(pod, d)]
      | none => others)

/-- Another content for a file of the directory, or no such file. -/
def setFile (src : Source) (path : List String) (content : Option Bytes) : Source :=
  match src with
  | .table pods => .table pods
  | .directory dir =>
    let tree := dir.tree.getD (.dir [])
    .directory { dir with tree := some (match content with
      | some content => FileTree.put (.file content) path tree
      | none => FileTree.remove path tree) }

end Source

/-- A failure that calls meet. -/
structure Fault where
  /-- How many calls still meet it; all if there is no number. -/
  count : Option Nat
  /-- What they meet; if nothing is given, what is usual for the call. -/
  failure : Option Failure
  deriving DecidableEq, Repr, Inhabited

/-- A node. -/
structure Node where
  bridge : Switch.Bridge := {}
  /-- The pairs of links, by the name of the end that stays. -/
  pairs : Table Unit := .empty
  source : Source := .table []
  /-- What calls meet, by the name of the call. -/
  faults : Table Fault := .empty
  /-- How long calls take, by the name of the call. -/
  delays : Table Nat := .empty
  /-- The calls so far, the last one first. -/
  log : List Ask := []
  deriving Repr, Inhabited

/-- The name of a call; steps within the agent have none. -/
def callName? : Ask → Option String
  | .switch (.createPort ..) => some "create_port"
  | .switch (.deletePort _) => some "delete_port"
  | .switch (.getOfport _) => some "get_ofport"
  | .switch (.installFlows ..) => some "install_flows"
  | .switch (.uninstallFlows _) => some "uninstall_flows"
  | .link (.build _) => some "build_pair"
  | .link (.teardown ..) => some "teardown"
  | .link (.check ..) => some "check_pair"
  | .descriptor .. => some "get_descriptor"
  | .pods => some "list_pods"
  | _ => none

namespace Node

/-! ## What calls do -/

/-- The hardware address of the end that stays. -/
def hostMac : String := "02:00:00:00:00:01"

/-- What a call on the switch does. -/
def onSwitch (n : Node) (c : Switch.Call) : c.Reply × Node :=
  let (reply, bridge) := n.bridge.call c
  (reply, { n with bridge })

/-- What a call on the links does. -/
def onLinks (n : Node) : (c : Link.Call) → c.Reply × Node
  | .build spec =>
    (.ok ⟨⟨spec.hostIfname, hostMac, ""⟩, ⟨spec.containerIfname, spec.mac, spec.netns⟩⟩,
      { n with pairs := n.pairs.insert spec.hostIfname () })
  | .teardown _ hostIfname => (.ok (), { n with pairs := n.pairs.erase hostIfname })
  | .check hostIfname _ _ _ =>
    (if n.pairs.contains hostIfname then .ok () else .error (.linkNotFound hostIfname), n)

/-- The descriptor of a pod. -/
def descriptor (n : Node) (podNamespace name : String) : Except DescriptorError Descriptor :=
  match n.source with
  | .directory dir => dir.get podNamespace name
  | .table pods => match pods.lookup (podNamespace, name) with
    | some d => .ok d
    | none => .error (.notFound podNamespace name)

/-- The pods of the node, in order. -/
def pods (n : Node) : Except DescriptorError (List PodRef) :=
  match n.source with
  | .directory dir => dir.pods
  | .table pods =>
    .ok ((pods.map fun ((podNamespace, name), d) =>
      (⟨podNamespace, name, d.hostNetwork⟩ : PodRef)).mergeSort DescriptorDir.before)

/-! ## What calls meet -/

/-- The failure that a call meets, if it meets one; it is used up by that. -/
def meet (n : Node) (name : String) : Option Fault × Node :=
  match n.faults.get? name with
  | none => (none, n)
  | some f => match f.count with
    | none => (some f, n)
    | some 0 => (none, n)
    | some (k + 1) => (some f, { n with faults := n.faults.insert name { f with count := some k } })

/-- The error of a call on the switch. -/
def switchError (f : Fault) (c : Switch.Call) : Switch.Error :=
  match f.failure with
  | some (.switch e) => e
  | _ => match c with
    | .createPort .. => .command "create_port" "injected"
    | .deletePort _ => .command "delete_port" "injected"
    | .getOfport name => .ofPortUnavailable name
    | .installFlows name _ _ _ => .installFlows name "injected"
    | .uninstallFlows name => .uninstallFlows name "injected"

/-- The error of a call on the links. -/
def linkError (f : Fault) (c : Link.Call) : Link.Error :=
  match f.failure with
  | some (.interface e) => e
  | _ => match c with
    | .build spec => .linkCreate spec.hostIfname "injected"
    | .teardown _ hostIfname => .linkDelete hostIfname "injected"
    | .check .. => .check "injected"

/-- The error of a look-up of descriptors. -/
def descriptorError (f : Fault) : DescriptorError :=
  match f.failure with
  | some (.descriptor e) => e
  | _ => .io "" "injected"

/-- Whether a step is a call that is written down; look-ups in a directory are not. -/
def isLogged (n : Node) (q : Ask) : Bool :=
  match q, n.source with
  | .descriptor .., .directory _ => false
  | .pods, .directory _ => false
  | q, _ => (callName? q).isSome

/-- Writes a call down. -/
def note (n : Node) (q : Ask) : Node :=
  if n.isLogged q then { n with log := q :: n.log } else n

/-- How long a call takes. -/
def delay (n : Node) (q : Ask) : Nat :=
  match callName? q with
  | some name => (n.delays.get? name).getD 0
  | none => 0

/-- A call on the switch, which may fail. -/
def callSwitch (n : Node) (c : Switch.Call) : c.Reply × Node :=
  match n.meet ((callName? (.switch c)).getD "") with
  | (some f, n) => (.error (switchError f c), n)
  | (none, n) => n.onSwitch c

/-- A call on the links, which may fail. -/
def callLinks (n : Node) (c : Link.Call) : c.Reply × Node :=
  match n.meet ((callName? (.link c)).getD "") with
  | (some f, n) => (.error (linkError f c), n)
  | (none, n) => n.onLinks c

/-- A look-up of a descriptor, which may fail. -/
def callDescriptor (n : Node) (podNamespace name : String) :
    Except DescriptorError Descriptor × Node :=
  match n.meet "get_descriptor" with
  | (some f, n) => (.error (descriptorError f), n)
  | (none, n) => (n.descriptor podNamespace name, n)

/-- A listing of the pods, which may fail. -/
def callPods (n : Node) : Except DescriptorError (List PodRef) × Node :=
  match n.meet "list_pods" with
  | (some f, n) => (.error (descriptorError f), n)
  | (none, n) => (n.pods, n)

end Node

end PodAttach.Scenario
