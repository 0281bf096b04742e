import PodAttach.Agent.Listener
import PodAttach.Agent.Reconcile
import PodAttach.Cni.Client
import PodAttach.Link.Veth
import PodAttach.Scenario.Netlab
import PodAttach.Scenario.Tools

/-!
# The agent as a whole

The whole agent over scripted tools, a machine to rehearse on and a tree of
files.  Requests are served one after the other.
-/

namespace PodAttach.Scenario

open Agent

/-- An agent with all that it uses. -/
structure Daemon where
  toolbox : Toolbox := {}
  netlab : Netlab := {}
  files : FileTree := .dir []
  store : Store := .empty
  settings : Config.Settings := {}
  deriving Inhabited

namespace Daemon

/-- The tools that drive the switch. -/
def tools (d : Daemon) : Switch.Tools :=
  .onBridge d.settings.ovsBridge d.settings.ovsCommandTimeout d.settings.ofportWait

/-- The directory of descriptors. -/
def descriptors (d : Daemon) : DescriptorDir where
  root := d.settings.descriptorDir
  tree := match d.files.find (FileTree.namesOf d.settings.descriptorDir) with
    | .ok t => some t
    | .error _ => none

/-- How requests are served. -/
def options (d : Daemon) : Options :=
  .ofSettings d.settings

/-- Answers a step of the agent; nobody else holds a lock, and the network is there. -/
def answer (q : Ask) (d : Daemon) : q.Reply × Daemon :=
  match q with
  | .switch c =>
    let (reply, toolbox) := d.toolbox.perform (d.tools.call c)
    (reply, { d with toolbox })
  | .link c =>
    let (reply, netlab) := Proc.run Netlab.answer (Link.serve d.netlab.own c) d.netlab
    (reply, { d with netlab })
  | .descriptor podNamespace name => (d.descriptors.get podNamespace name, d)
  | .pods => (d.descriptors.pods, d)
  | .acquire _ _ => (true, d)
  | .release _ => ((), d)
  | .awaitReady _ => (true, d)
  | .attachment name => (d.store.get? name, d)
  | .attachmentOf containerId => (d.store.find? containerId, d)
  | .attachments => (d.store.list, d)
  | .record a => ((), { d with store := d.store.add a })
  | .forget name => ((), { d with store := d.store.erase name })

/-- Performs an activity of the agent. -/
def perform {α : Type} (d : Daemon) (a : Activity α) : α × Daemon :=
  Proc.run answer a d

/-! ## Starting -/

/-- Learns which ports the switch has. -/
def learnPorts (d : Daemon) : Except Failure Unit × Daemon :=
  match d.toolbox.perform (Switch.Vsctl.listPorts d.tools.vsctl) with
  | (.ok ports, toolbox) => (.ok (), { d with toolbox, store := .ofPorts ports })
  | (.error e, toolbox) => (.error (.switch e), { d with toolbox })

/-- Opens the socket to the kernel. -/
def openKernel (d : Daemon) : Except Failure Unit × Daemon :=
  match d.netlab.perform Link.ownSocket with
  | (.ok _, netlab) => (.ok (), { d with netlab })
  | (.error e, netlab) => (.error (.interface e), { d with netlab })

/-- Makes the socket for requests. -/
def openSocket (d : Daemon) : Except Failure Unit × Daemon :=
  match bindSocket d.files d.settings.cniSocket with
  | .ok files => (.ok (), { d with files })
  | .error reason => (.error (.io reason), d)

/-- Starts the agent: once it listens it goes through all attachments, whatever comes of that. -/
def start (d : Daemon) : Except Failure Unit × Daemon :=
  match d.learnPorts with
  | (.error e, d) => (.error e, d)
  | (.ok (), d) => match d.openKernel with
    | (.error e, d) => (.error e, d)
    | (.ok (), d) => match d.openSocket with
      | (.error e, d) => (.error e, d)
      | (.ok (), d) => (.ok (), (d.perform reconcile).2)

/-! ## Requests -/

/-- What a client gets for a request to an agent that listens. -/
def exchange (d : Daemon) (r : Cni.Request) :
    Except Cni.ProtocolError Cni.Response × Daemon :=
  match r.writeLine with
  | .error e => (.error e, d)
  | .ok line =>
    let (heard, d) := d.perform (serveConnection d.options line)
    ((Cni.Heard.bytes heard).response Cni.clientLimit, d)

end Daemon

end PodAttach.Scenario
