import PodAttach.Attachment.Store
import PodAttach.Descriptor.Directory
import PodAttach.Duration
import PodAttach.Link.Basic
import PodAttach.Switch.Connector

/-!
# What the agent asks for

While it serves a request, the agent takes locks, waits for the node's
network, looks things up in its store and calls on the switch and the links
of the node.  Between two such steps other requests may go on.
-/

namespace PodAttach.Agent

/-- One step of a request. -/
inductive Ask where
  /-- A call on the switch. -/
  | switch (c : Switch.Call)
  /-- A call on the links of the node. -/
  | link (c : Link.Call)
  /-- The descriptor of a pod. -/
  | descriptor (podNamespace name : String)
  /-- The pods of this node. -/
  | pods
  /-- The lock of a container; waits no longer than the limit, if there is one. -/
  | acquire (key : String) (limit : Option Duration)
  /-- Gives the lock of a container back. -/
  | release (key : String)
  /-- The network of the node; waits no longer than the limit. -/
  | awaitReady (limit : Duration)
  /-- The attachment of an interface. -/
  | attachment (name : String)
  /-- The attachment of a container. -/
  | attachmentOf (containerId : String)
  /-- All attachments. -/
  | attachments
  /-- Records an attachment. -/
  | record (a : Attachment)
  /-- Forgets the attachment of an interface. -/
  | forget (name : String)
  deriving DecidableEq, Repr, Inhabited

/-- The answer to a step. -/
@[reducible]
def Ask.Reply : Ask → Type
  | .switch c => c.Reply
  | .link c => c.Reply
  | .descriptor .. => Except DescriptorError Descriptor
  | .pods => Except DescriptorError (List PodRef)
  | .acquire .. => Bool
  | .release _ => Unit
  | .awaitReady _ => Bool
  | .attachment _ => Option Attachment
  | .attachmentOf _ => Option Attachment
  | .attachments => List Attachment
  | .record _ => Unit
  | .forget _ => Unit

/-- What the agent does for one request, step by step. -/
abbrev Activity (α : Type) : Type :=
  Proc Ask Ask.Reply α

namespace Activity

/-- A session with the switch. -/
def onSwitch {α : Type} (s : Switch.Session α) : Activity α :=
  s.resolve fun c => .question (Ask.switch c)

@[simp]
theorem onSwitch_pure {α : Type} (a : α) : onSwitch (pure a) = .done a := rfl

@[simp]
theorem onSwitch_bind {α β : Type} (s : Switch.Session α) (f : α → Switch.Session β) :
    onSwitch (s >>= f) = onSwitch s >>= fun a => onSwitch (f a) :=
  Proc.resolve_bind _ s f

/-- Builds a pair of links. -/
def buildPair (spec : Link.PairSpec) : Activity (Except Link.Error Link.Pair) :=
  .question (Ask.link (.build spec))

/-- Removes a pair of links. -/
def teardown (containerId hostIfname : String) : Activity (Except Link.Error Unit) :=
  .question (Ask.link (.teardown containerId hostIfname))

/-- Looks at a pair of links. -/
def checkPair (hostIfname netns containerIfname mac : String) :
    Activity (Except Link.Error Unit) :=
  .question (Ask.link (.check hostIfname netns containerIfname mac))

/-- The descriptor of a pod. -/
def descriptor (podNamespace name : String) : Activity (Except DescriptorError Descriptor) :=
  .question (Ask.descriptor podNamespace name)

/-- The pods of this node. -/
def pods : Activity (Except DescriptorError (List PodRef)) :=
  .question Ask.pods

/-- Takes the lock of a container; says whether it was had in time. -/
def acquire (key : String) (limit : Option Duration) : Activity Bool :=
  .question (Ask.acquire key limit)

/-- Gives the lock of a container back. -/
def release (key : String) : Activity Unit :=
  .question (Ask.release key)

/-- Waits for the network of the node; says whether it is there. -/
def awaitReady (limit : Duration) : Activity Bool :=
  .question (Ask.awaitReady limit)

/-- The attachment of an interface. -/
def attachment (name : String) : Activity (Option Attachment) :=
  .question (Ask.attachment name)

/-- The attachment of a container. -/
def attachmentOf (containerId : String) : Activity (Option Attachment) :=
  .question (Ask.attachmentOf containerId)

/-- All attachments. -/
def attachments : Activity (List Attachment) :=
  .question Ask.attachments

/-- Records an attachment. -/
def record (a : Attachment) : Activity Unit :=
  .question (Ask.record a)

/-- Forgets the attachment of an interface. -/
def forget (name : String) : Activity Unit :=
  .question (Ask.forget name)

end Activity

end PodAttach.Agent
