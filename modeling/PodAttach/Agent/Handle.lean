import PodAttach.Agent.Attach
import PodAttach.Config.Settings

/-!
# Serving requests

Add, Del and Check.  A request is decoded and its version looked at before
anything else.  Then it takes the lock of its sandbox, so requests for one
sandbox come one after the other; Add waits for the network of the node
first.  An Add that fails removes what it left.
-/

namespace PodAttach.Agent

open Activity

/-- How the agent serves requests. -/
structure Options where
  /-- Where the agent sees the processes of the host. -/
  procRoot : String := ""
  /-- How long Add waits for the network of the node. -/
  readyTimeout : Duration := .ofSecs 30
  /-- How long a request waits for a lock; for ever if there is no limit. -/
  lockTimeout : Option Duration := none
  deriving DecidableEq, Repr, Inhabited

/-- How requests are served under some settings. -/
def Options.ofSettings (s : Config.Settings) : Options where
  procRoot := s.procRoot
  readyTimeout := s.networkReadyTimeout
  lockTimeout := s.lockTimeout

/-- The error for a version that is not served. -/
def unsupportedVersion (version : String) : Cni.CallError :=
  ⟨.incompatibleCniVersion,
    "Unsupported CNI version [" ++ version ++ "], supported versions [" ++
      String.intercalate ", " Cni.supportedVersions ++ "]"⟩

/-- Decodes a request and looks at its version. -/
def decode (o : Options) (args : Cni.CallArgs) : Except Cni.CallError Cni.Call :=
  match Cni.Call.decode o.procRoot args with
  | .error e => .error e
  | .ok c =>
    if Cni.isSupported c.cniVersion then .ok c else .error (unsupportedVersion c.cniVersion)

/-- Does something under the lock of a call's sandbox. -/
def locked (o : Options) (c : Cni.Call) (body : Activity (Except Cni.CallError Bytes)) :
    Activity (Except Cni.CallError Bytes) := do
  if ← acquire c.infraContainerId o.lockTimeout then
    let outcome ← body
    release c.infraContainerId
    return outcome
  else
    return .error .busy

/-- The interfaces of a result for an attachment that is there already. -/
def resultOfAttachment (c : Cni.Call) (r : Cni.Result) (a : Attachment) : Cni.Result :=
  r.withInterfaces { name := a.interfaceName }
    { name := c.ifname, mac := a.mac, sandbox := c.netns }

/-- The interfaces of a result for a pair that was built. -/
def resultOfPair (r : Cni.Result) (p : Link.Pair) : Cni.Result :=
  r.withInterfaces { name := p.host.name, mac := p.host.mac }
    { name := p.container.name, mac := p.container.mac, sandbox := p.container.sandbox }

/-- Attaches a container that has no attachment; removes what is left when that fails. -/
def attach (c : Cni.Call) (r : Cni.Result) (p : Plan) :
    Activity (Except Cni.CallError Bytes) := do
  match ← configure c p with
  | .ok pair => return .ok (resultOfPair r pair).toBytes
  | .error e =>
    let _ ← removeOf c.containerId
    return .error e.whileConfiguring

/-- Add, under the lock.  A container that joins another sandbox gets the interface of that
sandbox, and one that has an attachment already gets that. -/
def addLocked (c : Cni.Call) : Activity (Except Cni.CallError Bytes) := do
  match ← descriptor c.podNamespace c.podName with
  | .error e => return .error e.toCallError
  | .ok d => match Plan.resolve c d with
    | .error e => return .error e
    | .ok (r, p) =>
      if c.isInfra then
        match ← attachmentOf c.containerId with
        | some a => return .ok (resultOfAttachment c r a).toBytes
        | none => attach c r p
      else
        match ← attachmentOf c.infraContainerId with
        | some a => return .ok (resultOfAttachment c r a).toBytes
        | none => return .ok r.toBytes

/-- Add. -/
def add (o : Options) (args : Cni.CallArgs) : Activity (Except Cni.CallError Bytes) := do
  match decode o args with
  | .error e => return .error e
  | .ok c =>
    if ← awaitReady o.readyTimeout then locked o c (addLocked c)
    else return .error .busy

/-- Del, under the lock. -/
def delLocked (c : Cni.Call) : Activity (Except Cni.CallError Bytes) := do
  if c.isInfra then
    match ← removeOf c.containerId with
    | .ok () => return .ok []
    | .error e => return .error e.whileConfiguring
  else
    return .ok []

/-- Del. -/
def del (o : Options) (args : Cni.CallArgs) : Activity (Except Cni.CallError Bytes) :=
  match decode o args with
  | .error e => return .error e
  | .ok c => locked o c (delLocked c)

/-- The error for a container without an attachment. -/
def unknownContainer (containerId : String) : Cni.CallError :=
  ⟨.unknownContainer, "Container " ++ containerId ++ " is unknown"⟩

/-- Check, under the lock. -/
def checkLocked (c : Cni.Call) : Activity (Except Cni.CallError Bytes) := do
  if c.isInfra then
    match ← attachmentOf c.containerId with
    | none => return .error (unknownContainer c.containerId)
    | some a => match ← check c a with
      | .ok () => return .ok []
      | .error e => return .error e.whileChecking
  else
    return .ok []

/-- Check. -/
def checkCall (o : Options) (args : Cni.CallArgs) : Activity (Except Cni.CallError Bytes) :=
  match decode o args with
  | .error e => return .error e
  | .ok c => locked o c (checkLocked c)

/-- The outcome of a request. -/
def serve (o : Options) (r : Cni.Request) : Activity (Except Cni.CallError Bytes) :=
  match r.command with
  | .add => add o r.args
  | .del => del o r.args
  | .check => checkCall o r.args

/-- Serves a request.  Whatever goes wrong is in the response. -/
def handle (o : Options) (r : Cni.Request) : Activity Cni.Response :=
  Cni.Response.ofExcept <$> serve o r

end PodAttach.Agent
