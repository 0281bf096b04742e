import PodAttach.Agent.Ask
import PodAttach.Agent.Plan
import PodAttach.Failure

/-!
# Attaching and removing interfaces

The steps that build an interface and connect it to the switch, that remove
it, look at it, and give it its flows back.  The store is kept in step: an
interface has a record from when it is connected until all of it is gone.
-/

namespace PodAttach.Agent

open Activity

/-- What is recorded of an interface that a plan describes, before it has a port. -/
def Plan.attachment (c : Cni.Call) (p : Plan) : Attachment where
  interfaceName := p.hostIfname
  containerId := c.containerId
  podName := c.podName
  podNamespace := c.podNamespace
  vifId := p.vifId
  mac := p.pair.mac
  ips := p.ips
  port := none

/-- The port that stayed on the bridge, if an error says so. -/
def leftPort? : Switch.Error → Option AttachedPort
  | .portLeftAttached _ uuid ofport _ _ => some ⟨uuid, ofport⟩
  | _ => none

/-- Builds an interface and connects it.  When that fails what was built is removed again;
but a port that stayed on the bridge is recorded together with its pair. -/
def configure (c : Cni.Call) (p : Plan) : Activity (Except Failure Link.Pair) := do
  match ← buildPair p.pair with
  | .error e => return .error (.interface e)
  | .ok pair =>
    let a := p.attachment c
    match ← onSwitch (Switch.connect a.interfaceName a.externalIds a.ips a.mac) with
    | .ok connected =>
      record { a with port := some ⟨connected.uuid, some connected.ofport⟩ }
      return .ok pair
    | .error e => match leftPort? e with
      | some port =>
        record { a with port := some port }
        return .error (.switch e)
      | none =>
        let _ ← teardown c.containerId a.interfaceName
        return .error (.switch e)

/-- Removes an interface.  Its record stays until all of it is gone. -/
def remove (a : Attachment) : Activity (Except Failure Unit) := do
  match ← onSwitch (Switch.disconnect a.interfaceName (a.port.map AttachedPort.uuid)) with
  | .error e => return .error (.switch e)
  | .ok () => match ← teardown a.containerId a.interfaceName with
    | .error e => return .error (.interface e)
    | .ok () =>
      forget a.interfaceName
      return .ok ()

/-- Removes the interface of a container, if it has one. -/
def removeOf (containerId : String) : Activity (Except Failure Unit) := do
  match ← attachmentOf containerId with
  | none => return .ok ()
  | some a => remove a

/-- Installs the flows of an interface again.  A port that was recorded without a number is
asked for it. -/
def reconnect (a : Attachment) : Activity (Except Failure Unit) := do
  match a.port with
  | none =>
    return .error (.interface (.check ("interface " ++ a.interfaceName ++ " has no switch port")))
  | some port =>
    let ofport ← match port.ofport with
      | some n => pure (.ok n)
      | none => onSwitch (Switch.Session.getOfport a.interfaceName)
    match ofport with
    | .error e => return .error (.switch e)
    | .ok n => match ← onSwitch (Switch.Session.installFlows a.interfaceName a.ips a.mac n) with
      | .error e => return .error (.switch e)
      | .ok () => return .ok ()

/-! ## Looking at an interface -/

/-- An interface of an earlier result. -/
structure EarlierInterface where
  name : String
  mac : String
  deriving DecidableEq, Repr, Inhabited

open Json in
/-- Reads an interface of an earlier result. -/
def EarlierInterface.ofJson? (v : Json) : Option EarlierInterface := do
  let fs ← Json.record? ["name", "mac"] v
  let name ← Fields.required? fs "name" Json.str?
  let mac ← Fields.withDefault? fs "mac" "" Json.str?
  return { name, mac }

open Json in
/-- Reads the interfaces of an earlier result. -/
def earlierInterfaces? (v : Json) : Option (List EarlierInterface) := do
  let fs ← Json.record? ["interfaces"] v
  Fields.withDefault? fs "interfaces" [] (Json.list? EarlierInterface.ofJson?)

/-- Whether an earlier interface has another hardware address than the one recorded. -/
def EarlierInterface.contradicts (ifname mac : String) (i : EarlierInterface) : Bool :=
  i.name == ifname && !i.mac.isEmpty && !Text.sameLetters i.mac mac

/-- Compares an earlier result with what is recorded. -/
def checkEarlier (v : Json) (ifname mac : String) : Except Link.Error Unit :=
  match earlierInterfaces? v with
  | none => .error (.check "invalid prevResult: not a result")
  | some interfaces => match interfaces.find? (EarlierInterface.contradicts ifname mac) with
    | some i =>
      .error (.check ("interface " ++ ifname ++ " has MAC " ++ i.mac ++
        " in prevResult, expected " ++ mac))
    | none => .ok ()

/-- Compares the number of a port with the one recorded, if one is. -/
def checkOfport (a : Attachment) (ofport : Nat) : Except Link.Error Unit :=
  match a.port.bind AttachedPort.ofport with
  | none => .ok ()
  | some recorded =>
    if recorded = ofport then .ok ()
    else .error (.check ("port " ++ a.interfaceName ++ " moved from OpenFlow port " ++
      Text.decimal recorded ++ " to " ++ Text.decimal ofport))

/-- Compares what is recorded with the links, the switch and the result of an earlier call. -/
def check (c : Cni.Call) (a : Attachment) : Activity (Except Failure Unit) := do
  match ← checkPair a.interfaceName c.netns c.ifname a.mac with
  | .error e => return .error (.interface e)
  | .ok () => match ← onSwitch (Switch.Session.getOfport a.interfaceName) with
    | .error e => return .error (.switch e)
    | .ok ofport => match checkOfport a ofport with
      | .error e => return .error (.interface e)
      | .ok () => match c.network.prevResult with
        | none => return .ok ()
        | some v => match checkEarlier v c.ifname a.mac with
          | .error e => return .error (.interface e)
          | .ok () => return .ok ()

end PodAttach.Agent
