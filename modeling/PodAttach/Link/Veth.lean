import PodAttach.Link.Netns
import PodAttach.Link.Routing
import PodAttach.Text.Blank

/-!
# Pairs of links by the kernel

A pair is made in the agent's namespace, the end for the container under a
name of its own, so that it stands in nobody's way.  That end is moved, named
and configured in the container's namespace.  When anything fails after the
pair was made, the pair is removed.
-/

namespace PodAttach.Link

open Net Kernel

/-- The size of packets to ask for; zero asks for none. -/
def askedMtu (mtu : Nat) : Option Nat :=
  if 0 < mtu then some mtu else none

/-- An error of the kernel where a link is changed or looked at. -/
def configureError (name : String) (e : Errno) : Error :=
  .linkConfigure name (kernelReason e)

/-- An error of the kernel where a link is removed. -/
def deleteError (name : String) (e : Errno) : Error :=
  .linkDelete name (kernelReason e)

/-- The bytes that a hardware address denotes. -/
def macBytes (mac : String) : Work Error Bytes :=
  match Mac.parse? mac with
  | some bytes => pure bytes
  | none => throw (.invalidMac mac)

/-- Looks a link up; it may not be there. -/
def findLink (space : Space) (name : String) (wrap : Errno → Error) :
    Work Error (Option LinkInfo) := do
  match ← Work.ask (.request space (.getLink name)) with
  | .ok info => return some info
  | .error e => if e = .noDevice then return none else throw (wrap e)

/-- Looks a link up that has to be there. -/
def requireLink (space : Space) (name : String) : Work Error LinkInfo := do
  match ← findLink space name (configureError name) with
  | some info => return info
  | none => throw (.linkNotFound name)

/-- Changes a link; `name` is what errors call it. -/
def setLink (space : Space) (index : Nat) (change : Change) (name : String) : Work Error Unit :=
  Work.request space (.setLink index change) (configureError name)

/-- Sets the end that stays up. -/
def configureHost (own : Space) (spec : PairSpec) : Work Error Unit := do
  let host ← requireLink own spec.hostIfname
  setLink own host.index { mtu := askedMtu spec.mtu, up := true } spec.hostIfname

/-- Moves the other end to the namespace that was opened. -/
def movePeer (own : Space) (spec : PairSpec) (netns : NsFile) : Work Error Unit := do
  let peerName := LinkName.peer spec.hostIfname
  let peer ← requireLink own peerName
  setLink own peer.index { netns := some netns } peerName

/-- Names the moved end and sets it up, with addresses and routes. -/
def configureContainer (inside : Space) (spec : PairSpec) (mac : Bytes) : Work Error Unit := do
  let peer ← requireLink inside (LinkName.peer spec.hostIfname)
  setLink inside peer.index
    { name := some spec.containerIfname, mac := some mac, mtu := askedMtu spec.mtu }
    spec.containerIfname
  setLink inside peer.index { up := true } spec.containerIfname
  (configureAddressing inside peer.index spec.addresses spec.routes).adapt Error.route

/-- All that is done once the pair was made. -/
def configurePair (own : Space) (spec : PairSpec) (mac : Bytes) : Work Error Pair := do
  let netns ← openNamespace spec.netns
  configureHost own spec
  movePeer own spec netns
  let inside ← socketIn spec.netns netns
  configureContainer inside spec mac
  let host ← requireLink own spec.hostIfname
  return ⟨⟨spec.hostIfname, Mac.render host.mac, ""⟩,
    ⟨spec.containerIfname, Text.lower spec.mac, spec.netns⟩⟩

/-- Removes the pair of a host link; one that is not there is no failure. -/
def teardownPair (own : Space) (hostIfname : String) : Work Error Unit := do
  match ← findLink own hostIfname (deleteError hostIfname) with
  | none => return ()
  | some info => match ← Work.ask (.request own (.delLink info.index)) with
    | .ok _ => return ()
    | .error e => if e = .noDevice then return () else throw (deleteError hostIfname e)

/-- Builds a pair; when that fails, nothing of it stays if the removal succeeds. -/
def buildPair (own : Space) (spec : PairSpec) : Work Error Pair := do
  let mac ← macBytes spec.mac
  Work.request own
    (.newLink spec.hostIfname (LinkName.peer spec.hostIfname) (askedMtu spec.mtu))
    fun e => .linkCreate spec.hostIfname (kernelReason e)
  tryCatch (configurePair own spec mac) fun e => do
    tryCatch (teardownPair own spec.hostIfname) fun _ => return ()
    throw e

/-- Looks whether both ends are there, the moved one with its hardware address. -/
def checkPair (own : Space) (hostIfname netns containerIfname mac : String) : Work Error Unit := do
  let _ ← requireLink own hostIfname
  let inside ← socketIn netns (← openNamespace netns)
  let container ← requireLink inside containerIfname
  let expected := Mac.render (← macBytes mac)
  let actual := Mac.render container.mac
  if actual = expected then return ()
  else throw (.check ("interface " ++ containerIfname ++ " has MAC " ++ actual ++
    ", expected " ++ expected))

/-- Answers a call through a socket in the agent's namespace. -/
def serve (own : Space) : (c : Call) → Proc Kernel.Ask Kernel.Ask.Reply c.Reply
  | .build spec => (buildPair own spec).run
  | .teardown _ hostIfname => (teardownPair own hostIfname).run
  | .check hostIfname netns containerIfname mac =>
    (checkPair own hostIfname netns containerIfname mac).run

end PodAttach.Link
