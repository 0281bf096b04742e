import PodAttach.Agent.Listener
import PodAttach.Scenario.Run

/-!
# Requests through a socket

The socket of an agent on a stage.  Clients reach the agent as long as it
listens and the socket is there.
-/

namespace PodAttach.Scenario

open Agent

/-- The socket. -/
structure Endpoint where
  /-- Whether it is there. -/
  present : Bool := true
  /-- Whether the agent listens. -/
  listening : Bool := true
  deriving DecidableEq, Repr, Inhabited

namespace Endpoint

/-- Whether clients reach the agent. -/
def isReachable (e : Endpoint) : Bool :=
  e.present && e.listening

/-- Takes the socket away; says whether it was there. -/
def remove (e : Endpoint) : Bool × Endpoint :=
  (e.present, { e with present := false })

/-- The agent ends; it takes its socket away. -/
def stop (_ : Endpoint) : Endpoint :=
  ⟨false, false⟩

/-- A request by a client. -/
def request (e : Endpoint) (o : Options) (r : Cni.Request) : Play Outcome :=
  if e.isReachable then Play.exchange o r
  else return .exchange (.error (.io Errno.noEntry.message))

end Endpoint

end PodAttach.Scenario
