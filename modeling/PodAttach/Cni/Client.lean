import PodAttach.Cni.Line

/-!
# The client's side

A client sends one request on a connection and waits for one response.
-/

namespace PodAttach.Cni

/-- What comes back on a connection. -/
inductive Heard where
  /-- These bytes, and then its end. -/
  | bytes (bs : Bytes)
  /-- Nothing as long as the client waits. -/
  | silence
  deriving DecidableEq, Repr, Inhabited

/-- A server as a client sees it. -/
inductive Peer where
  /-- No connection can be had. -/
  | unreachable (reason : String)
  /-- What comes back for the bytes that are sent. -/
  | listening (answer : Bytes → Heard)
  deriving Inhabited

/-- How long a client waits. -/
def clientLimit : Duration := .ofSecs 110

/-- The response that was heard. -/
def Heard.response (limit : Duration) : Heard → Except ProtocolError Response
  | .silence => .error (.timeout limit)
  | .bytes bs => (readLine Response.ofDocument? bs).1

/-- Sends a request: the response, or why there is none. -/
def Peer.send (peer : Peer) (limit : Duration) (r : Request) : Except ProtocolError Response :=
  match peer with
  | .unreachable reason => .error (.io reason)
  | .listening answer => match r.writeLine with
    | .error e => .error e
    | .ok line => (answer line).response limit

end PodAttach.Cni
