import PodAttach.Agent.Handle
import PodAttach.Cni.Line
import PodAttach.Failure
import PodAttach.System.FileTree

/-!
# Serving connections

A connection carries one request line and one response line.  A line that
does not spell a request is answered with an error; a connection that is
closed before a line, or that fails, is not answered.
-/

namespace PodAttach.Agent

/-- The bytes of a response; none if it cannot be written. -/
def responseBytes (r : Cni.Response) : Bytes :=
  match r.writeLine with
  | .ok line => line
  | .error _ => []

/-- The response to a line that does not spell a request. -/
def undecodableRequest : Cni.Response :=
  .ofError ⟨.decodingFailure, "Failed to decode request"⟩

/-- Serves a connection: what is written to it, given what was read from it. -/
def serveConnection (o : Options) (received : Bytes) : Activity Bytes := do
  match (Cni.readLine Cni.Request.ofDocument? received).1 with
  | .ok r => return responseBytes (← handle o r)
  | .error (.serialization _) => return responseBytes undecodableRequest
  | .error _ => return []

/-! ## The socket -/

/-- The most bytes of the path of a socket. -/
def maxSocketPath : Nat := 107

/-- Makes the socket at a path, in the place of a file that is there already. -/
def bindSocket (t : FileTree) (path : String) : Except String FileTree :=
  let names := FileTree.namesOf path
  match t.unlink names with
  | .error e => .error e.message
  | .ok t => match t.makeDir names.dropLast with
    | .error e => .error e.message
    | .ok t =>
      if maxSocketPath < Utf8.size path then .error "path must be shorter than SUN_LEN"
      else .ok (FileTree.put (.file []) names t)

end PodAttach.Agent
