import PodAttach.Cni.Client
import PodAttach.System.Errno

/-!
# Scripted servers, and devices without room

A server that reads one line and answers what a script says, or never
answers; and an output device that takes no bytes.
-/

namespace PodAttach.Scenario

/-- A scripted server. -/
structure Server where
  reply : Bytes
  hangs : Bool
  deriving DecidableEq, Repr, Inhabited

/-- A server, or the lack of one, as a client sees it. -/
def Server.peer : Option Server → Cni.Peer
  | none => .unreachable Errno.noEntry.message
  | some s => .listening fun _ => if s.hangs then .silence else .bytes s.reply

/-- The lines that a server reads when a client sends a request; a connection without a request
line counts as `unwritten`. -/
def Server.hears (server : Option Server) (r : Cni.Request) (unwritten : List Bytes) :
    List Bytes :=
  match server, r.writeLine with
  | none, _ => []
  | some _, .ok line => [line]
  | some _, .error _ => unwritten

/-- The bytes that a program keeps for itself before it writes. -/
def lineBuffer : Nat := 1024

/-- Whether a text seems to be printed to a device without room: it stays in the program if it is
short and has no newline. -/
def seemsPrinted (text : Bytes) : Bool :=
  !text.contains Cni.newline && text.length < lineBuffer

end PodAttach.Scenario
