import PodAttach.Net.Ip
import PodAttach.Proc
import PodAttach.Switch.Basic

/-!
# Connecting an interface to the switch

An interface is connected when it has a port and the flows of that port.
The switch gives a number that became free to the next port, so the order of
calls keeps a port from getting the flows of another one: flows are
installed only when the number of the port is known, they are removed before
the port is, and a port whose flows could not be removed stays.
-/

namespace PodAttach.Switch

open Net

/-- A call on the switch. -/
inductive Call where
  /-- Makes a port with identifiers, in the place of a port of that name. -/
  | createPort (name : String) (externalIds : Table String)
  /-- Removes the ports with a UUID. -/
  | deletePort (uuid : String)
  /-- Asks for the OpenFlow number of a port. -/
  | getOfport (name : String)
  /-- Installs the flows of an interface. -/
  | installFlows (name : String) (ips : List Ip) (mac : String) (ofport : Nat)
  /-- Removes the flows of an interface. -/
  | uninstallFlows (name : String)
  deriving DecidableEq, Repr, Inhabited

/-- What a call gives when it succeeds. -/
@[reducible]
def Call.Value : Call → Type
  | .createPort .. => String
  | .deletePort _ => Unit
  | .getOfport _ => Nat
  | .installFlows .. => Unit
  | .uninstallFlows _ => Unit

/-- The answer to a call. -/
abbrev Call.Reply (c : Call) : Type :=
  Except Error c.Value

/-- A computation that uses the switch. -/
abbrev Session (α : Type) : Type :=
  Proc Call Call.Reply α

/-- A port that was connected. -/
structure Connected where
  uuid : String
  ofport : Nat
  deriving DecidableEq, Repr, Inhabited

namespace Session

/-- Makes a port; gives its UUID. -/
def createPort (name : String) (externalIds : Table String) : Session (Except Error String) :=
  .question (Call.createPort name externalIds)

/-- Removes the ports with a UUID. -/
def deletePort (uuid : String) : Session (Except Error Unit) :=
  .question (Call.deletePort uuid)

/-- The OpenFlow number of a port. -/
def getOfport (name : String) : Session (Except Error Nat) :=
  .question (Call.getOfport name)

/-- Installs the flows of an interface. -/
def installFlows (name : String) (ips : List Ip) (mac : String) (ofport : Nat) :
    Session (Except Error Unit) :=
  .question (Call.installFlows name ips mac ofport)

/-- Removes the flows of an interface. -/
def uninstallFlows (name : String) : Session (Except Error Unit) :=
  .question (Call.uninstallFlows name)

end Session

open Session

/-- Removes the port of an interface that could not be connected, and its flows if it came to
installing them. -/
def detach (name uuid : String) : (ofport : Option Nat) → Session (Except Error Unit)
  | none => deletePort uuid
  | some _ => do
    match ← uninstallFlows name with
    | .ok () => deletePort uuid
    | .error e => return .error e

/-- Removes the port of an interface that could not be connected; gives the error to report. -/
def detachAfter (name uuid : String) (ofport : Option Nat) (cause : Error) : Session Error := do
  match ← detach name uuid ofport with
  | .ok () => return cause
  | .error cleanup => return .portLeftAttached name uuid ofport cause cleanup

/-- Makes the port of an interface and installs its flows. -/
def connect (name : String) (externalIds : Table String) (ips : List Ip) (mac : String) :
    Session (Except Error Connected) := do
  match ← createPort name externalIds with
  | .error e => return .error e
  | .ok uuid =>
    match ← getOfport name with
    | .error e => return .error (← detachAfter name uuid none e)
    | .ok ofport =>
      match ← installFlows name ips mac ofport with
      | .error e => return .error (← detachAfter name uuid (some ofport) e)
      | .ok () => return .ok ⟨uuid, ofport⟩

/-- Removes the flows of an interface, then its port, if it has one. -/
def disconnect (name : String) (uuid : Option String) : Session (Except Error Unit) := do
  match ← uninstallFlows name with
  | .error e => return .error e
  | .ok () => match uuid with
    | none => return .ok ()
    | some uuid => deletePort uuid

end PodAttach.Switch
