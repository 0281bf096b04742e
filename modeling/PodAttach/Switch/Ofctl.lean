import PodAttach.Switch.Flow
import PodAttach.Switch.Tool

/-!
# Flows by `ovs-ofctl`

Installing the flows of an interface, and removing them by their cookie.
-/

namespace PodAttach.Switch.Ofctl

open Net

/-- The name of the tool. -/
def program : String := "ovs-ofctl"

/-- How the tool is used. -/
structure Client where
  bridge : String
  /-- How long a run may take. -/
  limit : Duration
  deriving DecidableEq, Repr, Inhabited

/-- The run that installs flows. -/
def addFlows (c : Client) (fs : List Flow) : Invocation where
  program := program
  args := ["add-flows", c.bridge, "-"]
  input := some (renderFlows fs)
  limit := c.limit

/-- The run that removes the flows of an interface. -/
def delFlows (c : Client) (name : String) : Invocation where
  program := program
  args := ["del-flows", c.bridge, "cookie=" ++ cookieText (cookie name) ++ "/-1"]
  input := none
  limit := c.limit

/-- Installs the flows of an interface. -/
def install (c : Client) (name : String) (ips : List Ip) (mac : String) (ofport : Nat) :
    Toolwork (Except Error Unit) := do
  match ← Toolwork.run (addFlows c (flows (cookie name) ips (Text.lower mac) ofport)) with
  | .ok _ => return .ok ()
  | .error e => return .error (.installFlows name e.message)

/-- Removes the flows of an interface. -/
def uninstall (c : Client) (name : String) : Toolwork (Except Error Unit) := do
  match ← Toolwork.run (delFlows c name) with
  | .ok _ => return .ok ()
  | .error e => return .error (.uninstallFlows name e.message)

end PodAttach.Switch.Ofctl
