import PodAttach.Switch.Connector
import PodAttach.Switch.Ofctl
import PodAttach.Switch.Vsctl

/-!
# The switch as its tools drive it

Every call on the switch is answered by runs of the tools.
-/

namespace PodAttach.Switch

/-- How both tools are used. -/
structure Tools where
  vsctl : Vsctl.Client
  ofctl : Ofctl.Client
  deriving DecidableEq, Repr, Inhabited

/-- Answers a call by runs of the tools. -/
def Tools.call (t : Tools) : (c : Call) → Toolwork c.Reply
  | .createPort name externalIds => Vsctl.createPort t.vsctl name externalIds
  | .deletePort uuid => Vsctl.deletePort t.vsctl uuid
  | .getOfport name => Vsctl.getOfport t.vsctl name
  | .installFlows name ips mac ofport => Ofctl.install t.ofctl name ips mac ofport
  | .uninstallFlows name => Ofctl.uninstall t.ofctl name

/-- Both tools on one bridge. -/
def Tools.onBridge (bridge : String) (limit ofportWait : Duration) : Tools :=
  ⟨⟨bridge, limit, ofportWait⟩, ⟨bridge, limit⟩⟩

end PodAttach.Switch
