import PodAttach.Agent.Attach

/-!
# Reconciliation

After a start, the flows of the switch may be gone, and pods may have gone
while the agent was away.  One pass goes over all attachments: those of pods
that are still there get their flows back, the others are removed.
-/

namespace PodAttach.Agent

open Activity

/-- What a pass did, by the names of interfaces. -/
structure Report where
  replayed : List String := []
  removed : List String := []
  failed : List String := []
  deriving DecidableEq, Repr, Inhabited

namespace Report

/-- An interface has its flows back. -/
def addReplayed (r : Report) (name : String) : Report :=
  { r with replayed := r.replayed ++ [name] }

/-- An interface was removed. -/
def addRemoved (r : Report) (name : String) : Report :=
  { r with removed := r.removed ++ [name] }

/-- An interface could not be dealt with. -/
def addFailed (r : Report) (name : String) : Report :=
  { r with failed := r.failed ++ [name] }

end Report

/-- The keys of the pods that have interfaces of their own. -/
def desired (pods : List PodRef) : List String :=
  (pods.filter fun p => !p.hostNetwork).map fun p => podKey p.podNamespace p.name

/-- Deals with one attachment, under its lock. -/
def restore (keys : List String) (r : Report) (a : Attachment) : Activity Report := do
  if keys.contains a.podKey then
    match ← reconnect a with
    | .ok () => return r.addReplayed a.interfaceName
    | .error _ => return r.addFailed a.interfaceName
  else
    match ← remove a with
    | .ok () => return r.addRemoved a.interfaceName
    | .error _ => return r.addFailed a.interfaceName

/-- Deals with one attachment as it was listed; one that changed since is passed over. -/
def reconcileOne (keys : List String) (r : Report) (listed : Attachment) : Activity Report := do
  let _ ← acquire listed.containerId none
  let r ← do
    if (← attachment listed.interfaceName) = some listed then restore keys r listed
    else pure r
  release listed.containerId
  return r

/-- One pass over all attachments. -/
def reconcile : Activity (Except Failure Report) := do
  match ← pods with
  | .error e => return .error (.descriptor e)
  | .ok ps =>
    let listed ← attachments
    return .ok (← listed.foldlM (reconcileOne (desired ps)) {})

end PodAttach.Agent
