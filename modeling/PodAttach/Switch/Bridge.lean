import PodAttach.Switch.Connector

/-!
# The state of a bridge

What the calls on the switch do when they succeed: ports by their names,
flows by the name of the interface, and OpenFlow numbers that are given out
one after the other.
-/

namespace PodAttach.Switch

/-- A bridge. -/
structure Bridge where
  ports : Table Port := .empty
  /-- The OpenFlow number in the flows of each interface. -/
  flows : Table Nat := .empty
  /-- The OpenFlow number of the next port. -/
  nextOfport : Nat := 10
  deriving DecidableEq, Repr, Inhabited

namespace Bridge

/-- The UUID of a port that the bridge makes. -/
def uuidOf (name : String) : String :=
  "uuid-" ++ name

/-- Puts a port on the bridge. -/
def insertPort (b : Bridge) (p : Port) : Bridge :=
  { b with ports := b.ports.insert p.name p }

/-- Takes a port off the bridge. -/
def erasePort (b : Bridge) (name : String) : Bridge :=
  { b with ports := b.ports.erase name }

/-- The OpenFlow number of a port. -/
def ofport? (b : Bridge) (name : String) : Option Nat :=
  (b.ports.get? name).bind Port.ofport

/-- Gives a port another OpenFlow number. -/
def setOfport (b : Bridge) (name : String) (ofport : Option Nat) : Bridge :=
  match b.ports.get? name with
  | some p => b.insertPort { p with ofport }
  | none => b

/-- What a call gives, and the bridge after it. -/
def call (b : Bridge) : (c : Call) → c.Reply × Bridge
  | .createPort name externalIds =>
    (.ok (uuidOf name),
      { b.insertPort ⟨uuidOf name, name, some b.nextOfport, externalIds⟩ with
        nextOfport := b.nextOfport + 1 })
  | .deletePort uuid => (.ok (), { b with ports := b.ports.filter fun _ p => p.uuid != uuid })
  | .getOfport name => match b.ofport? name with
    | some ofport => (.ok ofport, b)
    | none => (.error (.ofPortUnavailable name), b)
  | .installFlows name _ _ ofport => (.ok (), { b with flows := b.flows.insert name ofport })
  | .uninstallFlows name => (.ok (), { b with flows := b.flows.erase name })

end Bridge

end PodAttach.Switch
