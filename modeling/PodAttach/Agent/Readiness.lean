/-!
# Readiness of the node

A signal says once that the network of the node is there, or it is given up
and will never say so.  Whoever waits learns either at once.
-/

namespace PodAttach.Agent

/-- What is known of the network of the node. -/
inductive Readiness where
  /-- Nothing yet. -/
  | pending
  /-- It is there. -/
  | ready
  /-- The signal was given up. -/
  | dropped
  deriving DecidableEq, Repr, Inhabited

/-- What one who waits learns at once, if anything. -/
def Readiness.answer? : Readiness → Option Bool
  | .pending => none
  | .ready => some true
  | .dropped => some false

/-- A signal that is due at some time. -/
structure Signal where
  due : Nat
  /-- Whether it says that the network is there, or is given up. -/
  fires : Bool
  deriving DecidableEq, Repr, Inhabited

/-- What is known at some time. -/
def Signal.stateAt (s : Option Signal) (time : Nat) : Readiness :=
  match s with
  | none => .pending
  | some s => if time < s.due then .pending else if s.fires then .ready else .dropped

/-- How a wait ended. -/
structure Wait where
  readyBefore : Bool
  fired : Bool
  ended : Nat
  deriving DecidableEq, Repr, Inhabited

/-- A wait that starts at some time and lasts no longer than a limit. -/
def Signal.wait (s : Option Signal) (start limit : Nat) : Wait :=
  let readyBefore := stateAt s start == .ready
  match (stateAt s start).answer? with
  | some fired => ⟨readyBefore, fired, start⟩
  | none => match s with
    | some s =>
      if s.due ≤ start + limit then ⟨readyBefore, s.fires, s.due⟩
      else ⟨readyBefore, false, start + limit⟩
    | none => ⟨readyBefore, false, start + limit⟩

end PodAttach.Agent
