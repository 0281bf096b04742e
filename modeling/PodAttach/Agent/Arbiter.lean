/-!
# Locks of containers

A key is held by at most one task at a time.  A task that finds its key busy
waits to be notified, and tries again when it is.  Whoever gives a key back
notifies all that wait, whatever their keys; those that began to wait first
are first.
-/

namespace PodAttach.Agent

/-- A task that waits for a key. -/
structure Waiter (ι : Type) where
  id : ι
  key : String
  /-- Whether a key was given back since it began to wait. -/
  notified : Bool
  deriving DecidableEq, Repr

/-- The locks of all containers. -/
structure Arbiter (ι : Type) where
  /-- The tasks that hold a key, with the key. -/
  holders : List (ι × String)
  /-- The tasks that wait, in the order in which they began to. -/
  waiters : List (Waiter ι)
  /-- How often a key was taken so far. -/
  acquisitions : Nat
  deriving DecidableEq, Repr

namespace Arbiter

variable {ι : Type} [DecidableEq ι]

/-- Nothing is held. -/
def empty : Arbiter ι := ⟨[], [], 0⟩

instance : Inhabited (Arbiter ι) := ⟨empty⟩

/-- Whether a key is held. -/
def isBusy (a : Arbiter ι) (key : String) : Bool :=
  a.holders.any fun h => h.2 == key

/-- The key that a task holds. -/
def keyOf? (a : Arbiter ι) (id : ι) : Option String :=
  a.holders.lookup id

/-- The entry of a task that waits. -/
def waiter? (a : Arbiter ι) (id : ι) : Option (Waiter ι) :=
  a.waiters.find? fun w => w.id == id

/-- A task waits no more. -/
def cancel (a : Arbiter ι) (id : ι) : Arbiter ι :=
  { a with waiters := a.waiters.filter fun w => w.id != id }

/-- A task takes a free key, or begins to wait for a busy one; says whether it took it. -/
def lock (a : Arbiter ι) (id : ι) (key : String) : Bool × Arbiter ι :=
  let a := a.cancel id
  if a.isBusy key then (false, { a with waiters := a.waiters ++ [⟨id, key, false⟩] })
  else
    (true, { a with holders := a.holders ++ [(id, key)], acquisitions := a.acquisitions + 1 })

/-- The state of a task that wanted a key. -/
inductive Polled where
  | acquired (key : String)
  | pending
  | notWaiting
  deriving DecidableEq, Repr

/-- A task that waits looks again.  It tries only if it was notified. -/
def poll (a : Arbiter ι) (id : ι) : Polled × Arbiter ι :=
  match a.waiter? id with
  | none => (.notWaiting, a)
  | some w =>
    if w.notified then
      let (taken, a) := a.lock id w.key
      (if taken then .acquired w.key else .pending, a)
    else (.pending, a)

/-- The tasks that a release notifies, in order. -/
def sleepers (a : Arbiter ι) : List ι :=
  (a.waiters.filter fun w => !w.notified).map Waiter.id

/-- Everyone who waits is notified. -/
def notifyAll (a : Arbiter ι) : Arbiter ι :=
  { a with waiters := a.waiters.map fun w => { w with notified := true } }

/-- A key is given back. -/
def release (a : Arbiter ι) (key : String) : Arbiter ι :=
  notifyAll { a with holders := a.holders.filter fun h => h.2 != key }

/-- The tasks that were notified and have not looked since. -/
def notified (a : Arbiter ι) : List ι :=
  (a.waiters.filter Waiter.notified).map Waiter.id

end Arbiter

end PodAttach.Agent
