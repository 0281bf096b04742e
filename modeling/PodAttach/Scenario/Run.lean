import PodAttach.Agent.Listener
import PodAttach.Cni.Client
import PodAttach.Scenario.Stage

/-!
# Rehearsals in virtual time

Several activities run on one stage.  A task goes on until a step of it
blocks; then the next one in the queue does.  When no task can go on, the
clock moves to the next time at which one does by itself.  A task that takes
longer than an hour is given up, and what it holds is given back.
-/

namespace PodAttach.Scenario

open Agent

/-- How an activity ended. -/
inductive Outcome where
  | response (r : Cni.Response)
  /-- The response as a client got it, or why it got none. -/
  | exchange (r : Except Cni.ProtocolError Cni.Response)
  /-- What was answered on a connection. -/
  | answered (bs : Bytes)
  | report (r : Except Failure Report)
  | done (r : Except Failure Unit)
  | flag (b : Option Bool)
  | key (key : String)
  /-- It was given up. -/
  | stuck
  deriving Repr, Inhabited

/-- An activity in a rehearsal. -/
abbrev Play (α : Type) : Type :=
  Proc Act Act.Reply α

namespace Play

/-- An activity of the agent. -/
def agent {α : Type} (a : Activity α) : Play α :=
  a.resolve fun q => .question (Act.agent q)

/-- A change of the scene. -/
def set (s : Setting) : Play Outcome :=
  Outcome.flag <$> (Proc.question (Act.set s) : Play (Option Bool))

/-- Takes a key and keeps it. -/
def lock (key : String) : Play Outcome := do
  let _ ← agent (Activity.acquire key none)
  set (.keep key)

/-- Takes a key for some time. -/
def hold (key : String) (ms : Nat) : Play Outcome := do
  let _ ← agent (Activity.acquire key none)
  let _ ← (Proc.question (Act.sleep ms) : Play Unit)
  agent (Activity.release key)
  return .key key

/-- Serves a request. -/
def request (o : Options) (r : Cni.Request) : Play Outcome :=
  Outcome.response <$> agent (handle o r)

/-- Serves a connection on which some bytes were sent. -/
def connection (o : Options) (sent : Bytes) : Play Outcome :=
  Outcome.answered <$> agent (serveConnection o sent)

/-- Serves a request that a client sends on a connection. -/
def exchange (o : Options) (r : Cni.Request) : Play Outcome :=
  match r.writeLine with
  | .error e => return .exchange (.error e)
  | .ok line => do
    let heard ← agent (serveConnection o line)
    return .exchange ((Cni.Heard.bytes heard).response Cni.clientLimit)

/-- One pass over all attachments. -/
def reconcile : Play Outcome :=
  Outcome.report <$> agent Agent.reconcile

/-- Gives an attachment its flows back. -/
def reconnect (a : Attachment) : Play Outcome :=
  Outcome.done <$> agent (Agent.reconnect a)

/-- Removes an attachment. -/
def remove (a : Attachment) : Play Outcome :=
  Outcome.done <$> agent (Agent.remove a)

end Play

/-- Where a task stands. -/
inductive Progress where
  /-- It waits, with this left to do. -/
  | waiting (p : Phase) (work : Play Outcome)
  /-- It ended. -/
  | ended (o : Outcome) (time : Nat)

instance : Inhabited Progress := ⟨.ended .stuck 0⟩

/-- A task. -/
structure Task where
  progress : Progress
  /-- The keys that it holds. -/
  held : List String
  /-- The time at which it is given up. -/
  limit : Nat
  deriving Inhabited

/-- A rehearsal. -/
structure Run where
  stage : Stage
  tasks : List Task
  deriving Inhabited

/-- How long a task may take, in milliseconds. -/
def patience : Nat := 3600 * 1000

namespace Task

/-- A task that begins at some time. -/
def starting (time : Nat) (work : Play Outcome) : Task :=
  ⟨.waiting (.starting time) work, [], time + patience⟩

/-- The time at which a task goes on by itself, or is given up. -/
def timer? (t : Task) : Option Nat :=
  match t.progress with
  | .ended .. => none
  | .waiting p _ => match p.timer? with
    | some time => some (min time t.limit)
    | none => some t.limit

/-- The keys that a task holds after a step was answered. -/
def heldAfter (held : List String) : (q : Act) → q.Reply → List String
  | .agent (.acquire key _), (taken : Bool) => if taken then key :: held else held
  | .agent (.release key), _ => held.filter (· != key)
  | .set (.keep key), _ => held.filter (· != key)
  | _, _ => held

end Task

/-- Goes on with a task until a step blocks: the task and the stage after that. -/
def proceed (id limit : Nat) : Play Outcome → List String → Stage → Task × Stage
  | .done o, held, s => (⟨.ended o s.now, held, limit⟩, s)
  | .ask q next, held, s => match s.start id q with
    | .answered reply s => proceed id limit (next reply) (Task.heldAfter held q reply) s
    | .blocked p s => (⟨.waiting p (.ask q next), held, limit⟩, s)

/-- Gives a task up. -/
def abandon (id : Nat) (t : Task) (s : Stage) : Task × Stage :=
  let s := { s with arbiter := s.arbiter.cancel id, gate := s.gate.filter (· != id) }
  (⟨.ended .stuck s.now, [], t.limit⟩, t.held.foldl Stage.release s)

/-- Goes on with a task that waited. -/
def resume (id : Nat) (t : Task) (s : Stage) : Task × Stage :=
  match t.progress with
  | .ended .. => (t, s)
  | .waiting p work =>
    if t.limit ≤ s.now then abandon id t s
    else match work with
      | .done o => (⟨.ended o s.now, t.held, t.limit⟩, s)
      | .ask q next => match s.resume id p q with
        | .answered reply s =>
          proceed id t.limit (next reply) (Task.heldAfter t.held q reply) s
        | .blocked p s => (⟨.waiting p (.ask q next), t.held, t.limit⟩, s)

namespace Run

/-- The task that goes on by itself next, with the time. -/
def next? (r : Run) : Option (Nat × Nat) :=
  r.tasks.zipIdx.foldl
    (fun best (t, id) => match t.timer?, best with
      | some time, some (time', id') => if time < time' then some (time, id) else some (time', id')
      | some time, none => some (time, id)
      | none, best => best)
    none

/-- Goes on with one task. -/
def step (r : Run) (id : Nat) : Run :=
  match r.tasks[id]? with
  | none => r
  | some t =>
    let (t, stage) := resume id t r.stage
    ⟨stage, r.tasks.set id t⟩

/-- Goes on until all tasks ended.  Every round goes on with one task; `fuel` is the number of
rounds. -/
def finish : (fuel : Nat) → Run → Run
  | 0, r => r
  | fuel + 1, r => match r.stage.queue with
    | id :: rest => finish fuel ({ r with stage := { r.stage with queue := rest } }.step id)
    | [] => match r.next? with
      | some (time, id) => finish fuel ({ r with stage := { r.stage with now := time } }.step id)
      | none => r

/-- More rounds than tasks on a stage can take: a request has fewer than sixteen steps, a pass
that many for each attachment, and each time a key is given back everyone may try again. -/
def rounds (s : Stage) (tasks : Nat) : Nat :=
  let steps := 16 * tasks * (tasks + s.store.size + 1)
  (steps + 1) * (tasks + 1)

/-- Runs tasks that begin at some times: how each ended and when, and the stage after that. -/
def all (s : Stage) (plays : List (Nat × Play Outcome)) : List (Outcome × Nat) × Stage :=
  let ready := (plays.zipIdx.filter fun (p, _) => p.1 == 0).map Prod.snd
  let r : Run :=
    ⟨{ s with now := 0, queue := ready }, plays.map fun (time, p) => .starting time p⟩
  let r := r.finish (rounds s plays.length)
  (r.tasks.map fun t => match t.progress with
    | .ended o time => (o, time)
    | .waiting .. => (.stuck, r.stage.now), r.stage)

/-- Runs one task. -/
def one (s : Stage) (p : Play Outcome) : Outcome × Stage :=
  match all s [(0, p)] with
  | ([(o, _)], s) => (o, s)
  | (_, s) => (.stuck, s)

end Run

end PodAttach.Scenario
