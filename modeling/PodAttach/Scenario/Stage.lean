import PodAttach.Agent.Arbiter
import PodAttach.Agent.Readiness
import PodAttach.Agent.Reconcile
import PodAttach.Scenario.Node

/-!
# The stage of a rehearsal

The node, the store and the locks that several activities share, and what
one step of an activity does to them.  A step is answered at once, or it
blocks: a call takes its time, a lock is busy, the network is not there yet.
-/

namespace PodAttach.Scenario

open Agent

/-- A change of the scene. -/
inductive Setting where
  /-- Calls meet a fault from now on. -/
  | fault (name : String) (f : Fault)
  /-- Calls take some time from now on. -/
  | delay (name : String) (ms : Nat)
  | insertPort (p : Switch.Port)
  | removePort (name : String)
  | setOfport (name : String) (ofport : Option Nat)
  | insertPair (name : String)
  | removePair (name : String)
  /-- The descriptor of a pod, or that there is none. -/
  | descriptor (pod : String × String) (d : Option Descriptor)
  /-- The content of a file of descriptors, or that there is none. -/
  | file (path : List String) (content : Option Bytes)
  | insertAttachment (a : Attachment)
  | removeAttachment (name : String)
  /-- Whether a key is held. -/
  | isBusy (key : String)
  /-- A key that was taken is not given back at the end. -/
  | keep (key : String)
  /-- Gives back a key that was kept, if it was. -/
  | unlock (key : String)
  /-- The signal of the network, fired or given up; only the first one counts. -/
  | signal (fires : Bool)
  deriving Repr, Inhabited

/-- One step of an activity in a rehearsal. -/
inductive Act where
  /-- A step of the agent. -/
  | agent (q : Ask)
  /-- Nothing, for some milliseconds. -/
  | sleep (ms : Nat)
  /-- A change of the scene. -/
  | set (s : Setting)
  deriving Repr, Inhabited

/-- The answer to a step; a change of the scene has one only where it asks for something. -/
def Act.Reply : Act → Type
  | .agent q => q.Reply
  | .sleep _ => Unit
  | .set _ => Option Bool

/-- What is shared. -/
structure Stage where
  /-- Milliseconds since the beginning. -/
  now : Nat := 0
  node : Node := {}
  store : Store := .empty
  arbiter : Arbiter Nat := .empty
  readiness : Readiness := .ready
  /-- The tasks that wait for the network, in order. -/
  gate : List Nat := []
  /-- The keys that are kept. -/
  kept : List String := []
  /-- The tasks that may go on, in order. -/
  queue : List Nat := []
  deriving Repr, Inhabited

/-- What a task waits for. -/
inductive Phase where
  /-- The time at which it begins. -/
  | starting (time : Nat)
  /-- The end of a call. -/
  | calling (time : Nat)
  /-- The end of its sleep. -/
  | sleeping (time : Nat)
  /-- A key, until a deadline. -/
  | locking (deadline : Option Nat)
  /-- The network, until a deadline. -/
  | gated (deadline : Nat)
  deriving DecidableEq, Repr, Inhabited

/-- The time at which a task goes on by itself. -/
def Phase.timer? : Phase → Option Nat
  | .starting time => some time
  | .calling time => some time
  | .sleeping time => some time
  | .locking deadline => deadline
  | .gated deadline => some deadline

/-- What became of a step. -/
inductive Attempt (q : Act) where
  | answered (reply : q.Reply) (s : Stage)
  | blocked (p : Phase) (s : Stage)

namespace Stage

/-- Puts tasks at the end of the queue. -/
def wake (s : Stage) (ids : List Nat) : Stage :=
  { s with queue := s.queue ++ ids }

/-- Gives a key back. -/
def release (s : Stage) (key : String) : Stage :=
  { s with arbiter := s.arbiter.release key }.wake s.arbiter.sleepers

/-- The deadline of a wait that begins now. -/
def deadline (s : Stage) (limit : Duration) : Nat :=
  s.now + limit.millis

/-! ## Changes of the scene -/

/-- Changes the node. -/
def onNode (s : Stage) (f : Node → Node) : Stage :=
  { s with node := f s.node }

/-- Changes the bridge. -/
def onBridge (s : Stage) (f : Switch.Bridge → Switch.Bridge) : Stage :=
  s.onNode fun n => { n with bridge := f n.bridge }

/-- Makes a change of the scene. -/
def apply (s : Stage) : Setting → Option Bool × Stage
  | .fault name f => (none, s.onNode fun n => { n with faults := n.faults.insert name f })
  | .delay name ms => (none, s.onNode fun n => { n with delays := n.delays.insert name ms })
  | .insertPort p => (none, s.onBridge fun b => b.insertPort p)
  | .removePort name => (none, s.onBridge fun b => b.erasePort name)
  | .setOfport name ofport => (none, s.onBridge fun b => b.setOfport name ofport)
  | .insertPair name => (none, s.onNode fun n => { n with pairs := n.pairs.insert name () })
  | .removePair name => (none, s.onNode fun n => { n with pairs := n.pairs.erase name })
  | .descriptor pod d =>
    (none, s.onNode fun n => { n with source := n.source.setDescriptor pod d })
  | .file path content =>
    (none, s.onNode fun n => { n with source := n.source.setFile path content })
  | .insertAttachment a => (none, { s with store := s.store.add a })
  | .removeAttachment name =>
    let (taken, store) := s.store.take name
    (some taken.isSome, { s with store })
  | .isBusy key => (some (s.arbiter.isBusy key), s)
  | .keep key => (none, { s with kept := key :: s.kept })
  | .unlock key =>
    if s.kept.contains key then
      (some true, { s with kept := s.kept.filter (· != key) }.release key)
    else (some false, s)
  | .signal fires =>
    if s.readiness = .pending then
      (some true,
        { s with readiness := if fires then .ready else .dropped, gate := [] }.wake s.gate)
    else (some false, s)

/-! ## Steps of the agent -/

/-- Answers a call whose time is over. -/
def perform (s : Stage) : (q : Ask) → Attempt (.agent q)
  | .switch c =>
    let (reply, node) := s.node.callSwitch c
    .answered reply { s with node }
  | .link c =>
    let (reply, node) := s.node.callLinks c
    .answered reply { s with node }
  | .descriptor podNamespace name =>
    let (reply, node) := s.node.callDescriptor podNamespace name
    .answered reply { s with node }
  | .pods =>
    let (reply, node) := s.node.callPods
    .answered reply { s with node }
  | .acquire _ _ => .answered false s
  | .release key => .answered () (s.release key)
  | .awaitReady _ => .answered false s
  | .attachment name => .answered (s.store.get? name) s
  | .attachmentOf containerId => .answered (s.store.find? containerId) s
  | .attachments => .answered s.store.list s
  | .record a => .answered () { s with store := s.store.add a }
  | .forget name => .answered () { s with store := s.store.erase name }

/-- Begins a call: it is noted, and blocks for as long as it takes. -/
def call (s : Stage) (q : Ask) : Attempt (.agent q) :=
  let s := s.onNode fun n => n.note q
  match s.node.delay q with
  | 0 => s.perform q
  | ms => .blocked (.calling (s.now + ms)) s

/-- Takes a key for a task, or lets it wait until a deadline. -/
def lock (s : Stage) (id : Nat) (key : String) (limit : Option Duration) :
    Attempt (.agent (.acquire key limit)) :=
  let (taken, arbiter) := s.arbiter.lock id key
  if taken then .answered true { s with arbiter }
  else match limit with
    | none => .blocked (.locking none) { s with arbiter }
    | some limit =>
      if limit.millis = 0 then .answered false { s with arbiter := arbiter.cancel id }
      else .blocked (.locking (some (s.deadline limit))) { s with arbiter }

/-- Waits for the network until a deadline. -/
def await (s : Stage) (id : Nat) (limit : Duration) : Attempt (.agent (.awaitReady limit)) :=
  match s.readiness.answer? with
  | some fired => .answered fired s
  | none =>
    if limit.millis = 0 then .answered false s
    else .blocked (.gated (s.deadline limit)) { s with gate := s.gate ++ [id] }

/-- Begins a step of a task. -/
def start (s : Stage) (id : Nat) : (q : Act) → Attempt q
  | .sleep 0 => .answered () s
  | .sleep ms => .blocked (.sleeping (s.now + ms)) s
  | .set setting =>
    let (reply, s) := s.apply setting
    .answered reply s
  | .agent (.acquire key limit) => s.lock id key limit
  | .agent (.awaitReady limit) => s.await id limit
  | .agent q => s.call q

/-- Whether a deadline has come. -/
def isOver (s : Stage) : (deadline : Option Nat) → Bool
  | some d => d ≤ s.now
  | none => false

/-- Looks for a key again. -/
def relock (s : Stage) (id : Nat) (key : String) (limit : Option Duration)
    (deadline : Option Nat) : Attempt (.agent (.acquire key limit)) :=
  match s.arbiter.poll id with
  | (.acquired _, arbiter) => .answered true { s with arbiter }
  | (_, arbiter) =>
    if s.isOver deadline then .answered false { s with arbiter := arbiter.cancel id }
    else .blocked (.locking deadline) { s with arbiter }

/-- Looks for the network again. -/
def reawait (s : Stage) (id : Nat) (limit : Duration) (deadline : Nat) :
    Attempt (.agent (.awaitReady limit)) :=
  match s.readiness.answer? with
  | some fired => .answered fired s
  | none =>
    if deadline ≤ s.now then .answered false { s with gate := s.gate.filter (· != id) }
    else .blocked (.gated deadline) s

/-- Goes on with a step that blocked. -/
def resume (s : Stage) (id : Nat) : (p : Phase) → (q : Act) → Attempt q
  | .sleeping _, .sleep _ => .answered () s
  | .calling _, .agent q => s.perform q
  | .locking deadline, .agent (.acquire key limit) => s.relock id key limit deadline
  | .gated deadline, .agent (.awaitReady limit) => s.reawait id limit deadline
  | _, q => s.start id q

end Stage

end PodAttach.Scenario
