import PodAttach.Agent.Attach
import PodAttach.Proofs.Store
import PodAttach.Switch.Bridge

/-!
# The world of a request

What a request finds outside of itself: the store of attachments, the bridge
and the links of the node.  This module says how each question of a request
is answered from there, and what it changes.

Three things are not the agent's to choose, and `Conditions` hold them: what
the descriptor and the readiness of the node are, which UUIDs, OpenFlow
numbers and hardware addresses are handed out, and which calls fail.  A call
may fail at any point, by its place among the questions of the request.  A
call that fails changes nothing, except that a failing installation of flows
may have added them.

An interface has one `Slot`: its record, its link, its port and its flows.

* `World.slot_meet`: a question acts on every slot alone, as `Slot.meet` says.
* `World.ext_slot`: a world is known by its slots, and by the number that the
  bridge hands out next.
* `World.coherent_meet`: the indexes of the store agree after every question.
-/

namespace PodAttach

namespace Switch.Bridge

/-- What a call gives on a bridge that hands out given UUIDs and a given OpenFlow number. -/
def callHanding (b : Bridge) (uuid : String → String) (ofport : Nat) :
    (c : Call) → c.Reply × Bridge
  | .createPort name externalIds =>
    (.ok (uuid name), b.insertPort ⟨uuid name, name, some ofport, externalIds⟩)
  | c => b.call c

/-- A bridge hands out the UUIDs of its ports' names and the number that comes next. -/
theorem call_eq_callHanding (b : Bridge) (c : Call) :
    (b.call c).1 = (b.callHanding uuidOf b.nextOfport c).1 ∧
      (b.call c).2.ports = (b.callHanding uuidOf b.nextOfport c).2.ports ∧
      (b.call c).2.flows = (b.callHanding uuidOf b.nextOfport c).2.flows := by
  cases c <;> simp [call, callHanding, insertPort]

end Switch.Bridge

namespace Agent

/-- How a call ends that fails. -/
structure Mishap where
  /-- The error of a call on the switch.  No call reports that a port stayed on the bridge: the
  agent finds that out by itself. -/
  onSwitch : { e : Switch.Error // leftPort? e = none }
  /-- The error of a call on the links. -/
  onLinks : Link.Error
  /-- Whether an installation that fails has added its flows. -/
  leavesFlows : Bool

/-- A failure that leaves nothing behind. -/
def Mishap.bare : Mishap :=
  ⟨⟨.spawn "" "", rfl⟩, default, false⟩

/-- What the surroundings of one request decide. -/
structure Conditions where
  /-- Whether the network of the node is there in time. -/
  ready : Bool := true
  /-- The descriptor of the request's pod. -/
  descriptor : Except DescriptorError Descriptor
  /-- The pods of the node. -/
  pods : Except DescriptorError (List PodRef) := .ok []
  /-- The hardware address of the end that stays. -/
  hostMac : String := ""
  /-- The UUID that a port of a name gets. -/
  uuid : String → String
  /-- The OpenFlow number that a port gets. -/
  ofport : Nat
  /-- What the question meets before which so many were answered. -/
  mishap : Nat → Option Mishap := fun _ => none

/-- What all requests share. -/
structure World where
  store : Store := .empty
  bridge : Switch.Bridge := {}
  /-- The pairs of links, by the name of the end that stays. -/
  pairs : Table Unit := .empty

/-- The pair that is built. -/
def builtPair (k : Conditions) (spec : Link.PairSpec) : Link.Pair :=
  ⟨⟨spec.hostIfname, k.hostMac, ""⟩, ⟨spec.containerIfname, spec.mac, spec.netns⟩⟩

namespace World

variable (k : Conditions) (w : World)

/-- A port is put in the place of one of its name. -/
def putPort (p : Switch.Port) : World := { w with bridge := w.bridge.insertPort p }

/-- The ports with a UUID are taken away. -/
def dropPort (uuid : String) : World :=
  { w with bridge := { w.bridge with ports := w.bridge.ports.filter fun _ p => p.uuid != uuid } }

/-- An interface gets flows. -/
def putFlows (name : String) (ofport : Nat) : World :=
  { w with bridge := { w.bridge with flows := w.bridge.flows.insert name ofport } }

/-- The flows of an interface are taken away. -/
def dropFlows (name : String) : World :=
  { w with bridge := { w.bridge with flows := w.bridge.flows.erase name } }

/-- A port that was put has the number that it was put with. -/
theorem ofport?_putPort (p : Switch.Port) :
    (w.putPort p).bridge.ofport? p.name = p.ofport := by
  simp [putPort, Switch.Bridge.ofport?, Switch.Bridge.insertPort]

/-- A port that is put where none was, and dropped again, leaves the world as it was. -/
theorem dropPort_putPort {p : Switch.Port} (hport : w.bridge.ports.get? p.name = none)
    (hnew : ∀ n q, w.bridge.ports.get? n = some q → q.uuid ≠ p.uuid) :
    (w.putPort p).dropPort p.uuid = w := by
  have hports : (w.bridge.ports.insert p.name p).filter (fun _ q => q.uuid != p.uuid) =
      w.bridge.ports := by
    ext n q
    rw [Table.get?_filter, Table.get?_insert]
    split
    · next hn => simp [hn, hport, Option.filter]
    · cases hq : w.bridge.ports.get? n with
      | none => simp
      | some q' => simp [Option.filter, hnew n q' hq]
  simp [putPort, dropPort, Switch.Bridge.insertPort, hports]

/-- Flows that are put where none were, and dropped again, leave the world as it was. -/
theorem dropFlows_putFlows {name : String} {ofport : Nat}
    (hflows : w.bridge.flows.get? name = none) :
    (w.putFlows name ofport).dropFlows name = w := by
  have hsame : (w.bridge.flows.insert name ofport).erase name = w.bridge.flows := by
    ext n f
    rw [Table.get?_erase, Table.get?_insert]
    grind
  simp [putFlows, dropFlows, hsame]

/-- Dropping flows that are not there changes nothing. -/
theorem dropFlows_of_none {name : String} (hflows : w.bridge.flows.get? name = none) :
    w.dropFlows name = w := by
  have hsame : w.bridge.flows.erase name = w.bridge.flows := by
    ext n f
    rw [Table.get?_erase]
    grind
  simp [dropFlows, hsame]

/-- What a call on the links does. -/
def onLinks : (c : Link.Call) → c.Reply × World
  | .build spec =>
    (.ok (builtPair k spec), { w with pairs := w.pairs.insert spec.hostIfname () })
  | .teardown _ hostIfname => (.ok (), { w with pairs := w.pairs.erase hostIfname })
  | .check hostIfname _ _ _ =>
    (if w.pairs.contains hostIfname then .ok () else .error (.linkNotFound hostIfname), w)

/-- The answer to a question that meets nothing, and the world after it. -/
def perform : (q : Ask) → q.Reply × World
  | .switch c =>
    let (reply, bridge) := w.bridge.callHanding k.uuid k.ofport c
    (reply, { w with bridge })
  | .link c => w.onLinks k c
  | .descriptor .. => (k.descriptor, w)
  | .pods => (k.pods, w)
  | .acquire .. => (true, w)
  | .release _ => ((), w)
  | .awaitReady _ => (k.ready, w)
  | .attachment name => (w.store.get? name, w)
  | .attachmentOf containerId => (w.store.find? containerId, w)
  | .attachments => (w.store.list, w)
  | .record a => ((), { w with store := w.store.add a })
  | .forget name => ((), { w with store := w.store.erase name })

/-- The world after a call on the switch that failed. -/
def afterFailed (m : Mishap) : Switch.Call → World
  | .installFlows name _ _ ofport => if m.leavesFlows then w.putFlows name ofport else w
  | _ => w

/-- The answer to a question, and the world after it.  Only calls can fail. -/
def meet : (m : Option Mishap) → (q : Ask) → q.Reply × World
  | some m, .switch c => (.error m.onSwitch, w.afterFailed m c)
  | some m, .link _ => (.error m.onLinks, w)
  | _, q => w.perform k q

end World

/-! ## Slots -/

/-- All that there is of one interface. -/
@[ext]
structure Slot where
  record : Option Attachment
  link : Option Unit
  port : Option Switch.Port
  /-- The OpenFlow number in its flows. -/
  flows : Option Nat
  deriving DecidableEq, Repr

namespace Slot

/-- Nothing is there of the interface. -/
def clear : Slot := ⟨none, none, none, none⟩

variable (k : Conditions) (name : String) (s : Slot)

/-- What a question that meets nothing does to the slot of a name. -/
def perform : Ask → Slot
  | .switch (.createPort n externalIds) =>
    if name = n then { s with port := some ⟨k.uuid n, n, some k.ofport, externalIds⟩ } else s
  | .switch (.deletePort uuid) => { s with port := s.port.filter fun p => p.uuid != uuid }
  | .switch (.installFlows n _ _ ofport) =>
    if name = n then { s with flows := some ofport } else s
  | .switch (.uninstallFlows n) => if name = n then { s with flows := none } else s
  | .link (.build spec) => if name = spec.hostIfname then { s with link := some () } else s
  | .link (.teardown _ n) => if name = n then { s with link := none } else s
  | .record a =>
    if name = a.interfaceName then { s with record := some a }
    else { s with record := s.record.filter fun b => b.containerId != a.containerId }
  | .forget n => if name = n then { s with record := none } else s
  | _ => s

/-- The slot of a name after a call on the switch that failed. -/
def afterFailed (m : Mishap) : Switch.Call → Slot
  | .installFlows n _ _ ofport =>
    if name = n ∧ m.leavesFlows then { s with flows := some ofport } else s
  | _ => s

/-- What a question does to the slot of a name. -/
def meet : Option Mishap → Ask → Slot
  | some m, .switch c => s.afterFailed name m c
  | some _, .link _ => s
  | _, q => s.perform k name q

end Slot

namespace World

/-- The slot of an interface. -/
def slot (w : World) (name : String) : Slot :=
  ⟨w.store.get? name, w.pairs.get? name, w.bridge.ports.get? name, w.bridge.flows.get? name⟩

@[simp]
theorem slot_record (w : World) (name : String) : (w.slot name).record = w.store.get? name := rfl

@[simp]
theorem slot_link (w : World) (name : String) : (w.slot name).link = w.pairs.get? name := rfl

@[simp]
theorem slot_port (w : World) (name : String) :
    (w.slot name).port = w.bridge.ports.get? name := rfl

@[simp]
theorem slot_flows (w : World) (name : String) :
    (w.slot name).flows = w.bridge.flows.get? name := rfl

/-- A world is known by its slots, and the number that the bridge counts with. -/
theorem ext_slot {v w : World} (hv : v.store.Coherent) (hw : w.store.Coherent)
    (hnext : v.bridge.nextOfport = w.bridge.nextOfport) (h : ∀ n, v.slot n = w.slot n) :
    v = w := by
  have hstore : v.store = w.store :=
    hv.eq_of_get?_eq hw fun n => congrArg Slot.record (h n)
  have hpairs : v.pairs = w.pairs := Table.ext fun n => congrArg Slot.link (h n)
  have hports : v.bridge.ports = w.bridge.ports := Table.ext fun n => congrArg Slot.port (h n)
  have hflows : v.bridge.flows = w.bridge.flows := Table.ext fun n => congrArg Slot.flows (h n)
  obtain ⟨vstore, ⟨vports, vflows, vnext⟩, vpairs⟩ := v
  obtain ⟨wstore, ⟨wports, wflows, wnext⟩, wpairs⟩ := w
  simp_all

/-- The attachment of a container is in the slot of its name. -/
theorem find?_eq_some_iff {w : World} (h : w.store.Coherent) {c : String} {a : Attachment} :
    w.store.find? c = some a ↔ (w.slot a.interfaceName).record = some a ∧ a.containerId = c :=
  Store.find?_eq_some_iff h

/-- What a question that meets nothing does to each slot. -/
theorem slot_perform (k : Conditions) {w : World} (h : w.store.Coherent) (q : Ask)
    (name : String) : (w.perform k q).2.slot name = (w.slot name).perform k name q := by
  cases q with
  | switch c =>
    cases c with
    | createPort n externalIds =>
      by_cases hn : name = n <;>
        simp [World.perform, Slot.perform, Switch.Bridge.callHanding, Switch.Bridge.insertPort,
          slot, hn]
    | deletePort uuid =>
      simp [World.perform, Slot.perform, Switch.Bridge.callHanding, Switch.Bridge.call, slot]
    | getOfport n =>
      simp only [World.perform, Slot.perform, Switch.Bridge.callHanding, Switch.Bridge.call]
      split <;> rfl
    | installFlows n ips mac ofport =>
      by_cases hn : name = n <;>
        simp [World.perform, Slot.perform, Switch.Bridge.callHanding, Switch.Bridge.call, slot,
          hn]
    | uninstallFlows n =>
      by_cases hn : name = n <;>
        simp [World.perform, Slot.perform, Switch.Bridge.callHanding, Switch.Bridge.call, slot,
          hn]
  | link c =>
    cases c with
    | build spec =>
      by_cases hn : name = spec.hostIfname <;>
        simp [World.perform, Slot.perform, onLinks, slot, hn]
    | teardown containerId n =>
      by_cases hn : name = n <;> simp [World.perform, Slot.perform, onLinks, slot, hn]
    | check n netns containerIfname mac => rfl
  | record a =>
    by_cases hn : name = a.interfaceName <;>
      simp [World.perform, Slot.perform, slot, h.get?_add_filter, hn]
  | forget n =>
    by_cases hn : name = n <;> simp [World.perform, Slot.perform, slot, Store.get?_erase, hn]
  | _ => rfl

/-- What a question does to each slot. -/
theorem slot_meet (k : Conditions) {w : World} (h : w.store.Coherent) (m : Option Mishap)
    (q : Ask) (name : String) : (w.meet k m q).2.slot name = (w.slot name).meet k name m q := by
  cases m with
  | none => exact slot_perform k h q name
  | some m =>
    cases q with
    | switch c =>
      cases c with
      | installFlows n ips mac ofport =>
        cases hleaves : m.leavesFlows <;> by_cases hn : name = n <;>
          simp [World.meet, Slot.meet, World.afterFailed, Slot.afterFailed, putFlows, slot, hn,
            hleaves]
      | _ => rfl
    | link c => rfl
    | _ => exact slot_perform k h _ name

/-- The number of a port is read off its slot. -/
theorem perform_getOfport (k : Conditions) (w : World) (name : String) :
    w.perform k (.switch (.getOfport name)) =
      (match (w.slot name).port.bind Switch.Port.ofport with
        | some ofport => .ok ofport
        | none => .error (.ofPortUnavailable name), w) := by
  simp only [perform, Switch.Bridge.callHanding, Switch.Bridge.call, Switch.Bridge.ofport?, slot]
  cases (w.bridge.ports.get? name).bind Switch.Port.ofport <;> rfl

/-- Every store that comes about is coherent. -/
theorem coherent_meet (k : Conditions) {w : World} (h : w.store.Coherent) (m : Option Mishap)
    (q : Ask) : (w.meet k m q).2.store.Coherent := by
  have hperform : (w.perform k q).2.store.Coherent := by
    cases q with
    | switch c => cases c <;> exact h
    | link c => cases c <;> exact h
    | record a => exact h.add a
    | forget name => exact h.erase name
    | _ => exact h
  cases m with
  | none => exact hperform
  | some m =>
    cases q with
    | switch c =>
      show (w.afterFailed m c).store.Coherent
      unfold afterFailed putFlows
      split
      · split <;> exact h
      · exact h
    | link c => exact h
    | _ => exact hperform

/-- Numbers are handed out by the conditions; the bridge does not count them. -/
theorem nextOfport_meet (k : Conditions) (w : World) (m : Option Mishap) (q : Ask) :
    (w.meet k m q).2.bridge.nextOfport = w.bridge.nextOfport := by
  have hperform : (w.perform k q).2.bridge.nextOfport = w.bridge.nextOfport := by
    cases q with
    | switch c =>
      cases c with
      | getOfport name => rw [perform_getOfport]
      | _ => rfl
    | link c => cases c <;> rfl
    | _ => rfl
  cases m with
  | none => exact hperform
  | some m =>
    cases q with
    | switch c =>
      show (w.afterFailed m c).bridge.nextOfport = w.bridge.nextOfport
      unfold afterFailed putFlows
      split
      · split <;> rfl
      · rfl
    | link c => rfl
    | _ => exact hperform

end World

end Agent

end PodAttach
