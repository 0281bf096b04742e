import PodAttach.Proofs.Identifiers
import PodAttach.Proofs.Runs

/-!
# What a restart finds

The store of the agent is lost when it stops; when it starts again, it is made
of the ports of the switch.  So each port of a container should have a record,
and the record should be what the port says (`World.Accounted`).

The invariant is kept by every job, whatever fails: a port is made before its
record is written, but it is recorded or removed before the request ends, and
a record is dropped only after its port (`Removes.accounted`,
`Attempts.accounted`).  No assumption about UUIDs is needed, since ports that
disappear do no harm.

`restart_loses_nothing` is the result: a restart at any point between jobs finds
what the agent had recorded of the ports that are there.
-/

namespace PodAttach

/-- An attachment is what a port says, or lacks the number of the port. -/
def Attachment.Matches (a b : Attachment) : Prop :=
  a = b ∨ a = { b with port := b.port.map fun q => { q with ofport := none } }

namespace Attachment.Matches

variable {a b : Attachment}

theorem containerId_eq (h : a.Matches b) : a.containerId = b.containerId := by
  rcases h with rfl | rfl <;> rfl

/-- It names the port that says it. -/
theorem hasPort {p : Switch.Port} (h : a.Matches b) (hp : ofPort? p = some b) :
    a.hasPort p = true := by
  have hport := port_of_ofPort? hp
  rcases h with rfl | rfl <;> simp [Attachment.hasPort, hport]

end Attachment.Matches

namespace Agent

variable {o : Options} {k : Conditions} {w w' : World}

/-- A port is under its own name, and one of a container has the record that it speaks of. -/
def Slot.Accounted (n : String) (s : Slot) : Prop :=
  ∀ p, s.port = some p → p.name = n ∧
    ∀ b, Attachment.ofPort? p = some b → ∃ a, s.record = some a ∧ a.Matches b

/-- Each port of a container has a record. -/
structure World.Accounted (w : World) : Prop where
  coherent : w.store.Coherent
  slot : ∀ n, (w.slot n).Accounted n

namespace Slot.Accounted

variable {n : String} {s s' : Slot}

/-- A slot with the same record and no other port. -/
theorem of_record (h : s.Accounted n) (hport : s'.port = none ∨ s'.port = s.port)
    (hrecord : s'.record = s.record) : s'.Accounted n := by
  intro p hp
  rcases hport with hnone | hsame
  · cases hnone.symm.trans hp
  · rw [hrecord]
    exact h p (hsame.symm.trans hp)

/-- The record goes after the port that it names. -/
theorem removes {a : Attachment} {r : Except Failure Unit} (h : s.Accounted n)
    (ha : s.record = some a) (hremoves : Slot.Removes a s r s') : s'.Accounted n := by
  cases hremoves with
  | kept => exact h
  | flowless => exact h.of_record (.inr rfl) rfl
  | portless => exact h.of_record (filter_none_or _ _) rfl
  | gone =>
    intro p hp
    obtain ⟨hsome, hkept⟩ := Option.filter_eq_some_iff.1 hp
    obtain ⟨hname, hrecord⟩ := h p hsome
    refine ⟨hname, fun b hb => ?_⟩
    obtain ⟨a', ha', hmatches⟩ := hrecord b hb
    obtain rfl := Option.some.inj (ha.symm.trans ha')
    rw [hmatches.hasPort hb] at hkept
    cases hkept

end Slot.Accounted

/-- A port that is made for an interface says what is recorded of the interface. -/
theorem ofPort?_portFor (k : Conditions) (c : Cni.Call) (p : Plan) :
    Attachment.ofPort? (portFor k p.hostIfname (p.attachment c).externalIds) =
      some (p.recorded c ⟨k.uuid p.hostIfname, some k.ofport⟩) :=
  Attachment.ofPort?_externalIds (p.attachment c) _ _

theorem Slot.Attempts.accounted {c : Cni.Call} {p : Plan} {made torn : Bool}
    {x : Except Cni.CallError Bytes} {s s' : Slot} (h : Slot.Attempts k c p s made torn x s')
    (hs : s.Accounted p.hostIfname) : s'.Accounted p.hostIfname := by
  -- a port that was made and recorded, with its number or without
  have hmade : ∀ ofport flows, ofport = none ∨ ofport = some k.ofport →
      Slot.Accounted p.hostIfname ⟨some (p.recorded c ⟨k.uuid p.hostIfname, ofport⟩), some (),
        some (portFor k p.hostIfname (p.attachment c).externalIds), flows⟩ := by
    rintro ofport flows hofport q ⟨⟩
    refine ⟨rfl, fun b hb => ⟨_, rfl, ?_⟩⟩
    obtain rfl := Option.some.inj ((ofPort?_portFor k c p).symm.trans hb)
    rcases hofport with rfl | rfl
    · exact .inr rfl
    · exact .inl rfl
  cases h with
  | unbuilt => exact hs
  | refused => exact hs.of_record (.inr rfl) rfl
  | withdrawn => exact hs.of_record (.inl rfl) rfl
  | recorded hofport hflows hremove htorn => exact (hmade _ _ hofport).removes rfl hremove
  | attached => exact hmade _ _ (.inr rfl)

/-! ## Jobs -/

theorem Attempts.accounted {c : Cni.Call} {p : Plan} {made torn : Bool}
    {x : Except Cni.CallError Bytes} (h : Attempts k c p w made torn x w')
    (hnone : w.store.find? c.containerId = none) (hw : w.Accounted) : w'.Accounted where
  coherent := h.coherent hw.coherent
  slot n := by
    by_cases hn : n = p.hostIfname
    · subst hn
      exact (h.slot_self hw.coherent).accounted (hw.slot _)
    · exact (hw.slot n).of_record (h.within_of_ne hw.coherent hn).port
        (h.record_of_ne hw.coherent hnone hn)

theorem Removes.accounted {a : Attachment} {r : Except Failure Unit} (h : Removes a w r w')
    (ha : w.store.get? a.interfaceName = some a) (hw : w.Accounted) : w'.Accounted where
  coherent := h.coherent hw.coherent
  slot n := by
    by_cases hn : n = a.interfaceName
    · subst hn
      exact (hw.slot _).removes ha h.slot_self
    · rcases h.slot_of_ne_filter hn with hsame | hfilter
      · rw [hsame]
        exact hw.slot n
      · rw [hfilter]
        exact (hw.slot n).of_record (filter_none_or _ _) rfl

theorem Replays.accounted {a : Attachment} {r : Except Failure Unit} (h : Replays a w r w')
    (hw : w.Accounted) : w'.Accounted where
  coherent := h.store_eq ▸ hw.coherent
  slot n := by
    obtain ⟨flows, hslot⟩ := h.slot_flows n
    rw [hslot]
    exact (hw.slot n).of_record (.inr rfl) rfl

theorem World.accounted_dropLink (hw : w.Accounted) (name : String) :
    (w.dropLink name).Accounted where
  coherent := hw.coherent
  slot n := by
    rw [slot_dropLink]
    split
    · exact (hw.slot n).of_record (.inr rfl) rfl
    · exact hw.slot n

theorem Job.accounted {j : Job} (hw : w.Accounted) : (j.after o w).Accounted :=
  Job.invariant (fun _ h => h.coherent)
    (fun _ _ _ _ _ _ _ _ _ _ hnone h => h.accounted hnone hw)
    (fun _ _ _ _ hv ha h => h.accounted ha hv) (fun _ _ _ _ hv _ h => h.accounted hv)
    (World.accounted_dropLink hw) hw

theorem World.after_accounted {jobs : List Job} (hw : w.Accounted) :
    (w.after o jobs).Accounted :=
  World.after_prefix (fun _ j _ _ h => j.accounted h) hw jobs [] (List.append_nil jobs).symm

/-! ## Restarts -/

/-- Accounted ports are those of distinct interfaces and containers. -/
theorem World.Accounted.distinct (hw : w.Accounted) : w.bridge.ports.Distinct where
  name hp := (hw.slot _ _ hp).1
  container hp hq ha hb heq := by
    obtain ⟨a', ha', hmatches⟩ := (hw.slot _ _ hp).2 _ ha
    obtain ⟨b', hb', hmatches'⟩ := (hw.slot _ _ hq).2 _ hb
    refine hw.coherent.name_unique ha' hb' ?_
    rw [hmatches.containerId_eq, heq, hmatches'.containerId_eq]

/-- The agent started from a list of ports of distinct names and containers. -/
structure World.StartedFrom (w : World) (ports : List Switch.Port) : Prop where
  names : (ports.map Switch.Port.name).Nodup
  containers : ((ports.filterMap Attachment.ofPort?).map Attachment.containerId).Nodup
  /-- The ports are those of the bridge. -/
  bridge : ∀ n p, w.bridge.ports.get? n = some p ↔ p ∈ ports ∧ p.name = n
  store : w.store = Store.ofPorts ports

theorem names_ofPort? (ports : List Switch.Port) :
    ((ports.filterMap Attachment.ofPort?).map Attachment.interfaceName).Sublist
      (ports.map Switch.Port.name) := by
  induction ports with
  | nil => exact .slnil
  | cons p ports ih =>
    rw [List.filterMap_cons, List.map_cons]
    split
    · exact ih.cons _
    · next a ha =>
      rw [List.map_cons, Attachment.interfaceName_of_ofPort? ha]
      exact ih.cons_cons _

theorem World.StartedFrom.accounted {ports : List Switch.Port} (h : w.StartedFrom ports) :
    w.Accounted where
  coherent := h.store ▸ Store.coherent_ofPorts ports
  slot n p hp := by
    obtain ⟨hmem, hname⟩ := (h.bridge n p).1 hp
    refine ⟨hname, fun b hb => ⟨b, ?_, .inl rfl⟩⟩
    have hbname : b.interfaceName = n := (Attachment.interfaceName_of_ofPort? hb).trans hname
    show w.store.get? n = some b
    rw [h.store]
    exact (Store.get?_ofPorts (h.names.sublist (names_ofPort? ports)) h.containers).2
      ⟨List.mem_filterMap.2 ⟨p, hmem, hb⟩, hbname⟩

/-- From an agent that started from a list of ports, or from none, after any jobs with any failing
calls: each port of a container has the record that it speaks of, perhaps without its number; and
the store of a new start holds the attachments of these ports, one for each, and no others. -/
theorem restart_loses_nothing {ports : List Switch.Port} {jobs : List Job}
    (hstart : w.StartedFrom ports) :
    (∀ n p, (w.after o jobs).bridge.ports.get? n = some p →
      p.externalIds.get? Switch.idContainer ≠ none →
        ∃ a b, (w.after o jobs).store.get? p.name = some a ∧ Attachment.ofPort? p = some b ∧
          a.Matches b ∧
          (Store.ofPorts (w.after o jobs).bridge.ports.values).get? p.name = some b ∧
          (Store.ofPorts (w.after o jobs).bridge.ports.values).find? b.containerId = some b) ∧
      (Store.ofPorts (w.after o jobs).bridge.ports.values).list =
        (w.after o jobs).bridge.ports.values.filterMap Attachment.ofPort? := by
  have haccounted : (w.after o jobs).Accounted := World.after_accounted hstart.accounted
  have hdistinct := haccounted.distinct
  generalize w.after o jobs = v at haccounted hdistinct ⊢
  refine ⟨fun n p hp hid => ?_, Store.list_ofPorts_values hdistinct⟩
  obtain ⟨hname, hrecord⟩ := haccounted.slot n p hp
  obtain ⟨b, hb⟩ : ∃ b, Attachment.ofPort? p = some b := by
    obtain ⟨c, hc⟩ := Option.ne_none_iff_exists'.1 hid
    exact ⟨_, by rw [Attachment.ofPort?, hc]⟩
  obtain ⟨a, ha, hmatches⟩ := hrecord b hb
  have hget : (Store.ofPorts v.bridge.ports.values).get? p.name = some b := by
    rw [Store.get?_ofPorts_values hdistinct, hname, hp]
    exact hb
  refine ⟨a, b, hname ▸ ha, hb, hmatches, hget, ?_⟩
  rw [Store.find?_eq_some_iff (Store.coherent_ofPorts _), Attachment.interfaceName_of_ofPort? hb]
  exact ⟨hget, rfl⟩

namespace Sample

/-- What was attached before the agent started. -/
def earlier : Attachment where
  interfaceName := "tapold"
  containerId := "c0"
  podName := "p0"
  podNamespace := "default"
  vifId := "old"
  mac := "02:00:00:00:00:08"
  ips := [Net.Ip.ofBits .v6 1, Net.Ip.ofBits .v4 0x0A000004]
  port := none

/-- The ports that the agent finds when it starts; one of them is not its own. -/
def foundPorts : List Switch.Port :=
  [⟨"uuid-tapold", "tapold", some 7, earlier.externalIds⟩,
    ⟨"uuid-uplink", "uplink", some 1, .empty⟩]

/-- The world after the start. -/
def started : World where
  store := .ofPorts foundPorts
  bridge := { ports := .ofList (foundPorts.map fun p => (p.name, p)) }

theorem startedFrom : started.StartedFrom foundPorts where
  names := by decide
  containers := by decide +kernel
  bridge n p := by
    simp only [started, foundPorts, Table.ofList, List.map_cons, List.map_nil, List.foldl_cons,
      List.foldl_nil, Table.get?_insert, Table.get?_empty, List.mem_cons, List.not_mem_nil,
      or_false]
    grind
  store := rfl

/-- The attachment of the pod's interface to a port of some number. -/
def attached (ofport : Option Nat) : Attachment :=
  (plan "c1").2.recorded (call "c1") ⟨Switch.Bridge.uuidOf name, ofport⟩

end Sample

/-- A port that an Add left is recorded without its number.  The next start finds it with its
number, next to the port that was there at the first start. -/
theorem left_port_found_at_restart :
    let w := Sample.started.after {} [.serve Sample.halfAdd]
    w.store.get? Sample.name = some (Sample.attached none) ∧
      (Store.ofPorts w.bridge.ports.values).get? Sample.name = some (Sample.attached (some 10)) ∧
      (Store.ofPorts w.bridge.ports.values).list =
        [{ Sample.earlier with port := some ⟨"uuid-tapold", some 7⟩ },
          Sample.attached (some 10)] := by
  intro w
  have hport : w.bridge.ports.get? Sample.name =
      some (portFor (Sample.conditions Sample.portStays) Sample.name
        ((Sample.plan "c1").2.attachment (Sample.call "c1")).externalIds) := by decide +kernel
  obtain ⟨hports, hlist⟩ := @restart_loses_nothing {} _ _ [.serve Sample.halfAdd]
    Sample.startedFrom
  obtain ⟨a, b, ha, hb, -, hfound, -⟩ := hports _ _ hport (by decide +kernel)
  have hread := ofPort?_portFor (Sample.conditions Sample.portStays) (Sample.call "c1")
    (Sample.plan "c1").2
  obtain rfl : Sample.attached (some 10) = b := Option.some.inj (hread.symm.trans hb)
  exact ⟨by decide +kernel, hfound, hlist.trans (by decide +kernel)⟩

end Agent

end PodAttach
