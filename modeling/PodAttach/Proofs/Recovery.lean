import PodAttach.Proofs.Crashes
import PodAttach.Proofs.Restart
import PodAttach.Proofs.StaleFlows

/-!
# Recovery of the switch

When the agent starts again and no pod is wanted, one pass should clear the
switch of all that was attached, whatever happened before.  What the pass can
remove is what the store tells it, and that is made of the ports.

* `World.Orderly` collects what the ports keep: their UUIDs and names, the records that
  speak of them, and that all of them belong to containers.  Every stint of a run keeps it.
* `recovered_slot`: then no port outlasts a recovery, and flows only where there was no
  port to find them by.
* `Stint.current`: flows without a port come only from a pass that revives them, as long
  as no Add plans an interface of which something is there.
* `recovery_clears_iff` puts this together over runs with crashes.
-/

namespace PodAttach.Agent

variable {o : Options} {k : Conditions} {w w' : World} {nameOf : String → String} {n : String}
  {j : Job} {s : Stint}

/-! ## Ports of containers -/

/-- The port of an interface, if there is one, is that of a container. -/
def Slot.Tagged (s : Slot) : Prop :=
  ∀ p, s.port = some p → ∃ a, Attachment.ofPort? p = some a

namespace Slot

variable {s s' : Slot}

theorem Tagged.of_port (h : s.Tagged) (hport : s'.port = none ∨ s'.port = s.port) :
    s'.Tagged := by
  intro p hp
  rcases hport with hnone | hsame
  · cases hnone.symm.trans hp
  · exact h p (hsame.symm.trans hp)

theorem Attempts.tagged {c : Cni.Call} {p : Plan} {made torn : Bool}
    {x : Except Cni.CallError Bytes} (h : Slot.Attempts k c p s made torn x s') (hs : s.Tagged) :
    s'.Tagged := by
  have hmade : ∀ record link flows, Slot.Tagged ⟨record, link,
      some (portFor k p.hostIfname (p.attachment c).externalIds), flows⟩ := by
    rintro record link flows q ⟨⟩
    exact ⟨_, ofPort?_portFor k c p⟩
  cases h with
  | unbuilt => exact hs
  | refused => exact hs.of_port (.inr rfl)
  | withdrawn => exact hs.of_port (.inl rfl)
  | recorded hofport hflows hremove htorn => exact (hmade _ _ _).of_port hremove.within.port
  | attached => exact hmade _ _ _

end Slot

/-- What holds at all points of a run from an empty switch, between its stints. -/
structure World.Orderly (nameOf : String → String) (w : World) : Prop where
  sound : w.Sound nameOf
  accounted : w.Accounted
  tagged : ∀ n, (w.slot n).Tagged

theorem Job.tagged (hw : w.store.Coherent ∧ ∀ n, (w.slot n).Tagged) :
    (j.after o w).store.Coherent ∧ ∀ n, ((j.after o w).slot n).Tagged := by
  refine Job.invariant (I := fun v => v.store.Coherent ∧ ∀ n, (v.slot n).Tagged) (fun _ h => h.1)
    ?_ ?_ ?_ ?_ hw
  · intro t c res p made torn x w' _ hplans hnone h
    refine ⟨h.coherent hw.1, fun n => ?_⟩
    by_cases hn : n = p.hostIfname
    · subst hn
      exact (h.slot_self hw.1).tagged (hw.2 _)
    · exact (hw.2 n).of_port (h.within_of_ne hw.1 hn).port
  · exact fun a x v v' hv ha h => ⟨h.coherent hv.1, fun n => (hv.2 n).of_port (h.within n).port⟩
  · intro a x v v' hv ha h
    refine ⟨h.store_eq ▸ hv.1, fun n => ?_⟩
    obtain ⟨flows, hslot⟩ := h.slot_flows n
    rw [hslot]
    exact (hv.2 n).of_port (.inr rfl)
  · intro name
    refine ⟨hw.1, fun n => ?_⟩
    rw [World.slot_dropLink]
    split
    · exact (hw.2 n).of_port (.inr rfl)
    · exact hw.2 n

/-- A start makes a record for each port of a container. -/
theorem World.Accounted.record_restart (hw : w.Accounted) (n : String) :
    (w.restart.slot n).record = (w.slot n).port.bind Attachment.ofPort? :=
  Store.get?_ofPorts_values hw.distinct n

namespace World.Orderly

theorem restart (hw : w.Orderly nameOf) : w.restart.Orderly nameOf where
  sound := {
    coherent := Store.coherent_ofPorts _
    slot := fun n => by
      refine ⟨(hw.sound.slot n).port, fun a q ha hq => ?_⟩
      rw [hw.accounted.record_restart n, Option.bind_eq_some_iff] at ha
      obtain ⟨p, hp, hpa⟩ := ha
      obtain rfl := Option.some.inj ((Attachment.port_of_ofPort? hpa).symm.trans hq)
      exact (hw.sound.slot n).port p hp }
  accounted := {
    coherent := Store.coherent_ofPorts _
    slot := fun n p hp => by
      refine ⟨(hw.accounted.slot n p hp).1, fun b hb => ⟨b, ?_, .inl rfl⟩⟩
      rw [hw.accounted.record_restart n]
      exact Option.bind_eq_some_iff.2 ⟨p, hp, hb⟩ }
  tagged n := hw.tagged n

theorem job (hw : w.Orderly nameOf) (hnames : j.Names nameOf) : (j.after o w).Orderly nameOf where
  sound := j.sound hnames hw.sound
  accounted := j.accounted hw.accounted
  tagged := (j.tagged ⟨hw.sound.coherent, hw.tagged⟩).2

theorem stint (hw : w.Orderly nameOf) (hnames : s.Names nameOf) :
    (s.after o w).Orderly nameOf :=
  s.invariant hnames (fun _ h => hw.job h) (fun _ h => h.restart) hw

theorem empty (nameOf : String → String) (pairs : Table Unit) :
    World.Orderly nameOf { pairs } where
  sound := ⟨Store.coherent_empty, fun _ => ⟨nofun, nofun⟩⟩
  accounted := ⟨Store.coherent_empty, fun _ => nofun⟩
  tagged _ := nofun

end World.Orderly

/-! ## Flows -/

/-- An Add of a container without a record plans an interface of which there is neither a port nor
flows. -/
def Stint.Fresh (o : Options) (w : World) (s : Stint) : Prop :=
  ∀ t c res p, s.job? = some (.serve t) → Plans o t.conditions t.request c res p →
    w.store.find? c.containerId = none →
      (w.slot p.hostIfname).port = none ∧ (w.slot p.hostIfname).flows = none

/-- A pass revives the flows of an interface, perhaps before it is broken off. -/
def Stint.Revives (o : Options) (w : World) (n : String) (s : Stint) : Prop :=
  ∃ k, s.job? = some (.pass k) ∧ RevivesFlows k n w (s.after o w)

/-- Interfaces that have neither ports nor flows are not overtaken. -/
theorem Stint.Fresh.not_overtakes (h : (Stint.work j).Fresh o w) : ¬ j.Overtakes o w n := by
  rintro ⟨t, c, res, p, m, rfl, hplans, hnone, rfl, -, -, hflows, -⟩
  cases (h t c res p rfl hplans hnone).2.symm.trans hflows

theorem Plans.of_dyingAfter {m : Nat} {r : Cni.Request} {c : Cni.Call} {res : Cni.Result} {p : Plan}
    (h : Plans o (k.dyingAfter m) r c res p) : Plans o k r c res p :=
  ⟨h.command, h.decoded, h.infra, h.planned⟩

theorem Stint.Fresh.dyingAfter {m : Nat} (h : (Stint.crash j m).Fresh o w) :
    (Stint.work (j.dyingAfter m)).Fresh o w := by
  intro t c res p hjob hplans hnone
  cases j with
  | serve t' =>
    obtain rfl := Job.serve.inj (Option.some.inj hjob)
    exact h t' c res p rfl hplans.of_dyingAfter hnone
  | pass k' => cases hjob
  | vanish name => cases hjob

theorem Job.Revives.crash {m : Nat} (h : (j.dyingAfter m).Revives o w n) :
    (Stint.crash j m).Revives o w n := by
  obtain ⟨k', hjob, hrevives⟩ := h
  cases j with
  | serve t => cases hjob
  | vanish name => cases hjob
  | pass k =>
    obtain rfl := Job.pass.inj hjob
    refine ⟨k, rfl, ?_⟩
    rw [Stint.after, Job.restart_cut]
    exact hrevives

/-- After any stint the flows of each interface are current, unless a pass revived them. -/
theorem Stint.current (hnames : s.Names nameOf) (horderly : w.Orderly nameOf) (hfresh : s.Fresh o w)
    (hs : (w.slot n).Current) : ((s.after o w).slot n).Current ∨ s.Revives o w n := by
  cases s with
  | work j =>
    rcases j.current (hnames j rfl) horderly.sound hs with h | h | ⟨k, rfl, h⟩
    · exact .inl h
    · exact absurd h hfresh.not_overtakes
    · exact .inr ⟨k, rfl, h⟩
  | restart => exact .inl (hs.of_eq rfl rfl)
  | crash j m =>
    have hdying : (j.dyingAfter m).Names nameOf := (hnames j rfl).dyingAfter
    rcases (j.dyingAfter m).current hdying horderly.sound hs with h | h | h
    · refine .inl ?_
      rw [after, Job.restart_cut]
      exact h.of_eq rfl rfl
    · exact absurd h hfresh.dyingAfter.not_overtakes
    · exact .inr h.crash

/-- Flows can be revived only where the port is gone: the number of one that is there is that of
its record. -/
theorem RevivesFlows.port_none (h : RevivesFlows k n w w') (horderly : w.Orderly nameOf) :
    (w.slot n).port = none := by
  obtain ⟨ps, a, q, m, -, ha, -, hport, hofport, hnumber, -⟩ := h
  cases hp : (w.slot n).port with
  | none => rfl
  | some p =>
    rw [hp] at hnumber
    obtain ⟨b, hb⟩ := horderly.tagged n p hp
    obtain ⟨a', ha', hmatches⟩ := (horderly.accounted.slot n p hp).2 b hb
    obtain rfl := Option.some.inj (ha.symm.trans ha')
    have hbport := Attachment.port_of_ofPort? hb
    rcases hmatches with rfl | hnumberless
    · obtain rfl := Option.some.inj (hport.symm.trans hbport)
      exact absurd hofport hnumber
    · rw [hnumberless, hbport] at hport
      obtain rfl := Option.some.inj hport
      cases hofport

/-- Flows that were revived are left without a port. -/
theorem Stint.Revives.orphans (h : s.Revives o w n) (horderly : w.Orderly nameOf) :
    ((s.after o w).slot n).port = none ∧ ((s.after o w).slot n).flows ≠ none := by
  obtain ⟨k, hjob, hrevives⟩ := h
  have hflows : ((s.after o w).slot n).flows ≠ none := by
    obtain ⟨ps, a, q, m, -, -, -, -, -, -, hflows⟩ := hrevives
    rw [hflows]
    nofun
  refine ⟨?_, hflows⟩
  have hnone := hrevives.port_none horderly
  cases s with
  | work j =>
    obtain rfl := Option.some.inj hjob
    exact (hrevives.port_eq horderly.sound).trans hnone
  | restart => cases hjob
  | crash j m =>
    obtain rfl := Option.some.inj hjob
    rw [Stint.after, Job.restart_cut] at hrevives ⊢
    have hdying : RevivesFlows (k.dyingAfter m) n w (((Job.pass k).dyingAfter m).after o w) :=
      hrevives
    exact (hdying.port_eq horderly.sound).trans hnone

/-! ## The pass of the recovery -/

/-- No pod is wanted, and no call fails. -/
structure Conditions.Clears (k : Conditions) : Prop where
  pods : ∃ ps, k.pods = .ok ps ∧ desired ps = []
  calls : ∀ place, k.mishap place = none

/-- The agent starts again, and a pass goes over all attachments. -/
def World.recovered (k : Conditions) (w : World) : World :=
  (passAlone k w.restart).2.world

/-- A recovery removes what is found by the ports, so only flows without a port stay. -/
theorem recovered_slot (hclears : k.Clears) (horderly : w.Orderly nameOf) (n : String) :
    ((w.recovered k).slot n).port = none ∧ (((w.recovered k).slot n).flows = none ↔
      ((w.slot n).port = none → (w.slot n).flows = none)) := by
  obtain ⟨ps, hpods, hdesired⟩ := hclears.pods
  have hpasses := passAlone_slot hpods horderly.restart.sound n
  have hrecord := horderly.accounted.record_restart n
  rw [hdesired] at hpasses
  unfold World.recovered
  generalize (passAlone k w.restart).2.world.slot n = s' at hpasses ⊢
  cases hpasses with
  | same hkey =>
    -- without a record there is no port, as all ports are those of containers
    have hport : (w.slot n).port = none := by
      cases hp : (w.slot n).port with
      | none => rfl
      | some p =>
        obtain ⟨a, ha⟩ := horderly.tagged n p hp
        rw [hp] at hrecord
        cases hkey a (hrecord.trans ha)
    exact ⟨hport, fun h _ => h, fun h => h hport⟩
  | replayed ha hkey => cases hkey
  | @removed a _ _ ha hkey hremove hwell =>
    obtain ⟨p, hp, hpa⟩ := Option.bind_eq_some_iff.1 (hrecord.symm.trans ha)
    obtain rfl := hwell hclears.calls
    cases hremove with
    | gone =>
      have hown : a.hasPort p = true := Attachment.Matches.hasPort (.inl rfl) hpa
      have hgone : ((w.restart.slot n).port.filter fun q => !a.hasPort q) = none := by
        rw [show (w.restart.slot n).port = some p from hp, Option.filter_some, hown]
        rfl
      exact ⟨hgone, fun _ h => absurd (hp.symm.trans h) nofun, fun _ => rfl⟩

/-! ## Runs -/

/-- From an empty switch, in a run with restarts and crashes in which no Add plans an interface that
still has a port or flows, a recovery after any part of the run leaves no ports; and recoveries
never leave flows exactly if no pass revives flows. -/
theorem recovery_clears_iff {pairs : Table Unit} {stints : List Stint} (hclears : k.Clears)
    (hnames : ∀ s ∈ stints, s.Names nameOf)
    (hfresh : ∀ before s after, stints = before ++ s :: after →
      s.Fresh o (World.afterStints o { pairs } before)) :
    (∀ before after, stints = before ++ after → ∀ n,
      ((World.afterStints o { pairs } before).recovered k).bridge.ports.get? n = none) ∧
    ((∀ before after, stints = before ++ after → ∀ n,
        ((World.afterStints o { pairs } before).recovered k).bridge.flows.get? n = none) ↔
      ∀ before s after, stints = before ++ s :: after → ∀ n,
        ¬ s.Revives o (World.afterStints o { pairs } before) n) := by
  have horderly : ∀ before after, stints = before ++ after →
      (World.afterStints o { pairs } before).Orderly nameOf := by
    refine foldl_prefix (fun before s after hstints hbefore => ?_) (.empty nameOf pairs)
    exact hbefore.stint (hnames s (by simp [hstints]))
  refine ⟨fun before after hstints n =>
    (recovered_slot hclears (horderly before after hstints) n).1, ?_⟩
  constructor
  · -- a recovery right after the pass would find the flows that it revived
    intro hall before s after hstints n hrevives
    have hbefore := horderly before (s :: after) hstints
    have hstints' : stints = (before ++ [s]) ++ after := by simp [hstints]
    have hafter := horderly _ _ hstints'
    have hcleared := (recovered_slot hclears hafter n).2.1 (hall _ _ hstints' n)
    rw [World.afterStints, List.foldl_append] at hcleared
    obtain ⟨hport, hflows⟩ := hrevives.orphans hbefore
    exact hflows (hcleared hport)
  · -- otherwise flows always have their port, by the induction over the stints
    intro hnever before after hstints n
    have hcurrent : ∀ before after, stints = before ++ after → ∀ n,
        ((World.afterStints o { pairs } before).slot n).Current := by
      refine foldl_prefix (I := fun v : World => ∀ n, (v.slot n).Current) ?_
        fun n => Slot.current_of_none rfl
      intro before s after hstints hbefore n
      exact (Stint.current (hnames s (by simp [hstints])) (horderly _ _ hstints)
        (hfresh _ _ _ hstints) (hbefore n)).resolve_right (hnever _ _ _ hstints n)
    refine (recovered_slot hclears (horderly _ _ hstints) n).2.2 fun hport => ?_
    rw [Option.eq_none_iff_forall_not_mem]
    intro m hm
    have hnumber := hcurrent before after hstints n m hm
    rw [hport] at hnumber
    cases hnumber

namespace Sample

/-- A Del that removes flows and port, but not the links. -/
def halfDel : Turn :=
  ⟨⟨.del, args "c1"⟩, conditions (failing .bare 4)⟩

/-- The pod of the container is still wanted. -/
def wanting : Conditions :=
  { conditions fun _ => none with pods := .ok [⟨"", "p1", false⟩] }

/-- A container is attached, detached in part, and then found by a pass. -/
def revival : List Stint :=
  [.work (.serve secondAdd), .work (.serve halfDel), .work (.pass wanting)]

theorem revival_names : ∀ s ∈ revival, s.Names Sample.nameOf := by
  intro s hs j hj
  simp only [revival, List.mem_cons, List.not_mem_nil, or_false] at hs
  rcases hs with rfl | rfl | rfl <;> obtain rfl := Option.some.inj hj
  · exact nameOf_uuidOf
  · exact nameOf_uuidOf
  · trivial

/-- Only the first stint is an Add. -/
theorem revival_fresh : ∀ before s after, revival = before ++ s :: after →
    s.Fresh {} (World.afterStints {} {} before) := by
  intro before s after hsplit t c res p hjob hplans hnone
  rcases before with _ | ⟨b, _ | ⟨b', _ | ⟨b'', before⟩⟩⟩
  · exact ⟨rfl, rfl⟩
  · obtain ⟨-, hsplit⟩ := List.cons.inj hsplit
    obtain rfl := (List.cons.inj hsplit).1
    obtain rfl := Job.serve.inj (Option.some.inj hjob)
    cases hplans.command
  · obtain ⟨-, hsplit⟩ := List.cons.inj hsplit
    obtain ⟨-, hsplit⟩ := List.cons.inj hsplit
    obtain rfl := (List.cons.inj hsplit).1
    cases hjob
  · simp [revival] at hsplit

end Sample

/-- A pass gives a container flows whose port a Del has removed; they outlast the recovery. -/
theorem flows_outlast_recovery :
    (((World.afterStints {} {} Sample.revival).recovered
        (Sample.conditions fun _ => none)).slot Sample.name).flows = some 10 ∧
      (∀ n, ((World.afterStints {} {} Sample.revival).recovered
        (Sample.conditions fun _ => none)).bridge.ports.get? n = none) ∧
      ¬ ∀ before s after, Sample.revival = before ++ s :: after → ∀ n,
        ¬ s.Revives {} (World.afterStints {} {} before) n := by
  have hflows : (((World.afterStints {} {} Sample.revival).recovered
      (Sample.conditions fun _ => none)).slot Sample.name).flows = some 10 := by decide +kernel
  obtain ⟨hports, hiff⟩ := recovery_clears_iff (k := Sample.conditions fun _ => none)
    ⟨⟨[], rfl, rfl⟩, fun _ => rfl⟩ Sample.revival_names Sample.revival_fresh
  refine ⟨hflows, hports Sample.revival [] (by simp), fun hnever => ?_⟩
  have hnone := hiff.2 hnever Sample.revival [] (by simp) Sample.name
  cases hnone.symm.trans hflows

end PodAttach.Agent
