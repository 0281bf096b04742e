import PodAttach.Proofs.Crashes
import PodAttach.Proofs.Identifiers
import PodAttach.Proofs.Tables
import PodAttach.Proofs.Together

/-!
# States that the agent can come to

The agent starts on a switch that has some ports and some links, and makes
its store of the ports.  From there on it serves requests, alone or together,
passes over its attachments, stops and starts again, or dies; any call may
fail, and links may vanish.  `World.Reachable` are the worlds that come about
in this way, those in the middle of requests that are served together
included.

What is assumed is that a UUID is handed out for one name only (`nameOf`).

* `World.Filed`: each port is filed under its own name.  It is kept by every
  question, so by every run (`World.invariant_run`).
* `sound_ofPorts`: a store that is made of filed ports is sound.
* `Reachable.steady`: reachable worlds are sound, and their ports are filed.
-/

namespace PodAttach

/-- What a store holds that is made of ports, one of the ports says. -/
theorem Store.exists_port_of_get?_ofPorts {ports : List Switch.Port} {n : String} {a : Attachment}
    (ha : (Store.ofPorts ports).get? n = some a) :
    ∃ p ∈ ports, Attachment.ofPort? p = some a := by
  have hfold : ∀ (as : List Attachment) (s : Store), (as.foldl Store.add s).get? n = some a →
      s.get? n = some a ∨ a ∈ as := by
    intro as
    induction as with
    | nil => exact fun s h => .inl h
    | cons b as ih =>
      intro s h
      rcases ih _ h with hadded | hmem
      · rw [Store.get?_add] at hadded
        split at hadded
        · exact .inr (by simp [Option.some.inj hadded])
        · split at hadded
          · cases hadded
          · exact .inl hadded
      · exact .inr (List.mem_cons_of_mem _ hmem)
  rcases hfold _ _ ha with hempty | hmem
  · cases hempty
  · exact List.mem_filterMap.1 hmem

namespace Agent

variable {o : Options} {k : Conditions} {nameOf : String → String} {w : World}

/-! ## Invariants of runs -/

/-- What every question keeps, a run keeps. -/
theorem World.invariant_run {I : World → Prop} {α : Type}
    (hmeet : ∀ v m q, I v → I (v.meet k m q).2) (p : Activity α) {e : Episode}
    (he : I e.world) : I (p.run (Episode.answer k) e).2.world :=
  Proc.invariant_run (I := fun e : Episode => I e.world)
    (fun q e he => hmeet e.world (k.mishap e.log.length) q he) p he

/-- Each port is filed under its own name. -/
def World.Filed (w : World) : Prop :=
  ∀ n p, (w.slot n).port = some p → p.name = n

/-- A slot keeps its port, loses it, or gets one of its own name. -/
theorem port_slot_meet {m : Option Mishap} {q : Ask} {n : String} {s : Slot} {p : Switch.Port}
    (hp : (s.meet k n m q).port = some p) : s.port = some p ∨ p.name = n := by
  have hperform : (s.perform k n q).port = some p → s.port = some p ∨ p.name = n := by
    intro hp
    unfold Slot.perform at hp
    split at hp
    · split at hp
      · next hn =>
        obtain rfl := Option.some.inj hp
        exact .inr hn.symm
      · exact .inl hp
    · exact .inl (Option.filter_eq_some_iff.1 hp).1
    all_goals first
      | exact .inl hp
      | (split at hp <;> exact .inl hp)
  unfold Slot.meet at hp
  split at hp
  · unfold Slot.afterFailed at hp
    split at hp
    · split at hp <;> exact .inl hp
    · exact .inl hp
  · exact .inl hp
  · exact hperform hp

theorem World.Filed.meet (hw : w.store.Coherent ∧ w.Filed) (m : Option Mishap) (q : Ask) :
    (w.meet k m q).2.store.Coherent ∧ (w.meet k m q).2.Filed := by
  refine ⟨World.coherent_meet k hw.1 m q, fun n p hp => ?_⟩
  rw [World.slot_meet k hw.1] at hp
  rcases port_slot_meet hp with hbefore | hname
  · exact hw.2 n p hbefore
  · exact hname

/-! ## Steady worlds -/

/-- Worlds that are sound and whose ports are filed under their names. -/
structure World.Steady (nameOf : String → String) (w : World) : Prop extends w.Sound nameOf where
  filed : w.Filed

/-- A store that is made of filed ports is sound. -/
theorem sound_ofPorts {bridge : Switch.Bridge} {pairs : Table Unit}
    (hports : ∀ n p, bridge.ports.get? n = some p → p.name = n ∧ nameOf p.uuid = n) :
    World.Sound nameOf { store := .ofPorts bridge.ports.values, bridge, pairs } where
  coherent := Store.coherent_ofPorts _
  slot n := by
    refine ⟨fun p hp => (hports n p hp).2, fun a q ha hq => ?_⟩
    obtain ⟨p, hmem, hpa⟩ := Store.exists_port_of_get?_ofPorts ha
    obtain ⟨m, hm⟩ := Table.mem_values.1 hmem
    have hname : a.interfaceName = n := (Store.coherent_ofPorts _).name ha
    rw [Attachment.interfaceName_of_ofPort? hpa, (hports m p hm).1] at hname
    obtain rfl := Option.some.inj ((Attachment.port_of_ofPort? hpa).symm.trans hq)
    rw [← hname]
    exact (hports m p hm).2

namespace World.Steady

/-- The agent starts on a switch with filed ports. -/
theorem start {bridge : Switch.Bridge} {pairs : Table Unit}
    (hports : ∀ n p, bridge.ports.get? n = some p → p.name = n ∧ nameOf p.uuid = n) :
    World.Steady nameOf { store := .ofPorts bridge.ports.values, bridge, pairs } where
  toSound := sound_ofPorts hports
  filed n p hp := (hports n p hp).1

theorem restart (hw : w.Steady nameOf) : w.restart.Steady nameOf := by
  apply World.Steady.start
  intro n p hp
  exact ⟨hw.filed n p hp, (hw.slot n).port p hp⟩

theorem job {j : Job} (hnames : j.Names nameOf) (hw : w.Steady nameOf) :
    (j.after o w).Steady nameOf := by
  refine ⟨j.sound hnames hw.toSound, ?_⟩
  cases j with
  | serve t =>
    exact (World.invariant_run (I := fun v => v.store.Coherent ∧ v.Filed)
      (fun v m q hv => World.Filed.meet hv m q) (handle o t.request) (e := ⟨w, []⟩)
      ⟨hw.coherent, hw.filed⟩).2
  | pass k =>
    exact (World.invariant_run (I := fun v => v.store.Coherent ∧ v.Filed)
      (fun v m q hv => World.Filed.meet hv m q) reconcile (e := ⟨w, []⟩) ⟨hw.coherent, hw.filed⟩).2
  | vanish name =>
    intro n p hp
    apply hw.filed n p
    rw [← hp]
    show _ = ((w.dropLink name).slot n).port
    rw [World.slot_dropLink]
    split <;> rfl

theorem stint {s : Stint} (hnames : s.Names nameOf) (hw : w.Steady nameOf) :
    (s.after o w).Steady nameOf :=
  s.invariant hnames (fun _ hj => hw.job hj) (fun _ hv => hv.restart) hw

/-- Requests that are served together keep the world steady at all times. -/
theorem together {turns : List Turn} (huuid : ∀ t ∈ turns, ∀ n, nameOf (t.conditions.uuid n) = n)
    (hw : w.Steady nameOf) (schedule : List Nat) :
    ((Together.start o w turns).run schedule).world.Steady nameOf := by
  have hinvariant := Together.run_induction
    (P := fun s => s.Keeps (territoryAt o w turns nameOf) o.lockTimeout ∧ s.world.Steady nameOf)
    (s := Together.start o w turns) ?_ ⟨keeps_start hw.toSound huuid, hw⟩ schedule
  · exact hinvariant.2
  · rintro s i ⟨hkeeps, hs⟩
    refine ⟨hkeeps.step i, ?_⟩
    rcases s.step_cases i with ⟨arbiter, hstep, -⟩ | ⟨t, q, next, ht, hwork, -, hstep⟩
    · rw [hstep]
      exact hs
    · -- the territory of the task covers the new world, so that is sound
      have hcovers := (hkeeps.covers i t ht).step (hkeeps.uuid i t ht) (hkeeps.asks ht hwork)
        (t.conditions.mishap t.log.length)
      rw [hstep]
      exact ⟨hcovers.2.1.toSound, (World.Filed.meet ⟨hs.coherent, hs.filed⟩ _ q).2⟩

end World.Steady

/-! ## Reachable worlds -/

/-- The worlds that the agent can come to, when a UUID is handed out for one name only. -/
inductive World.Reachable (o : Options) (nameOf : String → String) : World → Prop
  /-- The agent starts. -/
  | start {bridge : Switch.Bridge} {pairs : Table Unit}
      (hports : ∀ n p, bridge.ports.get? n = some p → p.name = n ∧ nameOf p.uuid = n) :
      Reachable o nameOf { store := .ofPorts bridge.ports.values, bridge, pairs }
  /-- It serves a request, passes over its attachments, loses a link, starts again or dies. -/
  | stint {w : World} {s : Stint} (hw : Reachable o nameOf w) (hnames : s.Names nameOf) :
      Reachable o nameOf (s.after o w)
  /-- It serves requests together, up to some point. -/
  | together {w : World} {turns : List Turn} (hw : Reachable o nameOf w)
      (huuid : ∀ t ∈ turns, ∀ n, nameOf (t.conditions.uuid n) = n) (schedule : List Nat) :
      Reachable o nameOf ((Together.start o w turns).run schedule).world

theorem World.Reachable.steady (hw : w.Reachable o nameOf) : w.Steady nameOf := by
  induction hw with
  | start hports => exact .start hports
  | stint _ hnames ih => exact ih.stint hnames
  | together _ huuid schedule ih => exact ih.together huuid schedule

end Agent

end PodAttach
