import PodAttach.Proofs.Leftovers
import PodAttach.Proofs.Reachability
import PodAttach.Proofs.Serial
import PodAttach.Proofs.Survival
import PodAttach.Proofs.Trace

/-!
# Removing again and again

A Del takes away the flows, the port, the links and the record of an
interface, in this order, and stops at the first call that fails.

`Deletes` lists how a Del of a container with a sandbox of its own can end.
Where some call failed the record is kept, and what is still there is cleared
by a later Del as if nothing had been done before.  `World.deleted` is the world
that a Del leaves in which no call fails; no attempt changes what it is
(`Deletes.deleted`), so neither do any number of them (`deleted_after`).

`del_retryable` puts this together.  Its last part is about a container that was
attached just before: a Del gives the world back in which it had no record.
-/

namespace PodAttach.Agent

open Activity Switch.Session

variable {o : Options} {k : Conditions} {r : Cni.Request} {w w' : World} {nameOf : String → String}
  {containerId : String} {a : Attachment} {log : List Event}

/-! ## Clearing an interface -/

namespace World

/-- All of an interface is taken away: the flows, the port that is recorded, the links and the
record. -/
def cleared (w : World) (a : Attachment) : World :=
  (((w.dropFlows a.interfaceName).dropPortOf a).dropLink a.interfaceName).dropRecord
    a.interfaceName

theorem dropFlows_dropFlows (w : World) (name : String) :
    (w.dropFlows name).dropFlows name = w.dropFlows name := by
  have hflows : (w.bridge.flows.erase name).erase name = w.bridge.flows.erase name := by
    ext n f
    rw [Table.get?_erase, Table.get?_erase]
    grind
  simp [dropFlows, hflows]

theorem dropPort_dropPort (w : World) (uuid : String) :
    (w.dropPort uuid).dropPort uuid = w.dropPort uuid := by
  have hports : (w.bridge.ports.filter fun _ p => p.uuid != uuid).filter
      (fun _ p => p.uuid != uuid) = w.bridge.ports.filter fun _ p => p.uuid != uuid := by
    ext n p
    rw [Table.get?_filter, Table.get?_filter, Option.filter_filter]
    simp
  simp [dropPort, hports]

theorem dropPortOf_dropPortOf (w : World) (a : Attachment) :
    (w.dropPortOf a).dropPortOf a = w.dropPortOf a := by
  unfold dropPortOf
  cases a.port with
  | none => rfl
  | some q => exact w.dropPort_dropPort q.uuid

/-- Flows and ports are taken away in any order. -/
theorem dropFlows_dropPortOf (w : World) (a : Attachment) (name : String) :
    (w.dropPortOf a).dropFlows name = (w.dropFlows name).dropPortOf a := by
  unfold dropPortOf
  cases a.port <;> rfl

/-- What was cleared in part is cleared like the whole. -/
theorem cleared_dropFlows (w : World) (a : Attachment) :
    (w.dropFlows a.interfaceName).cleared a = w.cleared a := by
  unfold cleared
  rw [dropFlows_dropFlows]

theorem cleared_dropPortOf (w : World) (a : Attachment) :
    (w.dropPortOf a).cleared a = w.cleared a := by
  unfold cleared
  rw [dropFlows_dropPortOf, dropPortOf_dropPortOf]

theorem nextOfport_cleared (w : World) (a : Attachment) :
    (w.cleared a).bridge.nextOfport = w.bridge.nextOfport := by
  unfold cleared dropPortOf
  cases a.port <;> rfl

end World

/-- A removal that failed keeps the store, and leaves what is cleared as before. -/
theorem Removes.cleared_of_error {f : Failure} (h : Removes a w (.error f) w') :
    w'.store = w.store ∧ w'.cleared a = w.cleared a := by
  cases h with
  | kept => exact ⟨rfl, rfl⟩
  | flowless => exact ⟨rfl, w.cleared_dropFlows a⟩
  | portless =>
    refine ⟨World.store_dropPortOf _ a, ?_⟩
    rw [World.cleared_dropPortOf, World.cleared_dropFlows]

theorem Removes.eq_cleared_of_ok (h : Removes a w (.ok ()) w') : w' = w.cleared a := by
  cases h
  rfl

/-- A container whose interface was cleared has no record. -/
theorem find?_cleared (hcoherent : w.store.Coherent) (ha : w.store.find? containerId = some a) :
    (w.cleared a).store.find? containerId = none := by
  obtain ⟨hrecord, hcontainer⟩ := (World.find?_eq_some_iff hcoherent).1 ha
  have hstore : (w.cleared a).store = w.store.erase a.interfaceName :=
    congrArg (Store.erase · a.interfaceName) (World.store_dropPortOf _ a)
  rw [hstore, Store.find?_eq_none_iff (hcoherent.erase _)]
  intro n b hb hsame
  rw [Store.get?_erase] at hb
  split at hb
  · cases hb
  · next hn => exact hn (hcoherent.name_unique hb hrecord (hsame.trans hcontainer.symm))

/-- Nothing is left of an interface but a port that is not the one recorded; the other interfaces
and containers have what they had. -/
structure Emptied (a : Attachment) (w w' : World) : Prop where
  record : w'.store.find? a.containerId = none
  slot : w'.slot a.interfaceName =
    ⟨none, none, (w.slot a.interfaceName).port.filter fun p => !a.hasPort p, none⟩
  slots : ∀ n, n ≠ a.interfaceName → w'.slot n = w.slot n
  containers : ∀ c, c ≠ a.containerId → w'.store.find? c = w.store.find? c

/-- Clearing the interface of a container leaves it empty. -/
theorem emptied_cleared (hsound : w.Sound nameOf) (ha : w.store.find? containerId = some a) :
    Emptied a w (w.cleared a) := by
  obtain ⟨hrecord, hcontainer⟩ := (World.find?_eq_some_iff hsound.coherent).1 ha
  have hremoves : Removes a w (.ok ()) (w.cleared a) := .gone
  have hcoherent := hremoves.coherent hsound.coherent
  have hself : (w.cleared a).slot a.interfaceName =
      ⟨none, none, (w.slot a.interfaceName).port.filter fun p => !a.hasPort p, none⟩ := by
    have hslot := hremoves.slot_self
    generalize (w.cleared a).slot a.interfaceName = s' at hslot ⊢
    cases hslot
    rfl
  have hothers : ∀ n, n ≠ a.interfaceName → (w.cleared a).slot n = w.slot n := by
    intro n hn
    refine hremoves.slot_of_ne (fun q hq => ?_) (hsound.slot n) hn
    exact (hsound.slot _).record a q hrecord hq
  refine ⟨?_, hself, hothers, fun c hc => ?_⟩
  · rw [hcontainer]
    exact find?_cleared hsound.coherent ha
  · -- a record of another container is at another name
    ext b
    rw [World.find?_eq_some_iff hcoherent, World.find?_eq_some_iff hsound.coherent]
    refine and_congr_left fun hb => ?_
    by_cases hn : b.interfaceName = a.interfaceName
    · rw [hn, hself, hrecord]
      refine iff_of_false nofun fun hsame => hc ?_
      rw [← hb, ← Option.some.inj hsame]
    · rw [hothers _ hn]

/-! ## Calls that fail -/

/-- No call failed. -/
def Clean (log : List Event) : Prop :=
  ∀ ev ∈ log, ev.failure? = none

theorem clean_cons {ev : Event} : Clean (ev :: log) ↔ ev.failure? = none ∧ Clean log :=
  List.forall_mem_cons

theorem not_clean_cons {ev : Event} {f : Failure} (hf : ev.failure? = some f) :
    ¬ Clean (ev :: log) := by
  rw [clean_cons, hf]
  rintro ⟨hnone, -⟩
  cases hnone

/-- A removal succeeds if none of its calls fails, and else fails. -/
theorem remove_clean :
    (remove a).Ensures (asking fun _ => True) log fun x log' =>
      x = .ok () ∧ (Clean log' ↔ Clean log) ∨ (∃ f, x = .error f) ∧ ¬ Clean log' := by
  have hdisconnect : (onSwitch (Switch.disconnect a.interfaceName
      (a.port.map AttachedPort.uuid))).Ensures (asking fun _ => True) log fun x log' =>
        x = .ok () ∧ (Clean log' ↔ Clean log) ∨ (∃ e, x = .error e) ∧ ¬ Clean log' := by
    unfold Switch.disconnect
    rw [onSwitch_bind, Proc.ensures_bind]
    refine ensures_asking (q := .switch (.uninstallFlows a.interfaceName)) trivial fun reply => ?_
    cases reply with
    | error e => exact .inr ⟨⟨e, rfl⟩, not_clean_cons rfl⟩
    | ok =>
      cases a.port with
      | none => exact .inl ⟨rfl, by simp [clean_cons, Event.failure?]⟩
      | some q =>
        refine ensures_asking (q := .switch (.deletePort q.uuid)) trivial fun reply => ?_
        cases reply with
        | error e => exact .inr ⟨⟨e, rfl⟩, not_clean_cons rfl⟩
        | ok => exact .inl ⟨rfl, by simp [clean_cons, Event.failure?]⟩
  unfold remove
  refine hdisconnect.bind ?_
  rintro x log₁ (⟨rfl, hclean⟩ | ⟨⟨e, rfl⟩, hfailed⟩)
  · rw [Proc.ensures_bind]
    refine ensures_asking (q := .link (.teardown a.containerId a.interfaceName)) trivial
      fun reply => ?_
    cases reply with
    | error e => exact .inr ⟨⟨.interface e, rfl⟩, not_clean_cons rfl⟩
    | ok =>
      rw [Proc.ensures_bind]
      refine ensures_asking (q := .forget a.interfaceName) trivial fun _ => .inl ⟨rfl, ?_⟩
      simp [clean_cons, Event.failure?, hclean]
  · exact .inr ⟨⟨.switch e, rfl⟩, hfailed⟩

/-! ## How a Del ends -/

theorem clean_of_not_isCall (hlog : ∀ ev ∈ log, ev.asked.isCall = false) : Clean log := by
  rintro ⟨q, reply⟩ hev
  have hq : q.isCall = false := hlog _ hev
  cases q with
  | switch c => cases hq
  | link c => cases hq
  | _ => rfl

/-- How a Del of a container with a sandbox of its own can end: its response, what was asked, and
the world after it. -/
inductive Deletes (containerId : String) (w : World) : Cni.Response → List Event → World → Prop
  /-- There is no record. -/
  | idle {log : List Event} (hnone : w.store.find? containerId = none)
      (hlog : ∀ ev ∈ log, ev.asked.isCall = false) :
      Deletes containerId w (.ofExcept (.ok [])) log w
  /-- All calls succeeded. -/
  | cleared {a : Attachment} {log : List Event} (ha : w.store.find? containerId = some a)
      (hclean : Clean log) : Deletes containerId w (.ofExcept (.ok [])) log (w.cleared a)
  /-- Some call failed. -/
  | failed {a : Attachment} {f : Failure} {log : List Event} {w' : World}
      (ha : w.store.find? containerId = some a) (hfailed : ¬ Clean log)
      (hstore : w'.store = w.store) (hcleared : w'.cleared a = w.cleared a) :
      Deletes containerId w (.ofError f.whileConfiguring) log w'

/-- What a removal leaves of the calls that were asked before it, and of the world. -/
theorem remove_deletes {e : Episode} (hclean : Clean e.log) :
    (remove a).Ensures (mayAnswer k fun _ => True) e fun x e' =>
      x = .ok () ∧ Clean e'.log ∧ e'.world = e.world.cleared a ∨
        (∃ f, x = .error f) ∧ ¬ Clean e'.log ∧ e'.world.store = e.world.store ∧
          e'.world.cleared a = e.world.cleared a := by
  refine (remove_ends.and (ensures_of_asking remove_clean)).mono ?_
  rintro x e' ⟨⟨hremoves, -⟩, ⟨rfl, hlog⟩ | ⟨⟨f, rfl⟩, hlog⟩⟩
  · exact .inl ⟨rfl, hlog.2 hclean, hremoves.eq_cleared_of_ok⟩
  · exact .inr ⟨⟨f, rfl⟩, hlog, hremoves.cleared_of_error⟩

theorem del_deletes (hdels : Dels o r containerId) :
    Deletes containerId w (serveAlone o k r w).1 (serveAlone o k r w).2.log
      (serveAlone o k r w).2.world := by
  obtain ⟨c, hdecode, hinfra⟩ := hdels.decoded
  have hc : c.containerId = containerId :=
    (containerId_of_decode hdecode).trans hdels.container
  have hhandle : (handle o r).Ensures (mayAnswer k fun _ => True) ⟨w, []⟩ fun response e' =>
      Deletes containerId w response e'.log e'.world := by
    rw [ensures_handle, serve, hdels.command]
    simp only [del, hdecode]
    rw [ensures_locked]
    intro _
    rw [delLocked, if_pos hinfra, removeOf, Proc.ensures_bind, Proc.ensures_bind,
      ensures_attachmentOf, hc, Episode.push_world]
    intro _
    cases ha : w.store.find? containerId with
    | none =>
      intro _
      refine .idle ha ?_
      simp [Ask.isCall]
    | some a =>
      refine (remove_deletes ?_).mono ?_
      · simp [Clean, Event.failure?]
      · rintro x e' (⟨rfl, hclean, hworld⟩ | ⟨⟨f, rfl⟩, hfailed, hstore, hcleared⟩)
        · intro _
          rw [Episode.push_world, hworld]
          refine .cleared ha ?_
          rw [Episode.push_log, clean_cons]
          exact ⟨rfl, hclean⟩
        · intro _
          refine .failed ha ?_ hstore hcleared
          rw [Episode.push_log, clean_cons]
          exact fun h => hfailed h.2
  exact serveAlone_of_ensures hhandle fun _ _ => trivial

section

variable {response : Cni.Response}

/-- One in which no call fails succeeds, and leaves nothing of the container. -/
theorem Deletes.emptied (h : Deletes containerId w response log w') (hsound : w.Sound nameOf)
    (hclean : Clean log) :
    response.isOk = true ∧ w'.store.find? containerId = none ∧
      ∀ a, w.store.find? containerId = some a → Emptied a w w' := by
  cases h with
  | idle hnone =>
    refine ⟨rfl, hnone, fun a ha => ?_⟩
    cases hnone.symm.trans ha
  | cleared ha =>
    refine ⟨rfl, find?_cleared hsound.coherent ha, fun b hb => ?_⟩
    obtain rfl := Option.some.inj (ha.symm.trans hb)
    exact emptied_cleared hsound ha
  | failed _ hfailed => exact absurd hclean hfailed

/-- One in which a call fails is answered by the failure, and keeps the store. -/
theorem Deletes.kept (h : Deletes containerId w response log w') (hfailed : ¬ Clean log) :
    (∃ f : Failure, response = .ofError f.whileConfiguring) ∧ w'.store = w.store := by
  cases h with
  | idle _ hlog => exact absurd (clean_of_not_isCall hlog) hfailed
  | cleared _ hclean => exact absurd hclean hfailed
  | failed _ _ hstore => exact ⟨⟨_, rfl⟩, hstore⟩

/-- Without a record there is nothing to do. -/
theorem Deletes.unchanged (h : Deletes containerId w response log w')
    (hnone : w.store.find? containerId = none) :
    w' = w ∧ ∀ ev ∈ log, ev.asked.isCall = false := by
  cases h with
  | idle _ hlog => exact ⟨rfl, hlog⟩
  | cleared ha => cases hnone.symm.trans ha
  | failed ha => cases hnone.symm.trans ha

end

/-! ## Attempts -/

/-- The world that a Del leaves in which no call fails. -/
def World.deleted (w : World) (containerId : String) : World :=
  match w.store.find? containerId with
  | none => w
  | some a => w.cleared a

theorem World.deleted_of_none (hnone : w.store.find? containerId = none) :
    w.deleted containerId = w := by
  simp only [deleted, hnone]

theorem World.deleted_of_some (ha : w.store.find? containerId = some a) :
    w.deleted containerId = w.cleared a := by
  simp only [deleted, ha]

theorem Deletes.eq_deleted {response : Cni.Response}
    (h : Deletes containerId w response log w') (hclean : Clean log) :
    w' = w.deleted containerId := by
  cases h with
  | idle hnone => exact (World.deleted_of_none hnone).symm
  | cleared ha => exact (World.deleted_of_some ha).symm
  | failed ha hfailed => exact absurd hclean hfailed

/-- No attempt changes what is left when no call fails. -/
theorem Deletes.deleted {response : Cni.Response} (h : Deletes containerId w response log w')
    (hcoherent : w.store.Coherent) : w'.deleted containerId = w.deleted containerId := by
  cases h with
  | idle => rfl
  | cleared ha =>
    rw [World.deleted_of_none (find?_cleared hcoherent ha), World.deleted_of_some ha]
  | failed ha hfailed hstore hcleared =>
    have ha' : w'.store.find? containerId = some _ := hstore ▸ ha
    rw [World.deleted_of_some ha, World.deleted_of_some ha', hcleared]

/-- Any number of attempts do not change it. -/
theorem deleted_after {attempts : List Turn}
    (hattempts : ∀ t ∈ attempts, Dels o t.request containerId) (hcoherent : w.store.Coherent) :
    (w.after o (attempts.map Job.serve)).deleted containerId = w.deleted containerId := by
  induction attempts generalizing w with
  | nil => rfl
  | cons t attempts ih =>
    have hdeletes := del_deletes (k := t.conditions) (w := w) (hattempts t (List.mem_cons_self ..))
    have hafter : (serveAlone o t.conditions t.request w).2.world.store.Coherent :=
      World.invariant_run (I := fun v => v.store.Coherent)
        (fun v m q hv => World.coherent_meet _ hv m q) (handle o t.request) (e := ⟨w, []⟩) hcoherent
    rw [← hdeletes.deleted hcoherent]
    exact ih (fun t' ht' => hattempts t' (List.mem_cons_of_mem _ ht')) hafter

/-! ## A Del after an Add -/

/-- What was attached where nothing was, a Del takes away again. -/
theorem deleted_of_attached {c : Cni.Call} {p : Plan} {made torn : Bool} {bytes : Bytes}
    (h : Attempts k c p w made torn (.ok bytes) w') (hsound : w.Sound nameOf)
    (hnone : w.store.find? c.containerId = none) (hclear : w.slot p.hostIfname = .clear)
    (huuid : nameOf (k.uuid p.hostIfname) = p.hostIfname)
    (hnext : w'.bridge.nextOfport = w.bridge.nextOfport) : w'.deleted c.containerId = w := by
  have hsound' : w'.Sound nameOf := h.sound huuid hsound
  have hslot : w'.slot p.hostIfname = p.slot k c := (h.slot_self hsound.coherent).eq_of_ok
  have ha : w'.store.find? c.containerId =
      some (p.recorded c ⟨k.uuid p.hostIfname, some k.ofport⟩) := by
    rw [World.find?_eq_some_iff hsound'.coherent]
    exact ⟨congrArg Slot.record hslot, rfl⟩
  have hempty := emptied_cleared hsound' ha
  rw [World.deleted_of_some ha]
  refine World.ext_slot ?_ hsound.coherent ?_ fun n => ?_
  · exact Removes.coherent (.gone) hsound'.coherent
  · rw [World.nextOfport_cleared, hnext]
  · by_cases hn : n = p.hostIfname
    · -- the port has the recorded UUID, so it is gone too
      subst hn
      refine (hempty.slot).trans ?_
      have hport : (w'.slot p.hostIfname).port =
          some (portFor k p.hostIfname (p.attachment c).externalIds) := congrArg Slot.port hslot
      show (⟨none, none, (w'.slot p.hostIfname).port.filter _, none⟩ : Slot) = _
      rw [hport, hclear, Option.filter_some]
      simp [Attachment.hasPort, Plan.recorded, portFor, Slot.clear]
    · rw [hempty.slots n hn]
      exact h.slot_of_ne huuid hsound hnone hn

/-- In any state that the agent can come to, a Del of a container with a sandbox of its own in which
no call fails succeeds and leaves nothing of the container, and all others as they were.  One in
which a call fails is answered by the failure and keeps the store.  Any number of attempts before do
not change what a Del leaves in which no call fails.  Without a record no call is made and nothing
changes.  And if the container was just attached where nothing was, then all is as before. -/
theorem del_retryable (hreachable : w.Reachable o nameOf) (hdels : Dels o r containerId) :
    (Clean (serveAlone o k r w).2.log → (serveAlone o k r w).1.isOk = true ∧
      (serveAlone o k r w).2.world.store.find? containerId = none ∧
      ∀ a, w.store.find? containerId = some a → Emptied a w (serveAlone o k r w).2.world) ∧
    (¬ Clean (serveAlone o k r w).2.log →
      (∃ f : Failure, (serveAlone o k r w).1 = .ofError f.whileConfiguring) ∧
        (serveAlone o k r w).2.world.store = w.store) ∧
    (∀ attempts : List Turn, (∀ t ∈ attempts, Dels o t.request containerId) → ∀ k',
      Clean (serveAlone o k' r (w.after o (attempts.map Job.serve))).2.log →
      Clean (serveAlone o k r w).2.log →
        (serveAlone o k' r (w.after o (attempts.map Job.serve))).2.world =
          (serveAlone o k r w).2.world) ∧
    (w.store.find? containerId = none → (serveAlone o k r w).2.world = w ∧
      ∀ ev ∈ (serveAlone o k r w).2.log, ev.asked.isCall = false) ∧
    ∀ k' r' c res p, Plans o k' r' c res p → c.containerId = containerId →
      w.store.find? containerId = none → w.slot p.hostIfname = .clear →
      nameOf (k'.uuid p.hostIfname) = p.hostIfname →
      (serveAlone o k' r' w).1.isOk = true →
      Clean (serveAlone o k r (serveAlone o k' r' w).2.world).2.log →
        (serveAlone o k r (serveAlone o k' r' w).2.world).2.world = w := by
  have hsound := hreachable.steady.toSound
  have hdeletes := del_deletes (k := k) (w := w) hdels
  refine ⟨hdeletes.emptied hsound, hdeletes.kept, fun attempts hattempts k' hclean halone => ?_,
    hdeletes.unchanged, fun k' r' c res p hplans hc hnone hclear huuid hok hclean => ?_⟩
  · rw [(del_deletes hdels).eq_deleted hclean, deleted_after hattempts hsound.coherent,
      hdeletes.eq_deleted halone]
  · subst hc
    obtain ⟨res', p', made, torn, bytes, hplans', h⟩ :=
      serveAlone_attempts hnone hplans.command hplans.decoded hplans.infra hok
    obtain ⟨-, rfl⟩ := hplans.unique hplans'
    rw [(del_deletes hdels).eq_deleted hclean]
    exact deleted_of_attached h hsound hnone hclear huuid (nextOfport_serveAlone o k' r' w)

namespace Sample

/-- The container was attached next to another one's interface. -/
def besideOther : World := (Job.serve ⟨⟨.add, args "c1"⟩, conditions fun _ => none⟩).after {} world

theorem world_reachable : world.Reachable {} Sample.nameOf := by
  have hports : ∀ n p, world.bridge.ports.get? n = some p →
      p.name = n ∧ Sample.nameOf p.uuid = n := by
    intro n p hp
    have hget : world.bridge.ports.get? n = if n = "tapother" then some otherPort else none :=
      Table.get?_insert _ _ _ _
    rw [hget] at hp
    split at hp
    · next hn =>
      obtain rfl := Option.some.inj hp
      subst hn
      exact ⟨rfl, by decide⟩
    · cases hp
  exact World.Reachable.start hports

/-- A Del of the container. -/
theorem dels : Dels {} ⟨.del, args "c1"⟩ "c1" where
  command := rfl
  container := rfl
  decoded := ⟨call "c1", (plans fun _ => none).decoded, (plans fun _ => none).infra⟩

end Sample

/-- A Del that stops at its links is made up for by the next one, and all is as it was before the
container was attached. -/
theorem half_del_made_up_for :
    (serveAlone {} (Sample.conditions (Sample.failing .bare 4)) ⟨.del, Sample.args "c1"⟩
        Sample.besideOther).1.isOk = false ∧
      (serveAlone {} (Sample.conditions fun _ => none) ⟨.del, Sample.args "c1"⟩
        (Sample.besideOther.after {}
          [.serve ⟨⟨.del, Sample.args "c1"⟩,
            Sample.conditions (Sample.failing .bare 4)⟩])).2.world = Sample.world := by
  have hreachable : Sample.besideOther.Reachable {} Sample.nameOf := by
    refine Sample.world_reachable.stint (s := .work _) ?_
    intro j hj
    obtain rfl := Option.some.inj hj
    exact Sample.nameOf_uuidOf
  have hclean : ∀ w : World, (serveAlone {} (Sample.conditions fun _ => none)
      ⟨.del, Sample.args "c1"⟩ w).2.log.all (fun ev => ev.failure?.isNone) = true →
      Clean
        (serveAlone {} (Sample.conditions fun _ => none) ⟨.del, Sample.args "c1"⟩ w).2.log := by
    intro w h ev hev
    exact Option.isNone_iff_eq_none.1 (List.all_eq_true.1 h ev hev)
  obtain ⟨-, -, hretry, -, -⟩ := del_retryable (k := Sample.conditions fun _ => none) hreachable
    Sample.dels
  obtain ⟨-, -, -, -, hundo⟩ := del_retryable (k := Sample.conditions fun _ => none)
    Sample.world_reachable Sample.dels
  refine ⟨by decide +kernel, ?_⟩
  have hsame := hretry [⟨⟨.del, Sample.args "c1"⟩, Sample.conditions (Sample.failing .bare 4)⟩]
    (by simp [Sample.dels]) (Sample.conditions fun _ => none) (hclean _ (by decide +kernel))
    (hclean _ (by decide +kernel))
  refine hsame.trans ?_
  exact hundo _ _ _ _ _ (Sample.plans fun _ => none) (by decide +kernel) (by decide +kernel)
    (by decide +kernel) (Sample.nameOf_uuidOf _) (by decide +kernel) (hclean _ (by decide +kernel))

end PodAttach.Agent
