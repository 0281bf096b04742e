import PodAttach.Proofs.Slots

/-!
# What a failed Add leaves behind

An Add that fails takes down what it built, and the calls that take it down
can fail too.  A port or flows that stay are in the record of the container
then, so that a Del removes them (`World.Covers`).  Links have no such record:
if no port stayed and the links cannot be torn down, then they stay and nobody
knows of them (`LeavesLink`).

* `del_well`: a Del in which no call fails leaves nothing of the interface that the
  record names.
* `Attempts.leaves`: the three things that a failed attempt can leave of its interface.
* `failed_add_covered_iff`: whatever fails, all that is new after a failed Add is covered,
  unless it leaves its links.
-/

namespace PodAttach.Agent

open Activity

variable {o : Options} {k : Conditions} {r : Cni.Request} {w w' : World}

/-! ## A Del in which nothing fails -/

theorem containerId_of_decode {args : Cni.CallArgs} {c : Cni.Call}
    (hdecode : decode o args = .ok c) : c.containerId = args.containerId := by
  obtain ⟨network, pod, -, -, -, rfl⟩ := decode_eq_ok hdecode
  rfl

/-- A request is a Del of a container that has its own sandbox. -/
structure Dels (o : Options) (r : Cni.Request) (containerId : String) : Prop where
  command : r.command = .del
  container : r.args.containerId = containerId
  decoded : ∃ c, decode o r.args = .ok c ∧ c.isInfra = true

/-- A Del of a container with a record in which no call fails removes the recorded interface. -/
theorem del_well {a : Attachment} {containerId : String} (hdels : Dels o r containerId)
    (hwell : ∀ place, k.mishap place = none) (ha : w.store.find? containerId = some a) :
    (serveAlone o k r w).1.isOk = true ∧ Removes a w (.ok ()) (serveAlone o k r w).2.world := by
  obtain ⟨c, hdecode, hinfra⟩ := hdels.decoded
  have hc : c.containerId = containerId :=
    (containerId_of_decode hdecode).trans hdels.container
  have hhandle : (handle o r).Ensures (mayAnswer k Event.UndoesWell) ⟨w, []⟩ fun response e' =>
      response.isOk = true ∧ Removes a w (.ok ()) e'.world := by
    rw [ensures_handle, serve, hdels.command]
    simp only [del, hdecode]
    rw [ensures_locked]
    intro _
    rw [delLocked, if_pos hinfra, removeOf, Proc.ensures_bind, Proc.ensures_bind,
      ensures_attachmentOf, hc, Episode.push_world, ha]
    intro _
    refine remove_well.mono ?_
    rintro x e' ⟨rfl, hremoves⟩ -
    exact ⟨rfl, hremoves⟩
  exact serveAlone_of_ensures hhandle (undoesWell_run hwell _ (by simp))

/-! ## What is left -/

/-- The record of a container covers an interface: it is the record of that interface, and a Del
of the container in which no call fails succeeds and leaves nothing of the interface. -/
def World.Covers (o : Options) (w : World) (containerId name : String) : Prop :=
  ∃ a, w.store.find? containerId = some a ∧ a.interfaceName = name ∧
    ∀ r k, Dels o r containerId → (∀ place, k.mishap place = none) →
      (serveAlone o k r w).1.isOk = true ∧ (serveAlone o k r w).2.world.slot name = .clear

theorem covers_of_hasPort {a : Attachment} {containerId : String}
    (ha : w.store.find? containerId = some a)
    (hport : ∀ q, (w.slot a.interfaceName).port = some q → a.hasPort q = true) :
    w.Covers o containerId a.interfaceName := by
  refine ⟨a, ha, rfl, fun r k hdels hwell => ?_⟩
  obtain ⟨hok, hremoves⟩ := del_well hdels hwell ha
  refine ⟨hok, ?_⟩
  have hself := hremoves.slot_self
  generalize (serveAlone o k r w).2.world.slot a.interfaceName = s' at hself ⊢
  cases hself with
  | gone =>
    have hnone : ((w.slot a.interfaceName).port.filter fun q => !a.hasPort q) = none := by
      cases hq : (w.slot a.interfaceName).port with
      | none => rfl
      | some q => rw [Option.filter_some, hport q hq]; rfl
    rw [hnone]
    rfl

namespace Attempts

variable {c : Cni.Call} {p : Plan} {made torn : Bool} {x : Except Cni.CallError Bytes}

/-- A container without a record gets one in the slot of the planned interface or nowhere. -/
theorem find?_eq_none (h : Attempts k c p w made torn x w') (hcoherent : w.store.Coherent)
    (hnone : w.store.find? c.containerId = none)
    (hrecord : (w'.slot p.hostIfname).record = none ∨
      (w'.slot p.hostIfname).record = (w.slot p.hostIfname).record) :
    w'.store.find? c.containerId = none := by
  refine (Store.find?_eq_none_iff (h.coherent hcoherent)).2 fun n a ha => ?_
  have hbefore : (w'.slot n).record = none ∨ (w'.slot n).record = (w.slot n).record := by
    by_cases hn : n = p.hostIfname
    · exact hn ▸ hrecord
    · exact (h.within_of_ne hcoherent hn).record
  rcases hbefore with hgone | hsame
  · cases hgone.symm.trans ha
  · exact (Store.find?_eq_none_iff hcoherent).1 hnone n a (hsame.symm.trans ha)

/-- A failed attempt leaves nothing new, or the links that could not be torn down, or a record that
names what is new. -/
theorem leaves (h : Attempts k c p w made torn x w') (hcoherent : w.store.Coherent)
    (hnone : w.store.find? c.containerId = none) (hfailed : ∀ bytes, x ≠ .ok bytes) :
    (w'.slot p.hostIfname).NothingNew (w.slot p.hostIfname) ∨
      (torn = true ∧ (w.slot p.hostIfname).link = none ∧
        w'.store.find? c.containerId = none) ∨
      ∃ a, w'.store.find? c.containerId = some a ∧ a.interfaceName = p.hostIfname ∧
        ∀ q, (w'.slot p.hostIfname).port = some q → a.hasPort q = true := by
  have hself := h.slot_self hcoherent
  have hlost := h.find?_eq_none hcoherent hnone
  have hfound : ∀ a, (w'.slot p.hostIfname).record = some a → a.interfaceName = p.hostIfname →
      a.containerId = c.containerId → w'.store.find? c.containerId = some a := fun a ha hname hc =>
    (World.find?_eq_some_iff (h.coherent hcoherent)).2 ⟨hname ▸ ha, hc⟩
  generalize w'.slot p.hostIfname = s' at hself hlost hfound ⊢
  -- links that stay are nothing new if they were there
  have hlinks : ∀ (torn : Bool) (link : Option Unit), (if torn then some () else none) = none ∨
      (if torn then some () else none) = link ∨ torn = true ∧ link = none := by
    intro torn link
    cases torn <;> cases link <;> simp
  have hport : ∀ ofport ids, (p.recorded c ⟨k.uuid p.hostIfname, ofport⟩).hasPort
      (portFor k p.hostIfname ids) = true := fun _ _ => beq_self_eq_true _
  cases hself with
  | unbuilt => exact .inl (Slot.Within.refl _).toNothingNew
  | refused =>
    rcases hlinks torn (w.slot p.hostIfname).link with hlink | hlink | ⟨htorn, hlink⟩
    · exact .inl ⟨.inl hlink, .inr rfl, .inr rfl⟩
    · exact .inl ⟨.inr hlink, .inr rfl, .inr rfl⟩
    · exact .inr (.inl ⟨htorn, hlink, hlost (.inr rfl)⟩)
  | withdrawn hflows =>
    rcases hlinks torn (w.slot p.hostIfname).link with hlink | hlink | ⟨htorn, hlink⟩
    · exact .inl ⟨.inl hlink, .inl rfl, hflows.symm⟩
    · exact .inl ⟨.inr hlink, .inl rfl, hflows.symm⟩
    · exact .inr (.inl ⟨htorn, hlink, hlost (.inr rfl)⟩)
  | recorded hofport hflows hremove htorn =>
    cases hremove with
    | kept =>
      refine .inr (.inr ⟨_, hfound _ rfl rfl rfl, rfl, ?_⟩)
      rintro q ⟨⟩
      exact hport _ _
    | flowless =>
      refine .inr (.inr ⟨_, hfound _ rfl rfl rfl, rfl, ?_⟩)
      rintro q ⟨⟩
      exact hport _ _
    | portless =>
      refine .inr (.inr ⟨_, hfound _ rfl rfl rfl, rfl, ?_⟩)
      intro q hq
      rw [Option.filter_some, hport] at hq
      cases hq
    | gone =>
      refine .inl ⟨.inl rfl, .inl ?_, .inl rfl⟩
      rw [Option.filter_some, hport]
      rfl
  | attached => exact absurd rfl (hfailed _)

/-- Links that could not be torn down are there, and nothing else is new, unless the container has
a record. -/
theorem link_of_torn (h : Attempts k c p w made true x w') (hcoherent : w.store.Coherent)
    (hnone : w'.store.find? c.containerId = none) :
    (w'.slot p.hostIfname).link = some () ∧
      ((w'.slot p.hostIfname).port = none ∨
        (w'.slot p.hostIfname).port = (w.slot p.hostIfname).port) ∧
      ((w'.slot p.hostIfname).flows = none ∨
        (w'.slot p.hostIfname).flows = (w.slot p.hostIfname).flows) := by
  have hself := h.slot_self hcoherent
  have hlost : ∀ q, (w'.slot p.hostIfname).record ≠ some (p.recorded c q) := fun q hq =>
    (Store.find?_eq_none_iff (h.coherent hcoherent)).1 hnone _ _ hq rfl
  generalize w'.slot p.hostIfname = s' at hself hlost ⊢
  cases hself with
  | refused => exact ⟨rfl, .inr rfl, .inr rfl⟩
  | withdrawn hflows => exact ⟨rfl, .inl rfl, hflows.symm⟩
  | recorded hofport hflows hremove htorn =>
    cases hremove with
    | kept => exact absurd rfl (hlost _)
    | flowless => exact absurd rfl (hlost _)
    | portless => exact absurd rfl (hlost _)
    | gone => cases htorn rfl

end Attempts

/-! ## Failed Adds -/

/-- An Add leaves links that no record tells of: they were not there before, could not be torn
down, and the container has no record. -/
def LeavesLink (o : Options) (k : Conditions) (r : Cni.Request) (w : World) : Prop :=
  ∃ c res p, Plans o k r c res p ∧ (w.slot p.hostIfname).link = none ∧
    (serveAlone o k r w).2.log.any Event.failsTeardown = true ∧
    (serveAlone o k r w).2.world.store.find? r.args.containerId = none

/-- A request that asks nothing of the links does not fail to tear them down. -/
theorem Quiet.failsTeardown {e : Episode} (h : Quiet ⟨w, []⟩ e) :
    e.log.any Event.failsTeardown = false := by
  rw [← Bool.not_eq_true]
  intro hany
  obtain ⟨⟨q, reply⟩, hev, hfails⟩ := List.any_eq_true.1 hany
  -- a teardown changes the interface that it names
  obtain ⟨n, hn⟩ : ∃ n, q.changes n = true := by
    unfold Event.failsTeardown at hfails
    split at hfails
    · next c n hq =>
      obtain rfl : q = .link (.teardown c n) := hq
      exact ⟨n, beq_self_eq_true n⟩
    · cases hfails
  have hchanged : e.changed n = true := List.any_eq_true.2 ⟨_, hev, hn⟩
  rw [h.2 n] at hchanged
  cases hchanged

/-- A Del of a container without a record does nothing. -/
theorem Dels.unchanged {containerId : String} (hdels : Dels o r containerId)
    (hnone : w.store.find? containerId = none) : (serveAlone o k r w).2.world = w := by
  have hserves := serveAlone_serves o k r w
  generalize serveAlone o k r w = served at hserves ⊢
  cases hserves with
  | idle hquiet => exact hquiet.1
  | attempts hresponse hplans => cases hdels.command.symm.trans hplans.command
  | removes hcommand hdecode hinfra ha =>
    rw [containerId_of_decode hdecode, hdels.container, hnone] at ha
    cases ha

/-- Of all that is new after a failed Add, a later Del of the container in which nothing fails
leaves nothing; except that links stay that could not be torn down and have no record.  Then
nothing else is new, and a Del does nothing. -/
theorem failed_add_covered_iff (hcoherent : w.store.Coherent) (hcommand : r.command = .add)
    (hfailed : (serveAlone o k r w).1.isOk = false) :
    ((∀ n, ((serveAlone o k r w).2.world.slot n).NothingNew (w.slot n) ∨
        (serveAlone o k r w).2.world.Covers o r.args.containerId n) ↔ ¬ LeavesLink o k r w) ∧
      (LeavesLink o k r w →
        (∀ n, (((serveAlone o k r w).2.world.slot n).port = none ∨
            ((serveAlone o k r w).2.world.slot n).port = (w.slot n).port) ∧
          (((serveAlone o k r w).2.world.slot n).flows = none ∨
            ((serveAlone o k r w).2.world.slot n).flows = (w.slot n).flows)) ∧
        ∀ r' k', Dels o r' r.args.containerId →
          (serveAlone o k' r' (serveAlone o k r w).2.world).2.world =
            (serveAlone o k r w).2.world) := by
  have hserves := serveAlone_serves o k r w
  unfold LeavesLink
  generalize serveAlone o k r w = served at hserves hfailed ⊢
  cases hserves with
  | idle hquiet =>
    have hworld : served.2.world = w := hquiet.1
    rw [hquiet.failsTeardown, hworld]
    refine ⟨iff_of_true (fun n => .inl (Slot.Within.refl _).toNothingNew) ?_, ?_⟩
    · rintro ⟨c, res, p, -, -, ⟨⟩, -⟩
    · rintro ⟨c, res, p, -, -, ⟨⟩, -⟩
  | removes hcommand' => cases hcommand.symm.trans hcommand'
  | @attempts c res p x _ _ hresponse hplans hnone h =>
    have hc : c.containerId = r.args.containerId := containerId_of_decode hplans.decoded
    have hx : ∀ bytes, x ≠ .ok bytes := by
      rintro bytes rfl
      rw [hresponse] at hfailed
      cases hfailed
    have hothers : ∀ n, n ≠ p.hostIfname → (served.2.world.slot n).NothingNew (w.slot n) :=
      fun n hn => (h.within_of_ne hcoherent hn).toNothingNew
    rw [← hc]
    -- the plan of the request is the one of the attempt
    have hleaves : (∃ c' res' p', Plans o k r c' res' p' ∧ (w.slot p'.hostIfname).link = none ∧
        served.2.log.any Event.failsTeardown = true ∧
        served.2.world.store.find? c.containerId = none) ↔
        (w.slot p.hostIfname).link = none ∧ served.2.log.any Event.failsTeardown = true ∧
          served.2.world.store.find? c.containerId = none := by
      constructor
      · rintro ⟨c', res', p', hplans', hrest⟩
        obtain rfl : c = c' := Except.ok.inj (hplans.decoded.symm.trans hplans'.decoded)
        rw [(hplans.unique hplans').2]
        exact hrest
      · exact fun hrest => ⟨c, res, p, hplans, hrest⟩
    rw [hleaves]
    refine ⟨⟨?_, ?_⟩, ?_⟩
    · rintro hall ⟨hlink, htorn, hlost⟩
      rw [htorn] at h
      have hstays := (h.link_of_torn hcoherent hlost).1
      rcases hall p.hostIfname with hnew | ⟨a, ha, -⟩
      · rcases hnew.link with hgone | hsame
        · cases hstays.symm.trans hgone
        · cases hstays.symm.trans (hsame.trans hlink)
      · cases hlost.symm.trans ha
    · intro hnot n
      by_cases hn : n = p.hostIfname
      · rcases h.leaves hcoherent hnone hx with hnew | ⟨htorn, hlink, hlost⟩ | ⟨a, ha, hname, hport⟩
        · exact .inl (hn ▸ hnew)
        · exact absurd ⟨hlink, htorn, hlost⟩ hnot
        · rw [hn, ← hname]
          exact .inr (covers_of_hasPort ha (hname.symm ▸ hport))
      · exact .inl (hothers n hn)
    · rintro ⟨hlink, htorn, hlost⟩
      refine ⟨fun n => ?_, fun r' k' hdels => hdels.unchanged hlost⟩
      by_cases hn : n = p.hostIfname
      · rw [htorn] at h
        exact hn ▸ (h.link_of_torn hcoherent hlost).2
      · exact ⟨(hothers n hn).port, (hothers n hn).flows⟩

namespace Sample

/-- The port cannot be made, and then the links cannot be torn down. -/
def linkStays : Nat → Option Mishap :=
  fun n => if n ∈ [5, 6] then some .bare else none

end Sample

/-- On an empty node the links of a pod stay, and no Del of its container removes them. -/
theorem failed_add_leaves_links :
    (serveAlone {} (Sample.conditions Sample.linkStays) ⟨.add, Sample.args "c1"⟩ {}).1.isOk =
        false ∧
      ((serveAlone {} (Sample.conditions Sample.linkStays) ⟨.add, Sample.args "c1"⟩
        {}).2.world.slot Sample.name).link = some () ∧
      ¬ (∀ n, ((serveAlone {} (Sample.conditions Sample.linkStays) ⟨.add, Sample.args "c1"⟩
          {}).2.world.slot n).NothingNew (World.slot {} n) ∨
        (serveAlone {} (Sample.conditions Sample.linkStays) ⟨.add, Sample.args "c1"⟩
          {}).2.world.Covers {} "c1" n) := by
  have hfailed : (serveAlone {} (Sample.conditions Sample.linkStays) ⟨.add, Sample.args "c1"⟩
      {}).1.isOk = false := by decide +kernel
  have hleaves : LeavesLink {} (Sample.conditions Sample.linkStays) ⟨.add, Sample.args "c1"⟩ {} :=
    ⟨_, _, _, Sample.plans Sample.linkStays, by decide +kernel, by decide +kernel,
      by decide +kernel⟩
  obtain ⟨hiff, -⟩ := failed_add_covered_iff Store.coherent_empty rfl hfailed
  refine ⟨hfailed, by decide +kernel, fun hall => ?_⟩
  exact hiff.1 hall hleaves

end PodAttach.Agent
