import PodAttach.Proofs.Alone

/-!
# Undoing a failed Add

An Add builds a pair of links, makes a port, asks for its number and installs
flows.  When one of these calls fails, three layers take down what is there
already: the connector the flows and the port, the configuration the pair,
and the Add what is recorded.  This module shows that together they miss
nothing and do nothing twice, as long as the calls that undo something
succeed.

`Undone` relates two points of a request between which a call failed.
`connect_undone`, `configure_undone` and `attach_undone` establish it for one
layer after the other; the result is about the whole request.

Two facts about the surroundings are needed.  The planned name is `clear`
before, as an Add takes over a port or flows that are there.  And no port has
the UUID that is handed out, as a port is removed by its UUID.
-/

namespace PodAttach.Agent

open Activity

/-- What was undone succeeded. -/
def Event.UndoesWell (ev : Event) : Prop :=
  ev.asked.undoes → ev.failure? = none

/-- The failures of the calls that were to build something, the last first. -/
def buildFailures (log : List Event) : List Failure :=
  log.filterMap fun ev => if ev.asked.builds then ev.failure? else none

/-- From one point of a request to another a call failed, and all that was built in between was
taken down: a port that was made, by one call and no more. -/
structure Undone (e e' : Episode) (f : Failure) : Prop where
  world : e'.world = e.world
  failures : buildFailures e'.log = f :: buildFailures e.log
  ports : e'.log.countP Event.makesPort = e.log.countP Event.makesPort ∧
      e'.log.countP Event.deletesPort = e.log.countP Event.deletesPort ∨
    e'.log.countP Event.makesPort = e.log.countP Event.makesPort + 1 ∧
      e'.log.countP Event.deletesPort = e.log.countP Event.deletesPort + 1

variable {k : Conditions} {e : Episode}

/-- A call that undoes something and fails is not one that does it well. -/
theorem not_undoesWell {ev : Event} {f : Failure} (hundoes : ev.asked.undoes = true)
    (hfailure : ev.failure? = some f) : ¬ ev.UndoesWell := by
  intro h
  rw [h hundoes] at hfailure
  cases hfailure

open Switch Switch.Session Proc

theorem ensures_deletePort_well {uuid : String} {post : Except Switch.Error Unit → Episode → Prop} :
    (onSwitch (deletePort uuid)).Ensures (mayAnswer k Event.UndoesWell) e post ↔
      post (.ok ()) (e.push (e.world.dropPort uuid) (.switch (.deletePort uuid)) (.ok ())) := by
  rw [ensures_deletePort]
  constructor
  · rintro ⟨h, -⟩
    exact h fun _ => rfl
  · intro h
    exact ⟨fun _ => h, fun m hm => absurd hm (not_undoesWell rfl rfl)⟩

theorem ensures_uninstallFlows_well {name : String}
    {post : Except Switch.Error Unit → Episode → Prop} :
    (onSwitch (uninstallFlows name)).Ensures (mayAnswer k Event.UndoesWell) e post ↔
      post (.ok ())
        (e.push (e.world.dropFlows name) (.switch (.uninstallFlows name)) (.ok ())) := by
  rw [ensures_uninstallFlows]
  constructor
  · rintro ⟨h, -⟩
    exact h fun _ => rfl
  · intro h
    exact ⟨fun _ => h, fun m hm => absurd hm (not_undoesWell rfl rfl)⟩

theorem ensures_teardown_well {containerId name : String}
    {post : Except Link.Error Unit → Episode → Prop} :
    (teardown containerId name).Ensures (mayAnswer k Event.UndoesWell) e post ↔
      post (.ok ()) (e.push { e.world with pairs := e.world.pairs.erase name }
        (.link (.teardown containerId name)) (.ok ())) := by
  rw [ensures_teardown]
  constructor
  · rintro ⟨h, -⟩
    exact h fun _ => rfl
  · intro h
    exact ⟨fun _ => h, fun m hm => absurd hm (not_undoesWell rfl rfl)⟩

theorem connect_undone {name mac : String} {ids : Table String} {ips : List Net.Ip}
    (hport : e.world.bridge.ports.get? name = none)
    (hflows : e.world.bridge.flows.get? name = none)
    (hnew : ∀ n p, e.world.bridge.ports.get? n = some p → p.uuid ≠ k.uuid name) :
    (onSwitch (connect name ids ips mac)).Ensures (mayAnswer k Event.UndoesWell) e
      fun r e' => match r with
        | .ok _ => buildFailures e'.log = buildFailures e.log
        | .error x => leftPort? x = none ∧ Undone e e' (.switch x) := by
  have hundone := e.world.dropPort_putPort (p := ⟨k.uuid name, name, some k.ofport, ids⟩)
    hport hnew
  unfold connect
  rw [onSwitch_bind, ensures_bind, ensures_createPort]
  refine ⟨fun _ => ?_, fun m _ => ?_⟩
  · simp only [onSwitch_bind, ensures_bind]
    rw [ensures_getOfport (e.world.ofport?_putPort _)]
    refine ⟨fun _ => ?_, fun m _ => ?_⟩
    · simp only [onSwitch_bind, ensures_bind, Episode.push_world]
      rw [ensures_installFlows]
      refine ⟨fun _ => ?_, fun m _ => ?_⟩
      · simp only [onSwitch_pure, ensures_done]
        rfl
      · -- the flows may be there, and are removed before the port is
        have hflowless : ((if m.leavesFlows then
            (e.world.putPort ⟨k.uuid name, name, some k.ofport, ids⟩).putFlows name k.ofport
            else e.world.putPort ⟨k.uuid name, name, some k.ofport, ids⟩).dropFlows name) =
            e.world.putPort ⟨k.uuid name, name, some k.ofport, ids⟩ := by
          split
          · exact World.dropFlows_putFlows _ hflows
          · exact World.dropFlows_of_none _ hflows
        simp only [detachAfter, detach, onSwitch_bind, ensures_bind, ensures_uninstallFlows_well,
          ensures_deletePort_well, onSwitch_pure, ensures_done, Episode.push_world, hflowless,
          hundone]
        refine ⟨m.onSwitch.property, rfl, rfl, .inr ?_⟩
        simp [List.countP_cons, Event.makesPort, Event.deletesPort]
    · -- without a number no flows were installed, and the port is removed at once
      simp only [detachAfter, detach, onSwitch_bind, ensures_bind, ensures_deletePort_well,
        onSwitch_pure, ensures_done, Episode.push_world, hundone]
      refine ⟨m.onSwitch.property, rfl, rfl, .inr ?_⟩
      simp [List.countP_cons, Event.makesPort, Event.deletesPort]
  · simp only [onSwitch_pure, ensures_done]
    refine ⟨m.onSwitch.property, rfl, rfl, .inl ?_⟩
    simp [Event.makesPort, Event.deletesPort]

theorem configure_undone {c : Cni.Call} {p : Plan}
    (hclear : e.world.slot p.hostIfname = .clear)
    (hnew : ∀ n q, e.world.bridge.ports.get? n = some q → q.uuid ≠ k.uuid p.hostIfname) :
    (configure c p).Ensures (mayAnswer k Event.UndoesWell) e
      fun r e' => match r with
        | .ok _ => buildFailures e'.log = buildFailures e.log
        | .error f => Undone e e' f := by
  have hport : e.world.bridge.ports.get? p.hostIfname = none := congrArg Slot.port hclear
  have hflows : e.world.bridge.flows.get? p.hostIfname = none := congrArg Slot.flows hclear
  have hlink : e.world.pairs.get? p.hostIfname = none := congrArg Slot.link hclear
  unfold configure
  rw [ensures_bind, ensures_buildPair]
  refine ⟨fun _ => ?_, fun m _ => ?_⟩
  · simp only [ensures_bind]
    have hconnect : (onSwitch (connect (p.attachment c).interfaceName (p.attachment c).externalIds
        (p.attachment c).ips (p.attachment c).mac)).Ensures (mayAnswer k Event.UndoesWell)
        (e.push { e.world with pairs := e.world.pairs.insert p.hostIfname () }
          (.link (.build p.pair)) (.ok (builtPair k p.pair))) _ :=
      connect_undone hport hflows hnew
    refine hconnect.mono ?_
    rintro (x | connected) e' hpost
    · -- what is left to undo is the link
      obtain ⟨hleft, hworld, hfailures, hports⟩ := hpost
      have hlinkless : (e.world.pairs.insert p.hostIfname ()).erase p.hostIfname =
          e.world.pairs := by
        ext n l
        rw [Table.get?_erase, Table.get?_insert]
        grind
      simp only [hleft, ensures_bind, ensures_teardown_well, pure_def, ensures_done]
      refine ⟨?_, hfailures, ?_⟩
      · simp only [Episode.push_world, hworld]
        exact congrArg (World.mk _ _) hlinkless
      · simpa [List.countP_cons, Event.makesPort, Event.deletesPort] using hports
    · simp only [ensures_bind, ensures_record, pure_def, ensures_done]
      exact fun _ => hpost
  · simp only [pure_def, ensures_done]
    refine ⟨rfl, rfl, .inl ?_⟩
    simp [Event.makesPort, Event.deletesPort]

theorem attach_undone {c : Cni.Call} {res : Cni.Result} {p : Plan}
    (hcontainer : e.world.store.find? c.containerId = none)
    (hclear : e.world.slot p.hostIfname = .clear)
    (hnew : ∀ n q, e.world.bridge.ports.get? n = some q → q.uuid ≠ k.uuid p.hostIfname) :
    (attach c res p).Ensures (mayAnswer k Event.UndoesWell) e
      fun r e' => match r with
        | .ok _ => buildFailures e'.log = buildFailures e.log
        | .error x => ∃ f : Failure, x = f.whileConfiguring ∧ Undone e e' f := by
  unfold attach
  rw [ensures_bind]
  refine (configure_undone hclear hnew).mono ?_
  rintro (f | pair) e' hpost
  · -- nothing was recorded, so there is nothing more to remove
    have hnone : e'.world.store.find? c.containerId = none := by rw [hpost.world, hcontainer]
    simp only [removeOf, ensures_bind, ensures_attachmentOf, hnone, pure_def, ensures_done]
    intro _
    refine ⟨f, rfl, hpost.world, hpost.failures, ?_⟩
    simpa [List.countP_cons, Event.makesPort, Event.deletesPort] using hpost.ports
  · simp only [pure_def, ensures_done]
    exact hpost

/-- An Add in which a call that builds something fails, while all calls that undo something
succeed, reports that failure and leaves the world as it was. -/
theorem failed_add_leaves_nothing {o : Options} {r : Cni.Request} {w : World} {c : Cni.Call}
    {res : Cni.Result} {p : Plan} {f : Failure} (hplans : Plans o k r c res p)
    (hcontainer : w.store.find? c.containerId = none) (hclear : w.slot p.hostIfname = .clear)
    (hnew : ∀ n q, w.bridge.ports.get? n = some q → q.uuid ≠ k.uuid p.hostIfname)
    (hfails : ∃ ev ∈ (serveAlone o k r w).2.log, ev.asked.builds ∧ ev.failure? = some f)
    (hundoes : ∀ ev ∈ (serveAlone o k r w).2.log, ev.asked.undoes → ev.failure? = none) :
    (serveAlone o k r w).1 = .ofError ⟨.configInterfaceFailure, f.message⟩ ∧
      (serveAlone o k r w).2.world = w ∧
      (serveAlone o k r w).2.log.countP Event.deletesPort =
        if (serveAlone o k r w).2.log.any Event.makesPort then 1 else 0 := by
  have hpost : (handle o r).Ensures (mayAnswer k Event.UndoesWell) ⟨w, []⟩ fun response e' =>
      buildFailures e'.log = [] ∨
        ∃ f : Failure, response = .ofError f.whileConfiguring ∧ Undone ⟨w, []⟩ e' f := by
    rw [hplans.ensures_handle]
    intro _
    split
    · rw [ensures_locked]
      intro _
      rw [hplans.ensures_addLocked]
      intro _ _
      simp only [Episode.push_world, hcontainer]
      refine (attach_undone (e := ((Episode.push _ _ _ _).push _ _ _).push _ _ _)
        hcontainer hclear hnew).mono ?_
      rintro (x | bytes) e' hpost
      · obtain ⟨f, rfl, hundone⟩ := hpost
        refine fun _ => .inr ⟨f, rfl, hundone.world, hundone.failures, ?_⟩
        simpa [Event.makesPort, Event.deletesPort] using hundone.ports
      · exact fun _ => .inl hpost
    · exact .inl rfl
  obtain ⟨ev, hev, hbuilds, hfailure⟩ := hfails
  have hmem : f ∈ buildFailures (serveAlone o k r w).2.log :=
    List.mem_filterMap.2 ⟨ev, hev, by rw [if_pos hbuilds, hfailure]⟩
  rcases serveAlone_of_ensures hpost hundoes with hnone | ⟨f', hresponse, hundone⟩
  · rw [hnone] at hmem
    cases hmem
  · have hf : f = f' := by
      rw [hundone.failures] at hmem
      simpa [buildFailures] using hmem
    subst hf
    refine ⟨hresponse, hundone.world, ?_⟩
    rcases hundone.ports with ⟨hmade, hdeleted⟩ | ⟨hmade, hdeleted⟩
    · have hnone : ¬ (serveAlone o k r w).2.log.any Event.makesPort := by
        rw [List.any_eq_true, ← List.countP_pos_iff, hmade]
        simp
      rw [if_neg hnone, hdeleted]
      rfl
    · have hsome : (serveAlone o k r w).2.log.any Event.makesPort := by
        rw [List.any_eq_true, ← List.countP_pos_iff, hmade]
        simp
      rw [if_pos hsome, hdeleted]
      rfl

namespace Sample

/-- An installation fails that has added some flows. -/
def flowsLeft : Mishap :=
  ⟨⟨.installFlows name "table full", rfl⟩, default, true⟩

end Sample

/-- Next to the interface of another pod, an Add is undone whose flows were half installed. -/
theorem failed_installation_leaves_nothing :
    (serveAlone {} (Sample.conditions (Sample.failing Sample.flowsLeft 7))
        ⟨.add, Sample.args "c1"⟩ Sample.world).1 =
      .ofError ⟨.configInterfaceFailure,
        "Switch operation error: Failed to install flows for tapvif1: table full"⟩ ∧
    (serveAlone {} (Sample.conditions (Sample.failing Sample.flowsLeft 7))
        ⟨.add, Sample.args "c1"⟩ Sample.world).2.world = Sample.world ∧
    (serveAlone {} (Sample.conditions (Sample.failing Sample.flowsLeft 7))
        ⟨.add, Sample.args "c1"⟩ Sample.world).2.log.countP Event.deletesPort = 1 := by
  have hname : (Sample.plan "c1").2.hostIfname = Sample.name := by decide +kernel
  have hnew : ∀ n q, Sample.world.bridge.ports.get? n = some q →
      q.uuid ≠ Switch.Bridge.uuidOf (Sample.plan "c1").2.hostIfname := by
    intro n q hq
    obtain ⟨-, rfl⟩ : n = "tapother" ∧ Sample.otherPort = q := by
      simpa [Sample.world, World.putPort, World.putFlows, Switch.Bridge.insertPort,
        Sample.otherPort] using hq
    rw [hname]
    decide +kernel
  obtain ⟨hresponse, hworld, hdeletes⟩ :=
    failed_add_leaves_nothing (f := .switch (.installFlows Sample.name "table full"))
      (w := Sample.world) (Sample.plans (Sample.failing Sample.flowsLeft 7)) (by decide +kernel)
      (by decide +kernel) hnew (by decide +kernel) (by decide +kernel)
  refine ⟨hresponse.trans (by decide +kernel), hworld, hdeletes.trans (if_pos ?_)⟩
  decide +kernel

end PodAttach.Agent
