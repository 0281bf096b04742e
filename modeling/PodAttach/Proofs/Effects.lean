import PodAttach.Proofs.History
import PodAttach.Proofs.Rollback

/-!
# What the parts of a request can come to

Which calls fail is not the agent's to choose, so connecting, removing and
attaching an interface can each end in several worlds.  This module lists
them: a relation beside each of the three activities has one constructor for
each ending.

* `Connects`, `Removes`, `Replays`, `Attempts`: the endings of
  `Switch.connect`, `remove`, `reconnect` and `attach`.
* `connect_ends`, `remove_ends`, `reconnect_ends`, `attach_ends`: the
  activities have no other endings, whatever fails.
* `serveAlone_serves`: a request comes to one of these endings or leaves the world alone.

Later modules argue by cases on the endings and do not look at single calls.
-/

namespace PodAttach.Agent

open Activity Switch.Session

/-! ## Changes of the world -/

namespace World

variable (w : World)

/-- An interface gets a link. -/
def putLink (name : String) : World := { w with pairs := w.pairs.insert name () }

/-- The link of an interface is taken away. -/
def dropLink (name : String) : World := { w with pairs := w.pairs.erase name }

/-- An attachment is recorded. -/
def putRecord (a : Attachment) : World := { w with store := w.store.add a }

/-- The record of an interface is taken away. -/
def dropRecord (name : String) : World := { w with store := w.store.erase name }

/-- The port that an attachment names is taken away. -/
def dropPortOf (a : Attachment) : World :=
  match a.port with
  | none => w
  | some q => w.dropPort q.uuid

theorem slot_putPort (p : Switch.Port) (n : String) :
    (w.putPort p).slot n = if n = p.name then { w.slot n with port := some p } else w.slot n := by
  by_cases hn : n = p.name <;> simp [putPort, slot, Switch.Bridge.insertPort, hn]

theorem slot_dropPort (uuid n : String) :
    (w.dropPort uuid).slot n =
      { w.slot n with port := (w.slot n).port.filter fun p => p.uuid != uuid } := by
  simp [dropPort, slot]

theorem slot_putFlows (name : String) (ofport : Nat) (n : String) :
    (w.putFlows name ofport).slot n =
      if n = name then { w.slot n with flows := some ofport } else w.slot n := by
  by_cases hn : n = name <;> simp [putFlows, slot, hn]

theorem slot_dropFlows (name n : String) :
    (w.dropFlows name).slot n = if n = name then { w.slot n with flows := none } else w.slot n := by
  by_cases hn : n = name <;> simp [dropFlows, slot, hn]

theorem slot_putLink (name n : String) :
    (w.putLink name).slot n = if n = name then { w.slot n with link := some () } else w.slot n := by
  by_cases hn : n = name <;> simp [putLink, slot, hn]

theorem slot_dropLink (name n : String) :
    (w.dropLink name).slot n = if n = name then { w.slot n with link := none } else w.slot n := by
  by_cases hn : n = name <;> simp [dropLink, slot, hn]

theorem slot_putRecord {w : World} (h : w.store.Coherent) (a : Attachment) (n : String) :
    (w.putRecord a).slot n =
      if n = a.interfaceName then { w.slot n with record := some a }
      else { w.slot n with
        record := (w.slot n).record.filter fun b => b.containerId != a.containerId } := by
  by_cases hn : n = a.interfaceName <;> simp [putRecord, slot, h.get?_add_filter, hn]

theorem slot_dropRecord (name n : String) :
    (w.dropRecord name).slot n =
      if n = name then { w.slot n with record := none } else w.slot n := by
  by_cases hn : n = name <;> simp [dropRecord, slot, Store.get?_erase, hn]

@[simp]
theorem store_dropPortOf (a : Attachment) : (w.dropPortOf a).store = w.store := by
  unfold dropPortOf
  split <;> rfl

end World

/-! ## Connecting -/

variable {k : Conditions} {allows : Event → Prop} {e : Episode}

/-- The port that is made for an interface. -/
def portFor (k : Conditions) (name : String) (ids : Table String) : Switch.Port :=
  ⟨k.uuid name, name, some k.ofport, ids⟩

/-- How connecting an interface can end, and whether a port was made for it. -/
inductive Connects (k : Conditions) (name : String) (ids : Table String) (w : World) :
    Bool → Except Switch.Error Switch.Connected → World → Prop
  /-- No port was made. -/
  | refused {x : Switch.Error} (hx : leftPort? x = none) : Connects k name ids w false (.error x) w
  /-- The port was removed again, and flows were not touched or removed before it. -/
  | withdrawn {x : Switch.Error} {w' : World} (hx : leftPort? x = none)
      (hw : w' = w.putPort (portFor k name ids) ∨
        w' = (w.putPort (portFor k name ids)).dropFlows name) :
      Connects k name ids w true (.error x) (w'.dropPort (k.uuid name))
  /-- The port could not be removed, or not even the flows. -/
  | left {x : Switch.Error} {ofport : Option Nat} {w' : World}
      (hx : leftPort? x = some ⟨k.uuid name, ofport⟩)
      (hofport : ofport = none ∨ ofport = some k.ofport)
      (hw : w' = w.putPort (portFor k name ids) ∨
        w' = (w.putPort (portFor k name ids)).dropFlows name ∨
        w' = (w.putPort (portFor k name ids)).putFlows name k.ofport) :
      Connects k name ids w true (.error x) w'
  /-- The port has its flows. -/
  | made : Connects k name ids w true (.ok ⟨k.uuid name, k.ofport⟩)
      ((w.putPort (portFor k name ids)).putFlows name k.ofport)

namespace Connects

variable {name : String} {ids : Table String} {w w' : World} {made : Bool}
  {r : Except Switch.Error Switch.Connected}

theorem store_eq (h : Connects k name ids w made r w') : w'.store = w.store := by
  cases h with
  | refused => rfl
  | withdrawn hx hw => rcases hw with rfl | rfl <;> rfl
  | left hx hofport hw => rcases hw with rfl | rfl | rfl <;> rfl
  | made => rfl

/-- Only a port that was made can stay. -/
theorem made_of_left {x : Switch.Error} {q : AttachedPort}
    (h : Connects k name ids w made (.error x) w') (hq : leftPort? x = some q) : made = true := by
  cases h with
  | refused hx => cases hx.symm.trans hq
  | withdrawn => rfl
  | left => rfl

theorem uuid_of_left {x : Switch.Error} {q : AttachedPort}
    (h : Connects k name ids w made (.error x) w') (hq : leftPort? x = some q) :
    q.uuid = k.uuid name := by
  cases h with
  | refused hx => cases hx.symm.trans hq
  | withdrawn hx => cases hx.symm.trans hq
  | left hx => rw [← Option.some.inj (hx.symm.trans hq)]

theorem made_of_ok {d : Switch.Connected} (h : Connects k name ids w made (.ok d) w') :
    made = true ∧ d = ⟨k.uuid name, k.ofport⟩ := by
  cases h
  exact ⟨rfl, rfl⟩

end Connects

/-- A session with the switch logs calls on the switch only. -/
theorem onSwitch_any {α : Type} {s : Switch.Session α} {f : Event → Bool}
    (hf : ∀ c reply, f ⟨.switch c, reply⟩ = false) :
    (onSwitch s).Ensures (mayAnswer k allows) e fun _ e' => e'.log.any f = e.log.any f := by
  induction s generalizing e with
  | done a => exact rfl
  | ask c next ih =>
    refine ⟨trivial, ?_⟩
    rintro reply e' ⟨-, m, -, hlog⟩
    refine (ih reply).mono fun _ e'' hsame => ?_
    rw [hsame, hlog, List.any_cons, hf, Bool.false_or]

/-- What is left after a port was to be removed that could not be connected: neither the port nor,
if it came to installing them, the flows; or the port, with an error that says so. -/
theorem detachAfter_ends {name uuid : String} {ofport : Option Nat} {cause : Switch.Error} :
    (onSwitch (Switch.detachAfter name uuid ofport cause)).Ensures (mayAnswer k allows) e
      fun x e' => e'.log.any Event.makesPort = e.log.any Event.makesPort ∧
        (x = cause ∧ e'.world = (if ofport = none then e.world else
            e.world.dropFlows name).dropPort uuid ∨
          leftPort? x = some ⟨uuid, ofport⟩ ∧
            (e'.world = e.world ∨ ofport ≠ none ∧ e'.world = e.world.dropFlows name)) := by
  unfold Switch.detachAfter Switch.detach
  cases ofport with
  | none =>
    rw [onSwitch_bind, Proc.ensures_bind, ensures_deletePort]
    refine ⟨fun _ => ?_, fun m _ => ?_⟩
    · exact ⟨by simp [Event.makesPort], .inl ⟨rfl, rfl⟩⟩
    · exact ⟨by simp [Event.makesPort], .inr ⟨rfl, .inl rfl⟩⟩
  | some n =>
    simp only [onSwitch_bind, Proc.ensures_bind]
    rw [ensures_uninstallFlows]
    refine ⟨fun _ => ?_, fun m _ => ?_⟩
    · -- the flows are gone, and the port is to go too
      dsimp only
      rw [ensures_deletePort]
      refine ⟨fun _ => ?_, fun m _ => ?_⟩
      · exact ⟨by simp [Event.makesPort], .inl ⟨rfl, rfl⟩⟩
      · exact ⟨by simp [Event.makesPort], .inr ⟨rfl, .inr ⟨Option.some_ne_none n, rfl⟩⟩⟩
    · exact ⟨by simp [Event.makesPort], .inr ⟨rfl, .inl rfl⟩⟩

/-- Flows that were just put are dropped like those that were there before. -/
theorem World.dropFlows_putFlows_self (w : World) (name : String) (ofport : Nat) :
    (w.putFlows name ofport).dropFlows name = w.dropFlows name := by
  have hflows : (w.bridge.flows.insert name ofport).erase name = w.bridge.flows.erase name := by
    ext n f
    rw [Table.get?_erase, Table.get?_erase, Table.get?_insert]
    grind
  simp [putFlows, dropFlows, hflows]

theorem connect_ends {name mac : String} {ids : Table String} {ips : List Net.Ip}
    (hlog : e.log.any Event.makesPort = false) :
    (onSwitch (Switch.connect name ids ips mac)).Ensures (mayAnswer k allows) e fun r e' =>
      Connects k name ids e.world (e'.log.any Event.makesPort) r e'.world := by
  unfold Switch.connect
  rw [onSwitch_bind, Proc.ensures_bind, ensures_createPort]
  refine ⟨fun _ => ?_, fun m _ => ?_⟩
  · rw [onSwitch_bind, Proc.ensures_bind, ensures_getOfport (e.world.ofport?_putPort _)]
    refine ⟨fun _ => ?_, fun m _ => ?_⟩
    · rw [onSwitch_bind, Proc.ensures_bind, ensures_installFlows]
      refine ⟨fun _ => ?_, fun m _ => ?_⟩
      · have hmade : Connects k name ids e.world true (.ok ⟨k.uuid name, k.ofport⟩)
            ((e.world.putPort (portFor k name ids)).putFlows name k.ofport) := .made
        rw [onSwitch_pure, Proc.ensures_done]
        simpa [Event.makesPort, portFor] using hmade
      · -- flows may be there, and if they can be removed so may be the port
        rw [onSwitch_bind]
        refine detachAfter_ends.bind ?_
        rintro x e' ⟨hmade, hends⟩
        have hmade' : e'.log.any Event.makesPort = true := by simpa [Event.makesPort] using hmade
        rw [onSwitch_pure, Proc.ensures_done, hmade']
        simp only [Episode.push_world, reduceCtorEq, if_false, ne_eq, not_false_eq_true,
          true_and] at hends
        cases hleaves : m.leavesFlows with
        | false =>
          simp only [hleaves, Bool.false_eq_true, if_false] at hends
          rcases hends with ⟨rfl, hworld⟩ | ⟨hx, hworld⟩
          · rw [hworld]
            exact .withdrawn m.onSwitch.property (.inr rfl)
          · exact .left hx (.inr rfl) (hworld.imp_right .inl)
        | true =>
          simp only [hleaves, if_true, World.dropFlows_putFlows_self] at hends
          rcases hends with ⟨rfl, hworld⟩ | ⟨hx, hworld⟩
          · rw [hworld]
            exact .withdrawn m.onSwitch.property (.inr rfl)
          · exact .left hx (.inr rfl) (.inr hworld.symm)
    · -- without a number flows are not touched
      rw [onSwitch_bind]
      refine detachAfter_ends.bind ?_
      rintro x e' ⟨hmade, hends⟩
      have hmade' : e'.log.any Event.makesPort = true := by simpa [Event.makesPort] using hmade
      rw [onSwitch_pure, Proc.ensures_done, hmade']
      rcases hends with ⟨rfl, hworld⟩ | ⟨hx, hworld⟩
      · rw [hworld]
        exact .withdrawn m.onSwitch.property (.inl rfl)
      · refine .left hx (.inl rfl) (.inl ?_)
        rcases hworld with hworld | ⟨hnone, -⟩
        · exact hworld
        · exact absurd rfl hnone
  · have hmade : (e.push e.world (.switch (.createPort name ids))
        (.error m.onSwitch.val)).log.any Event.makesPort = false := by
      simpa [Event.makesPort] using hlog
    rw [onSwitch_pure, Proc.ensures_done, hmade]
    exact .refused m.onSwitch.property

/-! ## Removing and restoring -/

/-- Whether a pair of links was to be torn down, and was not. -/
def Event.failsTeardown (ev : Event) : Bool :=
  match ev.asked with
  | .link (.teardown ..) => ev.failure?.isSome
  | _ => false

/-- How removing an interface can end: the flows go first, then the port, the link and the
record. -/
inductive Removes (a : Attachment) (w : World) : Except Failure Unit → World → Prop
  | kept {f : Failure} : Removes a w (.error f) w
  | flowless {f : Failure} : Removes a w (.error f) (w.dropFlows a.interfaceName)
  | portless {f : Failure} :
      Removes a w (.error f) ((w.dropFlows a.interfaceName).dropPortOf a)
  | gone : Removes a w (.ok ()) ((((w.dropFlows a.interfaceName).dropPortOf a).dropLink
      a.interfaceName).dropRecord a.interfaceName)

/-- An interface is disconnected, or its port stays and perhaps its flows. -/
theorem disconnect_ends {a : Attachment} :
    (onSwitch (Switch.disconnect a.interfaceName (a.port.map AttachedPort.uuid))).Ensures
      (mayAnswer k allows) e fun r e' =>
        r = .ok () ∧ e'.world = (e.world.dropFlows a.interfaceName).dropPortOf a ∨
          ∃ x, r = .error x ∧
            (e'.world = e.world ∨ e'.world = e.world.dropFlows a.interfaceName) := by
  unfold Switch.disconnect World.dropPortOf
  rw [onSwitch_bind, Proc.ensures_bind, ensures_uninstallFlows]
  refine ⟨fun _ => ?_, fun m _ => .inr ⟨_, rfl, .inl rfl⟩⟩
  cases a.port with
  | none => exact .inl ⟨rfl, rfl⟩
  | some q =>
    simp only [Option.map_some]
    rw [ensures_deletePort]
    exact ⟨fun _ => .inl ⟨rfl, rfl⟩, fun m _ => .inr ⟨_, rfl, .inr rfl⟩⟩

theorem remove_ends {a : Attachment} :
    (remove a).Ensures (mayAnswer k allows) e fun r e' => Removes a e.world r e'.world ∧
      (r = .ok () → e'.log.any Event.failsTeardown = e.log.any Event.failsTeardown) := by
  unfold remove
  refine Proc.Ensures.bind (disconnect_ends.and
    (onSwitch_any (f := Event.failsTeardown) fun _ _ => rfl)) ?_
  rintro r e₁ ⟨⟨rfl, hworld⟩ | ⟨x, rfl, hworld⟩, hlog⟩
  · rw [Proc.ensures_bind, ensures_teardown]
    refine ⟨fun _ => ?_, fun m _ => ?_⟩
    · rw [Proc.ensures_bind, ensures_forget]
      intro _
      simp only [Episode.push_world, hworld, Proc.pure_def, Proc.ensures_done]
      exact ⟨.gone, fun _ => hlog⟩
    · simp only [Proc.pure_def, Proc.ensures_done, Episode.push_world, hworld]
      exact ⟨.portless, by rintro ⟨⟩⟩
  · refine ⟨?_, by rintro ⟨⟩⟩
    rcases hworld with hworld | hworld
    · rw [hworld]
      exact .kept
    · rw [hworld]
      exact .flowless

/-- A call that meets no mishap and undoes something succeeds. -/
theorem undoesWell_perform (k : Conditions) (w : World) (q : Ask) :
    Event.UndoesWell ⟨q, (w.perform k q).1⟩ := by
  intro hundoes
  cases q with
  | switch c => cases c <;> first | rfl | cases hundoes
  | link c => cases c <;> first | rfl | cases hundoes
  | _ => cases hundoes

/-- Calls that meet no mishap and undo something succeed. -/
theorem undoesWell_run {α : Type} (hwell : ∀ place, k.mishap place = none) (p : Activity α)
    (he : ∀ ev ∈ e.log, ev.UndoesWell) :
    ∀ ev ∈ (p.run (Episode.answer k) e).2.log, ev.UndoesWell :=
  performed_run hwell (undoesWell_perform k) p he

/-- A removal whose calls succeed does. -/
theorem remove_well {a : Attachment} :
    (remove a).Ensures (mayAnswer k Event.UndoesWell) e fun r e' =>
      r = .ok () ∧ Removes a e.world r e'.world := by
  have hok : (remove a).Ensures (mayAnswer k Event.UndoesWell) e fun r _ => r = .ok () := by
    unfold remove Switch.disconnect
    rw [Proc.ensures_bind, onSwitch_bind, Proc.ensures_bind, ensures_uninstallFlows_well]
    cases a.port with
    | none =>
      show (teardown a.containerId a.interfaceName >>= _).Ensures _ _ _
      rw [Proc.ensures_bind, ensures_teardown_well, Proc.ensures_bind, ensures_forget]
      exact fun _ => rfl
    | some q =>
      simp only [Option.map_some]
      rw [ensures_deletePort_well]
      simp only [Proc.ensures_bind, ensures_teardown_well, ensures_forget]
      exact fun _ => rfl
  exact (hok.and remove_ends).mono fun r e' h => ⟨h.1, h.2.1⟩

/-- The interface of a container is that of its record. -/
theorem removeOf_ends {containerId : String} {a : Attachment}
    (ha : e.world.store.find? containerId = some a) :
    (removeOf containerId).Ensures (mayAnswer k allows) e fun r e' => Removes a e.world r e'.world ∧
      (r = .ok () → e'.log.any Event.failsTeardown = e.log.any Event.failsTeardown) := by
  rw [removeOf, Proc.ensures_bind, ensures_attachmentOf, ha]
  exact fun _ => remove_ends

/-- A container without a record has nothing to remove. -/
theorem removeOf_idle {containerId : String} (hnone : e.world.store.find? containerId = none) :
    (removeOf containerId).Ensures (mayAnswer k allows) e fun _ e' => e'.world = e.world ∧
      ∀ f : Event → Bool, (∀ reply, f ⟨.attachmentOf containerId, reply⟩ = false) →
        e'.log.any f = e.log.any f := by
  rw [removeOf, Proc.ensures_bind, ensures_attachmentOf, hnone]
  refine fun _ => ⟨rfl, fun f hf => ?_⟩
  rw [Episode.push_log, List.any_cons, hf, Bool.false_or]

/-- How giving an interface its flows back can end.  The number is the one that is recorded, or
the port's own if none is. -/
inductive Replays (a : Attachment) (w : World) : Except Failure Unit → World → Prop
  | refused {f : Failure} : Replays a w (.error f) w
  | installed {r : Except Failure Unit} {q : AttachedPort} {m : Nat} (hport : a.port = some q)
      (hofport : q.ofport = some m ∨
        q.ofport = none ∧ w.bridge.ofport? a.interfaceName = some m) :
      Replays a w r (w.putFlows a.interfaceName m)

/-- Once there is a number, flows are installed with it, or the installation fails and perhaps adds
them all the same. -/
theorem installFlows_ends {a : Attachment} {q : AttachedPort} {m : Nat} {w : World}
    (hworld : e.world = w) (hport : a.port = some q)
    (hofport : q.ofport = some m ∨ q.ofport = none ∧ w.bridge.ofport? a.interfaceName = some m) :
    (onSwitch (installFlows a.interfaceName a.ips a.mac m)).Ensures (mayAnswer k allows) e
      fun r e' => Replays a w (r.mapError Failure.switch) e'.world := by
  subst hworld
  rw [ensures_installFlows]
  refine ⟨fun _ => .installed hport hofport, fun x _ => ?_⟩
  rw [Episode.push_world]
  split
  · exact .installed hport hofport
  · exact .refused

theorem reconnect_ends {a : Attachment} :
    (reconnect a).Ensures (mayAnswer k allows) e fun r e' => Replays a e.world r e'.world := by
  unfold reconnect
  split
  · exact .refused
  · next q hport =>
    cases hq : q.ofport with
    | some m =>
      refine (installFlows_ends rfl hport (.inl hq)).bind ?_
      rintro (x | ⟨⟩) e' hends <;> exact hends
    | none =>
      -- the port is asked for its number, and gives none if there is none
      dsimp only
      rw [Proc.ensures_bind]
      refine ensures_switch.2 ⟨fun _ => ?_, fun x _ => .refused⟩
      rw [World.perform_getOfport]
      cases hnumber : (e.world.slot a.interfaceName).port.bind Switch.Port.ofport with
      | none => exact .refused
      | some m =>
        dsimp only
        refine (installFlows_ends (e.push_world _ _ _) hport (.inr ⟨hq, hnumber⟩)).bind ?_
        rintro (x | ⟨⟩) e' hends <;> exact hends

/-! ## Attaching -/

/-- What is recorded of a planned interface with its port. -/
def Plan.recorded (c : Cni.Call) (p : Plan) (q : AttachedPort) : Attachment :=
  { p.attachment c with port := some q }

/-- How attaching a container can end; whether a port was made, and whether the links could not be
torn down. -/
inductive Attempts (k : Conditions) (c : Cni.Call) (p : Plan) (w : World) :
    (made torn : Bool) → Except Cni.CallError Bytes → World → Prop
  /-- The links could not be built. -/
  | unbuilt {f : Failure} : Attempts k c p w false false (.error f.whileConfiguring) w
  /-- No port stayed, and the links are torn down. -/
  | undone {made : Bool} {x : Switch.Error} {w' : World} (hx : leftPort? x = none)
      (hconnect : Connects k p.hostIfname (p.attachment c).externalIds (w.putLink p.hostIfname)
        made (.error x) w') :
      Attempts k c p w made false (.error (Failure.switch x).whileConfiguring)
        (w'.dropLink p.hostIfname)
  /-- No port stayed, but the links did. -/
  | linked {made : Bool} {x : Switch.Error} {w' : World} (hx : leftPort? x = none)
      (hconnect : Connects k p.hostIfname (p.attachment c).externalIds (w.putLink p.hostIfname)
        made (.error x) w') :
      Attempts k c p w made true (.error (Failure.switch x).whileConfiguring) w'
  /-- A port stayed and was recorded; then the interface was to be removed. -/
  | recorded {torn : Bool} {x : Switch.Error} {q : AttachedPort} {w₁ w₂ : World}
      {r : Except Failure Unit} (hx : leftPort? x = some q)
      (hconnect : Connects k p.hostIfname (p.attachment c).externalIds (w.putLink p.hostIfname)
        true (.error x) w₁)
      (hremove : Removes (p.recorded c q) (w₁.putRecord (p.recorded c q)) r w₂)
      (htorn : r = .ok () → torn = false) :
      Attempts k c p w true torn (.error (Failure.switch x).whileConfiguring) w₂
  /-- All is there. -/
  | attached {bytes : Bytes} {w' : World}
      (hconnect : Connects k p.hostIfname (p.attachment c).externalIds (w.putLink p.hostIfname)
        true (.ok ⟨k.uuid p.hostIfname, k.ofport⟩) w') :
      Attempts k c p w true false (.ok bytes)
        (w'.putRecord (p.recorded c ⟨k.uuid p.hostIfname, some k.ofport⟩))

theorem attach_ends {c : Cni.Call} {res : Cni.Result} {p : Plan}
    (hnone : e.world.store.find? c.containerId = none)
    (hmakes : e.log.any Event.makesPort = false)
    (hfails : e.log.any Event.failsTeardown = false) :
    (attach c res p).Ensures (mayAnswer k allows) e fun r e' =>
      Attempts k c p e.world (e'.log.any Event.makesPort) (e'.log.any Event.failsTeardown) r
        e'.world := by
  -- what follows once the configuration failed and nothing is recorded
  have hrest : ∀ (f : Failure) (e₂ : Episode), e₂.world.store.find? c.containerId = none →
      Attempts k c p e.world (e₂.log.any Event.makesPort) (e₂.log.any Event.failsTeardown)
        (.error f.whileConfiguring) e₂.world →
      (do
        let _ ← removeOf c.containerId
        return .error f.whileConfiguring : Activity (Except Cni.CallError Bytes)).Ensures
        (mayAnswer k allows) e₂ fun r e' =>
          Attempts k c p e.world (e'.log.any Event.makesPort) (e'.log.any Event.failsTeardown) r
            e'.world := by
    intro f e₂ hnone₂ hattempts
    refine (removeOf_idle hnone₂).bind ?_
    rintro r e₃ ⟨hworld, hlog⟩
    rw [Proc.pure_def, Proc.ensures_done, hworld, hlog _ fun _ => rfl, hlog _ fun _ => rfl]
    exact hattempts
  unfold attach configure
  rw [Proc.ensures_bind, Proc.ensures_bind, ensures_buildPair]
  refine ⟨fun _ => ?_, fun m _ => ?_⟩
  · have hconnect : (onSwitch (Switch.connect p.hostIfname (p.attachment c).externalIds p.ips
        p.pair.mac)).Ensures (mayAnswer k allows) (e.push (e.world.putLink p.hostIfname)
          (.link (.build p.pair)) (.ok (builtPair k p.pair))) fun r e' =>
            Connects k p.hostIfname (p.attachment c).externalIds (e.world.putLink p.hostIfname)
              (e'.log.any Event.makesPort) r e'.world ∧
            e'.log.any Event.failsTeardown = e.log.any Event.failsTeardown := by
      refine Proc.Ensures.and (connect_ends ?_) (onSwitch_any fun _ _ => rfl)
      exact hmakes
    refine Proc.Ensures.bind hconnect ?_
    rintro (x | connected) e₁ ⟨hends, htorn⟩
    · cases hx : leftPort? x with
      | some q =>
        have hmade : e₁.log.any Event.makesPort = true := hends.made_of_left hx
        simp only [hx]
        rw [Proc.ensures_bind, ensures_record]
        intro _
        have hfound : (e₁.world.putRecord (p.recorded c q)).store.find? c.containerId =
            some (p.recorded c q) := Store.find?_add_self _ (p.recorded c q)
        refine Proc.Ensures.bind (Proc.Ensures.and (removeOf_ends hfound)
          (ensures_any (f := Event.makesPort) hmade)) ?_
        rintro r e₂ ⟨⟨hremoves, hgone⟩, hstays⟩
        rw [Proc.pure_def, Proc.ensures_done, hstays]
        rw [hmade] at hends
        refine .recorded hx hends hremoves fun hr => ?_
        rw [hgone hr]
        exact htorn.trans hfails
      | none =>
        have hnone₁ : e₁.world.store.find? c.containerId = none := by
          rw [hends.store_eq]
          exact hnone
        simp only [hx]
        rw [Proc.ensures_bind, ensures_teardown]
        refine ⟨fun _ => hrest _ _ hnone₁ ?_, fun m _ => hrest _ _ hnone₁ ?_⟩
        · have htorn₁ : e₁.log.any Event.failsTeardown = false := htorn.trans hfails
          rw [Episode.push_log, List.any_cons, List.any_cons, htorn₁]
          exact .undone hx hends
        · exact .linked hx hends
    · obtain ⟨hmade, rfl⟩ := hends.made_of_ok
      have htorn₁ : e₁.log.any Event.failsTeardown = false := htorn.trans hfails
      rw [hmade] at hends
      rw [Proc.ensures_bind, ensures_record]
      intro _
      simp only [Proc.pure_def, Proc.ensures_done, Episode.push_log, List.any_cons, hmade, htorn₁]
      exact .attached hends
  · refine hrest (.interface m.onLinks) _ hnone ?_
    rw [Episode.push_log, List.any_cons, List.any_cons, hmakes, hfails]
    exact .unbuilt

/-! ## Serving -/

/-- How serving a request can end: nothing changed, a container was to be attached, or an
attachment was to be removed. -/
inductive Serves (o : Options) (k : Conditions) (r : Cni.Request) (w : World) :
    Cni.Response → Episode → Prop
  | idle {response : Cni.Response} {e : Episode} (hquiet : Quiet ⟨w, []⟩ e) :
      Serves o k r w response e
  | attempts {c : Cni.Call} {res : Cni.Result} {p : Plan} {x : Except Cni.CallError Bytes}
      {response : Cni.Response} {e : Episode} (hresponse : response = .ofExcept x)
      (hplans : Plans o k r c res p) (hnone : w.store.find? c.containerId = none)
      (h : Attempts k c p w (e.log.any Event.makesPort) (e.log.any Event.failsTeardown) x
        e.world) :
      Serves o k r w response e
  | removes {c : Cni.Call} {a : Attachment} {x : Except Failure Unit} {response : Cni.Response}
      {e : Episode} (hcommand : r.command = .del) (hdecode : decode o r.args = .ok c)
      (hinfra : c.isInfra = true) (ha : w.store.find? c.containerId = some a)
      (h : Removes a w x e.world) :
      Serves o k r w response e

theorem serveAlone_serves (o : Options) (k : Conditions) (r : Cni.Request) (w : World) :
    Serves o k r w (serveAlone o k r w).1 (serveAlone o k r w).2 := by
  by_cases hadd : ∃ c res p, Plans o k r c res p ∧ w.store.find? c.containerId = none
  · obtain ⟨c, res, p, hplans, hnone⟩ := hadd
    have hhandle : (handle o r).Ensures (mayAnswer k fun _ => True) ⟨w, []⟩ (Serves o k r w) := by
      rw [hplans.ensures_handle]
      intro _
      split
      · rw [ensures_locked]
        intro _
        rw [hplans.ensures_addLocked]
        intro _ _
        simp only [Episode.push_world, hnone]
        refine (attach_ends hnone rfl rfl).mono ?_
        exact fun x e' h _ => .attempts rfl hplans hnone h
      · exact .idle ((quiet_refl _).push fun _ => rfl)
    exact serveAlone_of_ensures hhandle fun _ _ => trivial
  by_cases hdel : ∃ c a, r.command = .del ∧ decode o r.args = .ok c ∧ c.isInfra = true ∧
      w.store.find? c.containerId = some a
  · obtain ⟨c, a, hcommand, hdecode, hinfra, ha⟩ := hdel
    have hserve : (serve o r).Ensures (mayAnswer k fun _ => True) ⟨w, []⟩ fun x e' =>
        Serves o k r w (.ofExcept x) e' := by
      refine ensures_serve (fun x e' hquiet => .idle hquiet) fun c' e₁ hdecode' hquiet => ?_
      obtain rfl : c = c' := Except.ok.inj (hdecode.symm.trans hdecode')
      have hworld : e₁.world = w := hquiet.1
      have ha₁ : e₁.world.store.find? c.containerId = some a := by rw [hworld, ha]
      rw [hcommand]
      show (delLocked c).Ensures _ _ _
      rw [delLocked, if_pos hinfra]
      refine (removeOf_ends ha₁).bind ?_
      rintro x e' ⟨hremoves, -⟩
      rw [hworld] at hremoves
      cases x <;> exact fun e'' hend => .removes hcommand hdecode hinfra ha (hend.1 ▸ hremoves)
    obtain ⟨x, hresponse, hends⟩ := serveAlone_ends hserve
    exact hresponse ▸ hends
  · have hserve : (serve o r).Ensures (mayAnswer k fun _ => True) ⟨w, []⟩ fun _ e' =>
        Quiet ⟨w, []⟩ e' := by
      refine serve_quiet (fun c res p hplans hnone => hadd ⟨c, res, p, hplans, hnone⟩)
        fun c hcommand hdecode hinfra => ?_
      cases hfound : w.store.find? c.containerId with
      | none => rfl
      | some a => exact absurd ⟨c, a, hcommand, hdecode, hinfra, hfound⟩ hdel
    obtain ⟨x, -, hsame⟩ := serveAlone_ends hserve
    exact .idle hsame

end PodAttach.Agent
