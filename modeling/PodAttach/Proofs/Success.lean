import PodAttach.Proofs.Alone
import PodAttach.Proofs.Locality

/-!
# What the success of an Add means

`World.Attached` is what an Add promises: a record of the container, and a
link, a port and flows under the recorded name, the flows with the number of
the port.

* `addLocked_ok`: an Add that succeeds found a record and did nothing, or it
  left the container attached.
* `attach_cases` and `remove_cases`: after an Add or a Del worked on an
  interface, it failed, or the interface is complete or has no record.
* `attach_changed` and `remove_changed`: they did work on it.
* `addLocked_quiet`, `delLocked_quiet` and `checkLocked_quiet`: all other
  requests are `Quiet` and change no interface.
-/

namespace PodAttach.Agent

open Activity Switch.Session

/-- Link, port and flows of an interface are there, the flows with the number of the port. -/
def Slot.Wired (s : Slot) : Prop :=
  s.link = some () ∧ s.flows.isSome = true ∧ s.port.bind Switch.Port.ofport = s.flows

instance (s : Slot) : Decidable s.Wired := inferInstanceAs (Decidable (_ ∧ _))

/-- A container has a record, and all that belongs to the interface that it names. -/
def World.Attached (w : World) (containerId : String) : Prop :=
  ∃ a, w.store.find? containerId = some a ∧ (w.slot a.interfaceName).Wired

instance (w : World) (containerId : String) : Decidable (w.Attached containerId) :=
  match h : w.store.find? containerId with
  | none => .isFalse (by simp [World.Attached, h])
  | some a => decidable_of_iff (w.slot a.interfaceName).Wired (by simp [World.Attached, h])

/-- Whether a step changes the link, the port or the flows of an interface that it names. -/
def Ask.changes (name : String) : Ask → Bool
  | .switch (.createPort n _) => n == name
  | .switch (.installFlows n _ _ _) => n == name
  | .switch (.uninstallFlows n) => n == name
  | .link (.build spec) => spec.hostIfname == name
  | .link (.teardown _ n) => n == name
  | _ => false

variable {k : Conditions} {allows : Event → Prop} {e : Episode}

/-- What holds always is ensured by everything. -/
theorem ensures_of_forall {α : Type} (p : Activity α) {post : α → Episode → Prop}
    (h : ∀ a e', post a e') : p.Ensures (mayAnswer k allows) e post := by
  induction p generalizing e with
  | done a => exact h a e
  | ask q next ih => exact ⟨trivial, fun reply e' _ => ih reply⟩

/-! ## An Add that succeeds -/

/-- An interface that was connected has its port and its flows. -/
theorem connect_ok {name mac : String} {ids : Table String} {ips : List Net.Ip} :
    (onSwitch (Switch.connect name ids ips mac)).Ensures (mayAnswer k allows) e
      fun r e' => ∀ connected, r = .ok connected →
        connected = ⟨k.uuid name, k.ofport⟩ ∧
          e'.world = (e.world.putPort ⟨k.uuid name, name, some k.ofport, ids⟩).putFlows name
            k.ofport := by
  have hfail : ∀ (uuid : String) (ofport : Option Nat) (cause : Switch.Error) (e₁ : Episode),
      (onSwitch (do return .error (← Switch.detachAfter name uuid ofport cause))).Ensures
        (mayAnswer k allows) e₁ fun (r : Except Switch.Error Switch.Connected) e' =>
          ∀ connected, r = .ok connected →
            connected = ⟨k.uuid name, k.ofport⟩ ∧
              e'.world = (e.world.putPort ⟨k.uuid name, name, some k.ofport, ids⟩).putFlows name
                k.ofport := by
    intro uuid ofport cause e₁
    rw [onSwitch_bind, Proc.ensures_bind]
    exact ensures_of_forall _ fun _ _ => nofun
  unfold Switch.connect
  rw [onSwitch_bind, Proc.ensures_bind, ensures_createPort]
  refine ⟨fun _ => ?_, fun m _ => nofun⟩
  rw [onSwitch_bind, Proc.ensures_bind, ensures_getOfport (e.world.ofport?_putPort _)]
  refine ⟨fun _ => ?_, fun m _ => hfail _ _ _ _⟩
  rw [onSwitch_bind, Proc.ensures_bind, ensures_installFlows]
  refine ⟨fun _ => ?_, fun m _ => hfail _ _ _ _⟩
  rintro connected ⟨⟩
  exact ⟨rfl, rfl⟩

/-- An interface that was configured is recorded, and all of it is there. -/
theorem configure_ok {c : Cni.Call} {p : Plan} :
    (configure c p).Ensures (mayAnswer k allows) e fun r e' => ∀ pair, r = .ok pair →
      (∃ a, e'.world.store.find? c.containerId = some a ∧ a.interfaceName = p.hostIfname) ∧
        (e'.world.slot p.hostIfname).Wired := by
  unfold configure
  rw [Proc.ensures_bind, ensures_buildPair]
  refine ⟨fun _ => ?_, fun m _ => nofun⟩
  refine connect_ok.bind ?_
  rintro (x | connected) e' hconnected
  · dsimp only
    cases leftPort? x with
    | some port =>
      rw [Proc.ensures_bind]
      exact ensures_of_forall _ fun _ _ => nofun
    | none =>
      rw [Proc.ensures_bind]
      exact ensures_of_forall _ fun _ _ => nofun
  · obtain ⟨-, hworld⟩ := hconnected connected rfl
    rw [Proc.ensures_bind, ensures_record]
    rintro - pair -
    refine ⟨⟨_, Store.find?_add_self _ _, rfl⟩, ?_⟩
    simp [Slot.Wired, hworld, World.slot, World.putFlows, World.putPort, Plan.attachment,
      Plan.hostIfname, Switch.Bridge.insertPort]

/-- What an Add leaves that has to attach its container: an attached container, or a failure of
the configuration. -/
theorem attach_cases {c : Cni.Call} {res : Cni.Result} {p : Plan} :
    (attach c res p).Ensures (mayAnswer k allows) e fun r e' =>
      (∃ f : Failure, r = .error f.whileConfiguring) ∨
        (∃ a, e'.world.store.find? c.containerId = some a ∧ a.interfaceName = p.hostIfname) ∧
          (e'.world.slot p.hostIfname).Wired := by
  unfold attach
  refine configure_ok.bind ?_
  rintro (f | pair) e' hok
  · rw [Proc.ensures_bind]
    exact ensures_of_forall _ fun _ _ => .inl ⟨f, rfl⟩
  · exact .inr (hok pair rfl)

/-- An Add that succeeds has attached its container, or found a record of it and done nothing. -/
theorem addLocked_ok {c : Cni.Call} (hinfra : c.isInfra = true) :
    (addLocked c).Ensures (mayAnswer k allows) e fun r e' => ∀ bytes, r = .ok bytes →
      e.world.store.find? c.containerId = none ∧ e'.world.Attached c.containerId ∨
        (e.world.store.find? c.containerId).isSome = true ∧ e'.world = e.world := by
  unfold addLocked
  rw [Proc.ensures_bind, ensures_descriptor]
  intro _
  split
  · nofun
  · next d _ =>
    split
    · nofun
    · next res p _ =>
      rw [if_pos hinfra, Proc.ensures_bind, ensures_attachmentOf]
      intro _
      simp only [Episode.push_world]
      cases hfound : e.world.store.find? c.containerId with
      | some a => exact fun _ _ => .inr ⟨rfl, rfl⟩
      | none =>
        refine attach_cases.mono ?_
        rintro r e' hcases bytes rfl
        rcases hcases with ⟨f, ⟨⟩⟩ | ⟨⟨a, ha, hname⟩, hwired⟩
        exact .inl ⟨rfl, a, ha, hname ▸ hwired⟩

/-- What a removal leaves: no record, or a failure. -/
theorem remove_cases {a : Attachment} :
    (remove a).Ensures (mayAnswer k allows) e fun r e' =>
      (∃ f, r = .error f) ∨ (e'.world.slot a.interfaceName).record = none := by
  unfold remove
  rw [Proc.ensures_bind]
  refine ensures_of_forall _ ?_
  rintro (x | _) e'
  · exact .inl ⟨_, rfl⟩
  · rw [Proc.ensures_bind, ensures_teardown]
    refine ⟨fun _ => ?_, fun m _ => .inl ⟨_, rfl⟩⟩
    rw [Proc.ensures_bind, ensures_forget]
    intro _
    refine .inr ?_
    simp [World.slot, Store.get?_erase]

/-! ## What one request changes -/

/-- Whether a request asked to change an interface. -/
def Episode.changed (e : Episode) (name : String) : Bool :=
  e.log.any fun ev => ev.asked.changes name

/-- What was logged stays logged. -/
theorem ensures_any {α : Type} {p : Activity α} {f : Event → Bool} (h : e.log.any f = true) :
    p.Ensures (mayAnswer k allows) e fun _ e' => e'.log.any f = true := by
  induction p generalizing e with
  | done a => exact h
  | ask q next ih =>
    refine ⟨trivial, ?_⟩
    rintro reply e' ⟨-, m, -, hlog⟩
    refine ih reply ?_
    rw [hlog, List.any_cons, h, Bool.or_true]

/-- What was asked stays asked. -/
theorem ensures_changed {α : Type} {p : Activity α} {name : String} (h : e.changed name = true) :
    p.Ensures (mayAnswer k allows) e fun _ e' => e'.changed name = true :=
  ensures_any h

/-- An Add that has to attach its container asks for a pair of links first. -/
theorem attach_changed {c : Cni.Call} {res : Cni.Result} {p : Plan} :
    (attach c res p).Ensures (mayAnswer k allows) e
      fun _ e' => e'.changed p.hostIfname = true := by
  have hasked : ∀ (w : World) (reply : (Ask.link (.build p.pair)).Reply),
      (e.push w (.link (.build p.pair)) reply).changed p.hostIfname = true := by
    intro w reply
    simp [Episode.changed, Ask.changes, Plan.hostIfname]
  unfold attach configure
  rw [Proc.ensures_bind, Proc.ensures_bind, ensures_buildPair]
  refine ⟨fun _ => ?_, fun m _ => ?_⟩
  · exact (ensures_changed (hasked _ _)).mono fun _ _ h => ensures_changed h
  · exact ensures_changed (hasked _ _)

/-- A removal asks for the flows to be removed first. -/
theorem remove_changed {a : Attachment} :
    (remove a).Ensures (mayAnswer k allows) e
      fun _ e' => e'.changed a.interfaceName = true := by
  have hasked : ∀ (w : World) (reply : (Ask.switch (.uninstallFlows a.interfaceName)).Reply),
      (e.push w (.switch (.uninstallFlows a.interfaceName)) reply).changed a.interfaceName =
        true := by
    intro w reply
    simp [Episode.changed, Ask.changes]
  unfold remove Switch.disconnect
  rw [Proc.ensures_bind, onSwitch_bind, Proc.ensures_bind, ensures_uninstallFlows]
  refine ⟨fun _ => ?_, fun m _ => ?_⟩
  · exact (ensures_changed (hasked _ _)).mono fun _ _ h => ensures_changed h
  · exact ensures_changed (hasked _ _)

/-- Nothing changed from one point of a request to another, and nothing was asked to. -/
def Quiet (e e' : Episode) : Prop :=
  e'.world = e.world ∧ ∀ n, e'.changed n = e.changed n

/-- One more question that changes nothing. -/
theorem Quiet.push {e e' : Episode} (h : Quiet e e') {q : Ask} {reply : q.Reply}
    (hq : ∀ n, q.changes n = false) : Quiet e (e'.push e'.world q reply) := by
  refine ⟨h.1, fun n => ?_⟩
  have hsame : e'.changed n = e.changed n := h.2 n
  simpa [Episode.changed, hq n] using hsame

theorem quiet_refl (e : Episode) : Quiet e e := ⟨rfl, fun _ => rfl⟩

theorem Quiet.trans {e₁ e₂ e₃ : Episode} (h : Quiet e₁ e₂) (h' : Quiet e₂ e₃) : Quiet e₁ e₃ :=
  ⟨h'.1.trans h.1, fun n => (h'.2 n).trans (h.2 n)⟩

/-- An Add that has nothing to attach. -/
theorem addLocked_quiet {c : Cni.Call}
    (h : ∀ d res p, c.isInfra = true → k.descriptor = .ok d → Plan.resolve c d = .ok (res, p) →
      e.world.store.find? c.containerId ≠ none) :
    (addLocked c).Ensures (mayAnswer k allows) e fun _ e' => Quiet e e' := by
  unfold addLocked
  rw [Proc.ensures_bind, ensures_descriptor]
  intro _
  have hfirst : Quiet e (e.push e.world (.descriptor c.podNamespace c.podName) k.descriptor) :=
    (quiet_refl e).push fun _ => rfl
  cases hd : k.descriptor with
  | error x =>
    rw [hd] at hfirst
    exact hfirst
  | ok v =>
    dsimp only
    rw [hd] at hfirst
    split
    · exact hfirst
    · next res p hplan =>
      split
      · next hinfra =>
        rw [Proc.ensures_bind, ensures_attachmentOf]
        intro _
        simp only [Episode.push_world]
        cases hfound : e.world.store.find? c.containerId with
        | none => exact absurd hfound (h v res p hinfra hd hplan)
        | some a => exact hfirst.push fun _ => rfl
      · rw [Proc.ensures_bind, ensures_attachmentOf]
        intro _
        simp only [Episode.push_world]
        cases e.world.store.find? c.infraContainerId <;> exact hfirst.push fun _ => rfl

/-- A Del that has nothing to remove. -/
theorem delLocked_quiet {c : Cni.Call}
    (h : c.isInfra = true → e.world.store.find? c.containerId = none) :
    (delLocked c).Ensures (mayAnswer k allows) e fun _ e' => Quiet e e' := by
  unfold delLocked
  split
  · next hinfra =>
    rw [Proc.ensures_bind, removeOf, Proc.ensures_bind, ensures_attachmentOf, h hinfra]
    exact fun _ => (quiet_refl e).push fun _ => rfl
  · exact quiet_refl e

/-- A question that changes nothing, whatever it meets. -/
theorem ensures_idle {q : Ask} {e' : Episode} (h : Quiet e e')
    (hworld : ∀ m w, (World.meet k w m q).2 = w) (hq : ∀ n, q.changes n = false) :
    (Proc.question q : Activity q.Reply).Ensures (mayAnswer k allows) e' fun _ e'' =>
      Quiet e e'' := by
  rw [ensures_question]
  intro m _
  rw [hworld]
  exact h.push hq

theorem check_quiet {e' : Episode} (h : Quiet e e') {c : Cni.Call} {a : Attachment} :
    (check c a).Ensures (mayAnswer k allows) e' fun _ e'' => Quiet e e'' := by
  have hofport : ∀ m w, (World.meet k w m (.switch (.getOfport a.interfaceName))).2 = w := by
    intro m w
    cases m with
    | none => exact congrArg Prod.snd (World.perform_getOfport k w a.interfaceName)
    | some m => rfl
  unfold check
  refine (ensures_idle (q := .link (.check a.interfaceName c.netns c.ifname a.mac)) h
    (fun m w => by cases m <;> rfl) fun _ => rfl).bind ?_
  rintro (x | _) e₁ h₁
  · exact h₁
  · have hask : (onSwitch (getOfport a.interfaceName)).Ensures (mayAnswer k allows) e₁
        fun _ e'' => Quiet e e'' := ensures_idle h₁ hofport fun _ => rfl
    refine hask.bind ?_
    rintro (x | ofport) e₂ h₂
    · exact h₂
    · dsimp only
      split
      · exact h₂
      · split
        · exact h₂
        · split <;> exact h₂

/-- A Check looks and changes nothing. -/
theorem checkLocked_quiet {c : Cni.Call} :
    (checkLocked c).Ensures (mayAnswer k allows) e fun _ e' => Quiet e e' := by
  unfold checkLocked
  split
  · rw [Proc.ensures_bind, ensures_attachmentOf]
    intro _
    have hfirst : Quiet e (e.push e.world (.attachmentOf c.containerId)
        (e.world.store.find? c.containerId)) := (quiet_refl e).push fun _ => rfl
    generalize e.push e.world (.attachmentOf c.containerId)
      (e.world.store.find? c.containerId) = e₁ at hfirst ⊢
    cases e.world.store.find? c.containerId with
    | none => exact hfirst
    | some a =>
      rw [Proc.ensures_bind]
      refine (check_quiet hfirst).mono ?_
      rintro (x | _) e' h <;> exact h
  · exact quiet_refl e

/-- What is done under the lock. -/
def underLock (command : Cni.Command) (c : Cni.Call) : Activity (Except Cni.CallError Bytes) :=
  match command with
  | .add => addLocked c
  | .del => delLocked c
  | .check => checkLocked c

/-- Around what is done under the lock, a request does nothing but wait. -/
theorem ensures_serve {o : Options} {r : Cni.Request}
    {post : Except Cni.CallError Bytes → Episode → Prop}
    (hrefused : ∀ x e', Quiet e e' → post (.error x) e')
    (hlocked : ∀ c e₁, decode o r.args = .ok c → Quiet e e₁ →
      (underLock r.command c).Ensures (mayAnswer k allows) e₁ fun x e' =>
        ∀ e'', Quiet e' e'' → post x e'') :
    (serve o r).Ensures (mayAnswer k allows) e post := by
  have hbody : ∀ c e₁, decode o r.args = .ok c → Quiet e e₁ →
      (locked o c (underLock r.command c)).Ensures (mayAnswer k allows) e₁ post := by
    intro c e₁ hdecode h₁
    rw [ensures_locked]
    intro _
    refine (hlocked c _ hdecode (h₁.push fun _ => rfl)).mono fun x e' hpost _ => ?_
    exact hpost _ ((quiet_refl e').push fun _ => rfl)
  unfold serve
  split
  · next hcommand =>
    unfold add
    split
    · exact hrefused _ e (quiet_refl e)
    · next c hdecode =>
      rw [Proc.ensures_bind, ensures_awaitReady]
      intro _
      have hwaited : Quiet e (e.push e.world (.awaitReady o.readyTimeout) k.ready) :=
        (quiet_refl e).push fun _ => rfl
      have hadd := hbody c _ hdecode hwaited
      rw [hcommand] at hadd
      split
      · exact hadd
      · exact hrefused _ _ hwaited
  · next hcommand =>
    unfold del
    split
    · exact hrefused _ e (quiet_refl e)
    · next c hdecode =>
      have hdel := hbody c e hdecode (quiet_refl e)
      rw [hcommand] at hdel
      exact hdel
  · next hcommand =>
    unfold checkCall
    split
    · exact hrefused _ e (quiet_refl e)
    · next c hdecode =>
      have hcheck := hbody c e hdecode (quiet_refl e)
      rw [hcommand] at hcheck
      exact hcheck

end PodAttach.Agent
