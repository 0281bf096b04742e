import PodAttach.Agent.Handle
import PodAttach.Proofs.Rules

/-!
# The territory of a request

A lock is taken for a container, but the switch, the links and the store are
changed by the name of an interface.  A `Territory` are the interfaces that
the requests for one container may work on: those that it has a record of,
and those that are planned for it.

`Territory.rules` let a request ask for things in its territory, and only
while it holds its lock.  `ensures_handle` says that every request that
`Fits` a territory keeps to these rules, whatever the answers are, and gives
its lock back before it ends.  The lemmas before it say the same of the parts
of a request.  What they assume of an answer is `Admits`; the world gives no
other answers (`Covers.admits`).
-/

namespace PodAttach.Agent

open Activity Switch.Session

/-- What the requests for one sandbox may work on. -/
structure Territory where
  /-- The sandbox, whose lock they take. -/
  container : String
  /-- The interfaces. -/
  owns : String → Prop
  /-- The interface that a UUID was handed out for. -/
  nameOf : String → String

namespace Territory

/-- An attachment is one of the territory. -/
structure Holds (T : Territory) (a : Attachment) : Prop where
  container : a.containerId = T.container
  name : T.owns a.interfaceName
  uuid : ∀ q, a.port = some q → T.nameOf q.uuid = a.interfaceName

/-- A step under the lock stays in the territory. -/
def Allows (T : Territory) : Ask → Prop
  | .switch (.createPort n _) => T.owns n
  | .switch (.deletePort uuid) => T.owns (T.nameOf uuid)
  | .switch (.getOfport n) => T.owns n
  | .switch (.installFlows n _ _ _) => T.owns n
  | .switch (.uninstallFlows n) => T.owns n
  | .link (.build spec) => T.owns spec.hostIfname
  | .link (.teardown _ n) => T.owns n
  | .link (.check n _ _ _) => T.owns n
  | .descriptor .. => True
  | .attachmentOf c => c = T.container
  | .record a => T.Holds a
  | .forget n => T.owns n
  | _ => False

/-- What answers a step under the lock may get. -/
def Admits (T : Territory) (d : Except DescriptorError Descriptor) : (q : Ask) → q.Reply → Prop
  | .switch (.createPort n _), reply =>
    (∀ uuid, reply = .ok uuid → T.nameOf uuid = n) ∧ ∀ e, reply = .error e → leftPort? e = none
  | .switch _, reply => ∀ e, reply = .error e → leftPort? e = none
  | .descriptor .., reply => reply = d
  | .attachmentOf _, reply => ∀ a, reply = some a → T.Holds a
  | _, _ => True

/-- A request fits into a territory if its sandbox is the one of the territory, and an interface
that it plans is too. -/
structure Fits (T : Territory) (o : Options) (d : Except DescriptorError Descriptor)
    (r : Cni.Request) : Prop where
  container : ∀ c, decode o r.args = .ok c → c.infraContainerId = T.container
  plan : ∀ c v res p, decode o r.args = .ok c → r.command = .add → c.isInfra = true → d = .ok v →
    Plan.resolve c v = .ok (res, p) → T.owns p.hostIfname

end Territory

/-- What a call is decoded to. -/
theorem decode_eq_ok {o : Options} {args : Cni.CallArgs} {c : Cni.Call}
    (hdecode : decode o args = .ok c) :
    ∃ network pod, Cni.NetConf.parse? args.networkConfiguration = some network ∧
      Cni.PodArgs.parse args.args = .ok pod ∧ Cni.isSupported network.cniVersion = true ∧
      c = {
        containerId := args.containerId
        infraContainerId := (Cni.Call.sandboxOf args.containerId args.netns).1
        isInfra := (Cni.Call.sandboxOf args.containerId args.netns).2
        netns := Cni.Call.netnsPath o.procRoot args.netns
        ifname := args.ifname
        cniVersion := network.cniVersion
        podName := pod.podName
        podNamespace := pod.podNamespace
        network
        args } := by
  unfold decode Cni.Call.decode at hdecode
  cases hnetwork : Cni.NetConf.parse? args.networkConfiguration with
  | none =>
    simp only [hnetwork] at hdecode
    cases hdecode
  | some network =>
    cases hpod : Cni.PodArgs.parse args.args with
    | error e =>
      simp only [hnetwork, hpod] at hdecode
      cases hdecode
    | ok pod =>
      simp only [hnetwork, hpod] at hdecode
      split at hdecode
      · next hsupported => exact ⟨network, pod, rfl, rfl, hsupported, (Except.ok.inj hdecode).symm⟩
      · cases hdecode

/-- A container that does not join another sandbox is its own. -/
theorem infraContainerId_of_isInfra {o : Options} {args : Cni.CallArgs} {c : Cni.Call}
    (hdecode : decode o args = .ok c) (hinfra : c.isInfra = true) :
    c.infraContainerId = c.containerId := by
  obtain ⟨network, pod, -, -, -, rfl⟩ := decode_eq_ok hdecode
  exact Cni.Call.sandboxOf_self hinfra

/-- Where a request stands with its lock. -/
inductive LockStage where
  | outside
  | inside
  | ended
  deriving DecidableEq

/-- Where it stands after a step. -/
def LockStage.after (s : LockStage) : (q : Ask) → q.Reply → LockStage
  | .acquire .., true => .inside
  | .release _, _ => .ended
  | _, _ => s

/-- The rules that keep a request in its territory: it works there only while it holds the
lock. -/
def Territory.rules (T : Territory) (limit : Option Duration)
    (d : Except DescriptorError Descriptor) : Proc.Rules Ask Ask.Reply LockStage where
  asks q s := match q with
    | .awaitReady _ => s = .outside
    | .acquire key l => s = .outside ∧ key = T.container ∧ l = limit
    | .release key => s = .inside ∧ key = T.container
    | q => s = .inside ∧ T.Allows q
  answers q s reply s' := T.Admits d q reply ∧ s' = s.after q reply

namespace Territory

variable {T : Territory} {limit : Option Duration} {d : Except DescriptorError Descriptor}

/-- Nothing may be asked once the lock was given back. -/
theorem not_asks_ended {q : Ask} : ¬ (T.rules limit d).asks q .ended := by
  intro hasks
  cases q <;> first | cases hasks.1 | cases hasks

/-- Under the lock, a step that stays in the territory does not end the lock. -/
theorem ensures_allowed {q : Ask} (hq : T.Allows q) {post : q.Reply → LockStage → Prop}
    (h : ∀ reply, T.Admits d q reply → post reply .inside) :
    (Proc.question q : Activity q.Reply).Ensures (T.rules limit d) .inside post := by
  have hasks : (T.rules limit d).asks q .inside := by
    cases q <;> first | exact ⟨rfl, hq⟩ | exact hq.elim
  refine Proc.ensures_question.2 ⟨hasks, ?_⟩
  rintro reply s' ⟨hadmits, rfl⟩
  have hinside : LockStage.inside.after q reply = .inside := by
    cases q <;> first | rfl | exact hq.elim
  rw [hinside]
  exact h reply hadmits

/-! ## Sessions with the switch -/

theorem ensures_switch {c : Switch.Call} (hc : T.Allows (.switch c))
    {post : c.Reply → LockStage → Prop}
    (h : ∀ reply, T.Admits d (.switch c) reply → post reply .inside) :
    (onSwitch (.question c)).Ensures (T.rules limit d) .inside post :=
  ensures_allowed hc h

theorem ensures_detach {name uuid : String} {ofport : Option Nat} (hname : T.owns name)
    (huuid : T.nameOf uuid = name) :
    (onSwitch (Switch.detach name uuid ofport)).Ensures (T.rules limit d) .inside
      fun _ s => s = .inside := by
  have hdelete : T.Allows (.switch (.deletePort uuid)) := by
    show T.owns (T.nameOf uuid)
    rw [huuid]
    exact hname
  unfold Switch.detach
  cases ofport with
  | none => exact ensures_switch hdelete fun _ _ => rfl
  | some n =>
    rw [onSwitch_bind, Proc.ensures_bind]
    refine ensures_switch (c := .uninstallFlows name) hname fun reply _ => ?_
    cases reply with
    | error e => rfl
    | ok => exact ensures_switch hdelete fun _ _ => rfl

/-- Removing a port that could not be connected leaves it with the UUID that it has. -/
theorem ensures_detachAfter {name uuid : String} {ofport : Option Nat} {cause : Switch.Error}
    (hname : T.owns name) (huuid : T.nameOf uuid = name) (hcause : leftPort? cause = none) :
    (onSwitch (Switch.detachAfter name uuid ofport cause)).Ensures (T.rules limit d) .inside
      fun e s => s = .inside ∧ ∀ q, leftPort? e = some q → T.nameOf q.uuid = name := by
  unfold Switch.detachAfter
  rw [onSwitch_bind]
  refine (ensures_detach hname huuid).bind ?_
  rintro (cleanup | _) s rfl
  · refine ⟨rfl, fun q hq => ?_⟩
    cases hq
    exact huuid
  · exact ⟨rfl, fun q hq => by simp [hcause] at hq⟩

theorem ensures_connect {name mac : String} {ids : Table String} {ips : List Net.Ip}
    (hname : T.owns name) :
    (onSwitch (Switch.connect name ids ips mac)).Ensures (T.rules limit d) .inside
      fun r s => s = .inside ∧ (∀ connected, r = .ok connected → T.nameOf connected.uuid = name) ∧
        ∀ e, r = .error e → ∀ q, leftPort? e = some q → T.nameOf q.uuid = name := by
  have hfail : ∀ (uuid : String) (ofport : Option Nat) (cause : Switch.Error),
      T.nameOf uuid = name → leftPort? cause = none →
      (onSwitch (do return .error (← Switch.detachAfter name uuid ofport cause))).Ensures
        (T.rules limit d) .inside
        fun (r : Except Switch.Error Switch.Connected) s =>
          s = .inside ∧ (∀ connected, r = .ok connected → T.nameOf connected.uuid = name) ∧
            ∀ e, r = .error e → ∀ q, leftPort? e = some q → T.nameOf q.uuid = name := by
    intro uuid ofport cause huuid hcause
    rw [onSwitch_bind]
    refine (ensures_detachAfter hname huuid hcause).bind ?_
    rintro e s ⟨rfl, hleft⟩
    refine ⟨rfl, nofun, fun e' he' => ?_⟩
    cases he'
    exact hleft
  unfold Switch.connect
  rw [onSwitch_bind, Proc.ensures_bind]
  refine ensures_switch (c := .createPort name ids) hname fun reply hreply => ?_
  obtain ⟨huuid, herror⟩ := hreply
  cases reply with
  | error e =>
    refine ⟨rfl, nofun, fun e' he' q hq => ?_⟩
    cases he'
    simp [herror e rfl] at hq
  | ok uuid =>
    rw [onSwitch_bind, Proc.ensures_bind]
    refine ensures_switch (c := .getOfport name) hname fun reply herror => ?_
    cases reply with
    | error e => exact hfail uuid none e (huuid uuid rfl) (herror e rfl)
    | ok ofport =>
      rw [onSwitch_bind, Proc.ensures_bind]
      refine ensures_switch (c := .installFlows name ips mac ofport) hname fun reply herror => ?_
      cases reply with
      | error e => exact hfail uuid (some ofport) e (huuid uuid rfl) (herror e rfl)
      | ok =>
        refine ⟨rfl, fun connected hc => ?_, nofun⟩
        cases hc
        exact huuid uuid rfl

theorem ensures_disconnect {name : String} {uuid : Option String} (hname : T.owns name)
    (huuid : ∀ u, uuid = some u → T.nameOf u = name) :
    (onSwitch (Switch.disconnect name uuid)).Ensures (T.rules limit d) .inside
      fun _ s => s = .inside := by
  unfold Switch.disconnect
  rw [onSwitch_bind, Proc.ensures_bind]
  refine ensures_switch (c := .uninstallFlows name) hname fun reply _ => ?_
  cases reply with
  | error e => rfl
  | ok =>
    cases uuid with
    | none => rfl
    | some u =>
      have hdelete : T.Allows (.switch (.deletePort u)) := by
        show T.owns (T.nameOf u)
        rw [huuid u rfl]
        exact hname
      exact ensures_switch hdelete fun _ _ => rfl

/-! ## Attaching and removing -/

/-- What is recorded of a plan is an attachment of the territory. -/
theorem holds_attachment {c : Cni.Call} {p : Plan} {port : AttachedPort}
    (hc : c.containerId = T.container) (hp : T.owns p.hostIfname)
    (hport : T.nameOf port.uuid = p.hostIfname) :
    T.Holds { p.attachment c with port := some port } where
  container := hc
  name := hp
  uuid q hq := by
    cases hq
    exact hport

theorem ensures_configure {c : Cni.Call} {p : Plan} (hc : c.containerId = T.container)
    (hp : T.owns p.hostIfname) :
    (configure c p).Ensures (T.rules limit d) .inside fun _ s => s = .inside := by
  unfold configure
  rw [Proc.ensures_bind]
  refine ensures_allowed (q := .link (.build p.pair)) hp fun reply _ => ?_
  cases reply with
  | error e => rfl
  | ok pair =>
    refine (ensures_connect hp).bind ?_
    rintro (e | connected) s ⟨rfl, hconnected, hleft⟩
    · dsimp only
      cases hport : leftPort? e with
      | none =>
        rw [Proc.ensures_bind]
        exact ensures_allowed (q := .link (.teardown c.containerId p.hostIfname)) hp
          fun _ _ => rfl
      | some port =>
        rw [Proc.ensures_bind]
        exact ensures_allowed (q := .record _) (holds_attachment hc hp (hleft e rfl port hport))
          fun _ _ => rfl
    · rw [Proc.ensures_bind]
      exact ensures_allowed (q := .record _)
        (holds_attachment hc hp (hconnected connected rfl)) fun _ _ => rfl

theorem ensures_remove {a : Attachment} (ha : T.Holds a) :
    (remove a).Ensures (T.rules limit d) .inside fun _ s => s = .inside := by
  have huuid : ∀ u, a.port.map AttachedPort.uuid = some u → T.nameOf u = a.interfaceName := by
    intro u hu
    obtain ⟨q, hq, rfl⟩ := Option.map_eq_some_iff.1 hu
    exact ha.uuid q hq
  unfold remove
  refine (ensures_disconnect ha.name huuid).bind ?_
  rintro (e | _) s rfl
  · rfl
  · rw [Proc.ensures_bind]
    refine ensures_allowed (q := .link (.teardown a.containerId a.interfaceName)) ha.name
      fun reply _ => ?_
    cases reply with
    | error e => rfl
    | ok =>
      rw [Proc.ensures_bind]
      exact ensures_allowed (q := .forget a.interfaceName) ha.name fun _ _ => rfl

theorem ensures_removeOf {containerId : String} (hc : containerId = T.container) :
    (removeOf containerId).Ensures (T.rules limit d) .inside fun _ s => s = .inside := by
  unfold removeOf
  rw [Proc.ensures_bind]
  refine ensures_allowed (q := .attachmentOf containerId) hc fun reply hreply => ?_
  cases reply with
  | none => rfl
  | some a => exact ensures_remove (hreply a rfl)

theorem ensures_attach {c : Cni.Call} {res : Cni.Result} {p : Plan}
    (hc : c.containerId = T.container) (hp : T.owns p.hostIfname) :
    (attach c res p).Ensures (T.rules limit d) .inside fun _ s => s = .inside := by
  unfold attach
  refine (ensures_configure hc hp).bind ?_
  rintro (e | pair) s rfl
  · refine (ensures_removeOf hc).bind ?_
    rintro _ s rfl
    rfl
  · rfl

theorem ensures_check {c : Cni.Call} {a : Attachment} (ha : T.Holds a) :
    (check c a).Ensures (T.rules limit d) .inside fun _ s => s = .inside := by
  unfold check
  rw [Proc.ensures_bind]
  refine ensures_allowed (q := .link (.check a.interfaceName c.netns c.ifname a.mac)) ha.name
    fun reply _ => ?_
  cases reply with
  | error e => rfl
  | ok =>
    rw [Proc.ensures_bind]
    refine ensures_switch (c := .getOfport a.interfaceName) ha.name fun reply _ => ?_
    cases reply with
    | error e => rfl
    | ok ofport =>
      -- the rest asks nothing
      dsimp only
      split
      · rfl
      · split
        · rfl
        · split <;> rfl

/-! ## Whole requests -/

theorem ensures_addLocked {o : Options} {r : Cni.Request} {c : Cni.Call} (hfits : T.Fits o d r)
    (hcommand : r.command = .add) (hdecode : decode o r.args = .ok c) :
    (addLocked c).Ensures (T.rules limit d) .inside fun _ s => s = .inside := by
  have hcontainer := hfits.container c hdecode
  unfold addLocked
  rw [Proc.ensures_bind]
  refine ensures_allowed (q := .descriptor c.podNamespace c.podName) trivial fun reply hreply => ?_
  cases reply with
  | error e => rfl
  | ok v =>
    dsimp only
    split
    · rfl
    · next res p hplan =>
      split
      · next hinfra =>
        have hc : c.containerId = T.container := by
          rw [← infraContainerId_of_isInfra hdecode hinfra, hcontainer]
        have hp : T.owns p.hostIfname :=
          hfits.plan c v res p hdecode hcommand hinfra hreply.symm hplan
        rw [Proc.ensures_bind]
        refine ensures_allowed (q := .attachmentOf c.containerId) hc fun found _ => ?_
        cases found with
        | some a => rfl
        | none => exact ensures_attach hc hp
      · rw [Proc.ensures_bind]
        refine ensures_allowed (q := .attachmentOf c.infraContainerId) hcontainer fun found _ => ?_
        cases found <;> rfl

theorem ensures_delLocked {o : Options} {r : Cni.Request} {c : Cni.Call} (hfits : T.Fits o d r)
    (hdecode : decode o r.args = .ok c) :
    (delLocked c).Ensures (T.rules limit d) .inside fun _ s => s = .inside := by
  unfold delLocked
  split
  · next hinfra =>
    have hc : c.containerId = T.container := by
      rw [← infraContainerId_of_isInfra hdecode hinfra, hfits.container c hdecode]
    refine (ensures_removeOf hc).bind ?_
    rintro (e | _) s rfl <;> rfl
  · rfl

theorem ensures_checkLocked {o : Options} {r : Cni.Request} {c : Cni.Call}
    (hfits : T.Fits o d r) (hdecode : decode o r.args = .ok c) :
    (checkLocked c).Ensures (T.rules limit d) .inside fun _ s => s = .inside := by
  unfold checkLocked
  split
  · next hinfra =>
    have hc : c.containerId = T.container := by
      rw [← infraContainerId_of_isInfra hdecode hinfra, hfits.container c hdecode]
    rw [Proc.ensures_bind]
    refine ensures_allowed (q := .attachmentOf c.containerId) hc fun reply hreply => ?_
    cases reply with
    | none => rfl
    | some a =>
      refine (ensures_check (hreply a rfl)).bind ?_
      rintro (e | _) s rfl <;> rfl
  · rfl

/-- What is done under the lock ends with the lock given back. -/
theorem ensures_locked {o : Options} {c : Cni.Call} {body : Activity (Except Cni.CallError Bytes)}
    (hc : c.infraContainerId = T.container)
    (hbody : body.Ensures (T.rules o.lockTimeout d) .inside fun _ s => s = .inside) :
    (locked o c body).Ensures (T.rules o.lockTimeout d) .outside fun _ s => s ≠ .inside := by
  unfold locked
  rw [Proc.ensures_bind]
  refine Proc.ensures_question.2 ⟨⟨rfl, hc, rfl⟩, ?_⟩
  rintro had s ⟨-, rfl⟩
  cases had with
  | false => simp [LockStage.after]
  | true =>
    refine hbody.bind ?_
    rintro outcome s rfl
    rw [Proc.ensures_bind]
    refine Proc.ensures_question.2 ⟨⟨rfl, hc⟩, ?_⟩
    rintro _ s ⟨-, rfl⟩
    simp [LockStage.after]

/-- A request keeps to its territory, and gives the lock back before it ends. -/
theorem ensures_handle {o : Options} {r : Cni.Request} (hfits : T.Fits o d r) :
    (handle o r).Ensures (T.rules o.lockTimeout d) .outside fun _ s => s ≠ .inside := by
  unfold handle serve
  rw [Proc.ensures_map]
  split
  · next hcommand =>
    unfold add
    split
    · simp
    · next c hdecode =>
      rw [Proc.ensures_bind]
      refine Proc.ensures_question.2 ⟨rfl, ?_⟩
      rintro ready s ⟨-, rfl⟩
      cases ready with
      | false => simp [LockStage.after]
      | true =>
        exact ensures_locked (hfits.container c hdecode)
          (ensures_addLocked hfits hcommand hdecode)
  · unfold del
    split
    · simp
    · next c hdecode =>
      exact ensures_locked (hfits.container c hdecode) (ensures_delLocked hfits hdecode)
  · unfold checkCall
    split
    · simp
    · next c hdecode =>
      exact ensures_locked (hfits.container c hdecode) (ensures_checkLocked hfits hdecode)

end Territory

end PodAttach.Agent
