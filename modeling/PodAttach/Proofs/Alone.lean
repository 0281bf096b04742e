import PodAttach.Agent.Handle
import PodAttach.Proofs.Rules
import PodAttach.Proofs.World

/-!
# A request alone

A request that no other one disturbs: its questions are answered from one
world, one after the other, and every answer is written down.

`serveAlone` is the run.  `mayAnswer` are the rules that it follows when
nothing is assumed of which calls fail, so that what a computation `Ensures`
under them holds for every choice of mishaps.  They can be cut down to the
answers that satisfy a condition: `serveAlone_of_ensures` gives back a
statement about the runs in whose log every answer satisfies it.

The section on single steps says once what each step of a request can do.
The lemmas are meant for `simp only`, which then executes a computation down
to its last step, with one case for each call that fails.
-/

namespace PodAttach.Agent

/-- A question with its answer. -/
structure Event where
  asked : Ask
  reply : asked.Reply

/-- Whether a step is a call on the switch or on the links. -/
def Ask.isCall : Ask → Bool
  | .switch _ => true
  | .link _ => true
  | _ => false

/-- Whether a step is a call that builds up an attachment. -/
def Ask.builds : Ask → Bool
  | .link (.build _) => true
  | .switch (.createPort ..) => true
  | .switch (.getOfport _) => true
  | .switch (.installFlows ..) => true
  | _ => false

/-- Whether a step is a call that takes down what was built. -/
def Ask.undoes : Ask → Bool
  | .link (.teardown ..) => true
  | .switch (.deletePort _) => true
  | .switch (.uninstallFlows _) => true
  | _ => false

namespace Event

/-- The failure that a call ended with, if it did. -/
def failure? : Event → Option Failure
  | ⟨.switch _, .error e⟩ => some (.switch e)
  | ⟨.link _, .error e⟩ => some (.interface e)
  | _ => none

/-- Whether a port was made. -/
def makesPort : Event → Bool
  | ⟨.switch (.createPort ..), .ok _⟩ => true
  | _ => false

/-- Whether a port was to be removed. -/
def deletesPort : Event → Bool
  | ⟨.switch (.deletePort _), _⟩ => true
  | _ => false

end Event

/-- How far a request has come. -/
structure Episode where
  world : World
  /-- What was asked so far, the last first. -/
  log : List Event

namespace Episode

/-- One more question was answered, which left some world. -/
def push (e : Episode) (world : World) (q : Ask) (reply : q.Reply) : Episode :=
  ⟨world, ⟨q, reply⟩ :: e.log⟩

@[simp]
theorem push_world (e : Episode) (world : World) (q : Ask) (reply : q.Reply) :
    (e.push world q reply).world = world := rfl

@[simp]
theorem push_log (e : Episode) (world : World) (q : Ask) (reply : q.Reply) :
    (e.push world q reply).log = ⟨q, reply⟩ :: e.log := rfl

/-- Answers a question of a request under some conditions. -/
def answer (k : Conditions) (q : Ask) (e : Episode) : q.Reply × Episode :=
  let met := e.world.meet k (k.mishap e.log.length) q
  (met.1, e.push met.2 q met.1)

end Episode

/-- A request, with what its surroundings decide. -/
structure Turn where
  request : Cni.Request
  conditions : Conditions

/-- Serves a request that no other one disturbs. -/
def serveAlone (o : Options) (k : Conditions) (r : Cni.Request) (w : World) :
    Cni.Response × Episode :=
  (handle o r).run (Episode.answer k) ⟨w, []⟩

/-- The answers that a request may get, if all of them satisfy a condition. -/
def mayAnswer (k : Conditions) (allows : Event → Prop) : Proc.Rules Ask Ask.Reply Episode where
  asks _ _ := True
  answers q e reply e' :=
    allows ⟨q, reply⟩ ∧
      ∃ m, e.world.meet k m q = (reply, e'.world) ∧ e'.log = ⟨q, reply⟩ :: e.log

section

variable {k : Conditions} {allows : Event → Prop} {α : Type}

/-- What was written down stays. -/
theorem log_suffix_run (p : Activity α) (e : Episode) :
    e.log <:+ (p.run (Episode.answer k) e).2.log := by
  induction p generalizing e with
  | done a => exact List.suffix_refl _
  | ask q next ih =>
    rw [Proc.run_ask]
    exact (List.suffix_cons _ _).trans (ih _ (Episode.answer k q e).2)

/-- If no call meets a mishap, then all answers are such as the world gives. -/
theorem performed_run {P : Event → Prop} (hwell : ∀ place, k.mishap place = none)
    (hperform : ∀ w q, P ⟨q, (World.perform k w q).1⟩) (p : Activity α) {e : Episode}
    (he : ∀ ev ∈ e.log, P ev) : ∀ ev ∈ (p.run (Episode.answer k) e).2.log, P ev := by
  induction p generalizing e with
  | done a => exact he
  | ask q next ih =>
    rw [Proc.run_ask]
    refine ih _ fun ev hev => ?_
    rcases List.mem_cons.1 hev with rfl | hev
    · simp only [hwell]
      exact hperform e.world q
    · exact he ev hev

/-- A run satisfies what is ensured under the rules, if its log satisfies their condition. -/
theorem run_of_ensures {p : Activity α} {e : Episode} {post : α → Episode → Prop}
    (h : p.Ensures (mayAnswer k allows) e post)
    (hlog : ∀ ev ∈ (p.run (Episode.answer k) e).2.log, allows ev) :
    post (p.run (Episode.answer k) e).1 (p.run (Episode.answer k) e).2 := by
  induction p generalizing e with
  | done a => exact h
  | ask q next ih =>
    rw [Proc.run_ask] at hlog ⊢
    refine ih _ (h.2 _ _ ⟨?_, k.mishap e.log.length, rfl, rfl⟩) hlog
    exact hlog _ ((log_suffix_run _ _).subset (List.mem_cons_self ..))

theorem serveAlone_of_ensures {o : Options} {r : Cni.Request} {w : World}
    {post : Cni.Response → Episode → Prop}
    (h : (handle o r).Ensures (mayAnswer k allows) ⟨w, []⟩ post)
    (hlog : ∀ ev ∈ (serveAlone o k r w).2.log, allows ev) :
    post (serveAlone o k r w).1 (serveAlone o k r w).2 :=
  run_of_ensures h hlog

/-! ## Single steps -/

variable {e : Episode}

/-- A question may meet any mishap. -/
theorem ensures_question {q : Ask} {post : q.Reply → Episode → Prop} :
    (Proc.question q : Activity q.Reply).Ensures (mayAnswer k allows) e post ↔
      ∀ m, allows ⟨q, (e.world.meet k m q).1⟩ →
        post (e.world.meet k m q).1 (e.push (e.world.meet k m q).2 q (e.world.meet k m q).1) := by
  rw [Proc.ensures_question]
  constructor
  · rintro ⟨-, h⟩ m hallows
    exact h _ _ ⟨hallows, m, rfl, rfl⟩
  · intro h
    refine ⟨trivial, ?_⟩
    rintro reply ⟨world, log⟩ ⟨hallows, m, hmeet, hlog⟩
    obtain ⟨rfl, rfl⟩ := Prod.mk.inj hmeet
    subst hlog
    exact h m hallows

/-- A step that is no call meets nothing. -/
theorem ensures_sure {q : Ask} (hsure : ∀ m w, World.meet k w m q = w.perform k q)
    {post : q.Reply → Episode → Prop} :
    (Proc.question q : Activity q.Reply).Ensures (mayAnswer k allows) e post ↔
      (allows ⟨q, (e.world.perform k q).1⟩ →
        post (e.world.perform k q).1
          (e.push (e.world.perform k q).2 q (e.world.perform k q).1)) := by
  simp only [ensures_question, hsure]
  exact ⟨fun h => h none, fun h _ => h⟩

open Activity Switch.Session

/-- A call on the switch succeeds, or it ends with an error. -/
theorem ensures_switch {c : Switch.Call} {post : c.Reply → Episode → Prop} :
    (onSwitch (.question c)).Ensures (mayAnswer k allows) e post ↔
      (allows ⟨.switch c, (e.world.perform k (.switch c)).1⟩ →
        post (e.world.perform k (.switch c)).1
          (e.push (e.world.perform k (.switch c)).2 _ (e.world.perform k (.switch c)).1)) ∧
      ∀ m : Mishap, allows ⟨.switch c, .error m.onSwitch⟩ →
        post (.error m.onSwitch)
          (e.push (e.world.afterFailed m c) (.switch c) (.error m.onSwitch)) := by
  refine Iff.trans ensures_question ?_
  rw [Option.forall]
  exact Iff.rfl

/-- A call on the links succeeds, or it ends with an error and changes nothing. -/
theorem ensures_link {c : Link.Call} {post : c.Reply → Episode → Prop} :
    (Proc.question (Ask.link c) : Activity c.Reply).Ensures (mayAnswer k allows) e post ↔
      (allows ⟨.link c, (e.world.onLinks k c).1⟩ →
        post (e.world.onLinks k c).1
          (e.push (e.world.onLinks k c).2 (.link c) (e.world.onLinks k c).1)) ∧
      ∀ m : Mishap, allows ⟨.link c, .error m.onLinks⟩ →
        post (.error m.onLinks) (e.push e.world (.link c) (.error m.onLinks)) := by
  refine Iff.trans ensures_question ?_
  rw [Option.forall]
  exact Iff.rfl

theorem ensures_buildPair {spec : Link.PairSpec}
    {post : Except Link.Error Link.Pair → Episode → Prop} :
    (buildPair spec).Ensures (mayAnswer k allows) e post ↔
      (allows ⟨.link (.build spec), .ok (builtPair k spec)⟩ →
        post (.ok (builtPair k spec))
          (e.push { e.world with pairs := e.world.pairs.insert spec.hostIfname () }
            (.link (.build spec)) (.ok (builtPair k spec)))) ∧
      ∀ m : Mishap, allows ⟨.link (.build spec), .error m.onLinks⟩ →
        post (.error m.onLinks) (e.push e.world (.link (.build spec)) (.error m.onLinks)) :=
  ensures_link

theorem ensures_teardown {containerId name : String}
    {post : Except Link.Error Unit → Episode → Prop} :
    (teardown containerId name).Ensures (mayAnswer k allows) e post ↔
      (allows ⟨.link (.teardown containerId name), .ok ()⟩ →
        post (.ok ()) (e.push { e.world with pairs := e.world.pairs.erase name }
          (.link (.teardown containerId name)) (.ok ()))) ∧
      ∀ m : Mishap, allows ⟨.link (.teardown containerId name), .error m.onLinks⟩ →
        post (.error m.onLinks)
          (e.push e.world (.link (.teardown containerId name)) (.error m.onLinks)) :=
  ensures_link

theorem ensures_createPort {name : String} {ids : Table String}
    {post : Except Switch.Error String → Episode → Prop} :
    (onSwitch (createPort name ids)).Ensures (mayAnswer k allows) e post ↔
      (allows ⟨.switch (.createPort name ids), .ok (k.uuid name)⟩ →
        post (.ok (k.uuid name))
          (e.push (e.world.putPort ⟨k.uuid name, name, some k.ofport, ids⟩)
            (.switch (.createPort name ids)) (.ok (k.uuid name)))) ∧
      ∀ m : Mishap, allows ⟨.switch (.createPort name ids), .error m.onSwitch⟩ →
        post (.error m.onSwitch)
          (e.push e.world (.switch (.createPort name ids)) (.error m.onSwitch)) :=
  ensures_switch

theorem ensures_deletePort {uuid : String} {post : Except Switch.Error Unit → Episode → Prop} :
    (onSwitch (deletePort uuid)).Ensures (mayAnswer k allows) e post ↔
      (allows ⟨.switch (.deletePort uuid), .ok ()⟩ →
        post (.ok ())
          (e.push (e.world.dropPort uuid) (.switch (.deletePort uuid)) (.ok ()))) ∧
      ∀ m : Mishap, allows ⟨.switch (.deletePort uuid), .error m.onSwitch⟩ →
        post (.error m.onSwitch)
          (e.push e.world (.switch (.deletePort uuid)) (.error m.onSwitch)) :=
  ensures_switch

/-- A port that has a number gives it, unless the call fails. -/
theorem ensures_getOfport {name : String} {ofport : Nat}
    (h : e.world.bridge.ofport? name = some ofport)
    {post : Except Switch.Error Nat → Episode → Prop} :
    (onSwitch (getOfport name)).Ensures (mayAnswer k allows) e post ↔
      (allows ⟨.switch (.getOfport name), .ok ofport⟩ →
        post (.ok ofport) (e.push e.world (.switch (.getOfport name)) (.ok ofport))) ∧
      ∀ m : Mishap, allows ⟨.switch (.getOfport name), .error m.onSwitch⟩ →
        post (.error m.onSwitch)
          (e.push e.world (.switch (.getOfport name)) (.error m.onSwitch)) := by
  refine Iff.trans ensures_switch ?_
  simp only [World.perform, Switch.Bridge.callHanding, Switch.Bridge.call, h]
  exact Iff.rfl

theorem ensures_installFlows {name mac : String} {ips : List Net.Ip} {ofport : Nat}
    {post : Except Switch.Error Unit → Episode → Prop} :
    (onSwitch (installFlows name ips mac ofport)).Ensures (mayAnswer k allows) e post ↔
      (allows ⟨.switch (.installFlows name ips mac ofport), .ok ()⟩ →
        post (.ok ()) (e.push (e.world.putFlows name ofport)
          (.switch (.installFlows name ips mac ofport)) (.ok ()))) ∧
      ∀ m : Mishap, allows ⟨.switch (.installFlows name ips mac ofport), .error m.onSwitch⟩ →
        post (.error m.onSwitch)
          (e.push (if m.leavesFlows then e.world.putFlows name ofport else e.world)
            (.switch (.installFlows name ips mac ofport)) (.error m.onSwitch)) :=
  ensures_switch

theorem ensures_uninstallFlows {name : String}
    {post : Except Switch.Error Unit → Episode → Prop} :
    (onSwitch (uninstallFlows name)).Ensures (mayAnswer k allows) e post ↔
      (allows ⟨.switch (.uninstallFlows name), .ok ()⟩ →
        post (.ok ())
          (e.push (e.world.dropFlows name) (.switch (.uninstallFlows name)) (.ok ()))) ∧
      ∀ m : Mishap, allows ⟨.switch (.uninstallFlows name), .error m.onSwitch⟩ →
        post (.error m.onSwitch)
          (e.push e.world (.switch (.uninstallFlows name)) (.error m.onSwitch)) :=
  ensures_switch

theorem ensures_descriptor {podNamespace name : String}
    {post : Except DescriptorError Descriptor → Episode → Prop} :
    (descriptor podNamespace name).Ensures (mayAnswer k allows) e post ↔
      (allows ⟨.descriptor podNamespace name, k.descriptor⟩ →
        post k.descriptor (e.push e.world (.descriptor podNamespace name) k.descriptor)) :=
  ensures_sure fun m _ => by cases m <;> rfl

theorem ensures_acquire {key : String} {limit : Option Duration} {post : Bool → Episode → Prop} :
    (acquire key limit).Ensures (mayAnswer k allows) e post ↔
      (allows ⟨.acquire key limit, true⟩ →
        post true (e.push e.world (.acquire key limit) true)) :=
  ensures_sure fun m _ => by cases m <;> rfl

theorem ensures_release {key : String} {post : Unit → Episode → Prop} :
    (release key).Ensures (mayAnswer k allows) e post ↔
      (allows ⟨.release key, ()⟩ → post () (e.push e.world (.release key) ())) :=
  ensures_sure fun m _ => by cases m <;> rfl

theorem ensures_awaitReady {limit : Duration} {post : Bool → Episode → Prop} :
    (awaitReady limit).Ensures (mayAnswer k allows) e post ↔
      (allows ⟨.awaitReady limit, k.ready⟩ →
        post k.ready (e.push e.world (.awaitReady limit) k.ready)) :=
  ensures_sure fun m _ => by cases m <;> rfl

theorem ensures_attachmentOf {containerId : String}
    {post : Option Attachment → Episode → Prop} :
    (attachmentOf containerId).Ensures (mayAnswer k allows) e post ↔
      (allows ⟨.attachmentOf containerId, e.world.store.find? containerId⟩ →
        post (e.world.store.find? containerId)
          (e.push e.world (.attachmentOf containerId) (e.world.store.find? containerId))) :=
  ensures_sure fun m _ => by cases m <;> rfl

theorem ensures_record {a : Attachment} {post : Unit → Episode → Prop} :
    (record a).Ensures (mayAnswer k allows) e post ↔
      (allows ⟨.record a, ()⟩ →
        post () (e.push { e.world with store := e.world.store.add a } (.record a) ())) :=
  ensures_sure fun m _ => by cases m <;> rfl

theorem ensures_forget {name : String} {post : Unit → Episode → Prop} :
    (forget name).Ensures (mayAnswer k allows) e post ↔
      (allows ⟨.forget name, ()⟩ →
        post () (e.push { e.world with store := e.world.store.erase name } (.forget name) ())) :=
  ensures_sure fun m _ => by cases m <;> rfl

/-! ## Whole requests -/

/-- A request is an Add for a sandbox, for which there is a plan. -/
structure Plans (o : Options) (k : Conditions) (r : Cni.Request) (c : Cni.Call) (res : Cni.Result)
    (p : Plan) : Prop where
  command : r.command = .add
  decoded : decode o r.args = .ok c
  infra : c.isInfra = true
  planned : ∃ d, k.descriptor = .ok d ∧ Plan.resolve c d = .ok (res, p)

/-- There is one plan for a request. -/
theorem Plans.unique {o : Options} {r : Cni.Request} {c : Cni.Call} {res res' : Cni.Result}
    {p p' : Plan} (h : Plans o k r c res p) (h' : Plans o k r c res' p') :
    res = res' ∧ p = p' := by
  obtain ⟨d, hd, hplan⟩ := h.planned
  obtain ⟨d', hd', hplan'⟩ := h'.planned
  obtain rfl : d = d' := Except.ok.inj (hd.symm.trans hd')
  exact Prod.mk.inj (Except.ok.inj (hplan.symm.trans hplan'))

theorem ensures_handle {o : Options} {r : Cni.Request} {post : Cni.Response → Episode → Prop} :
    (handle o r).Ensures (mayAnswer k allows) e post ↔
      (serve o r).Ensures (mayAnswer k allows) e fun x e' => post (.ofExcept x) e' :=
  Proc.ensures_map

theorem ensures_locked {o : Options} {c : Cni.Call} {body : Activity (Except Cni.CallError Bytes)}
    {post : Except Cni.CallError Bytes → Episode → Prop} :
    (locked o c body).Ensures (mayAnswer k allows) e post ↔
      (allows ⟨.acquire c.infraContainerId o.lockTimeout, true⟩ →
        body.Ensures (mayAnswer k allows)
          (e.push e.world (.acquire c.infraContainerId o.lockTimeout) true) fun x e' =>
            allows ⟨.release c.infraContainerId, ()⟩ →
              post x (e'.push e'.world (.release c.infraContainerId) ())) := by
  simp only [locked, Proc.ensures_bind, ensures_acquire, if_true, ensures_release, Proc.pure_def,
    Proc.ensures_done]

/-- An Add that has a plan waits for the network of the node, then for the lock. -/
theorem Plans.ensures_handle {o : Options} {r : Cni.Request} {c : Cni.Call} {res : Cni.Result}
    {p : Plan} (h : Plans o k r c res p) {post : Cni.Response → Episode → Prop} :
    (handle o r).Ensures (mayAnswer k allows) e post ↔
      (allows ⟨.awaitReady o.readyTimeout, k.ready⟩ →
        if k.ready then
          (locked o c (addLocked c)).Ensures (mayAnswer k allows)
            (e.push e.world (.awaitReady o.readyTimeout) k.ready) fun x e' => post (.ofExcept x) e'
        else post (.ofError .busy) (e.push e.world (.awaitReady o.readyTimeout) k.ready)) := by
  rw [Agent.ensures_handle, serve, h.command]
  simp only [add, h.decoded, Proc.ensures_bind, ensures_awaitReady]
  cases k.ready <;> rfl

/-- Under the lock, a container that has a record is answered from it, and another one is
attached. -/
theorem Plans.ensures_addLocked {o : Options} {r : Cni.Request} {c : Cni.Call} {res : Cni.Result}
    {p : Plan} (h : Plans o k r c res p) {post : Except Cni.CallError Bytes → Episode → Prop} :
    (addLocked c).Ensures (mayAnswer k allows) e post ↔
      (allows ⟨.descriptor c.podNamespace c.podName, k.descriptor⟩ →
        allows ⟨.attachmentOf c.containerId, e.world.store.find? c.containerId⟩ →
          (match e.world.store.find? c.containerId with
            | some a => Proc.done (Except.ok (resultOfAttachment c res a).toBytes)
            | none => attach c res p).Ensures (mayAnswer k allows)
              ((e.push e.world (.descriptor c.podNamespace c.podName) k.descriptor).push e.world
                (.attachmentOf c.containerId) (e.world.store.find? c.containerId)) post) := by
  obtain ⟨d, hdescriptor, hplan⟩ := h.planned
  simp only [addLocked, Proc.ensures_bind, ensures_descriptor, hdescriptor, hplan, h.infra,
    if_true, ensures_attachmentOf, Episode.push_world]
  rfl

end

/-! ## A request to try things on -/

namespace Sample

/-- The arguments of a request for a container of some pod. -/
def args (containerId : String) : Cni.CallArgs where
  containerId
  netns := "/proc/1/ns/net"
  ifname := "eth0"
  args := "K8S_POD_NAME=p1"
  networkConfiguration := Utf8.encode "\x7b\"cniVersion\":\"0.4.0\"\x7d"

/-- The descriptor of the pod. -/
def descriptor : Descriptor where
  vifs := [{
    ifName := "eth0"
    vif := {
      id := "vif1"
      macAddress := "02:00:00:00:00:09"
      network := {
        subnets := [{ cidr := "10.0.0.0/24", ips := [{ ipAddress := "10.0.0.5" }] }] } } }]

/-- A node that hands out UUIDs by names. -/
def conditions (mishap : Nat → Option Mishap) : Conditions where
  descriptor := .ok descriptor
  uuid := Switch.Bridge.uuidOf
  ofport := 10
  mishap

/-- The name that a UUID was handed out for. -/
def nameOf (uuid : String) : String :=
  String.ofList (uuid.toList.drop 5)

theorem nameOf_append {tag : String} (htag : tag.toList.length = 5) (name : String) :
    nameOf (tag ++ name) = name := by
  unfold nameOf
  rw [String.toList_append, ← htag, List.drop_left]
  exact String.ofList_toList

theorem nameOf_uuidOf (name : String) : nameOf (Switch.Bridge.uuidOf name) = name :=
  nameOf_append (by decide) name

/-- The decoded call. -/
def call (containerId : String) : Cni.Call :=
  (decode {} (args containerId)).toOption.getD default

/-- What is planned for the call. -/
def plan (containerId : String) : Cni.Result × Plan :=
  (Plan.resolve (call containerId) descriptor).toOption.getD default

/-- The host interface of the pod. -/
def name : String := "tapvif1"

/-- The port of another pod's interface. -/
def otherPort : Switch.Port := ⟨"uuid-tapother", "tapother", some 7, .empty⟩

/-- A node where another pod has its interface. -/
def world : World :=
  (World.putFlows { pairs := Table.empty.insert "tapother" () } "tapother" 7).putPort otherPort

theorem eq_ok_getD {ε β : Type} {x : Except ε β} (h : x.toOption.isSome = true) (b : β) :
    x = .ok (x.toOption.getD b) := by
  cases x with
  | ok a => rfl
  | error e => cases h

theorem plans (mishap : Nat → Option Mishap) :
    Plans {} (conditions mishap) ⟨.add, args "c1"⟩ (call "c1") (plan "c1").1 (plan "c1").2 where
  command := rfl
  decoded := eq_ok_getD (by decide +kernel) default
  infra := by decide +kernel
  planned := ⟨descriptor, rfl, eq_ok_getD (by decide +kernel) default⟩

/-- The question that is asked after so many others meets a mishap. -/
def failing (m : Mishap) (place : Nat) : Nat → Option Mishap :=
  fun n => if n = place then some m else none

end Sample

end PodAttach.Agent
