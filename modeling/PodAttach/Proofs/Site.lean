import PodAttach.Proofs.Pairs
import PodAttach.Proofs.Trace

/-!
# A request on a node whose links are the kernel's

In a `World` a call on the links does what it is for.  On a `Site` it is the
work with the kernel that such a call stands for, and a machine answers that
work; everything else is answered as in a world.

* `Follows`: the log of a request tells what became of the site, step by step.
* `run_asking_on`: what is ensured whatever the answers are is so on a site.
* `Follows.added`: what an Add leaves that attached its container step by step.
* `Site.numbered_run`: no request on a site spoils the numbers of its links.
-/

namespace PodAttach.Agent

open Scenario

/-- What all requests share, with the links of the node as its kernel keeps them. -/
structure Site where
  store : Store := .empty
  bridge : Switch.Bridge := {}
  netlab : Netlab := {}

namespace Site

/-- The site without its links. -/
def world (s : Site) : World :=
  { store := s.store, bridge := s.bridge }

/-- The answer to a question, and the site after it.  A call on the links goes to the kernel. -/
def meet (k : Conditions) (s : Site) (m : Option Mishap) : (q : Ask) → q.Reply × Site
  | .link c =>
    let (reply, netlab) := Proc.run Netlab.answer (Link.serve s.netlab.own c) s.netlab
    (reply, { s with netlab })
  | q =>
    let met := s.world.meet k m q
    (met.1, { s with store := met.2.store, bridge := met.2.bridge })

end Site

/-- How far a request has come on a site. -/
structure Stay where
  site : Site
  /-- What was asked so far, the last first. -/
  log : List Event

namespace Stay

/-- Answers a question of a request under some conditions. -/
def answer (k : Conditions) (q : Ask) (e : Stay) : q.Reply × Stay :=
  let met := e.site.meet k (k.mishap e.log.length) q
  (met.1, ⟨met.2, ⟨q, met.1⟩ :: e.log⟩)

end Stay

/-- Serves a request on a site. -/
def serveOn (o : Options) (k : Conditions) (r : Cni.Request) (s : Site) : Cni.Response × Stay :=
  (handle o r).run (Stay.answer k) ⟨s, []⟩

/-! ## What a log tells -/

/-- The log of a request leads from one site to another. -/
inductive Follows (k : Conditions) (s : Site) : List Event → Site → Prop
  | start : Follows k s [] s
  | step {log : List Event} {s₁ s₂ : Site} {ev : Event} (m : Option Mishap)
      (hlog : Follows k s log s₁) (hmet : s₁.meet k m ev.asked = (ev.reply, s₂)) :
      Follows k s (ev :: log) s₂

section

variable {k : Conditions} {s s' : Site} {α : Type}

theorem follows_run (p : Activity α) {e : Stay} (h : Follows k s e.log e.site) :
    Follows k s (p.run (Stay.answer k) e).2.log (p.run (Stay.answer k) e).2.site := by
  induction p generalizing e with
  | done a => exact h
  | ask q next ih =>
    rw [Proc.run_ask]
    exact ih _ (.step (k.mishap e.log.length) h rfl)

/-- What is ensured whatever the answers are is ensured by those of a site. -/
theorem run_asking_on {may : Ask → Prop} {p : Activity α} {post : α → List Event → Prop} {e : Stay}
    (h : p.Ensures (asking may) e.log post) :
    post (p.run (Stay.answer k) e).1 (p.run (Stay.answer k) e).2.log := by
  induction p generalizing e with
  | done a => exact h
  | ask q next ih =>
    rw [Proc.run_ask]
    exact ih _ (h.2 _ _ rfl)

/-! ## Single steps -/

theorem meet_build {spec : Link.PairSpec} {pair : Link.Pair} {m : Option Mishap}
    (h : s.meet k m (.link (.build spec)) = (.ok pair, s')) :
    ∃ netlab, s.netlab.perform (Link.buildPair s.netlab.own spec) = (.ok pair, netlab) ∧
      s' = { s with netlab } := by
  obtain ⟨hreply, rfl⟩ := Prod.mk.inj h
  exact ⟨_, Prod.ext hreply rfl, rfl⟩

theorem meet_createPort {name uuid : String} {ids : Table String} {m : Option Mishap}
    (h : s.meet k m (.switch (.createPort name ids)) = (.ok uuid, s')) :
    s' = { s with bridge := s.bridge.insertPort ⟨uuid, name, some k.ofport, ids⟩ } := by
  cases m with
  | some m => cases h
  | none =>
    obtain ⟨hreply, rfl⟩ := Prod.mk.inj h
    cases hreply
    rfl

theorem meet_getOfport {name : String} {ofport : Nat} {m : Option Mishap}
    (h : s.meet k m (.switch (.getOfport name)) = (.ok ofport, s')) :
    s.bridge.ofport? name = some ofport ∧ s' = s := by
  cases m with
  | some m => cases h
  | none =>
    obtain ⟨hreply, rfl⟩ := Prod.mk.inj h
    have hperform := World.perform_getOfport k s.world name
    rw [show s.world.meet k none (.switch (.getOfport name)) = _ from hperform] at hreply ⊢
    refine ⟨?_, rfl⟩
    cases hofport : s.bridge.ofport? name with
    | none =>
      rw [show (s.world.slot name).port.bind Switch.Port.ofport = none from hofport] at hreply
      cases hreply
    | some n =>
      rw [show (s.world.slot name).port.bind Switch.Port.ofport = some n from hofport] at hreply
      exact congrArg some (Except.ok.inj hreply)

theorem meet_installFlows {name mac : String} {ips : List Net.Ip} {ofport : Nat}
    {m : Option Mishap}
    (h : s.meet k m (.switch (.installFlows name ips mac ofport)) = (.ok (), s')) :
    s' = { s with bridge := { s.bridge with flows := s.bridge.flows.insert name ofport } } := by
  cases m with
  | some m => cases h
  | none =>
    obtain ⟨-, rfl⟩ := Prod.mk.inj h
    rfl

theorem meet_record {a : Attachment} {reply : Unit} {m : Option Mishap}
    (h : s.meet k m (.record a) = (reply, s')) : s' = { s with store := s.store.add a } := by
  cases m <;> (obtain ⟨-, rfl⟩ := Prod.mk.inj h; rfl)

theorem meet_attachmentOf {containerId : String} {found : Option Attachment} {m : Option Mishap}
    (h : s.meet k m (.attachmentOf containerId) = (found, s')) :
    s.store.find? containerId = found ∧ s' = s := by
  cases m <;> (obtain ⟨rfl, rfl⟩ := Prod.mk.inj h; exact ⟨rfl, rfl⟩)

theorem Follows.before {log : List Event} {q : Ask} {reply : q.Reply}
    (h : Follows k s (⟨q, reply⟩ :: log) s') :
    ∃ m s₁, Follows k s log s₁ ∧ s₁.meet k m q = (reply, s') := by
  cases h with
  | step m hlog hmet => exact ⟨m, _, hlog, hmet⟩

/-- A step that no site is changed by. -/
theorem Follows.skip {log : List Event} {q : Ask} {reply : q.Reply}
    (h : Follows k s (⟨q, reply⟩ :: log) s') (hsame : ∀ (v : Site) m, (v.meet k m q).2 = v) :
    Follows k s log s' := by
  obtain ⟨m, s₁, hlog, hmet⟩ := h.before
  obtain rfl : s₁ = s' := (hsame s₁ m).symm.trans (congrArg Prod.snd hmet)
  exact hlog

theorem Follows.eq_of_nil (h : Follows k s [] s') : s' = s := by
  cases h
  rfl

/-! ## An Add -/

/-- What an Add leaves that attached its container step by step. -/
structure Added (s : Site) (x : Made) (s' : Site) : Prop where
  fresh : s.store.find? x.call.containerId = none
  built : s.netlab.perform (Link.buildPair s.netlab.own x.plan.pair) = (.ok x.pair, s'.netlab)
  store : s'.store = s.store.add x.attachment
  ports : s'.bridge.ports = s.bridge.ports.insert x.plan.hostIfname
    ⟨x.uuid, x.plan.hostIfname, some x.ofport, (x.plan.attachment x.call).externalIds⟩
  flows : s'.bridge.flows = s.bridge.flows.insert x.plan.hostIfname x.ofport

/-- The log of an Add that attached its container tells what it left. -/
theorem Follows.added {o : Options} {d : Except DescriptorError Descriptor} {x : Made}
    (h : Follows k s (x.log o d) s') : Added s x s' := by
  have hrelease := h.skip fun v m => by cases m <;> rfl
  obtain ⟨m₁, s₁, hrecord, hmet₁⟩ := hrelease.before
  obtain ⟨m₂, s₂, hflows, hmet₂⟩ := hrecord.before
  obtain ⟨m₃, s₃, hofport, hmet₃⟩ := hflows.before
  obtain ⟨m₄, s₄, hport, hmet₄⟩ := hofport.before
  obtain ⟨m₅, s₅, hlink, hmet₅⟩ := hport.before
  obtain ⟨m₆, s₆, hfound, hmet₆⟩ := hlink.before
  have hdescriptor := hfound.skip fun v m => by cases m <;> rfl
  have hacquire := hdescriptor.skip fun v m => by cases m <;> rfl
  have hready := hacquire.skip fun v m => by cases m <;> rfl
  obtain rfl := hready.eq_of_nil
  obtain rfl := meet_record hmet₁
  obtain rfl := meet_installFlows hmet₂
  obtain ⟨hnumber, rfl⟩ := meet_getOfport hmet₃
  obtain rfl := meet_createPort hmet₄
  obtain ⟨netlab, hbuilt, rfl⟩ := meet_build hmet₅
  obtain ⟨hfresh, rfl⟩ := meet_attachmentOf hmet₆
  have hofport : k.ofport = x.ofport := by
    simpa [Switch.Bridge.ofport?, Switch.Bridge.insertPort] using hnumber
  exact ⟨hfresh, hbuilt, rfl, by rw [← hofport]; rfl, rfl⟩

/-- A question that only looks is answered from the site. -/
theorem Follows.descriptor {log : List Event} {podNamespace podName : String}
    {d : Except DescriptorError Descriptor} (h : Follows k s log s')
    (hd : (⟨.descriptor podNamespace podName, d⟩ : Event) ∈ log) : d = k.descriptor := by
  induction h with
  | start => cases hd
  | step m hlog hmet ih =>
    rcases List.mem_cons.1 hd with rfl | hd
    · cases m <;> exact (congrArg Prod.fst hmet).symm
    · exact ih hd

/-- An Add that finds a record of its container. -/
theorem Follows.found {o : Options} {c : Cni.Call} {d : Except DescriptorError Descriptor}
    {a : Attachment} (h : Follows k s (foundLog o c d a) s') :
    s.store.find? c.containerId = some a := by
  have hrelease := h.skip fun v m => by cases m <;> rfl
  obtain ⟨m, s₁, hrest, hmet⟩ := hrelease.before
  have hdescriptor := hrest.skip fun v m => by cases m <;> rfl
  have hacquire := hdescriptor.skip fun v m => by cases m <;> rfl
  have hready := hacquire.skip fun v m => by cases m <;> rfl
  obtain rfl := hready.eq_of_nil
  exact (meet_attachmentOf hmet).1

end

/-- An Add for a sandbox without a record that succeeds on a site attaches its container, step by
step, and answers with the pair that was built. -/
theorem serveOn_added {o : Options} {k : Conditions} {r : Cni.Request} {s : Site} {c : Cni.Call}
    (hcommand : r.command = .add) (hdecode : decode o r.args = .ok c) (hinfra : c.isInfra = true)
    (hfresh : s.store.find? c.containerId = none) (hok : (serveOn o k r s).1.isOk = true) :
    ∃ v res, ∃ x : Made, k.descriptor = .ok v ∧ x.call = c ∧
      Plan.resolve c v = .ok (res, x.plan) ∧ (serveOn o k r s).2.log = x.log o (.ok v) ∧
      (serveOn o k r s).1 = ⟨(resultOfPair res x.pair).toBytes, none⟩ ∧
      Added s x (serveOn o k r s).2.site := by
  have hfollows : Follows k s (serveOn o k r s).2.log (serveOn o k r s).2.site :=
    follows_run (handle o r) (e := ⟨s, []⟩) .start
  have hsteps := run_asking_on (k := k) (e := ⟨s, []⟩) (add_log hcommand hdecode hinfra) hok
  change ∃ d, (∃ a, (serveOn o k r s).2.log = foundLog o c d a) ∨
    ∃ v res, ∃ x : Made, d = .ok v ∧ x.call = c ∧ Plan.resolve c v = .ok (res, x.plan) ∧
      (serveOn o k r s).2.log = x.log o d ∧
      (serveOn o k r s).1.result = (resultOfPair res x.pair).toBytes at hsteps
  obtain ⟨d, ⟨a, hlog⟩ | ⟨v, res, x, rfl, rfl, hplan, hlog, hresult⟩⟩ := hsteps
  · rw [hlog] at hfollows
    rw [hfollows.found] at hfresh
    cases hfresh
  · rw [hlog] at hfollows
    have hasked : (⟨.descriptor x.call.podNamespace x.call.podName, .ok v⟩ : Event) ∈
        x.log o (.ok v) := by simp [Made.log, Made.steps]
    have hd := hfollows.descriptor hasked
    have hresponse : (serveOn o k r s).1 = ⟨(resultOfPair res x.pair).toBytes, none⟩ := by
      rw [← hresult]
      unfold Cni.Response.isOk at hok
      cases hanswer : (serveOn o k r s).1 with
      | mk result error =>
        rw [hanswer] at hok
        cases error with
        | none => rfl
        | some e => cases hok
    exact ⟨v, res, x, hd.symm, rfl, hplan, hlog, hresponse, hfollows.added⟩

/-! ## Numbers of links -/

/-- No question spoils the numbers of the links. -/
theorem Site.numbered_meet {k : Conditions} {s : Site} (h : s.netlab.machine.Numbered)
    (m : Option Mishap) (q : Ask) : (s.meet k m q).2.netlab.machine.Numbered := by
  cases q with
  | link c =>
    exact Proc.invariant_run (I := fun n : Netlab => n.machine.Numbered)
      (fun q n hn => Link.numbered_answer hn q) (Link.serve s.netlab.own c) h
  | _ => exact h

/-- Neither does a request. -/
theorem Site.numbered_run {o : Options} {k : Conditions} {r : Cni.Request} {s : Site}
    (h : s.netlab.machine.Numbered) : (serveOn o k r s).2.site.netlab.machine.Numbered :=
  Proc.invariant_run (I := fun e : Stay => e.site.netlab.machine.Numbered)
    (fun q e he => Site.numbered_meet he (k.mishap e.log.length) q) (handle o r) (s := ⟨s, []⟩) h

/-! ## A site to try things on -/

namespace Sample

/-- A node with its own namespace and the one of the container. -/
def site : Site where
  netlab := .ofSpaces ["proc", "1", "ns"] "host" ["net"]

theorem serveOn_isOk :
    (serveOn {} (conditions fun _ => none) ⟨.add, args "c1"⟩ site).1.isOk = true := by
  decide +kernel

end Sample

end PodAttach.Agent
