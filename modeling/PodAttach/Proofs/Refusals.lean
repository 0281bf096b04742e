import PodAttach.Proofs.Success
import PodAttach.Proofs.Together
import PodAttach.Proofs.Trace

/-!
# What a refused request leaves

A request on a node whose locks may be held by others: `serveAmong` gives its
response and the locks after it, or nothing if it waits for ever.

Which answers a request gets is left open, so it is enough to follow what it
asks.  `underLock_acts` says that under the lock a call acts only for a
container with a sandbox of its own, and not to check it, and that then an
error is that of the configuration.  `world_run` turns this into a statement
about the world: who did not act has left it as it was.

`Visits` lists where a request can end: before the lock, at the lock, or
after it.  `refused_unchanged` is by cases on these ends.
-/

namespace PodAttach

/-! ## Questions that may be left without an answer -/

namespace Proc

variable {Q : Type} {A : Q → Type} {α β σ : Type}

/-- Answers every question from a state, unless one is never answered. -/
def runOrWait (answer? : (q : Q) → σ → Option (A q × σ)) : Proc Q A α → σ → Option (α × σ)
  | .done a, s => some (a, s)
  | .ask q next, s => (answer? q s).bind fun r => (next r.1).runOrWait answer? r.2

theorem runOrWait_bind (answer? : (q : Q) → σ → Option (A q × σ)) (p : Proc Q A α)
    (f : α → Proc Q A β) (s : σ) :
    (p >>= f).runOrWait answer? s =
      (p.runOrWait answer? s).bind fun r => (f r.1).runOrWait answer? r.2 := by
  induction p generalizing s with
  | done a => rfl
  | ask q next ih => simp only [ask_bind, runOrWait, ih, Option.bind_assoc]

theorem runOrWait_map (answer? : (q : Q) → σ → Option (A q × σ)) (p : Proc Q A α) (f : α → β)
    (s : σ) :
    (f <$> p).runOrWait answer? s = (p.runOrWait answer? s).map fun r => (f r.1, r.2) := by
  rw [map_eq_pure_bind, runOrWait_bind]
  cases p.runOrWait answer? s <;> rfl

end Proc

namespace Agent

open Activity

/-! ## A request among others that hold locks -/

/-- Whether a step has to do with a lock. -/
def Ask.isLock : Ask → Bool
  | .acquire .. => true
  | .release _ => true
  | _ => false

/-- Whether a step is a call that builds, connects or takes down an interface, or writes the
store. -/
def Ask.acts : Ask → Bool
  | .switch (.getOfport _) => false
  | .switch _ => true
  | .link (.check ..) => false
  | .link _ => true
  | .record _ => true
  | .forget _ => true
  | _ => false

/-- How far a request has come on a node whose locks others may hold. -/
structure Visit where
  episode : Episode
  locks : Arbiter Nat

namespace Visit

variable (k : Conditions) (id : Nat)

/-- Answers a question of a request.  The others never give their locks back, so who waits for one
is sent away when its time is over, or waits for ever. -/
def answer? : (q : Ask) → Visit → Option (q.Reply × Visit)
  | .acquire key limit, v =>
    if v.locks.isBusy key then limit.map fun _ =>
      (false, ⟨v.episode.push v.episode.world (.acquire key limit) false, v.locks.cancel id⟩)
    else
      some (true, ⟨v.episode.push v.episode.world (.acquire key limit) true,
        (v.locks.lock id key).2⟩)
  | .release key, v =>
    some ((), ⟨v.episode.push v.episode.world (.release key) (), v.locks.release key⟩)
  | q, v =>
    let met := Episode.answer k q v.episode
    some (met.1, ⟨met.2, v.locks⟩)

/-- A question that has nothing to do with locks is answered as ever. -/
theorem answer?_of_not_isLock {q : Ask} (hq : q.isLock = false) (v : Visit) :
    v.answer? k id q =
      some ((Episode.answer k q v.episode).1, ⟨(Episode.answer k q v.episode).2, v.locks⟩) := by
  cases q with
  | acquire key limit => cases hq
  | release key => cases hq
  | _ => rfl

end Visit

/-- Serves a request on a node whose locks others may hold; no response if it waits for ever. -/
def serveAmong (o : Options) (k : Conditions) (r : Cni.Request) (w : World) (locks : Arbiter Nat)
    (id : Nat) : Option (Cni.Response × Visit) :=
  (handle o r).runOrWait (Visit.answer? k id) ⟨⟨w, []⟩, locks⟩

variable {o : Options} {k : Conditions} {id : Nat} {α : Type}

/-- Who asks for no lock is answered as if there were none. -/
theorem runOrWait_of_asking {p : Activity α} {log : List Event} {post : α → List Event → Prop}
    (h : p.Ensures (asking fun q => q.isLock = false) log post) (v : Visit) :
    p.runOrWait (Visit.answer? k id) v =
      some ((p.run (Episode.answer k) v.episode).1,
        ⟨(p.run (Episode.answer k) v.episode).2, v.locks⟩) := by
  induction p generalizing log v with
  | done a => rfl
  | ask q next ih =>
    rw [Proc.runOrWait, v.answer?_of_not_isLock k id h.1, Option.bind_some, Proc.run_ask]
    exact ih _ (h.2 _ _ rfl) _

/-! ## What is asked under the lock -/

section

variable {may : Ask → Prop} {log : List Event}

/-- A session with the switch makes calls on the switch. -/
theorem onSwitch_asking {s : Switch.Session α} (hmay : ∀ c, may (.switch c)) :
    (onSwitch s).Ensures (asking may) log fun _ _ => True := by
  induction s generalizing log with
  | done a => trivial
  | ask c next ih => exact ⟨hmay c, fun reply log' _ => ih reply⟩

/-- One who asks for anything but locks. -/
abbrev Lockless (p : Activity α) : Prop :=
  ∀ log, p.Ensures (asking fun q => q.isLock = false) log fun _ _ => True

theorem lockless_question {q : Ask} (hq : q.isLock = false) :
    Lockless (Proc.question q : Activity q.Reply) := by
  intro log
  exact ensures_asking hq fun _ => trivial

theorem Lockless.bind {β : Type} {p : Activity α} {f : α → Activity β} (hp : Lockless p)
    (hf : ∀ a, Lockless (f a)) : Lockless (p >>= f) := by
  intro log
  refine (hp log).bind fun a log' _ => ?_
  exact hf a log'

theorem lockless_onSwitch (s : Switch.Session α) : Lockless (onSwitch s) := by
  intro log
  exact onSwitch_asking fun _ => rfl

theorem lockless_done (a : α) : Lockless (Proc.done a : Activity α) := by
  intro log
  trivial

theorem lockless_removeOf (containerId : String) : Lockless (removeOf containerId) := by
  refine (lockless_question (q := .attachmentOf containerId) rfl).bind fun found => ?_
  cases found with
  | none => exact lockless_done _
  | some a =>
    intro log
    exact remove_asking rfl (fun _ _ => rfl) rfl rfl

theorem lockless_configure (c : Cni.Call) (p : Plan) : Lockless (configure c p) := by
  refine (lockless_question (q := .link (.build p.pair)) rfl).bind fun built => ?_
  cases built with
  | error e => exact lockless_done _
  | ok pair =>
    refine (lockless_onSwitch _).bind fun connected => ?_
    cases connected with
    | ok connected => exact (lockless_question (q := .record _) rfl).bind fun _ => lockless_done _
    | error e =>
      dsimp only
      cases leftPort? e with
      | some port => exact (lockless_question (q := .record _) rfl).bind fun _ => lockless_done _
      | none =>
        exact (lockless_question (q := .link (.teardown _ _)) rfl).bind fun _ => lockless_done _

theorem lockless_attach (c : Cni.Call) (res : Cni.Result) (p : Plan) :
    Lockless (attach c res p) := by
  refine (lockless_configure c p).bind fun outcome => ?_
  cases outcome with
  | ok pair => exact lockless_done _
  | error e => exact (lockless_removeOf c.containerId).bind fun _ => lockless_done _

theorem lockless_addLocked (c : Cni.Call) : Lockless (addLocked c) := by
  refine (lockless_question (q := .descriptor c.podNamespace c.podName) rfl).bind fun found => ?_
  cases found with
  | error e => exact lockless_done _
  | ok d =>
    dsimp only
    cases Plan.resolve c d with
    | error e => exact lockless_done _
    | ok rp =>
      dsimp only
      split
      · refine (lockless_question (q := .attachmentOf c.containerId) rfl).bind fun found => ?_
        cases found with
        | some a => exact lockless_done _
        | none => exact lockless_attach c _ _
      · refine (lockless_question (q := .attachmentOf c.infraContainerId) rfl).bind fun found => ?_
        cases found <;> exact lockless_done _

theorem lockless_delLocked (c : Cni.Call) : Lockless (delLocked c) := by
  unfold delLocked
  split
  · refine (lockless_removeOf c.containerId).bind fun outcome => ?_
    cases outcome <;> exact lockless_done _
  · exact lockless_done _

/-- A Check asks for nothing but the record, the links and the number of the port. -/
theorem checkLocked_asking (c : Cni.Call) (hattachment : may (.attachmentOf c.containerId))
    (hcheck : ∀ name netns ifname mac, may (.link (.check name netns ifname mac)))
    (hofport : ∀ name, may (.switch (.getOfport name))) :
    (checkLocked c).Ensures (asking may) log fun _ _ => True := by
  unfold checkLocked
  split
  · rw [Proc.ensures_bind]
    refine ensures_asking (q := .attachmentOf c.containerId) hattachment fun found => ?_
    cases found with
    | none => trivial
    | some a =>
      dsimp only
      unfold check
      rw [Proc.ensures_bind, Proc.ensures_bind]
      refine ensures_asking (q := .link (.check _ _ _ _)) (hcheck _ _ _ _) fun looked => ?_
      cases looked with
      | error e => trivial
      | ok =>
        rw [Proc.ensures_bind]
        refine ensures_asking (q := .switch (.getOfport _)) (hofport _) fun number => ?_
        cases number with
        | error e => trivial
        | ok n =>
          dsimp only
          split
          · trivial
          · split
            · trivial
            · split <;> trivial
  · trivial

/-- Under the lock no other lock is asked for. -/
theorem lockless_underLock (command : Cni.Command) (c : Cni.Call) :
    Lockless (underLock command c) := by
  cases command with
  | add => exact lockless_addLocked c
  | del => exact lockless_delLocked c
  | check => exact fun _ => checkLocked_asking c rfl (fun _ _ _ _ => rfl) fun _ => rfl

end

/-! ## Who acts -/

/-- Something was done to an interface or to the store. -/
def Acted (log : List Event) : Prop :=
  ∃ ev ∈ log, ev.asked.acts = true

/-- A step that does not act adds nothing. -/
theorem acted_cons {ev : Event} {log : List Event} (hev : ev.asked.acts = false) :
    Acted (ev :: log) ↔ Acted log := by
  simp [Acted, hev]

theorem not_acted {log : List Event} : ¬ Acted log ↔ ∀ ev ∈ log, ev.asked.acts = false := by
  simp [Acted]

theorem not_acted_cons {ev : Event} {log : List Event} (hev : ev.asked.acts = false)
    (hlog : ¬ Acted log) : ¬ Acted (ev :: log) := by
  rw [acted_cons hev]
  exact hlog

/-- A step that does not act changes nothing, whatever it meets. -/
theorem meet_of_not_acts {q : Ask} (hq : q.acts = false) (w : World) (m : Option Mishap) :
    (w.meet k m q).2 = w := by
  cases q with
  | switch c =>
    cases c with
    | getOfport name =>
      cases m with
      | none => exact congrArg Prod.snd (World.perform_getOfport k w name)
      | some m => rfl
    | _ => cases hq
  | link c =>
    cases c with
    | check name netns ifname mac => cases m <;> rfl
    | _ => cases hq
  | record a => cases hq
  | forget name => cases hq
  | _ => cases m <;> rfl

/-- Who did not act has left the world as it was. -/
theorem world_run (p : Activity α) {e : Episode}
    (h : ¬ Acted (p.run (Episode.answer k) e).2.log) :
    (p.run (Episode.answer k) e).2.world = e.world := by
  induction p generalizing e with
  | done a => rfl
  | ask q next ih =>
    rw [Proc.run_ask] at h ⊢
    have hq : q.acts = false := by
      rw [← Bool.not_eq_true]
      intro hacts
      apply h
      exact ⟨_, (log_suffix_run _ _).subset (List.mem_cons_self ..), hacts⟩
    rw [ih _ h]
    exact meet_of_not_acts hq _ _

/-- Who acts has a sandbox of its own and does not check; if there is an error, it is that of the
configuration. -/
structure Entitled (command : Cni.Command) (c : Cni.Call) (x : Except Cni.CallError Bytes) :
    Prop where
  command : command ≠ .check
  infra : c.isInfra = true
  outcome : ∀ err, x = .error err → ∃ f : Failure, err = f.whileConfiguring

variable {c : Cni.Call} {log : List Event}

/-- An attachment succeeds, or it fails as a configuration does. -/
theorem attach_entitled {res : Cni.Result} {p : Plan} (hinfra : c.isInfra = true) :
    (attach c res p).Ensures (asking fun _ => True) log fun x _ => Entitled .add c x := by
  unfold attach
  rw [Proc.ensures_bind]
  refine ensures_asking_of_forall _ (fun _ => trivial) fun outcome log₁ => ?_
  cases outcome with
  | ok pair => exact ⟨nofun, hinfra, nofun⟩
  | error f =>
    rw [Proc.ensures_bind]
    refine ensures_asking_of_forall _ (fun _ => trivial) fun _ log₂ => ?_
    refine ⟨nofun, hinfra, ?_⟩
    rintro err ⟨⟩
    exact ⟨f, rfl⟩

theorem addLocked_acts (hlog : ¬ Acted log) :
    (addLocked c).Ensures (asking fun _ => True) log fun x log' =>
      Acted log' → Entitled .add c x := by
  unfold addLocked
  rw [Proc.ensures_bind]
  refine ensures_asking (q := .descriptor c.podNamespace c.podName) trivial fun found => ?_
  have hlooked : ¬ Acted (⟨.descriptor c.podNamespace c.podName, found⟩ :: log) :=
    not_acted_cons rfl hlog
  cases found with
  | error e => exact fun h => absurd h hlooked
  | ok d =>
    dsimp only
    split
    · exact fun h => absurd h hlooked
    · split
      · next hinfra =>
        rw [Proc.ensures_bind]
        refine ensures_asking (q := .attachmentOf c.containerId) trivial fun found => ?_
        cases found with
        | some a => exact fun h => absurd h (not_acted_cons rfl hlooked)
        | none => exact (attach_entitled hinfra).mono fun x log' h _ => h
      · rw [Proc.ensures_bind]
        refine ensures_asking (q := .attachmentOf c.infraContainerId) trivial fun found => ?_
        cases found <;> exact fun h => absurd h (not_acted_cons rfl hlooked)

theorem delLocked_acts (hlog : ¬ Acted log) :
    (delLocked c).Ensures (asking fun _ => True) log fun x log' =>
      Acted log' → Entitled .del c x := by
  unfold delLocked
  split
  · next hinfra =>
    rw [Proc.ensures_bind]
    refine ensures_asking_of_forall _ (fun _ => trivial) fun outcome log₁ => ?_
    cases outcome with
    | ok => exact fun _ => ⟨nofun, hinfra, nofun⟩
    | error f =>
      intro _
      refine ⟨nofun, hinfra, ?_⟩
      rintro err ⟨⟩
      exact ⟨f, rfl⟩
  · exact fun h => absurd h hlog

/-- One who never asks to act has not acted. -/
theorem not_acted_of_asking {p : Activity α} (hlog : ¬ Acted log)
    (h : p.Ensures (asking fun q => q.acts = false) log fun _ _ => True) :
    p.Ensures (asking fun _ => True) log fun _ log' => ¬ Acted log' := by
  induction p generalizing log with
  | done a => exact hlog
  | ask q next ih =>
    refine ⟨trivial, ?_⟩
    rintro reply log' rfl
    exact ih reply (not_acted_cons h.1 hlog) (h.2 reply _ rfl)

/-- Under the lock, only those act who are entitled to. -/
theorem underLock_acts (command : Cni.Command) (hlog : ¬ Acted log) :
    (underLock command c).Ensures (asking fun _ => True) log fun x log' =>
      Acted log' → Entitled command c x := by
  cases command with
  | add => exact addLocked_acts hlog
  | del => exact delLocked_acts hlog
  | check =>
    refine (not_acted_of_asking hlog ?_).mono fun x log' h hacted => absurd hacted h
    exact checkLocked_asking c rfl (fun _ _ _ _ => rfl) fun _ => rfl

/-! ## Where a request ends -/

/-- A request is refused before it asks for its lock: it could not be decoded, has a version that is
not served, or is an Add on a node whose network is not there in time. -/
def RefusedEarly (o : Options) (k : Conditions) (r : Cni.Request) : Prop :=
  (∃ err, decode o r.args = .error err) ∨ r.command = .add ∧ k.ready = false

/-- A request asks for the lock of its sandbox. -/
structure Reaches (o : Options) (k : Conditions) (r : Cni.Request) (c : Cni.Call) : Prop where
  decoded : decode o r.args = .ok c
  ready : r.command = .add → k.ready = true

theorem Reaches.unique {r : Cni.Request} {c c' : Cni.Call} (h : Reaches o k r c)
    (h' : Reaches o k r c') : c = c' :=
  Except.ok.inj (h.decoded.symm.trans h'.decoded)

theorem Reaches.not_refusedEarly {r : Cni.Request} {c : Cni.Call} (h : Reaches o k r c) :
    ¬ RefusedEarly o k r := by
  rintro (⟨err, herr⟩ | ⟨hcommand, hready⟩)
  · rw [h.decoded] at herr
    cases herr
  · rw [h.ready hcommand] at hready
    cases hready

/-- Nothing was done, and nobody gained or lost a lock. -/
structure Visit.Idle (w : World) (locks : Arbiter Nat) (v : Visit) : Prop where
  world : v.episode.world = w
  log : ¬ Acted v.episode.log
  holders : v.locks.holders = locks.holders

/-- Where a request can end. -/
inductive Visits (o : Options) (k : Conditions) (r : Cni.Request) (w : World)
    (locks : Arbiter Nat) : Option (Cni.Response × Visit) → Prop
  /-- It was refused before it asked for its lock. -/
  | refused {err : Cni.CallError} {v : Visit} (hrefused : RefusedEarly o k r)
      (hidle : v.Idle w locks) (hlog : ∀ ev ∈ v.episode.log, ev.asked.isLock = false) :
      Visits o k r w locks (some (.ofError err, v))
  /-- It waits for its lock for ever. -/
  | waiting {c : Cni.Call} (hreaches : Reaches o k r c)
      (hbusy : locks.isBusy c.infraContainerId = true) (hlimit : o.lockTimeout = none) :
      Visits o k r w locks none
  /-- It did not get its lock in time. -/
  | late {c : Cni.Call} {v : Visit} (hreaches : Reaches o k r c)
      (hlimit : o.lockTimeout ≠ none) (hidle : v.Idle w locks) :
      Visits o k r w locks (some (.ofError .busy, v))
  /-- It had its lock, and gave it back. -/
  | served {c : Cni.Call} {x : Except Cni.CallError Bytes} {v : Visit}
      (hreaches : Reaches o k r c) (hfree : locks.isBusy c.infraContainerId = false)
      (hholders : v.locks.holders = locks.holders)
      (hworld : ¬ Acted v.episode.log → v.episode.world = w)
      (hacted : Acted v.episode.log → Entitled r.command c x) :
      Visits o k r w locks (some (.ofExcept x, v))

/-- A lock that was free and is given back again is held by nobody, and the others are held as
before. -/
theorem holders_release_lock {a : Arbiter Nat} {key : String} (hfree : a.isBusy key = false) :
    ((a.lock id key).2.release key).holders = a.holders := by
  have hother : ∀ h ∈ a.holders, (h.2 != key) = true := by
    intro h hh
    rw [bne_iff_ne]
    rintro rfl
    have hbusy : a.isBusy h.2 = true := List.any_eq_true.2 ⟨h, hh, beq_self_eq_true _⟩
    rw [hfree] at hbusy
    cases hbusy
  show ((a.lock id key).2.holders.filter fun h => h.2 != key) = a.holders
  rw [Together.lock_holders, if_neg (by simp [hfree]), List.filter_append,
    List.filter_eq_self.2 hother]
  simp

/-- A request that asks for its lock ends there, or after it. -/
theorem locked_visits (id : Nat) {r : Cni.Request} {c : Cni.Call} {w : World}
    {locks : Arbiter Nat} {v : Visit}
    (hreaches : Reaches o k r c) (hidle : v.Idle w locks) (hlocks : v.locks = locks) :
    Visits o k r w locks
      (((locked o c (underLock r.command c)).runOrWait (Visit.answer? k id) v).map fun s =>
        (.ofExcept s.1, s.2)) := by
  obtain ⟨e, locks'⟩ := v
  obtain rfl : locks' = locks := hlocks
  unfold locked
  rw [Proc.runOrWait_bind]
  -- the lock is free or busy, and one who waits may have a limit
  cases hbusy : locks'.isBusy c.infraContainerId with
  | true =>
    cases hlimit : o.lockTimeout with
    | none =>
      have hwaits : (acquire c.infraContainerId none).runOrWait (Visit.answer? k id)
          ⟨e, locks'⟩ = none := by
        simp [acquire, Proc.question, Proc.runOrWait, Visit.answer?, hbusy]
      rw [hwaits]
      exact .waiting hreaches hbusy hlimit
    | some limit =>
      have hlate : (acquire c.infraContainerId (some limit)).runOrWait (Visit.answer? k id)
          ⟨e, locks'⟩ = some (false, ⟨e.push e.world (.acquire c.infraContainerId (some limit))
            false, locks'.cancel id⟩) := by
        simp [acquire, Proc.question, Proc.runOrWait, Visit.answer?, hbusy]
      rw [hlate]
      refine .late hreaches (by simp [hlimit]) ⟨hidle.world, ?_, rfl⟩
      exact not_acted_cons rfl hidle.log
  | false =>
    have htaken : (acquire c.infraContainerId o.lockTimeout).runOrWait (Visit.answer? k id)
        ⟨e, locks'⟩ = some (true, ⟨e.push e.world (.acquire c.infraContainerId o.lockTimeout) true,
          (locks'.lock id c.infraContainerId).2⟩) := by
      simp [acquire, Proc.question, Proc.runOrWait, Visit.answer?, hbusy]
    have hlog : ¬ Acted (e.push e.world (.acquire c.infraContainerId o.lockTimeout) true).log :=
      not_acted_cons rfl hidle.log
    have hacts := run_of_asking (k := k) (underLock_acts (c := c) r.command hlog)
    have hworld := world_run (k := k) (underLock r.command c)
      (e := e.push e.world (.acquire c.infraContainerId o.lockTimeout) true)
    rw [htaken]
    simp only [Option.bind_some, if_true]
    rw [Proc.runOrWait_bind, runOrWait_of_asking (lockless_underLock r.command c [])]
    generalize (underLock r.command c).run (Episode.answer k)
      (e.push e.world (.acquire c.infraContainerId o.lockTimeout) true) = served at hacts hworld ⊢
    have hreleased : Acted (served.2.push served.2.world (.release c.infraContainerId) ()).log ↔
        Acted served.2.log := acted_cons rfl
    refine .served (x := served.1) hreaches hbusy (holders_release_lock hbusy) ?_ ?_
    · intro hnot
      exact (hworld fun hacted => hnot (hreleased.2 hacted)).trans hidle.world
    · intro hacted
      exact hacts (hreleased.1 hacted)

theorem serveAmong_visits (r : Cni.Request) (w : World) (locks : Arbiter Nat) :
    Visits o k r w locks (serveAmong o k r w locks id) := by
  have hstart : Visit.Idle w locks ⟨⟨w, []⟩, locks⟩ := by
    refine ⟨rfl, ?_, rfl⟩
    rintro ⟨ev, hev, -⟩
    cases hev
  have hwaited : Visit.Idle w locks ⟨⟨w, [⟨.awaitReady o.readyTimeout, k.ready⟩]⟩, locks⟩ :=
    ⟨rfl, not_acted_cons rfl hstart.log, rfl⟩
  unfold serveAmong handle serve
  rw [Proc.runOrWait_map]
  cases hdecode : decode o r.args with
  | error err =>
    have hundecoded : Visits o k r w locks (some (.ofError err, ⟨⟨w, []⟩, locks⟩)) :=
      .refused (.inl ⟨err, hdecode⟩) hstart (by simp)
    cases r.command <;>
      simpa [add, del, checkCall, hdecode, Proc.runOrWait, Cni.Response.ofExcept] using hundecoded
  | ok c =>
    cases hcommand : r.command with
    | add =>
      have hasked : (add o r.args).runOrWait (Visit.answer? k id) ⟨⟨w, []⟩, locks⟩ =
          (if k.ready then locked o c (addLocked c) else pure (.error .busy)).runOrWait
            (Visit.answer? k id) ⟨⟨w, [⟨.awaitReady o.readyTimeout, k.ready⟩]⟩, locks⟩ := by
        have hwait : (awaitReady o.readyTimeout).runOrWait (Visit.answer? k id)
            ⟨⟨w, []⟩, locks⟩ =
              some (k.ready, ⟨⟨w, [⟨.awaitReady o.readyTimeout, k.ready⟩]⟩, locks⟩) := by
          simp only [awaitReady, Proc.question, Proc.runOrWait, Visit.answer?, Episode.answer]
          cases k.mishap 0 <;> rfl
        simp only [add, hdecode]
        rw [Proc.runOrWait_bind, hwait]
        rfl
      rw [hasked]
      cases hready : k.ready with
      | false =>
        rw [hready] at hwaited
        refine .refused (.inr ⟨hcommand, hready⟩) hwaited ?_
        intro ev hev
        obtain rfl := List.mem_singleton.1 hev
        rfl
      | true =>
        rw [hready] at hwaited
        have hreaches : Reaches o k r c := ⟨hdecode, fun _ => hready⟩
        have hlocked := locked_visits id hreaches hwaited rfl
        rw [hcommand] at hlocked
        exact hlocked
    | del =>
      have hreaches : Reaches o k r c := ⟨hdecode, fun h => by simp [hcommand] at h⟩
      have hlocked := locked_visits id hreaches hstart rfl
      rw [hcommand] at hlocked
      simp only [del, hdecode]
      exact hlocked
    | check =>
      have hreaches : Reaches o k r c := ⟨hdecode, fun h => by simp [hcommand] at h⟩
      have hlocked := locked_visits id hreaches hstart rfl
      rw [hcommand] at hlocked
      simp only [checkCall, hdecode]
      exact hlocked

/-- A container shares another sandbox if its namespace says so. -/
theorem isInfra_of_decode {args : Cni.CallArgs} {c : Cni.Call} (hdecode : decode o args = .ok c) :
    c.isInfra = (Cni.Call.sandboxOf args.containerId args.netns).2 := by
  obtain ⟨network, pod, -, -, -, rfl⟩ := decode_eq_ok hdecode
  rfl

/-- A request is answered unless it waits for a lock that another one holds, without a limit.

If it is answered by any error but that of the configuration, or it was a Check, or its container
shares the sandbox of another one, then the store, the ports, the flows and the links are as they
were, and no call was made to change them.  One that could not be decoded, has a version that is not
served, or was not let in has asked for no lock.  In all cases the same keys are held as before. -/
theorem refused_unchanged (o : Options) (k : Conditions) (r : Cni.Request) (w : World)
    (locks : Arbiter Nat) (id : Nat) :
    (serveAmong o k r w locks id = none ↔ ∃ c, Reaches o k r c ∧
      locks.isBusy c.infraContainerId = true ∧ o.lockTimeout = none) ∧
    ∀ response v, serveAmong o k r w locks id = some (response, v) →
      ((∃ err, response.error = some err ∧ err.code ≠ .configInterfaceFailure) ∨
          r.command = .check ∨ (Cni.Call.sandboxOf r.args.containerId r.args.netns).2 = false →
        v.episode.world = w ∧ ∀ ev ∈ v.episode.log, ev.asked.acts = false) ∧
      (RefusedEarly o k r → ∀ ev ∈ v.episode.log, ev.asked.isLock = false) ∧
      v.locks.holders = locks.holders := by
  have hvisits : Visits o k r w locks (serveAmong o k r w locks id) :=
    serveAmong_visits r w locks
  generalize serveAmong o k r w locks id = ending at hvisits ⊢
  cases hvisits with
  | refused hrefused hidle hlog =>
    refine ⟨iff_of_false nofun fun ⟨c, hreaches, _⟩ => hreaches.not_refusedEarly hrefused, ?_⟩
    rintro response v ⟨⟩
    exact ⟨fun _ => ⟨hidle.world, not_acted.1 hidle.log⟩, fun _ => hlog, hidle.holders⟩
  | waiting hreaches hbusy hlimit =>
    refine ⟨iff_of_true rfl ⟨_, hreaches, hbusy, hlimit⟩, ?_⟩
    intro response v hnone
    cases hnone
  | late hreaches hlimit hidle =>
    refine ⟨iff_of_false nofun fun ⟨c, _, _, hnone⟩ => hlimit hnone, ?_⟩
    rintro response v ⟨⟩
    refine ⟨fun _ => ⟨hidle.world, not_acted.1 hidle.log⟩, fun hrefused => ?_, hidle.holders⟩
    exact absurd hrefused hreaches.not_refusedEarly
  | @served c x v' hreaches hfree hholders hworld hacted =>
    refine ⟨iff_of_false nofun fun ⟨c', hreaches', hbusy, _⟩ => ?_, ?_⟩
    · rw [hreaches.unique hreaches', hbusy] at hfree
      cases hfree
    · rintro response v ⟨⟩
      refine ⟨fun hcase => ?_, fun hrefused => absurd hrefused hreaches.not_refusedEarly, hholders⟩
      have hidle : ¬ Acted v'.episode.log := by
        intro hdone
        obtain ⟨hcommand, hinfra, houtcome⟩ := hacted hdone
        rcases hcase with ⟨err, herr, hcode⟩ | hcheck | hjoins
        · cases x with
          | ok bytes => cases herr
          | error err' =>
            obtain rfl : err' = err := Option.some.inj herr
            obtain ⟨f, rfl⟩ := houtcome err' rfl
            exact hcode rfl
        · exact hcommand hcheck
        · rw [isInfra_of_decode hreaches.decoded, hjoins] at hinfra
          cases hinfra
      exact ⟨hworld hidle, not_acted.1 hidle⟩

namespace Sample

/-- The pod has no descriptor. -/
def undescribed : Conditions :=
  { conditions fun _ => none with descriptor := .error (.notFound "" "p1") }

/-- Another container's lock is held. -/
def otherLocked : Arbiter Nat :=
  ((Arbiter.empty : Arbiter Nat).lock 7 "c2").2

end Sample

/-- An Add for a pod without a descriptor is answered by an error; it leaves the other interface of
the node alone, and the lock that another one holds. -/
theorem undescribed_unchanged :
    ∃ response v, serveAmong {} Sample.undescribed ⟨.add, Sample.args "c1"⟩ Sample.world
          Sample.otherLocked 1 = some (response, v) ∧
        response.error = some (DescriptorError.notFound "" "p1").toCallError ∧
        v.episode.world = Sample.world ∧ v.locks.holders = [(7, "c2")] := by
  have herror : (serveAmong {} Sample.undescribed ⟨.add, Sample.args "c1"⟩ Sample.world
      Sample.otherLocked 1).map (fun s => s.1.error) =
        some (some (DescriptorError.notFound "" "p1").toCallError) := by decide +kernel
  obtain ⟨⟨response, v⟩, hserved, hresponse⟩ := Option.map_eq_some_iff.1 herror
  obtain ⟨-, hanswered⟩ := refused_unchanged {} Sample.undescribed ⟨.add, Sample.args "c1"⟩
    Sample.world Sample.otherLocked 1
  obtain ⟨hsame, -, hholders⟩ := hanswered response v hserved
  obtain ⟨hworld, -⟩ := hsame (.inl ⟨_, hresponse, by decide⟩)
  exact ⟨response, v, hserved, hresponse, hworld, hholders⟩

end Agent

end PodAttach
