import PodAttach.Proofs.Together

/-!
# Traces of requests together

What the steps of all tasks made of one interface can be read off the trace.
`replay` runs a trace on the slot of an interface, and `Traced` says that the
world is the replay of the trace, and that every answer in it was given by
the world of that moment.

`Together.Asks` follows what one task asks.  `add_log` lists the steps of an
Add that succeeded without finding a record: `Made` keeps what it built.
`del_removes` says that a Del only looks and removes.
-/

namespace PodAttach.Agent

open Activity Switch.Session

/-! ## Replaying a trace -/

/-- What the steps of a trace make of the slot of an interface. -/
def replay (k : Nat → Conditions) (name : String) (trace : List Note) (s : Slot) : Slot :=
  trace.foldr (fun n s => s.meet (k n.task) name n.mishap n.event.asked) s

theorem replay_cons (k : Nat → Conditions) (name : String) (n : Note) (trace : List Note)
    (s : Slot) :
    replay k name (n :: trace) s =
      (replay k name trace s).meet (k n.task) name n.mishap n.event.asked :=
  List.foldr_cons ..

theorem replay_append (k : Nat → Conditions) (name : String) (later earlier : List Note)
    (s : Slot) :
    replay k name (later ++ earlier) s = replay k name later (replay k name earlier s) :=
  List.foldr_append

/-- A record at the end was there at the start, or it was written. -/
theorem replay_record {k : Nat → Conditions} {name : String} {trace : List Note} {s : Slot}
    {a : Attachment} (ha : (replay k name trace s).record = some a) :
    s.record = some a ∨ ∃ n ∈ trace, n.event.asked = .record a ∧ name = a.interfaceName := by
  induction trace with
  | nil => exact .inl ha
  | cons n trace ih =>
    rw [replay_cons] at ha
    rcases Territory.record_meet ha with hbefore | ⟨hrecord, hname⟩
    · rcases ih hbefore with hstart | ⟨n', hn', hrest⟩
      · exact .inl hstart
      · exact .inr ⟨n', by simp [hn'], hrest⟩
    · exact .inr ⟨n, by simp, hrecord, hname⟩

/-- The steps of one task. -/
def eventsOf (i : Nat) (trace : List Note) : List Event :=
  trace.filterMap fun n => if n.task = i then some n.event else none

theorem eventsOf_append (i : Nat) (later earlier : List Note) :
    eventsOf i (later ++ earlier) = eventsOf i later ++ eventsOf i earlier :=
  List.filterMap_append ..

theorem eventsOf_cons_of_eq {i : Nat} {n : Note} {earlier : List Note} (htask : n.task = i) :
    eventsOf i (n :: earlier) = n.event :: eventsOf i earlier :=
  List.filterMap_cons_some (if_pos htask)

theorem mem_eventsOf {i : Nat} {trace : List Note} {n : Note} (hn : n ∈ trace)
    (htask : n.task = i) : n.event ∈ eventsOf i trace :=
  List.mem_filterMap.2 ⟨n, hn, if_pos htask⟩

/-- Where a step of a task stands in the trace. -/
theorem split_of_eventsOf {i : Nat} {trace : List Note} {A B : List Event} {ev : Event}
    (h : eventsOf i trace = A ++ ev :: B) :
    ∃ later n earlier, trace = later ++ n :: earlier ∧ n.task = i ∧ n.event = ev ∧
      eventsOf i later = A ∧ eventsOf i earlier = B := by
  obtain ⟨l₁, l₂, rfl, hA, hrest⟩ := List.filterMap_eq_append_iff.1 h
  obtain ⟨l₃, n, l₄, rfl, hnone, hn, hB⟩ := List.filterMap_eq_cons_iff.1 hrest
  have htask : n.task = i ∧ n.event = ev := by
    split at hn
    · next htask => exact ⟨htask, Option.some.inj hn⟩
    · cases hn
  refine ⟨l₁ ++ l₃, n, l₄, by simp, htask.1, htask.2, ?_, hB⟩
  unfold eventsOf
  rw [List.filterMap_append, hA, List.filterMap_eq_nil_iff.2 hnone, List.append_nil]

/-- A step was answered from the world as it was then. -/
def Faithful (k : Nat → Conditions) (w : World) (n : Note) (earlier : List Note) : Prop :=
  ∃ v : World, v.store.Coherent ∧ (∀ name, v.slot name = replay k name earlier (w.slot name)) ∧
    n.event.reply = (v.meet (k n.task) n.mishap n.event.asked).1

/-- The trace tells all that was done since the start. -/
structure Traced (k : Nat → Conditions) (w : World) (s : Together) : Prop where
  task : ∀ n ∈ s.trace, n.task < s.tasks.length
  conditions : ∀ i (t : Task), s.tasks[i]? = some t → t.conditions = k i
  coherent : s.world.store.Coherent
  slot : ∀ name, s.world.slot name = replay k name s.trace (w.slot name)
  log : ∀ i (t : Task), s.tasks[i]? = some t → t.log = eventsOf i s.trace
  faithful : ∀ later n earlier, s.trace = later ++ n :: earlier → Faithful k w n earlier

theorem Traced.answer {k : Nat → Conditions} {w : World} {s : Together} (h : Traced k w s)
    {i : Nat} {t : Task} (ht : s.tasks[i]? = some t) (q : Ask)
    (next : q.Reply → Activity Cni.Response) (arbiter : Arbiter Nat) :
    Traced k w (s.answer i t q next arbiter) where
  task n hn := by
    have hlength : (s.answer i t q next arbiter).tasks.length = s.tasks.length :=
      List.length_set
    rw [hlength]
    rcases List.mem_cons.1 hn with rfl | hn
    · exact (List.getElem?_eq_some_iff.1 ht).1
    · exact h.task n hn
  conditions j t' ht' := by
    rcases Together.answer_tasks ht' with ⟨rfl, rfl⟩ | ⟨-, hold⟩
    · exact h.conditions j t ht
    · exact h.conditions j t' hold
  coherent := World.coherent_meet _ h.coherent _ q
  slot name := by
    have hmet := World.slot_meet t.conditions h.coherent (t.conditions.mishap t.log.length) q name
    rw [h.slot name, h.conditions i t ht] at hmet
    simp only [Together.answer, h.conditions i t ht]
    exact hmet
  log j t' ht' := by
    rcases Together.answer_tasks ht' with ⟨rfl, rfl⟩ | ⟨hne, hold⟩
    · simp [Together.answer, Task.after, eventsOf, h.log j t ht]
    · simpa [Together.answer, eventsOf, hne.symm] using h.log j t' hold
  faithful later n earlier htrace := by
    cases later with
    | nil =>
      -- the step just taken was answered from the world before it
      obtain ⟨rfl, rfl⟩ := List.cons.inj htrace
      exact ⟨s.world, h.coherent, h.slot, by rw [h.conditions i t ht]⟩
    | cons x later =>
      exact h.faithful later n earlier (List.cons.inj htrace).2

theorem Traced.step {k : Nat → Conditions} {w : World} {s : Together} (h : Traced k w s)
    (i : Nat) : Traced k w (s.step i) := by
  rcases s.step_cases i with ⟨arbiter, hstep, -⟩ | ⟨t, q, next, ht, hwork, -, hstep⟩
  · rw [hstep]
    exact ⟨h.task, h.conditions, h.coherent, h.slot, h.log, h.faithful⟩
  · rw [hstep]
    exact h.answer ht q next _

theorem traced_start {o : Options} {w : World} {turns : List Turn} {k : Nat → Conditions}
    (hcoherent : w.store.Coherent)
    (hconditions : ∀ i (t : Turn), turns[i]? = some t → t.conditions = k i) :
    Traced k w (.start o w turns) where
  task _ hn := absurd hn List.not_mem_nil
  conditions i t ht := by
    obtain ⟨turn, hturn, rfl⟩ := Together.start_task ht
    exact hconditions i turn hturn
  coherent := hcoherent
  slot _ := by rw [Together.start, replay, List.foldr_nil]
  log i t ht := by
    obtain ⟨turn, -, rfl⟩ := Together.start_task ht
    simp only [Together.start, eventsOf, List.filterMap_nil]
  faithful later n earlier htrace := by
    have hempty : ([] : List Note) = later ++ n :: earlier := htrace
    cases later <;> cases hempty

/-- Every step was answered from some world. -/
theorem Traced.answered {k : Nat → Conditions} {w : World} {s : Together} (h : Traced k w s)
    {n : Note} (hn : n ∈ s.trace) :
    ∃ v : World, n.event.reply = (v.meet (k n.task) n.mishap n.event.asked).1 := by
  obtain ⟨later, earlier, htrace⟩ := List.append_of_mem hn
  obtain ⟨v, -, -, hreply⟩ := h.faithful later n earlier htrace
  exact ⟨v, hreply⟩

/-! ## What a task asks -/

/-- The rules of one who asks only certain questions; all that was asked is written down. -/
def asking (may : Ask → Prop) : Proc.Rules Ask Ask.Reply (List Event) where
  asks q _ := may q
  answers q log reply log' := log' = ⟨q, reply⟩ :: log

/-- A task asks only certain questions, and ends in a certain way. -/
def Together.Asks (i : Nat) (may : Ask → Prop) (post : Cni.Response → List Event → Prop)
    (s : Together) : Prop :=
  ∀ t, s.tasks[i]? = some t → t.work.Ensures (asking may) t.log post ∧ ∀ ev ∈ t.log, may ev.asked

theorem Together.Asks.step {i : Nat} {may : Ask → Prop} {post : Cni.Response → List Event → Prop}
    {s : Together} (h : s.Asks i may post) (j : Nat) : (s.step j).Asks i may post := by
  rcases s.step_cases j with ⟨arbiter, hstep, -⟩ | ⟨t, q, next, ht, hwork, -, hstep⟩
  · rw [hstep]
    exact h
  · rw [hstep]
    intro t' ht'
    rcases Together.answer_tasks ht' with ⟨rfl, rfl⟩ | ⟨-, hold⟩
    · obtain ⟨hensures, hasked⟩ := h t ht
      rw [hwork] at hensures
      refine ⟨hensures.2 _ _ rfl, fun ev hev => ?_⟩
      rcases List.mem_cons.1 hev with rfl | hev
      · exact hensures.1
      · exact hasked ev hev
    · exact h t' hold

section

variable {may : Ask → Prop} {log : List Event} {α : Type}

theorem ensures_asking {q : Ask} {post : q.Reply → List Event → Prop} (hq : may q)
    (h : ∀ reply, post reply (⟨q, reply⟩ :: log)) :
    (Proc.question q : Activity q.Reply).Ensures (asking may) log post := by
  refine Proc.ensures_question.2 ⟨hq, ?_⟩
  rintro reply log' rfl
  exact h reply

/-- What is true of every end is true of the end, as long as every question may be asked. -/
theorem ensures_asking_of_forall (p : Activity α) (hmay : ∀ q, may q)
    {post : α → List Event → Prop} (h : ∀ a log', post a log') :
    p.Ensures (asking may) log post := by
  induction p generalizing log with
  | done a => exact h a log
  | ask q next ih => exact ⟨hmay q, fun reply log' _ => ih reply⟩

/-- One who asks only certain questions asks only those of more. -/
theorem ensures_asking_of_imp {p : Activity α} {may' : Ask → Prop}
    {post : α → List Event → Prop} (h : p.Ensures (asking may) log post)
    (himp : ∀ q, may q → may' q) : p.Ensures (asking may') log post := by
  induction p generalizing log with
  | done a => exact h
  | ask q next ih => exact ⟨himp q h.1, fun reply log' hlog => ih reply (h.2 reply log' hlog)⟩

/-- Alone too only those questions are asked. -/
theorem asking_run {k : Conditions} {p : Activity α} {post : α → List Event → Prop} {e : Episode}
    (h : p.Ensures (asking may) e.log post) {ev : Event}
    (hev : ev ∈ (p.run (Episode.answer k) e).2.log) : ev ∈ e.log ∨ may ev.asked := by
  induction p generalizing e with
  | done a => exact .inl hev
  | ask q next ih =>
    rw [Proc.run_ask] at hev
    have hnext := h.2 (Episode.answer k q e).1 (Episode.answer k q e).2.log rfl
    rcases ih _ hnext hev with hlogged | hmay
    · rcases List.mem_cons.1 hlogged with rfl | hbefore
      · exact .inr h.1
      · exact .inl hbefore
    · exact .inr hmay

/-- What is ensured whatever the answers are is ensured by those of a world. -/
theorem ensures_of_asking {k : Conditions} {allows : Event → Prop} {p : Activity α}
    {post : α → List Event → Prop} {e : Episode} (h : p.Ensures (asking may) e.log post) :
    p.Ensures (mayAnswer k allows) e fun a e' => post a e'.log := by
  induction p generalizing e with
  | done a => exact h
  | ask q next ih =>
    refine ⟨trivial, ?_⟩
    rintro reply e' ⟨-, m, -, hlog⟩
    exact ih reply (h.2 reply _ hlog)

theorem run_of_asking {k : Conditions} {p : Activity α} {post : α → List Event → Prop}
    {e : Episode} (h : p.Ensures (asking may) e.log post) :
    post (p.run (Episode.answer k) e).1 (p.run (Episode.answer k) e).2.log := by
  have hensures : p.Ensures (mayAnswer k fun _ => True) e fun a e' => post a e'.log :=
    ensures_of_asking h
  exact run_of_ensures hensures fun _ _ => trivial

end

/-! ## The steps of an Add -/

/-- What an attached container has at its interface. -/
inductive Part where
  | link
  | port
  | flows
  | record

/-- The steps that make a part. -/
def Part.makes : Part → Ask → Bool
  | .link, .link (.build _) => true
  | .port, .switch (.createPort ..) => true
  | .flows, .switch (.installFlows ..) => true
  | .record, .record _ => true
  | _, _ => false

/-- What an Add made, step by step. -/
structure Made where
  call : Cni.Call
  plan : Plan
  pair : Link.Pair
  uuid : String
  /-- The number that the switch gave. -/
  ofport : Nat

namespace Made

variable (x : Made)

/-- What was recorded. -/
def attachment : Attachment :=
  { x.plan.attachment x.call with port := some ⟨x.uuid, some x.ofport⟩ }

/-- The step that made a part. -/
def step : Part → Event
  | .link => ⟨.link (.build x.plan.pair), .ok x.pair⟩
  | .port =>
    ⟨.switch (.createPort x.plan.hostIfname (x.plan.attachment x.call).externalIds), .ok x.uuid⟩
  | .flows =>
    ⟨.switch (.installFlows x.plan.hostIfname x.plan.ips x.plan.pair.mac x.ofport), .ok ()⟩
  | .record => ⟨.record x.attachment, ()⟩

/-- The steps under the lock, the last first. -/
def steps (d : Except DescriptorError Descriptor) : List Event :=
  [x.step .record, x.step .flows, ⟨.switch (.getOfport x.plan.hostIfname), .ok x.ofport⟩,
    x.step .port, x.step .link, ⟨.attachmentOf x.call.containerId, none⟩,
    ⟨.descriptor x.call.podNamespace x.call.podName, d⟩]

/-- The log of the Add. -/
def log (o : Options) (d : Except DescriptorError Descriptor) : List Event :=
  ⟨.release x.call.infraContainerId, ()⟩ :: x.steps d ++
    [⟨.acquire x.call.infraContainerId o.lockTimeout, true⟩, ⟨.awaitReady o.readyTimeout, true⟩]

end Made

/-- The log of an Add that found a record of its container. -/
def foundLog (o : Options) (c : Cni.Call) (d : Except DescriptorError Descriptor)
    (a : Attachment) : List Event :=
  [⟨.release c.infraContainerId, ()⟩,
    ⟨.attachmentOf c.containerId, some a⟩,
    ⟨.descriptor c.podNamespace c.podName, d⟩,
    ⟨.acquire c.infraContainerId o.lockTimeout, true⟩,
    ⟨.awaitReady o.readyTimeout, true⟩]

theorem connect_log {name mac : String} {ids : Table String} {ips : List Net.Ip}
    {log : List Event} :
    (onSwitch (Switch.connect name ids ips mac)).Ensures (asking fun _ => True) log
      fun r log' => ∀ connected, r = .ok connected →
        log' = ⟨.switch (.installFlows name ips mac connected.ofport), .ok ()⟩ ::
          ⟨.switch (.getOfport name), .ok connected.ofport⟩ ::
          ⟨.switch (.createPort name ids), .ok connected.uuid⟩ :: log := by
  unfold Switch.connect
  rw [onSwitch_bind, Proc.ensures_bind]
  refine ensures_asking (q := .switch (.createPort name ids)) trivial fun reply => ?_
  cases reply with
  | error e => nofun
  | ok uuid =>
    rw [onSwitch_bind, Proc.ensures_bind]
    refine ensures_asking (q := .switch (.getOfport name)) trivial fun reply => ?_
    cases reply with
    | error e =>
      rw [onSwitch_bind, Proc.ensures_bind]
      exact ensures_asking_of_forall _ (fun _ => trivial) fun _ _ => nofun
    | ok ofport =>
      rw [onSwitch_bind, Proc.ensures_bind]
      refine ensures_asking (q := .switch (.installFlows name ips mac ofport)) trivial
        fun reply => ?_
      cases reply with
      | error e =>
        rw [onSwitch_bind, Proc.ensures_bind]
        exact ensures_asking_of_forall _ (fun _ => trivial) fun _ _ => nofun
      | ok =>
        rintro connected ⟨⟩
        rfl

theorem configure_log {c : Cni.Call} {p : Plan} {log : List Event} :
    (configure c p).Ensures (asking fun _ => True) log fun r log' => ∀ pair, r = .ok pair →
      ∃ x : Made, x.call = c ∧ x.plan = p ∧ x.pair = pair ∧ log' =
        x.step .record :: x.step .flows :: ⟨.switch (.getOfport p.hostIfname), .ok x.ofport⟩ ::
          x.step .port :: x.step .link :: log := by
  unfold configure
  rw [Proc.ensures_bind]
  refine ensures_asking (q := .link (.build p.pair)) trivial fun reply => ?_
  cases reply with
  | error e => nofun
  | ok pair =>
    refine connect_log.bind ?_
    rintro (x | connected) log' hlog
    · dsimp only
      cases leftPort? x with
      | some port =>
        rw [Proc.ensures_bind]
        exact ensures_asking_of_forall _ (fun _ => trivial) fun _ _ => nofun
      | none =>
        rw [Proc.ensures_bind]
        exact ensures_asking_of_forall _ (fun _ => trivial) fun _ _ => nofun
    · rw [Proc.ensures_bind]
      refine ensures_asking (q := .record _) trivial fun _ => ?_
      rintro pair' ⟨⟩
      refine ⟨⟨c, p, pair, connected.uuid, connected.ofport⟩, rfl, rfl, rfl, ?_⟩
      rw [hlog connected rfl]
      rfl

/-- What an Add logs under the lock, if it succeeds. -/
theorem addLocked_log {c : Cni.Call} (hinfra : c.isInfra = true) {log : List Event} :
    (addLocked c).Ensures (asking fun _ => True) log fun r log' => ∀ bytes, r = .ok bytes →
      ∃ d, (∃ a, log' = ⟨.attachmentOf c.containerId, some a⟩ ::
          ⟨.descriptor c.podNamespace c.podName, d⟩ :: log) ∨
        ∃ v res, ∃ x : Made, d = .ok v ∧ x.call = c ∧ Plan.resolve c v = .ok (res, x.plan) ∧
          log' = x.steps d ++ log ∧ bytes = (resultOfPair res x.pair).toBytes := by
  unfold addLocked
  rw [Proc.ensures_bind]
  refine ensures_asking (q := .descriptor c.podNamespace c.podName) trivial fun d => ?_
  cases d with
  | error x => nofun
  | ok v =>
    cases hplan : Plan.resolve c v with
    | error x => simp only [hplan]; nofun
    | ok rp =>
      obtain ⟨res, p⟩ := rp
      simp only [hplan, hinfra, if_true]
      rw [Proc.ensures_bind]
      refine ensures_asking (q := .attachmentOf c.containerId) trivial fun found => ?_
      cases found with
      | some a => exact fun _ _ => ⟨.ok v, .inl ⟨a, rfl⟩⟩
      | none =>
        show (attach c res p).Ensures _ _ _
        unfold attach
        refine configure_log.bind ?_
        rintro (f | pair) log' hlog
        · rw [Proc.ensures_bind]
          exact ensures_asking_of_forall _ (fun _ => trivial) fun _ _ => nofun
        · obtain ⟨x, rfl, rfl, rfl, rfl⟩ := hlog pair rfl
          rintro bytes ⟨⟩
          exact ⟨.ok v, .inr ⟨v, res, x, rfl, rfl, hplan, rfl, rfl⟩⟩

/-- An Add for a sandbox that succeeds attached its container step by step, or found a record. -/
theorem add_log {o : Options} {r : Cni.Request} {c : Cni.Call} (hcommand : r.command = .add)
    (hdecode : decode o r.args = .ok c) (hinfra : c.isInfra = true) :
    (handle o r).Ensures (asking fun _ => True) [] fun response log => response.isOk = true →
      ∃ d, (∃ a, log = foundLog o c d a) ∨
        ∃ v res, ∃ x : Made, d = .ok v ∧ x.call = c ∧ Plan.resolve c v = .ok (res, x.plan) ∧
          log = x.log o d ∧ response.result = (resultOfPair res x.pair).toBytes := by
  unfold handle serve
  rw [Proc.ensures_map, hcommand]
  simp only [add, hdecode]
  rw [Proc.ensures_bind]
  refine ensures_asking (q := .awaitReady o.readyTimeout) trivial fun ready => ?_
  cases ready with
  | false =>
    intro hok
    cases hok
  | true =>
    simp only [if_true, locked]
    rw [Proc.ensures_bind]
    refine ensures_asking (q := .acquire c.infraContainerId o.lockTimeout) trivial fun had => ?_
    cases had with
    | false =>
      intro hok
      cases hok
    | true =>
      refine (addLocked_log hinfra).bind ?_
      intro outcome log' hlog
      rw [Proc.ensures_bind]
      refine ensures_asking (q := .release c.infraContainerId) trivial fun _ => ?_
      cases outcome with
      | error x =>
        intro hok
        cases hok
      | ok bytes =>
        intro _
        obtain ⟨d, ⟨a, rfl⟩ | ⟨v, res, x, hd, rfl, hplan, rfl, rfl⟩⟩ := hlog bytes rfl
        · exact ⟨d, .inl ⟨a, rfl⟩⟩
        · exact ⟨d, .inr ⟨v, res, x, hd, rfl, hplan, rfl, rfl⟩⟩

/-! ## The steps of a Del -/

/-- Removing an interface asks for its flows, its port, its link and its record to go. -/
theorem remove_asking {a : Attachment} {may : Ask → Prop} {log : List Event}
    (huninstall : may (.switch (.uninstallFlows a.interfaceName)))
    (hdelete : ∀ q, a.port = some q → may (.switch (.deletePort q.uuid)))
    (hteardown : may (.link (.teardown a.containerId a.interfaceName)))
    (hforget : may (.forget a.interfaceName)) :
    (remove a).Ensures (asking may) log fun _ _ => True := by
  have hdisconnect : (onSwitch (Switch.disconnect a.interfaceName
      (a.port.map AttachedPort.uuid))).Ensures (asking may) log fun _ _ => True := by
    unfold Switch.disconnect
    rw [onSwitch_bind, Proc.ensures_bind]
    refine ensures_asking (q := .switch (.uninstallFlows a.interfaceName)) huninstall
      fun reply => ?_
    cases reply with
    | error e => trivial
    | ok =>
      cases hq : a.port with
      | none => trivial
      | some q =>
        exact ensures_asking (q := .switch (.deletePort q.uuid)) (hdelete q hq) fun _ => trivial
  unfold remove
  refine hdisconnect.bind ?_
  rintro (e | _) log' -
  · trivial
  · rw [Proc.ensures_bind]
    refine ensures_asking (q := .link (.teardown a.containerId a.interfaceName)) hteardown
      fun reply => ?_
    cases reply with
    | error e => trivial
    | ok =>
      rw [Proc.ensures_bind]
      exact ensures_asking (q := .forget a.interfaceName) hforget fun _ => trivial

/-- Whether a step takes something away, or does nothing to any slot. -/
def Ask.removes : Ask → Bool
  | .switch (.deletePort _) => true
  | .switch (.uninstallFlows _) => true
  | .link (.teardown ..) => true
  | .acquire .. => true
  | .release _ => true
  | .attachmentOf _ => true
  | .forget _ => true
  | _ => false

theorem remove_removes {a : Attachment} {log : List Event} :
    (remove a).Ensures (asking fun q => q.removes = true) log fun _ _ => True :=
  remove_asking rfl (fun _ _ => rfl) rfl rfl

/-- A Del only takes away. -/
theorem del_removes {o : Options} {r : Cni.Request} (hcommand : r.command = .del) :
    (handle o r).Ensures (asking fun q => q.removes = true) [] fun _ _ => True := by
  unfold handle serve
  rw [Proc.ensures_map, hcommand]
  simp only [del]
  cases decode o r.args with
  | error x => trivial
  | ok c =>
    simp only [locked]
    rw [Proc.ensures_bind]
    refine ensures_asking (q := .acquire c.infraContainerId o.lockTimeout) rfl fun had => ?_
    cases had with
    | false => trivial
    | true =>
      have hdel : (delLocked c).Ensures (asking fun q => q.removes = true)
          [⟨.acquire c.infraContainerId o.lockTimeout, true⟩] fun _ _ => True := by
        unfold delLocked
        split
        · rw [removeOf, Proc.ensures_bind, Proc.ensures_bind]
          refine ensures_asking (q := .attachmentOf c.containerId) rfl fun found => ?_
          cases found with
          | none => trivial
          | some a =>
            refine remove_removes.mono ?_
            rintro (f | _) log' - <;> trivial
        · trivial
      refine hdel.bind fun outcome log' _ => ?_
      rw [Proc.ensures_bind]
      exact ensures_asking (q := .release c.infraContainerId) rfl fun _ => trivial

end PodAttach.Agent
