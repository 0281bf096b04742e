import PodAttach.Proofs.Standing
import PodAttach.Proofs.Starting

/-!
# Requests while the agent starts

The pass goes by a list of attachments that it made when it began, and Dels
remove attachments meanwhile.  What keeps the two apart is that the pass
looks at a record again under the lock of its container.

* `Standing.Kept` is the invariant for one interface while no Add has a lock: every task keeps
  to the rules of `Standing.rules`, and the world is where the trace has taken it.
* `Standing.Kept.move`: each move keeps it, so it holds throughout (`Standing.kept_moves`).
* `starts_with_traffic`: Adds wait for the pass, and each interface is either removed for good
  or ends up with its flows.
-/

namespace PodAttach.Agent

open Together

namespace Standing

variable {w : World} (x : Standing w)

/-! ## The invariant -/

/-- The stage that a trace has taken the interface to. -/
def stageOf (trace : List Note) : Stage :=
  trace.foldr (fun n s => x.next n.event.asked s) .found

/-- What is agreed on with a task. -/
structure Terms where
  /-- Whether it may remove the interface. -/
  mayStrip : Prop
  /-- Whether it may take locks. -/
  mayLock : Prop
  /-- What it knows when it is done. -/
  ends : Cni.Response → View → Prop

/-- What is agreed on with the pass and with the requests. -/
def terms (o : Options) (ps : List PodRef) (turns : List Turn) : Nat → Terms
  | 0 => ⟨(desired ps).contains x.attachment.podKey = false, True,
      fun _ σ => x.Handled (desired ps) σ.stage⟩
  | i + 1 => match turns[i]? with
    | some t => ⟨Dels o t.request x.container, t.request.command ≠ .add, x.Ends o t.request⟩
    | none => ⟨False, True, fun _ _ => True⟩

/-- Flows of the interface are not installed after they were removed. -/
def InOrder (later earlier : Note) : Prop :=
  ∀ ips mac ofport, later.event.asked = .switch (.installFlows x.name ips mac ofport) →
    earlier.event.asked ≠ .switch (.uninstallFlows x.name)

/-- While no Add has a lock, each task knows something of the interface and keeps to its rules. -/
structure Kept (T : Nat → Terms) (V : Nat → View) (s : Together) : Prop where
  world : x.At s.world (x.stageOf s.trace)
  work : ∀ (i : Nat) (t : Task), s.tasks[i]? = some t →
    t.work.Ensures (x.rules t.conditions (T i).mayStrip (T i).mayLock) (V i) (T i).ends
  sees : ∀ i, (V i).Sees (x.stageOf s.trace)
  holders : ∀ i, (i, x.container) ∈ s.arbiter.holders ↔ (V i).holds = true
  exclusive : ∀ i j, (V i).holds = true → (V j).holds = true → i = j
  settled : (∀ i, (V i).holds = false) → (x.stageOf s.trace).Settled
  /-- Someone began a removal that is under way. -/
  taken : .flowless ≤ x.stageOf s.trace → ∃ i, (V i).took = true
  taker : ∀ i, (V i).took = true → (T i).mayStrip
  stripped : ∀ n ∈ s.trace, x.strips n.event.asked = true → .flowless ≤ x.stageOf s.trace
  ordered : s.trace.Pairwise x.InOrder

variable {x} {T : Nat → Terms} {V : Nat → View} {s : Together} {i : Nat} {k : Conditions} {q : Ask}
  {answer : q.Reply} {arbiter : Arbiter Nat}

/-! ## One answer -/

/-- An answer is one of those that the rules know. -/
theorem replies_of_answers {mayLock : Prop} (h : Answers s i k q answer arbiter)
    (hlocks : Event.locks ⟨q, answer⟩ = true → mayLock) :
    Replies k s.world mayLock q answer := by
  cases h with
  | performed hgate hready =>
    cases q with
    | acquire key limit => exact hlocks rfl
    | awaitReady limit => trivial
    | _ => rfl
  | busy => rfl
  | notReady => trivial

/-- The lock is taken by who takes it, and free when it is given back. -/
theorem holders_of_answers (h : Answers s i k q answer arbiter) (j : Nat) :
    (j, x.container) ∈ arbiter.holders ↔
      ((j, x.container) ∈ s.arbiter.holders ∨ j = i ∧ x.takes ⟨q, answer⟩ = true) ∧
        x.gives q = false := by
  have hnothing : ((j, x.container) ∈ s.arbiter.holders ∨ j = i ∧ false = true) ∧ false = false ↔
      (j, x.container) ∈ s.arbiter.holders := by simp
  cases h with
  | performed hgate hready =>
    cases q with
    | acquire key limit =>
      rw [(gate_acquire hgate).2, List.mem_append, List.mem_singleton, Prod.mk.injEq,
        eq_comm (a := x.container), ← beq_iff_eq (a := key)]
      exact (and_iff_left rfl).symm
    | release key =>
      have hkept : (j, x.container) ∈ (gate s.arbiter i (.release key)).2.holders ↔
          (j, x.container) ∈ s.arbiter.holders ∧ (x.container != key) = true := List.mem_filter
      rw [hkept, bne_iff_ne, ne_comm, ← beq_eq_false_iff_ne]
      exact and_congr_left fun _ => (hnothing.symm.trans (and_iff_left rfl))
    | _ => exact hnothing.symm
  | busy => exact hnothing.symm
  | notReady => exact hnothing.symm

/-- Whoever takes the lock finds it free. -/
theorem free_of_takes (h : Answers s i k q answer arbiter)
    (htakes : x.takes ⟨q, answer⟩ = true) (j : Nat) : (j, x.container) ∉ s.arbiter.holders := by
  cases h with
  | performed hgate hready =>
    cases q with
    | acquire key limit =>
      have hkey : key = x.container := beq_iff_eq.1 htakes
      intro hmem
      have hbusy : s.arbiter.isBusy key = true :=
        List.any_eq_true.2 ⟨_, hmem, by simp [hkey]⟩
      cases hbusy.symm.trans (gate_acquire hgate).1
    | _ => cases htakes
  | busy => cases htakes
  | notReady => cases htakes

variable (x) in
/-- What the tasks know after one of them was answered. -/
def viewsAfter (V : Nat → View) (i : Nat) (now : Stage) (ev : Event) (j : Nat) : View :=
  if j = i then x.after (V i) now ev else V j

theorem viewsAfter_self (now : Stage) (ev : Event) :
    x.viewsAfter V i now ev i = x.after (V i) now ev := if_pos rfl

theorem viewsAfter_of_ne {j : Nat} (hj : j ≠ i) (now : Stage) (ev : Event) :
    x.viewsAfter V i now ev j = V j := if_neg hj

section

variable {t : Task} {next : q.Reply → Activity Cni.Response}

/-- A task asks what the rules let it. -/
theorem Kept.may (h : x.Kept T V s) (ht : s.tasks[i]? = some t) (hwork : t.work = .ask q next) :
    x.May (T i).mayStrip (V i) q := by
  have hensures := h.work i t ht
  rw [hwork] at hensures
  exact hensures.1

/-- Who has the lock after an answer had it before or has just taken it. -/
theorem Kept.holds_after (h : x.Kept T V s) (hmay : x.May (T i).mayStrip (V i) q)
    (answer : q.Reply) (now : Stage) (j : Nat) :
    (x.viewsAfter V i now ⟨q, answer⟩ j).holds = true ↔
      ((V j).holds = true ∨ j = i ∧ x.takes ⟨q, answer⟩ = true) ∧ x.gives q = false := by
  by_cases hj : j = i
  · subst hj
    rw [viewsAfter_self]
    simp [after]
  · rw [viewsAfter_of_ne hj]
    simp only [hj, false_and, or_false]
    refine ⟨fun hholds => ⟨hholds, Bool.eq_false_iff.2 fun hgives => ?_⟩, And.left⟩
    -- who gives the lock back is the only one that had it
    exact hj (h.exclusive j i hholds (hmay.settled_of_gives hgives).1)

theorem took_after (q : Ask) (answer : q.Reply) (now : Stage) (j : Nat) :
    (x.viewsAfter V i now ⟨q, answer⟩ j).took = true ↔
      (V j).took = true ∨ j = i ∧ x.strips q = true := by
  by_cases hj : j = i
  · subst hj
    rw [viewsAfter_self]
    simp [after]
  · rw [viewsAfter_of_ne hj]
    simp [hj]

/-- When nobody has the lock after an answer, the interface is settled. -/
theorem Kept.settled_after (h : x.Kept T V s) (hmay : x.May (T i).mayStrip (V i) q)
    (answer : q.Reply)
    (hnone : ∀ j, (x.viewsAfter V i (x.stageOf s.trace) ⟨q, answer⟩ j).holds = false) :
    (x.next q (x.stageOf s.trace)).Settled := by
  by_cases hgives : x.gives q = true
  · obtain ⟨hheld, hsettled, hnext⟩ := hmay.settled_of_gives hgives
    rw [hnext, (h.sees i).same hheld]
    exact hsettled
  · have hbefore : ∀ j, (V j).holds = false := by
      intro j
      refine Bool.eq_false_iff.2 fun hholds => ?_
      have hafter := (h.holds_after hmay answer (x.stageOf s.trace) j).2
        ⟨.inl hholds, Bool.eq_false_iff.2 hgives⟩
      cases hafter.symm.trans (hnone j)
    rw [hmay.next_of_free (hbefore i)]
    exact h.settled hbefore

/-- Every answer keeps the invariant, as long as only those take locks who may. -/
theorem Kept.reply (h : x.Kept T V s) (ht : s.tasks[i]? = some t)
    (hwork : t.work = .ask q next) (hanswers : Answers s i t.conditions q answer arbiter)
    (hlocks : Event.locks ⟨q, answer⟩ = true → (T i).mayLock) :
    x.Kept T (x.viewsAfter V i (x.stageOf s.trace) ⟨q, answer⟩)
      (s.reply i t q next answer arbiter) := by
  have hmay := h.may ht hwork
  have hnow : x.stageOf (s.reply i t q next answer arbiter).trace =
      x.next q (x.stageOf s.trace) := rfl
  have hle := hmay.le_next (h.sees i)
  have hholds := h.holds_after hmay answer (x.stageOf s.trace)
  have htook := took_after (x := x) (V := V) (i := i) q answer (x.stageOf s.trace)
  have hfree : x.takes ⟨q, answer⟩ = true → ∀ j, (V j).holds = false := fun htakes j =>
    Bool.eq_false_iff.2 fun hholds => free_of_takes hanswers htakes j ((h.holders j).2 hholds)
  have hanswered : x.Answered t.conditions (T i).mayLock (V i) (x.stageOf s.trace) q answer :=
    ⟨h.sees i, ⟨s.world, h.world, replies_of_answers hanswers hlocks⟩,
      fun htakes => h.settled (hfree htakes)⟩
  exact {
    world := h.world.perform hmay (h.sees i)
    work := fun j t' ht' => by
      rcases reply_tasks ht' with ⟨rfl, rfl⟩ | ⟨hj, hold⟩
      · have hensures := h.work j t ht
        rw [hwork] at hensures
        rw [viewsAfter_self]
        exact hensures.2 answer _ ⟨_, hanswered, rfl⟩
      · rw [viewsAfter_of_ne hj]
        exact h.work j t' hold
    sees := fun j => by
      rw [hnow]
      by_cases hj : j = i
      · subst hj
        rw [viewsAfter_self]
        exact ⟨Stage.le_refl _, fun _ => rfl⟩
      · rw [viewsAfter_of_ne hj]
        refine ⟨Stage.le_trans (h.sees j).le hle, fun hheld => ?_⟩
        -- another one has the lock, so the interface stays where it is
        have hi : (V i).holds = false :=
          Bool.eq_false_iff.2 fun hheld' => hj (h.exclusive j i hheld hheld')
        rw [hmay.next_of_free hi]
        exact (h.sees j).same hheld
    holders := fun j => by
      rw [hholds, ← h.holders j]
      exact holders_of_answers hanswers j
    exclusive := fun j j' hj hj' => by
      rcases ((hholds j).1 hj).1 with hheld | ⟨rfl, htakes⟩
      · rcases ((hholds j').1 hj').1 with hheld' | ⟨-, htakes⟩
        · exact h.exclusive j j' hheld hheld'
        · cases hheld.symm.trans (hfree htakes j)
      · rcases ((hholds j').1 hj').1 with hheld' | ⟨rfl, -⟩
        · cases hheld'.symm.trans (hfree htakes j')
        · rfl
    settled := fun hnone => h.settled_after hmay answer hnone
    taken := fun hflowless => by
      rcases hmay.flowless_le (h.sees i) hflowless with hbefore | hstrips
      · obtain ⟨j, hj⟩ := h.taken hbefore
        exact ⟨j, (htook j).2 (.inl hj)⟩
      · exact ⟨i, (htook i).2 (.inr ⟨rfl, hstrips⟩)⟩
    taker := fun j hj => by
      rcases (htook j).1 hj with hbefore | ⟨rfl, hstrips⟩
      · exact h.taker j hbefore
      · exact hmay.of_strips hstrips
    stripped := fun n hn hstrips => by
      rw [hnow]
      rcases List.mem_cons.1 hn with rfl | hn
      · rw [next_of_strips hstrips]
        exact Stage.le_refl _
      · exact Stage.le_trans (h.stripped n hn hstrips) hle
    ordered := by
      refine List.pairwise_cons.2 ⟨fun n hn => ?_, h.ordered⟩
      rintro ips mac ofport rfl hstrips
      have hflowless := h.stripped n hn (strips_iff.2 hstrips)
      exact Stage.not_whole_iff.2 hflowless (hmay.whole_of_install (h.sees i)) }

end

/-! ## All moves -/

/-- A move keeps the invariant, as long as no Add takes a lock. -/
theorem Kept.move {turns : List Turn} (h : x.Kept T V s)
    (hlock : ∀ i, ¬ IsAdd turns i → (T i).mayLock) (hwell : s.Well) (m : Move)
    (hwaits : AddsWait turns (s.move m)) : ∃ V', x.Kept T V' (s.move m) := by
  rcases move_cases hwell m with ⟨arbiter, hmove, hholders⟩ |
    ⟨i, t, q, next, answer, arbiter, ht, hwork, hanswers, hmove⟩
  · rw [hmove]
    exact ⟨V, h.world, h.work, h.sees, hholders.symm ▸ h.holders, h.exclusive, h.settled, h.taken,
      h.taker, h.stripped, h.ordered⟩
  · rw [hmove] at hwaits ⊢
    refine ⟨_, h.reply ht hwork hanswers fun hlocks => hlock i ?_⟩
    exact hwaits _ (List.mem_cons_self ..) hlocks

end Standing

namespace Together

/-- If no Add has a lock after a move, none had one before. -/
theorem AddsWait.of_move {turns : List Turn} {s : Together} (hwell : s.Well) (m : Move)
    (h : AddsWait turns (s.move m)) : AddsWait turns s := by
  rcases move_cases hwell m with ⟨arbiter, hmove, -⟩ |
    ⟨i, t, q, next, answer, arbiter, -, -, -, hmove⟩
  · rw [hmove] at h
    exact h
  · rw [hmove] at h
    exact fun n hn => h n (List.mem_cons_of_mem _ hn)

end Together

namespace Standing

variable {w : World} {x : Standing w} {o : Options} {k : Conditions} {ps : List PodRef}
  {turns : List Turn}

theorem kept_boot (hw : w.Apart) (hpods : k.pods = .ok ps) :
    x.Kept (x.terms o ps turns) (fun _ => .initial) (boot o w k turns) where
  world := ⟨hw.coherent, rfl, fun _ _ h => h⟩
  work i t ht := by
    rcases boot_task ht with ⟨rfl, rfl⟩ | ⟨j, turn, rfl, hturn, rfl⟩
    · show ((fun _ => _) <$> reconcile).Ensures _ _ _
      rw [Proc.ensures_map]
      exact (pass_ends hw hpods).mono fun _ _ h => h.2
    · simp only [terms, hturn]
      exact request_ends hw
  sees _ := ⟨Stage.le_refl _, nofun⟩
  holders _ := ⟨fun h => absurd h List.not_mem_nil, nofun⟩
  exclusive _ _ := nofun
  settled _ := .inl (.inl rfl)
  taken h := absurd (.inl rfl) (Stage.not_whole_iff.2 h)
  taker _ := nofun
  stripped _ hn := absurd hn List.not_mem_nil
  ordered := .nil

theorem terms_mayLock {i : Nat} (hadd : ¬ IsAdd turns i) : (x.terms o ps turns i).mayLock := by
  cases i with
  | zero => trivial
  | succ j =>
    rw [terms]
    split
    · next t ht => exact fun hcommand => hadd ⟨j, t, rfl, ht, hcommand⟩
    · trivial

/-- While no Add has a lock, every task keeps to the rules of the interface. -/
theorem kept_moves (hw : w.Apart) (hpods : k.pods = .ok ps)
    (hpass : ∀ place, k.mishap place = none)
    (hturns : ∀ t ∈ turns, ∀ place, t.conditions.mishap place = none) (ms : List Move)
    (hwaits : AddsWait turns ((boot o w k turns).moves ms)) :
    ∃ V, x.Kept (x.terms o ps turns) V ((boot o w k turns).moves ms) := by
  refine moves_induction
    (P := fun s => AddsWait turns s → ∃ V, x.Kept (x.terms o ps turns) V s)
    (fun s m hwell hs hwaits' => ?_) (well_boot hpass hturns)
    (fun _ => ⟨_, kept_boot hw hpods⟩) ms hwaits
  obtain ⟨V, h⟩ := hs (hwaits'.of_move hwell m)
  exact h.move (fun i hadd => terms_mayLock hadd) hwell m hwaits'

/-- A task that is done knows what was agreed on. -/
theorem Kept.ends {T : Nat → Terms} {V : Nat → View} {s : Together} (h : x.Kept T V s) {i : Nat}
    {response : Cni.Response} (hresponse : s.response? i = some response) :
    (T i).ends response (V i) := by
  obtain ⟨t, ht, hdone⟩ := response?_eq_some_iff.1 hresponse
  have hensures := h.work i t ht
  rw [hdone] at hensures
  exact hensures

end Standing

/-! ## What becomes of the interfaces -/

namespace Together

/-- A Del of a container was answered with success. -/
def Deleted (o : Options) (turns : List Turn) (s : Together) (containerId : String) : Prop :=
  ∃ i t response, turns[i]? = some t ∧ Dels o t.request containerId ∧
    s.response? (i + 1) = some response ∧ response.isOk = true

/-- All Dels were answered. -/
def DelsAnswered (turns : List Turn) (s : Together) : Prop :=
  ∀ i t, turns[i]? = some t → t.request.command = .del → (s.response? (i + 1)).isSome = true

end Together

namespace Standing

variable {w : World} {x : Standing w} {o : Options} {k : Conditions} {ps : List PodRef}
  {turns : List Turn} {V : Nat → View} {s : Together}

/-- A request that was answered knows what was agreed on. -/
theorem Kept.request_ends (h : x.Kept (x.terms o ps turns) V s) {i : Nat} {t : Turn}
    {response : Cni.Response} (ht : turns[i]? = some t)
    (hresponse : s.response? (i + 1) = some response) :
    x.Ends o t.request response (V (i + 1)) := by
  have hends := h.ends hresponse
  simp only [terms, ht] at hends
  exact hends

/-- When the pass is over, the interface was dealt with. -/
theorem Kept.handled (h : x.Kept (x.terms o ps turns) V s) (hpassed : s.passed = true) :
    x.Handled (desired ps) (x.stageOf s.trace) := by
  obtain ⟨response, hresponse⟩ := Option.isSome_iff_exists.1 hpassed
  have hends : x.Handled (desired ps) (V 0).stage := h.ends hresponse
  exact hends.of_le (h.sees 0).le

theorem Kept.slot_of_gone {T : Nat → Terms} (h : x.Kept T V s)
    (hgone : .gone ≤ x.stageOf s.trace) : s.world.slot x.name = .clear := by
  rw [h.world.slot, Stage.eq_gone hgone]
  rfl

/-- A wanted interface is whole, or a Del of its container succeeded. -/
theorem Kept.whole_or_deleted (h : x.Kept (x.terms o ps turns) V s)
    (hwanted : (desired ps).contains x.attachment.podKey = true) (hdels : s.DelsAnswered turns) :
    (x.stageOf s.trace).Whole ∨ s.Deleted o turns x.container := by
  by_cases hwhole : (x.stageOf s.trace).Whole
  · exact .inl hwhole
  · obtain ⟨i, htook⟩ := h.taken (Stage.not_whole_iff.1 hwhole)
    have hmay := h.taker i htook
    cases i with
    | zero => cases hmay.symm.trans hwanted
    | succ j =>
      cases ht : turns[j]? with
      | none => simp only [terms, ht] at hmay
      | some t =>
        simp only [terms, ht] at hmay
        obtain ⟨response, hresponse⟩ := Option.isSome_iff_exists.1 (hdels j t ht hmay.command)
        have hok := (h.request_ends ht hresponse).took htook
        exact .inr ⟨j, t, response, ht, hmay, hresponse, hok⟩

variable (x) in
/-- What has become of an interface that stood on the bridge when the agent started. -/
structure Served (o : Options) (ps : List PodRef) (turns : List Turn) (s : Together) : Prop where
  /-- After a Del of its container nothing is left of it. -/
  deleted : s.Deleted o turns x.container → s.world.slot x.name = .clear
  /-- After the pass nothing is left of it if its pod is gone. -/
  unwanted : s.passed = true → ¬ Wanted ps x.attachment → s.world.slot x.name = .clear
  /-- Otherwise it is as it was, with flows for its number. -/
  replayed : s.passed = true → s.DelsAnswered turns → Wanted ps x.attachment →
    ¬ s.Deleted o turns x.container →
    s.world.slot x.name = { w.slot x.name with flows := some x.ofport }
  /-- Its flows are never installed after they were removed. -/
  ordered : s.trace.Pairwise x.InOrder

/-- What the tasks know of an interface says what has become of it. -/
theorem Kept.served (h : x.Kept (x.terms o ps turns) V s)
    (hkey : (desired ps).contains x.attachment.podKey = true ↔ Wanted ps x.attachment) :
    x.Served o ps turns s where
  deleted := by
    rintro ⟨i, t, response, ht, hdels, hresponse, hok⟩
    have hgone := (h.request_ends ht hresponse).removed hdels hok
    exact h.slot_of_gone (hgone ▸ (h.sees (i + 1)).le)
  unwanted hpassed hnot := by
    have hgone := h.handled hpassed
    rw [Handled, if_neg fun hcontains => hnot (hkey.1 hcontains)] at hgone
    exact h.slot_of_gone (hgone ▸ Stage.le_refl _)
  replayed hpassed hdels hwanted hnot := by
    have hle := h.handled hpassed
    rw [Handled, if_pos (hkey.2 hwanted)] at hle
    have hwhole := (h.whole_or_deleted (hkey.2 hwanted) hdels).resolve_right hnot
    rw [h.world.slot, hwhole.eq_replayed hle]
    rfl
  ordered := h.ordered

end Standing

/-- When the agent starts, no Add takes a lock before the pass is over, whatever requests come.  As
long as no Add goes on, an interface whose container was deleted or whose pod is gone is removed
and stays removed, and every other one has its flows when the pass and all Dels are over. -/
theorem starts_with_traffic {o : Options} {w : World} {k : Conditions} {ps : List PodRef}
    {turns : List Turn} (hpods : k.pods = .ok ps) (hplain : ∀ p ∈ ps, p.Plain) (hw : w.Apart)
    (hrecords : ∀ a ∈ w.store.list, a.Plain) (hpass : ∀ place, k.mishap place = none)
    (hturns : ∀ t ∈ turns, ∀ place, t.conditions.mishap place = none) (ms : List Move) :
    (((boot o w k turns).moves ms).passed = false →
        AddsWait turns ((boot o w k turns).moves ms)) ∧
      (AddsWait turns ((boot o w k turns).moves ms) →
        ∀ x : Standing w, x.Served o ps turns ((boot o w k turns).moves ms)) := by
  refine ⟨addsWait_of_not_passed hpass hturns ms, fun hwaits x => ?_⟩
  have hmem : x.attachment ∈ w.store.list := ((list_records hw.coherent).1 _).2 x.recorded
  obtain ⟨V, h⟩ := x.kept_moves hw hpods hpass hturns ms hwaits
  exact h.served (contains_desired_iff hplain (hrecords _ hmem))

namespace Sample

/-- A node that lists the pod of the earlier interface. -/
def listingEarlier : Conditions :=
  { conditions fun _ => none with pods := .ok [⟨"default", "p0", false⟩] }

/-- A Del of the earlier interface's container, and an Add for another one. -/
def traffic : List Turn :=
  [⟨⟨.del, args "c0"⟩, conditions fun _ => none⟩, ⟨⟨.add, args "c1"⟩, conditions fun _ => none⟩]

/-- The Del is served after the pass made its list, and the Add is held. -/
def overtaken : Together :=
  (boot {} started listingEarlier traffic).moves
    ([.step 0, .step 0, .step 2] ++ List.replicate 7 (.step 1) ++ List.replicate 3 (.step 0))

/-- The earlier interface. -/
def standing : Standing started where
  attachment := { earlier with port := some ⟨"uuid-tapold", some 7⟩ }
  attached := ⟨"uuid-tapold", some 7⟩
  port := ⟨"uuid-tapold", "tapold", some 7, earlier.externalIds⟩
  ofport := 7
  recorded := by decide +kernel
  attachedTo := rfl
  onBridge := by decide +kernel
  uuid := rfl
  number := .inl rfl

theorem apart_started : started.Apart where
  coherent := Store.coherent_ofPorts _
  uuid {n a q} ha hq {m p} hp huuid := by
    have hown : ∀ a ∈ started.store.list, ∀ p ∈ foundPorts, a.hasPort p = true →
        p.name = a.interfaceName := by decide +kernel
    have hcoherent : started.store.Coherent := Store.coherent_ofPorts _
    obtain ⟨hmem, rfl⟩ := (startedFrom.bridge m p).1 hp
    rw [hown a (Table.mem_values.2 ⟨n, ha⟩) p hmem (by simp [Attachment.hasPort, hq, huuid])]
    exact hcoherent.name ha

end Sample

/-- The pass passes over an interface that a Del removed after it was listed. -/
theorem starts_with_traffic_overtaken :
    Sample.overtaken.passed = true ∧ Wanted [⟨"default", "p0", false⟩] Sample.standing.attachment ∧
      Sample.overtaken.Deleted {} Sample.traffic "c0" ∧
      AddsWait Sample.traffic Sample.overtaken ∧
      Sample.standing.Served {} [⟨"default", "p0", false⟩] Sample.traffic Sample.overtaken ∧
      Sample.overtaken.world.slot "tapold" = .clear := by
  have hdel : (Sample.overtaken.response? 1).any Cni.Response.isOk = true := by decide +kernel
  obtain ⟨response, hresponse, hok⟩ := (Option.any_eq_true ..).1 hdel
  have hdecode := Sample.eq_ok_getD (x := decode {} (Sample.args "c0")) (by decide +kernel) default
  have hdeleted : Sample.overtaken.Deleted {} Sample.traffic "c0" :=
    ⟨0, _, response, rfl, ⟨rfl, rfl, _, hdecode, by decide +kernel⟩, hresponse, hok⟩
  have hlocks : ∀ n ∈ Sample.overtaken.trace, n.event.locks = true → n.task ≤ 1 := by
    decide +kernel
  have hwaits : AddsWait Sample.traffic Sample.overtaken := by
    rintro n hn htakes ⟨j, t, hj, ht, hcommand⟩
    have hle := hlocks n hn htakes
    obtain rfl : j = 0 := by omega
    obtain rfl := Option.some.inj ht
    cases hcommand
  have hturns : ∀ t ∈ Sample.traffic, ∀ place, t.conditions.mishap place = none := by
    simp [Sample.traffic, Sample.conditions]
  have hserves := starts_with_traffic (o := {}) (w := Sample.started) (k := Sample.listingEarlier)
    rfl (by decide +kernel) Sample.apart_started (by decide +kernel) (fun _ => rfl) hturns
    ([.step 0, .step 0, .step 2] ++ List.replicate 7 (.step 1) ++ List.replicate 3 (.step 0))
  have hserved := hserves.2 hwaits Sample.standing
  exact ⟨by decide +kernel, ⟨_, List.mem_cons_self .., rfl, rfl, rfl⟩, hdeleted, hwaits, hserved,
    hserved.deleted hdeleted⟩

end PodAttach.Agent
