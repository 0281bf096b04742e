import PodAttach.Agent.Arbiter
import PodAttach.Proofs.Alone
import PodAttach.Proofs.Locality

/-!
# Requests together

Any number of requests, each of which takes one step after the other.  A
schedule says whose turn it is; a step is one question with its answer.  A
request whose lock is held by another one waits, as the `Arbiter` says.

`Together.step_cases` says what a step can be: nothing but a change of the
arbiter, or one question of one task that is answered from the world all
tasks share.  `Together.run_induction` carries an invariant along a schedule.

`Keeps` is the first such invariant: every task keeps to its territory, and
all territories stay covered (`Keeps.step`).  `territoryOf` gives the
territories that requests start with (`keeps_start`).
-/

namespace PodAttach.Agent

/-- A request that is being served. -/
structure Task where
  /-- What is left to do. -/
  work : Activity Cni.Response
  conditions : Conditions
  /-- What was asked so far, the last first. -/
  log : List Event

/-- A task after its question was answered from a world. -/
def Task.after (t : Task) (v : World) (q : Ask) (next : q.Reply → Activity Cni.Response) : Task :=
  let reply := (v.meet t.conditions (t.conditions.mishap t.log.length) q).1
  ⟨next reply, t.conditions, ⟨q, reply⟩ :: t.log⟩

/-- A step that was taken. -/
structure Note where
  /-- The task that took it. -/
  task : Nat
  /-- What the step met. -/
  mishap : Option Mishap
  event : Event

/-- Whether a lock was taken. -/
def Event.locks : Event → Bool
  | ⟨.acquire .., true⟩ => true
  | _ => false

/-- Requests that are served together. -/
structure Together where
  world : World
  arbiter : Arbiter Nat
  tasks : List Task
  /-- All steps so far, the last first. -/
  trace : List Note

namespace Together

/-- Nothing was done yet. -/
def start (o : Options) (w : World) (turns : List Turn) : Together where
  world := w
  arbiter := .empty
  tasks := turns.map fun t => ⟨handle o t.request, t.conditions, []⟩
  trace := []

/-- A task tries to take a lock; if it waits for it already, it tries only when it was
notified. -/
def tryLock (a : Arbiter Nat) (i : Nat) (key : String) : Bool × Arbiter Nat :=
  if (a.waiter? i).all Waiter.notified then a.lock i key else (false, a)

/-- Whether a task may take its step, and the locks after it. -/
def gate (a : Arbiter Nat) (i : Nat) : Ask → Bool × Arbiter Nat
  | .acquire key _ => tryLock a i key
  | .release key => (true, a.release key)
  | _ => (true, a)

/-- A task gets the answer to its question. -/
def answer (s : Together) (i : Nat) (t : Task) (q : Ask) (next : q.Reply → Activity Cni.Response)
    (arbiter : Arbiter Nat) : Together :=
  let m := t.conditions.mishap t.log.length
  let met := s.world.meet t.conditions m q
  { world := met.2
    arbiter
    tasks := s.tasks.set i (t.after s.world q next)
    trace := ⟨i, m, ⟨q, met.1⟩⟩ :: s.trace }

/-- A task takes one step.  Where a lock is busy it stays where it is. -/
def step (s : Together) (i : Nat) : Together :=
  match s.tasks[i]? with
  | none => s
  | some t => match t.work with
    | .done _ => s
    | .ask q next => match gate s.arbiter i q with
      | (true, arbiter) => s.answer i t q next arbiter
      | (false, arbiter) => { s with arbiter }

/-- Tasks take steps in some order. -/
def run (s : Together) (schedule : List Nat) : Together :=
  schedule.foldl step s

/-- The response to a request, if there is one yet. -/
def response? (s : Together) (i : Nat) : Option Cni.Response :=
  match s.tasks[i]? with
  | some ⟨.done response, _, _⟩ => some response
  | _ => none

/-- Every request was answered. -/
def Finished (s : Together) : Prop :=
  ∀ i, i < s.tasks.length → (s.response? i).isSome = true

instance (s : Together) : Decidable s.Finished :=
  inferInstanceAs (Decidable (∀ i, i < s.tasks.length → (s.response? i).isSome = true))

/-- The tasks that took their lock, in that order. -/
def lockOrder (s : Together) : List Nat :=
  ((s.trace.filter fun n => n.event.locks).map Note.task).reverse

/-! ## Locks -/

theorem lock_taken (a : Arbiter Nat) (i : Nat) (key : String) :
    (a.lock i key).1 = !a.isBusy key := by
  have hcancel : (a.cancel i).isBusy key = a.isBusy key := rfl
  unfold Arbiter.lock
  simp only [hcancel]
  cases a.isBusy key <;> rfl

theorem lock_holders (a : Arbiter Nat) (i : Nat) (key : String) :
    (a.lock i key).2.holders = if a.isBusy key then a.holders else a.holders ++ [(i, key)] := by
  have hcancel : (a.cancel i).isBusy key = a.isBusy key := rfl
  unfold Arbiter.lock
  simp only [hcancel]
  cases a.isBusy key <;> rfl

/-- Who is kept waiting takes nothing. -/
theorem gate_holders_of_false {a : Arbiter Nat} {i : Nat} {q : Ask}
    (h : (gate a i q).1 = false) : (gate a i q).2.holders = a.holders := by
  cases q with
  | acquire key limit =>
    show (tryLock a i key).2.holders = a.holders
    have hkept : (tryLock a i key).1 = false := h
    unfold tryLock at hkept ⊢
    split
    · next htries =>
      rw [if_pos htries, lock_taken, Bool.not_eq_false'] at hkept
      rw [lock_holders, if_pos hkept]
    · rfl
  | _ => cases h

/-- A lock is taken only if it is free. -/
theorem gate_acquire {a : Arbiter Nat} {i : Nat} {key : String} {limit : Option Duration}
    (h : (gate a i (.acquire key limit)).1 = true) :
    a.isBusy key = false ∧
      (gate a i (.acquire key limit)).2.holders = a.holders ++ [(i, key)] := by
  have htaken : (tryLock a i key).1 = true := h
  show a.isBusy key = false ∧ (tryLock a i key).2.holders = a.holders ++ [(i, key)]
  unfold tryLock at htaken ⊢
  split
  · next htries =>
    rw [if_pos htries, lock_taken, Bool.not_eq_true'] at htaken
    refine ⟨htaken, ?_⟩
    rw [lock_holders, if_neg (by simp [htaken])]
  · next hwaits =>
    rw [if_neg hwaits] at htaken
    cases htaken

/-! ## Steps -/

/-- There is a response when the task has nothing left to do. -/
theorem response?_eq_some_iff {s : Together} {i : Nat} {response : Cni.Response} :
    s.response? i = some response ↔ ∃ t, s.tasks[i]? = some t ∧ t.work = .done response := by
  unfold response?
  split
  · next response' k log ht =>
    constructor
    · intro h
      exact ⟨_, ht, congrArg Proc.done (Option.some.inj h)⟩
    · rintro ⟨t, ht', hwork⟩
      obtain rfl := Option.some.inj (ht.symm.trans ht')
      exact congrArg some (Proc.done.inj hwork)
  · next hnone =>
    refine ⟨nofun, ?_⟩
    rintro ⟨⟨work, k, log⟩, ht, rfl⟩
    exact absurd ht (hnone response k log)

theorem Finished.done {s : Together} (h : s.Finished) {i : Nat} {t : Task}
    (ht : s.tasks[i]? = some t) : ∃ response, t.work = .done response := by
  have hlt := (List.getElem?_eq_some_iff.1 ht).1
  obtain ⟨response, hresponse⟩ := Option.isSome_iff_exists.1 (h i hlt)
  obtain ⟨t', ht', hdone⟩ := response?_eq_some_iff.1 hresponse
  obtain rfl : t = t' := Option.some.inj (ht.symm.trans ht')
  exact ⟨response, hdone⟩

/-- A step does nothing but wait, or it answers the question of the task. -/
theorem step_cases (s : Together) (i : Nat) :
    (∃ arbiter, s.step i = { s with arbiter } ∧ arbiter.holders = s.arbiter.holders) ∨
      ∃ t q next, s.tasks[i]? = some t ∧ t.work = .ask q next ∧
        (gate s.arbiter i q).1 = true ∧
        s.step i = s.answer i t q next (gate s.arbiter i q).2 := by
  unfold step
  split
  · exact .inl ⟨s.arbiter, rfl, rfl⟩
  · next t ht =>
    split
    · exact .inl ⟨s.arbiter, rfl, rfl⟩
    · next q next hwork =>
      split
      · next arbiter hgate =>
        refine .inr ⟨t, q, next, ht, hwork, ?_, ?_⟩
        · rw [hgate]
        · rw [hgate]
      · next arbiter hgate =>
        refine .inl ⟨arbiter, rfl, ?_⟩
        have hsame := gate_holders_of_false (a := s.arbiter) (i := i) (q := q) (by rw [hgate])
        rwa [hgate] at hsame

theorem length_step (s : Together) (i : Nat) : (s.step i).tasks.length = s.tasks.length := by
  rcases step_cases s i with ⟨arbiter, hstep, -⟩ | ⟨t, q, next, -, -, -, hstep⟩
  · rw [hstep]
  · rw [hstep]
    exact List.length_set

/-- What holds at the start and is kept by every step holds at the end. -/
theorem run_induction {P : Together → Prop} (hstep : ∀ s i, P s → P (s.step i)) {s : Together}
    (hstart : P s) (schedule : List Nat) : P (s.run schedule) := by
  unfold run
  induction schedule generalizing s with
  | nil => exact hstart
  | cons i schedule ih => exact ih (hstep s i hstart)

/-- Where one task is replaced, a task is the new one or an old one. -/
theorem task_of_set {tasks : List Task} {i j : Nat} {u t' : Task}
    (ht' : (tasks.set i u)[j]? = some t') : j = i ∧ t' = u ∨ j ≠ i ∧ tasks[j]? = some t' := by
  rw [List.getElem?_set] at ht'
  split at ht'
  · next hij =>
    split at ht'
    · exact .inl ⟨hij.symm, (Option.some.inj ht').symm⟩
    · cases ht'
  · next hij => exact .inr ⟨fun h => hij h.symm, ht'⟩

/-- The tasks after an answer: the one that was answered has moved on. -/
theorem answer_tasks {s : Together} {i j : Nat} {t t' : Task} {q : Ask}
    {next : q.Reply → Activity Cni.Response} {arbiter : Arbiter Nat}
    (ht' : (s.answer i t q next arbiter).tasks[j]? = some t') :
    j = i ∧ t' = t.after s.world q next ∨ j ≠ i ∧ s.tasks[j]? = some t' :=
  task_of_set ht'

/-- The tasks at the start. -/
theorem start_task {o : Options} {w : World} {turns : List Turn} {i : Nat} {t : Task}
    (ht : (start o w turns).tasks[i]? = some t) :
    ∃ turn, turns[i]? = some turn ∧ t = ⟨handle o turn.request, turn.conditions, []⟩ := by
  simp only [start, List.getElem?_map, Option.map_eq_some_iff] at ht
  obtain ⟨turn, hturn, rfl⟩ := ht
  exact ⟨turn, hturn, rfl⟩

theorem length_run (o : Options) (w : World) (turns : List Turn) (schedule : List Nat) :
    ((start o w turns).run schedule).tasks.length = turns.length := by
  refine run_induction (P := fun s => s.tasks.length = turns.length)
    (fun s j hs => (s.length_step j).trans hs) ?_ schedule
  exact List.length_map ..

/-! ## Territories -/

end Together

/-- Where a request stands with its lock, by what it asked. -/
def LockStage.of (log : List Event) : LockStage :=
  log.foldr (fun ev s => s.after ev.asked ev.reply) .outside

namespace Together

variable {T : Nat → Territory} {limit : Option Duration}

/-- The tasks keep to their territories.  Tasks with the same container share the territory, and
the territories agree on what UUIDs were handed out for. -/
structure Keeps (T : Nat → Territory) (limit : Option Duration) (s : Together) : Prop where
  shared : ∀ i j, (T i).container = (T j).container → T i = T j
  names : ∀ i j, (T i).nameOf = (T j).nameOf
  uuid : ∀ i t, s.tasks[i]? = some t → ∀ n, (T i).nameOf (t.conditions.uuid n) = n
  covers : ∀ i t, s.tasks[i]? = some t → (T i).Covers s.world
  work : ∀ i (t : Task), s.tasks[i]? = some t →
    t.work.Ensures ((T i).rules limit t.conditions.descriptor) (.of t.log) fun _ stage =>
      stage ≠ .inside

/-- A task that asks a question may do so, by the rules of its territory. -/
theorem Keeps.asks {s : Together} (h : s.Keeps T limit) {i : Nat} {t : Task}
    (ht : s.tasks[i]? = some t) {q : Ask} {next : q.Reply → Activity Cni.Response}
    (hwork : t.work = .ask q next) :
    ((T i).rules limit t.conditions.descriptor).asks q (.of t.log) := by
  have hkeeps := h.work i t ht
  rw [hwork] at hkeeps
  exact hkeeps.1

theorem Keeps.answer {s : Together} (h : s.Keeps T limit) {i : Nat} {t : Task}
    (ht : s.tasks[i]? = some t) {q : Ask} {next : q.Reply → Activity Cni.Response}
    (hwork : t.work = .ask q next) (arbiter : Arbiter Nat) :
    (s.answer i t q next arbiter).Keeps T limit := by
  have hasks := h.asks ht hwork
  obtain ⟨hanswers, hcovers, -⟩ := (h.covers i t ht).step (h.uuid i t ht) hasks
    (t.conditions.mishap t.log.length)
  have hkeeps := h.work i t ht
  rw [hwork] at hkeeps
  refine ⟨h.shared, h.names, fun j t' ht' => ?_, fun j t' ht' => ?_, fun j t' ht' => ?_⟩
  · rcases answer_tasks ht' with ⟨rfl, rfl⟩ | ⟨-, hold⟩
    · exact h.uuid j t ht
    · exact h.uuid j t' hold
  · rcases answer_tasks ht' with ⟨rfl, rfl⟩ | ⟨-, hold⟩
    · exact hcovers
    · -- requests for one container share the territory that was worked in
      by_cases hsame : (T i).container = (T j).container
      · exact h.shared i j hsame ▸ hcovers
      · exact (h.covers j t' hold).step_other hsame (h.names i j) (h.uuid i t ht) hasks _
  · rcases answer_tasks ht' with ⟨rfl, rfl⟩ | ⟨-, hold⟩
    · exact hkeeps.2 _ _ hanswers
    · exact h.work j t' hold

theorem Keeps.step {s : Together} (h : s.Keeps T limit) (i : Nat) : (s.step i).Keeps T limit := by
  rcases step_cases s i with ⟨arbiter, hstep, -⟩ | ⟨t, q, next, ht, hwork, -, hstep⟩
  · rw [hstep]
    exact ⟨h.shared, h.names, h.uuid, h.covers, h.work⟩
  · rw [hstep]
    exact h.answer ht hwork _

end Together

/-! ## The territories of requests -/

/-- The sandbox of a request. -/
def sandboxOf (o : Options) (r : Cni.Request) : String :=
  match decode o r.args with
  | .ok c => c.infraContainerId
  | .error _ => ""

/-- A container has a record of an interface, or a request plans the interface for it. -/
def Uses (o : Options) (w : World) (turns : List Turn) (container name : String) : Prop :=
  (∃ a, (w.slot name).record = some a ∧ a.containerId = container) ∨
    ∃ t ∈ turns, ∃ c res p, Plans o t.conditions t.request c res p ∧ c.containerId = container ∧
      p.hostIfname = name

/-- The territory of a sandbox are the interfaces that it uses. -/
def territoryOf (o : Options) (w : World) (turns : List Turn) (nameOf : String → String)
    (container : String) : Territory :=
  ⟨container, Uses o w turns container, nameOf⟩

/-- The territory that a request works in. -/
def territoryAt (o : Options) (w : World) (turns : List Turn) (nameOf : String → String)
    (i : Nat) : Territory :=
  territoryOf o w turns nameOf ((turns[i]?.map fun t => sandboxOf o t.request).getD "")

theorem territoryAt_eq {o : Options} {w : World} {turns : List Turn} {nameOf : String → String}
    {i : Nat} {t : Turn} (ht : turns[i]? = some t) :
    territoryAt o w turns nameOf i = territoryOf o w turns nameOf (sandboxOf o t.request) := by
  rw [territoryAt, ht]
  rfl

/-- The territory of a sandbox covers what the sandbox has. -/
theorem covers_territoryOf {o : Options} {w : World} {turns : List Turn}
    {nameOf : String → String} (hsound : w.Sound nameOf) (container : String) :
    (territoryOf o w turns nameOf container).Covers w where
  toSound := hsound
  owns ha hc := .inl ⟨_, ha, hc⟩

/-- A request fits into the territory of its sandbox. -/
theorem fits_territoryOf {o : Options} {w : World} {turns : List Turn} {nameOf : String → String}
    {t : Turn} (ht : t ∈ turns) :
    (territoryOf o w turns nameOf (sandboxOf o t.request)).Fits o t.conditions.descriptor
      t.request where
  container c hdecode := by simp only [territoryOf, sandboxOf, hdecode]
  plan c v res p hdecode hcommand hinfra hd hplan := by
    refine .inr ⟨t, ht, c, res, p, ⟨hcommand, hdecode, hinfra, v, hd, hplan⟩, ?_, rfl⟩
    simp only [sandboxOf, hdecode]
    exact (infraContainerId_of_isInfra hdecode hinfra).symm

/-- Requests keep to the territories of their sandboxes. -/
theorem keeps_start {o : Options} {w : World} {turns : List Turn} {nameOf : String → String}
    (hsound : w.Sound nameOf) (huuid : ∀ t ∈ turns, ∀ n, nameOf (t.conditions.uuid n) = n) :
    (Together.start o w turns).Keeps (territoryAt o w turns nameOf) o.lockTimeout where
  shared i j h := congrArg (territoryOf o w turns nameOf) h
  names _ _ := rfl
  uuid i t ht := by
    obtain ⟨turn, hturn, rfl⟩ := Together.start_task ht
    exact huuid turn (List.mem_of_getElem? hturn)
  covers _ _ _ := covers_territoryOf hsound _
  work i t ht := by
    obtain ⟨turn, hturn, rfl⟩ := Together.start_task ht
    rw [territoryAt_eq hturn]
    exact Territory.ensures_handle (fits_territoryOf (List.mem_of_getElem? hturn))

end PodAttach.Agent
