import PodAttach.Agent.Reconcile
import PodAttach.Proofs.Together

/-!
# The start of the agent

The agent serves requests as soon as it starts, and makes one pass over the
attachments meanwhile.  That the network of the node is there is said when
the pass is over, whatever came of it; until then an Add waits.

* `Together.boot` is the start: the pass is the first task, and requests are the others.
* `Together.Move` is what may happen next: a task takes its step, or it has waited for as
  long as it may.  `Together.move_cases` says what a move comes to when no call fails.
* `Together.addsWait_of_not_passed`: no Add takes a lock before the pass is over.
-/

namespace PodAttach.Agent

open Activity

/-- The pass as a task.  What it reports is sent to nobody. -/
def passTask (k : Conditions) : Task :=
  ⟨(fun _ => .ofExcept (.ok [])) <$> reconcile, k, []⟩

namespace Together

/-- The agent starts. -/
def boot (o : Options) (w : World) (k : Conditions) (turns : List Turn) : Together where
  world := w
  arbiter := .empty
  tasks := passTask k :: (start o w turns).tasks
  trace := []

/-- The pass is over. -/
def passed (s : Together) : Bool :=
  (s.response? 0).isSome

/-- Whether a task waits for the network while the pass goes on. -/
def held (s : Together) (i : Nat) : Bool :=
  match s.tasks[i]? with
  | some ⟨.ask (.awaitReady _) _, _, _⟩ => !s.passed
  | _ => false

/-- A task gets some answer to its question, which meets no mishap. -/
def reply (s : Together) (i : Nat) (t : Task) (q : Ask) (next : q.Reply → Activity Cni.Response)
    (answer : q.Reply) (arbiter : Arbiter Nat) : Together where
  world := (s.world.perform t.conditions q).2
  arbiter
  tasks := s.tasks.set i ⟨next answer, t.conditions, ⟨q, answer⟩ :: t.log⟩
  trace := ⟨i, none, ⟨q, answer⟩⟩ :: s.trace

/-- A task has waited for a lock or for the network for as long as it may. -/
def giveUp (s : Together) (i : Nat) : Together :=
  match s.tasks[i]? with
  | none => s
  | some t => match t.work with
    | .ask (.acquire key (some limit)) next =>
      s.reply i t (.acquire key (some limit)) next false (s.arbiter.cancel i)
    | .ask (.awaitReady limit) next => s.reply i t (.awaitReady limit) next false s.arbiter
    | _ => s

/-- What may happen next. -/
inductive Move where
  /-- A task takes its step. -/
  | step (i : Nat)
  /-- A task waits no longer. -/
  | giveUp (i : Nat)
  deriving DecidableEq, Repr

/-- One move.  Who is held stays where it is. -/
def move (s : Together) : Move → Together
  | .step i => if s.held i then s else s.step i
  | .giveUp i => s.giveUp i

/-- One move after the other. -/
def moves (s : Together) (ms : List Move) : Together :=
  ms.foldl move s

/-! ## Moves in which no call fails -/

/-- No task meets a mishap. -/
def Well (s : Together) : Prop :=
  ∀ (i : Nat) (t : Task), s.tasks[i]? = some t → ∀ place, t.conditions.mishap place = none

/-- The answers to a question of a task, with the locks after them. -/
inductive Answers (s : Together) (i : Nat) (k : Conditions) :
    (q : Ask) → q.Reply → Arbiter Nat → Prop
  | performed {q : Ask} (hgate : (gate s.arbiter i q).1 = true)
      (hready : ∀ limit, q = .awaitReady limit → s.passed = true) :
      Answers s i k q (s.world.perform k q).1 (gate s.arbiter i q).2
  /-- The lock was not had in time. -/
  | busy {key : String} {limit : Duration} :
      Answers s i k (.acquire key (some limit)) false (s.arbiter.cancel i)
  /-- The network was not there in time. -/
  | notReady {limit : Duration} : Answers s i k (.awaitReady limit) false s.arbiter

variable {s : Together}

theorem meet_none (k : Conditions) (w : World) (q : Ask) : w.meet k none q = w.perform k q := by
  cases q <;> rfl

/-- A step that meets no mishap is answered by the world. -/
theorem answer_eq_reply {i : Nat} {t : Task} (hwell : ∀ place, t.conditions.mishap place = none)
    (q : Ask) (next : q.Reply → Activity Cni.Response) (arbiter : Arbiter Nat) :
    s.answer i t q next arbiter =
      s.reply i t q next (s.world.perform t.conditions q).1 arbiter := by
  unfold answer reply Task.after
  simp only [hwell, meet_none]

/-- A move does nothing but wait, or a task gets an answer. -/
theorem move_cases (hwell : s.Well) (m : Move) :
    (∃ arbiter, s.move m = { s with arbiter } ∧ arbiter.holders = s.arbiter.holders) ∨
      ∃ i t q next answer arbiter, s.tasks[i]? = some t ∧ t.work = .ask q next ∧
        Answers s i t.conditions q answer arbiter ∧
        s.move m = s.reply i t q next answer arbiter := by
  have hstays : ∃ arbiter, s = { s with arbiter } ∧ arbiter.holders = s.arbiter.holders :=
    ⟨s.arbiter, rfl, rfl⟩
  cases m with
  | step i =>
    simp only [move]
    split
    · exact .inl hstays
    · next hheld =>
      rcases s.step_cases i with hwaits | ⟨t, q, next, ht, hwork, hgate, hstep⟩
      · exact .inl hwaits
      · refine .inr ⟨i, t, q, next, _, _, ht, hwork, .performed hgate ?_, ?_⟩
        · rintro limit rfl
          obtain ⟨work, k, log⟩ := t
          obtain rfl : work = .ask (.awaitReady limit) next := hwork
          simpa [held, ht] using hheld
        · rw [hstep, answer_eq_reply (hwell i t ht)]
  | giveUp i =>
    simp only [move, giveUp]
    split
    · exact .inl hstays
    · next t ht =>
      split
      · next key limit next hwork =>
        exact .inr ⟨i, t, _, next, _, _, ht, hwork, .busy, rfl⟩
      · next limit next hwork =>
        exact .inr ⟨i, t, _, next, _, _, ht, hwork, .notReady, rfl⟩
      · exact .inl hstays

/-- The tasks after an answer: the one that was answered has moved on. -/
theorem reply_tasks {i j : Nat} {t t' : Task} {q : Ask} {next : q.Reply → Activity Cni.Response}
    {answer : q.Reply} {arbiter : Arbiter Nat}
    (ht' : (s.reply i t q next answer arbiter).tasks[j]? = some t') :
    j = i ∧ t' = ⟨next answer, t.conditions, ⟨q, answer⟩ :: t.log⟩ ∨
      j ≠ i ∧ s.tasks[j]? = some t' :=
  task_of_set ht'

theorem Well.move (hwell : s.Well) (m : Move) : (s.move m).Well := by
  rcases move_cases hwell m with ⟨arbiter, hmove, -⟩ |
    ⟨i, t, q, next, answer, arbiter, ht, -, -, hmove⟩
  · rw [hmove]
    exact hwell
  · rw [hmove]
    intro j t' ht'
    rcases reply_tasks ht' with ⟨-, rfl⟩ | ⟨-, hold⟩
    · exact hwell i t ht
    · exact hwell j t' hold

/-- A request that was answered stays answered. -/
theorem response?_reply {i j : Nat} {t : Task} {q : Ask} {next : q.Reply → Activity Cni.Response}
    {answer : q.Reply} {arbiter : Arbiter Nat} {response : Cni.Response}
    (ht : s.tasks[i]? = some t) (hwork : t.work = .ask q next)
    (h : s.response? j = some response) :
    (s.reply i t q next answer arbiter).response? j = some response := by
  obtain ⟨t', ht', hdone⟩ := response?_eq_some_iff.1 h
  have hne : i ≠ j := by
    rintro rfl
    obtain rfl := Option.some.inj (ht.symm.trans ht')
    cases hwork.symm.trans hdone
  refine response?_eq_some_iff.2 ⟨t', ?_, hdone⟩
  simp only [reply, List.getElem?_set_ne hne, ht']

theorem passed_reply {i : Nat} {t : Task} {q : Ask} {next : q.Reply → Activity Cni.Response}
    {answer : q.Reply} {arbiter : Arbiter Nat} (ht : s.tasks[i]? = some t)
    (hwork : t.work = .ask q next) (h : s.passed = true) :
    (s.reply i t q next answer arbiter).passed = true := by
  obtain ⟨response, hresponse⟩ := Option.isSome_iff_exists.1 h
  exact Option.isSome_iff_exists.2 ⟨response, response?_reply ht hwork hresponse⟩

/-- What holds at the start and is kept by every move in which no call fails holds at the end. -/
theorem moves_induction {P : Together → Prop} (hmove : ∀ s m, s.Well → P s → P (s.move m))
    (hwell : s.Well) (hstart : P s) (ms : List Move) : P (s.moves ms) := by
  unfold moves
  induction ms generalizing s with
  | nil => exact hstart
  | cons m ms ih => exact ih (hwell.move m) (hmove s m hwell hstart)

variable {o : Options} {w : World} {k : Conditions} {turns : List Turn}

/-- The tasks at the start: the pass, and the requests. -/
theorem boot_task {i : Nat} {t : Task} (ht : (boot o w k turns).tasks[i]? = some t) :
    i = 0 ∧ t = passTask k ∨ ∃ j turn, i = j + 1 ∧ turns[j]? = some turn ∧
      t = ⟨handle o turn.request, turn.conditions, []⟩ := by
  cases i with
  | zero => exact .inl ⟨rfl, (Option.some.inj ht).symm⟩
  | succ j =>
    have hstart : (start o w turns).tasks[j]? = some t := ht
    obtain ⟨turn, hturn, rfl⟩ := start_task hstart
    exact .inr ⟨j, turn, rfl, hturn, rfl⟩

theorem well_boot (hpass : ∀ place, k.mishap place = none)
    (hturns : ∀ t ∈ turns, ∀ place, t.conditions.mishap place = none) :
    (boot o w k turns).Well := by
  intro i t ht
  rcases boot_task ht with ⟨-, rfl⟩ | ⟨j, turn, -, hturn, rfl⟩
  · exact hpass
  · exact hturns turn (List.mem_of_getElem? hturn)

/-! ## Adds wait -/

/-- The task of a request that is an Add. -/
def IsAdd (turns : List Turn) (i : Nat) : Prop :=
  ∃ j t, i = j + 1 ∧ turns[j]? = some t ∧ t.request.command = .add

/-- No Add has taken a lock. -/
def AddsWait (turns : List Turn) (s : Together) : Prop :=
  ∀ x ∈ s.trace, x.event.locks = true → ¬ IsAdd turns x.task

end Together

/-- Whether someone knows that the network is there, after one more answer. -/
def Event.tellsReady : Event → Bool → Bool
  | ⟨.awaitReady _, true⟩, _ => true
  | _, knows => knows

theorem Event.asked_of_locks {ev : Event} (h : ev.locks = true) :
    ∃ key limit, ev.asked = .acquire key limit := by
  unfold Event.locks at h
  split at h
  · exact ⟨_, _, rfl⟩
  · cases h

/-- The rules of one who takes no lock before the network is there. -/
def patient : Proc.Rules Ask Ask.Reply Bool where
  asks q knows := (∃ key limit, q = .acquire key limit) → knows = true
  answers q knows reply knows' := knows' = Event.tellsReady ⟨q, reply⟩ knows

/-- Who knows that the network is there may ask anything. -/
theorem ensures_patient {α : Type} (p : Activity α) :
    p.Ensures patient true fun _ _ => True := by
  induction p with
  | done a => trivial
  | ask q next ih =>
    refine ⟨fun _ => rfl, ?_⟩
    rintro reply _ rfl
    have hknows : Event.tellsReady ⟨q, reply⟩ true = true := by
      unfold Event.tellsReady
      split <;> rfl
    rw [hknows]
    exact ih reply

/-- An Add takes no lock before the network is there. -/
theorem add_patient {o : Options} {r : Cni.Request} (hcommand : r.command = .add) :
    (handle o r).Ensures patient false fun _ _ => True := by
  unfold handle serve
  rw [Proc.ensures_map, hcommand]
  simp only [add]
  cases decode o r.args with
  | error x => trivial
  | ok c =>
    rw [Proc.ensures_bind]
    refine Proc.ensures_question.2 ⟨fun h => ?_, ?_⟩
    · obtain ⟨key, limit, hq⟩ := h
      cases hq
    rintro ready _ rfl
    cases ready with
    | false => trivial
    | true => exact ensures_patient _

namespace Together

variable {s : Together} {o : Options} {w : World} {k : Conditions} {turns : List Turn}

/-- Adds know that the network is there only when the pass is over, and take no lock before. -/
structure Patient (turns : List Turn) (s : Together) : Prop where
  work : ∀ (i : Nat) (t : Task), IsAdd turns i → s.tasks[i]? = some t →
    ∃ knows, t.work.Ensures patient knows (fun _ _ => True) ∧ (knows = true → s.passed = true)
  waits : s.passed = true ∨ AddsWait turns s

theorem patient_boot : (boot o w k turns).Patient turns where
  work i t hadd ht := by
    obtain ⟨j, turn, rfl, hturn, hcommand⟩ := hadd
    rcases boot_task ht with ⟨hzero, -⟩ | ⟨j', turn', hj, hturn', rfl⟩
    · cases hzero
    · obtain rfl : j = j' := Nat.succ.inj hj
      obtain rfl := Option.some.inj (hturn.symm.trans hturn')
      exact ⟨false, add_patient hcommand, nofun⟩
  waits := .inr fun _ hx => absurd hx List.not_mem_nil

/-- Only who was answered when the pass was over knows that the network is there. -/
theorem Answers.tellsReady {i : Nat} {q : Ask} {answer : q.Reply} {arbiter : Arbiter Nat}
    {knows : Bool} (h : Answers s i k q answer arbiter)
    (hknows : Event.tellsReady ⟨q, answer⟩ knows = true) : knows = true ∨ s.passed = true := by
  cases h with
  | performed hgate hready =>
    unfold Event.tellsReady at hknows
    split at hknows
    · next limit hev =>
      obtain rfl : q = .awaitReady limit := congrArg Event.asked hev
      exact .inr (hready limit rfl)
    · exact .inl hknows
  | busy => exact .inl hknows
  | notReady => exact .inl hknows

theorem Patient.move (h : s.Patient turns) (hwell : s.Well) (m : Move) :
    (s.move m).Patient turns := by
  rcases move_cases hwell m with ⟨arbiter, hmove, -⟩ |
    ⟨i, t, q, next, answer, arbiter, ht, hwork, hanswers, hmove⟩
  · rw [hmove]
    exact ⟨h.work, h.waits⟩
  · rw [hmove]
    have hpassed : s.passed = true → (s.reply i t q next answer arbiter).passed = true :=
      passed_reply ht hwork
    refine ⟨fun j t' hadd ht' => ?_, ?_⟩
    · rcases reply_tasks ht' with ⟨rfl, rfl⟩ | ⟨-, hold⟩
      · obtain ⟨knows, hensures, hknows⟩ := h.work j t hadd ht
        rw [hwork] at hensures
        refine ⟨_, hensures.2 answer _ rfl, fun hready => hpassed ?_⟩
        exact (hanswers.tellsReady hready).elim hknows id
      · obtain ⟨knows, hensures, hknows⟩ := h.work j t' hadd hold
        exact ⟨knows, hensures, fun hready => hpassed (hknows hready)⟩
    · rcases h.waits with hover | hwait
      · exact .inl (hpassed hover)
      by_cases htakes : Event.locks ⟨q, answer⟩ = true ∧ IsAdd turns i
      · -- an Add that takes a lock was told that the network is there
        obtain ⟨knows, hensures, hknows⟩ := h.work i t htakes.2 ht
        rw [hwork] at hensures
        exact .inl (hpassed (hknows (hensures.1 (Event.asked_of_locks htakes.1))))
      · refine .inr fun x hx => ?_
        rcases List.mem_cons.1 hx with rfl | hx
        · exact fun hlocks hadd => htakes ⟨hlocks, hadd⟩
        · exact hwait x hx

/-- No Add takes a lock before the pass is over. -/
theorem addsWait_of_not_passed (hpass : ∀ place, k.mishap place = none)
    (hturns : ∀ t ∈ turns, ∀ place, t.conditions.mishap place = none) (ms : List Move)
    (hover : ((boot o w k turns).moves ms).passed = false) :
    AddsWait turns ((boot o w k turns).moves ms) := by
  have h : ((boot o w k turns).moves ms).Patient turns :=
    moves_induction (fun s m hwell hs => hs.move hwell m) (well_boot hpass hturns) patient_boot ms
  rcases h.waits with hpassed | hwaits
  · cases hover.symm.trans hpassed
  · exact hwaits

end Together

end PodAttach.Agent
