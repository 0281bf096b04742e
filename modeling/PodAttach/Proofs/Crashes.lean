import PodAttach.Attachment.Store
import PodAttach.Proofs.Runs

/-!
# Crashes

The agent may die between any two questions of a job.  The bridge and the
links stay as they are then, the store is lost, and the next start makes a new
store of the ports of the bridge (`World.restart`).

* `Proc.runFor` is a computation that is broken off, and `Job.cut` is what a job leaves
  in which the agent dies.
* `Job.restart_cut`: a start after that finds what it would find if the job had gone on
  and all later calls had failed.  So what holds of jobs with any failing calls holds of
  jobs that are broken off, and no invariant is shown between two calls again.
* A `Stint` is a job, a restart, or both, with the agent dying in the job.
-/

namespace PodAttach

/-- The state that a computation leaves which is broken off after so many questions. -/
def Proc.runFor {Q : Type} {A : Q → Type} {α σ : Type} (answer : (q : Q) → σ → A q × σ) :
    Nat → Proc Q A α → σ → σ
  | 0, _, s => s
  | _ + 1, .done _, s => s
  | n + 1, .ask q next, s => runFor answer n (next (answer q s).1) (answer q s).2

namespace Agent

variable {o : Options} {k : Conditions} {v w : World} {nameOf : String → String} {j : Job} {n : Nat}

/-! ## Restarts -/

/-- What stays when the agent dies. -/
def World.node (w : World) : Switch.Bridge × Table Unit :=
  (w.bridge, w.pairs)

/-- The agent starts again. -/
def World.restart (w : World) : World :=
  { w with store := .ofPorts w.bridge.ports.values }

theorem World.restart_eq (h : v.node = w.node) : v.restart = w.restart := by
  obtain ⟨hbridge, hpairs⟩ := Prod.mk.inj h
  rw [restart, restart, hbridge, hpairs]

/-! ## Broken-off jobs -/

/-- The same surroundings, but all calls fail that come after so many questions. -/
def Conditions.dyingAfter (k : Conditions) (n : Nat) : Conditions :=
  { k with mishap := fun place => if place < n then k.mishap place else some .bare }

theorem World.node_meet_bare (k : Conditions) (w : World) (q : Ask) :
    (w.meet k (some .bare) q).2.node = w.node := by
  cases q with
  | switch c => cases c <;> rfl
  | _ => rfl

/-- Where every call fails, the bridge and the links stay as they are. -/
theorem node_run_failing {α : Type} {p : Activity α} {e : Episode}
    (hfails : ∀ place, e.log.length ≤ place → k.mishap place = some .bare) :
    (p.run (Episode.answer k) e).2.world.node = e.world.node := by
  induction p generalizing e with
  | done a => rfl
  | ask q next ih =>
    rw [Proc.run_ask, ih]
    · show (e.world.meet k (k.mishap e.log.length) q).2.node = _
      rw [hfails _ (Nat.le_refl _), World.node_meet_bare]
    · exact fun place hplace => hfails place (Nat.le_of_succ_le hplace)

/-- To the bridge and the links it makes no difference whether a computation is broken off, or
goes on and all its calls fail. -/
theorem node_runFor {α : Type} (p : Activity α) (n : Nat) (e : Episode) :
    (p.runFor (Episode.answer k) n e).world.node =
      (p.run (Episode.answer (k.dyingAfter (e.log.length + n))) e).2.world.node := by
  induction p generalizing e n with
  | done a => cases n <;> rfl
  | ask q next ih =>
    cases n with
    | zero => exact (node_run_failing fun place hplace => if_neg (Nat.not_lt.2 hplace)).symm
    | succ n =>
      have hanswer : Episode.answer (k.dyingAfter (e.log.length + (n + 1))) q e =
          Episode.answer k q e := by
        have hplace : (k.dyingAfter (e.log.length + (n + 1))).mishap e.log.length =
            k.mishap e.log.length := if_pos (by omega)
        unfold Episode.answer
        rw [hplace]
        rfl
      have hlength : (Episode.answer k q e).2.log.length + n = e.log.length + (n + 1) := by
        show e.log.length + 1 + n = _
        omega
      rw [Proc.run_ask, hanswer, ← hlength, ← ih]
      rfl

/-- The world that a job leaves in which the agent dies after so many questions. -/
def Job.cut (o : Options) (w : World) (n : Nat) : Job → World
  | .serve t => ((handle o t.request).runFor (Episode.answer t.conditions) n ⟨w, []⟩).world
  | .pass k => (reconcile.runFor (Episode.answer k) n ⟨w, []⟩).world
  | .vanish name => w.dropLink name

/-- The same job, with all calls failing that come after so many questions. -/
def Job.dyingAfter (n : Nat) : Job → Job
  | .serve t => .serve { t with conditions := t.conditions.dyingAfter n }
  | .pass k => .pass (k.dyingAfter n)
  | .vanish name => .vanish name

theorem Job.restart_cut (o : Options) (w : World) (n : Nat) (j : Job) :
    (j.cut o w n).restart = ((j.dyingAfter n).after o w).restart := by
  refine World.restart_eq ?_
  cases j with
  | serve t =>
    rw [cut, node_runFor, List.length_nil, Nat.zero_add]
    rfl
  | pass k =>
    rw [cut, node_runFor, List.length_nil, Nat.zero_add]
    rfl
  | vanish name => rfl

theorem Job.Names.dyingAfter (h : j.Names nameOf) : (j.dyingAfter n).Names nameOf := by
  cases j with
  | serve t => exact h
  | pass k => exact h
  | vanish name => exact h

/-! ## Runs with crashes -/

/-- A part of a run. -/
inductive Stint where
  /-- A job is done. -/
  | work (j : Job)
  /-- The agent stops between two jobs and starts again. -/
  | restart
  /-- The agent dies in a job, after so many questions, and starts again. -/
  | crash (j : Job) (n : Nat)

namespace Stint

/-- The job of a stint. -/
def job? : Stint → Option Job
  | work j => some j
  | restart => none
  | crash j _ => some j

/-- The world after a stint. -/
def after (o : Options) (w : World) : Stint → World
  | work j => j.after o w
  | restart => w.restart
  | crash j n => (j.cut o w n).restart

/-- UUIDs are handed out by names. -/
def Names (nameOf : String → String) (s : Stint) : Prop :=
  ∀ j, s.job? = some j → j.Names nameOf

/-- What jobs and restarts keep, stints keep. -/
theorem invariant {I : World → Prop} {s : Stint} (hnames : s.Names nameOf)
    (hjob : ∀ j : Job, j.Names nameOf → I (j.after o w)) (hrestart : ∀ v, I v → I v.restart)
    (hw : I w) : I (s.after o w) := by
  cases s with
  | work j => exact hjob j (hnames j rfl)
  | restart => exact hrestart w hw
  | crash j n =>
    have hdying : (j.dyingAfter n).Names nameOf := (hnames j rfl).dyingAfter
    rw [after, Job.restart_cut]
    exact hrestart _ (hjob _ hdying)

end Stint

/-- The world after a run with crashes. -/
def World.afterStints (o : Options) (w : World) (stints : List Stint) : World :=
  stints.foldl (Stint.after o) w

end Agent

end PodAttach
