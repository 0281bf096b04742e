import PodAttach.Proofs.Passes

/-!
# Runs of the agent

A run is a list of jobs that are done one after the other: requests, passes
of the reconciliation, and links that vanish with the namespace of a sandbox.

* `Job.after` and `World.after`: the world after a job, and after a run.
* `Job.invariant`: what holds of a world and is kept by the three things that a
  job can do (attach, remove, restore) holds after the job.  `World.after_prefix` is
  the induction over a run.
* `Job.sound`: worlds stay sound if UUIDs are handed out by names.
-/

namespace PodAttach.Agent

/-- One thing that happens. -/
inductive Job where
  /-- A request is served. -/
  | serve (t : Turn)
  /-- A pass over all attachments. -/
  | pass (k : Conditions)
  /-- The link of an interface vanishes. -/
  | vanish (name : String)

/-- The world after a job. -/
def Job.after (o : Options) (w : World) : Job → World
  | .serve t => (serveAlone o t.conditions t.request w).2.world
  | .pass k => (passAlone k w).2.world
  | .vanish name => w.dropLink name

/-- The world after a run. -/
def World.after (o : Options) (w : World) (jobs : List Job) : World :=
  jobs.foldl (Job.after o) w

/-- UUIDs are handed out by names. -/
def Job.Names (nameOf : String → String) : Job → Prop
  | .serve t => ∀ n, nameOf (t.conditions.uuid n) = n
  | _ => True

variable {o : Options} {w : World} {nameOf : String → String}

theorem World.after_append (o : Options) (w : World) (before after : List Job) :
    w.after o (before ++ after) = (w.after o before).after o after :=
  List.foldl_append

/-- What attaching, removing and restoring keep, a job keeps. -/
theorem Job.invariant {I : World → Prop} {j : Job} (hcoherent : ∀ w, I w → w.store.Coherent)
    (hattempt : ∀ t c res p made torn x w', j = .serve t →
      Plans o t.conditions t.request c res p → w.store.find? c.containerId = none →
      Attempts t.conditions c p w made torn x w' → I w')
    (hremove : ∀ a x v v', I v → v.store.get? a.interfaceName = some a → Removes a v x v' → I v')
    (hreplay : ∀ a x v v', I v → v.store.get? a.interfaceName = some a → Replays a v x v' → I v')
    (hlink : ∀ name, I (w.dropLink name)) (hw : I w) : I (j.after o w) := by
  cases j with
  | serve t =>
    have hserves := serveAlone_serves o t.conditions t.request w
    show I (serveAlone o t.conditions t.request w).2.world
    generalize serveAlone o t.conditions t.request w = served at hserves ⊢
    cases hserves with
    | idle hquiet => exact hquiet.1 ▸ hw
    | attempts hresponse hplans hnone h => exact hattempt t _ _ _ _ _ _ _ rfl hplans hnone h
    | removes hcommand hdecode hinfra ha h =>
      exact hremove _ _ _ _ hw ((Store.find?_eq_some_iff (hcoherent w hw)).1 ha).1 h
  | pass k =>
    refine passAlone_invariant (fun keys well a v v' hv ha hrestore => ?_) hw
    cases hrestore with
    | replayed hkey h => exact hreplay _ _ _ _ hv ha h
    | removed hkey h hwell => exact hremove _ _ _ _ hv ha h
  | vanish name => exact hlink name

theorem World.sound_dropLink (hsound : w.Sound nameOf) (name : String) :
    (w.dropLink name).Sound nameOf where
  coherent := hsound.coherent
  slot n := by
    rw [slot_dropLink]
    split
    · exact ⟨(hsound.slot n).port, (hsound.slot n).record⟩
    · exact hsound.slot n

theorem Job.sound {j : Job} (hnames : j.Names nameOf) (hsound : w.Sound nameOf) :
    (j.after o w).Sound nameOf := by
  refine Job.invariant (I := World.Sound nameOf) (fun w h => h.coherent) ?_
    (fun a x v v' hv ha h => h.sound hv) (fun a x v v' hv ha h => h.sound hv)
    (World.sound_dropLink hsound) hsound
  rintro t c res p made torn x w' rfl hplans hnone h
  exact h.sound (hnames _) hsound

/-- What each step of a run keeps, when its turn comes, holds at all points of the run. -/
theorem foldl_prefix {σ β : Type} {f : σ → β → σ} {I : σ → Prop} {l : List β} {s : σ}
    (hstep : ∀ before b after, l = before ++ b :: after → I (before.foldl f s) →
      I (f (before.foldl f s) b)) (hs : I s) :
    ∀ before after, l = before ++ after → I (before.foldl f s) := by
  induction l generalizing s with
  | nil =>
    intro before after heq
    obtain ⟨rfl, -⟩ := List.append_eq_nil_iff.1 heq.symm
    exact hs
  | cons b l ih =>
    intro before after heq
    cases before with
    | nil => exact hs
    | cons b' before =>
      obtain ⟨rfl, rfl⟩ := List.cons.inj heq
      refine ih (s := f s b) ?_ (hstep [] b _ rfl hs) before after rfl
      intro before' b' after' heq' hbefore
      exact hstep (b :: before') b' after' (congrArg (b :: ·) heq') hbefore

theorem World.after_prefix {I : World → Prop} {jobs : List Job}
    (hstep : ∀ before j after, jobs = before ++ j :: after → I (w.after o before) →
      I (j.after o (w.after o before))) (hw : I w) :
    ∀ before after, jobs = before ++ after → I (w.after o before) :=
  foldl_prefix hstep hw

theorem World.after_sound {jobs : List Job} (hnames : ∀ j ∈ jobs, j.Names nameOf)
    (hsound : w.Sound nameOf) {before after : List Job} (hjobs : jobs = before ++ after) :
    (w.after o before).Sound nameOf := by
  refine World.after_prefix (fun before' j after' heq hbefore => ?_) hsound before after hjobs
  exact j.sound (hnames j (by simp [heq])) hbefore

end PodAttach.Agent
