import Mathlib.Data.List.Forall2
import PodAttach.Proofs.History
import PodAttach.Proofs.Locks
import PodAttach.Proofs.Twins

/-!
# One request after the other

Requests that take their steps in any order end like requests that are served
one after the other, in the order in which they took their locks, if requests
for different sandboxes never use the same interface (`Separate`).

`Serializes` is the invariant.  `oneByOne` is the world after all requests
that took a lock so far, each served to its end.  The real world agrees with
it outside of what belongs to someone who has a lock.  Inside, a request is at
some point of being served alone, and `Phase` says that what is still to come
leads to its response and to its part of `oneByOne`.

* `step_acquire`: the whole request is served at once in `oneByOne`, while in
  the real world nothing happens yet.
* `step_inside`: the request takes the same step alone.
* `step_release`: the territory of the request is as it is in `oneByOne`.
* `step_awaitReady`: nothing happens in either world.

`together_eq_oneByOne` is the result when both runs are handed out the same
UUIDs and numbers.  `Renumbered` then goes to runs that are handed out others;
`handedOut` says which of them stand for each other.
-/

namespace PodAttach.Agent

/-! ## Serving one by one -/

/-- A container whose lock one of the requests takes. -/
def IsSandbox (o : Options) (turns : List Turn) (container : String) : Prop :=
  ∃ t ∈ turns, ∃ c, decode o t.request.args = .ok c ∧ c.infraContainerId = container

/-- Requests for different sandboxes never plan or hold the same interface. -/
def Separate (o : Options) (w : World) (turns : List Turn) : Prop :=
  ∀ c c', IsSandbox o turns c → IsSandbox o turns c' → ∀ n, Uses o w turns c n →
    Uses o w turns c' n → c = c'

/-- The world after one of the requests was served. -/
def serveNext (o : Options) (turns : List Turn) (v : World) (i : Nat) : World :=
  match turns[i]? with
  | some t => (serveAlone o t.conditions t.request v).2.world
  | none => v

/-- The world after requests were served one after the other. -/
def oneByOne (o : Options) (turns : List Turn) (w : World) (order : List Nat) : World :=
  order.foldl (serveNext o turns) w

/-- A request gets a response when requests are served one after the other. -/
def Gets (o : Options) (turns : List Turn) (w : World) (order : List Nat) (i : Nat)
    (response : Cni.Response) : Prop :=
  ∃ earlier later t, order = earlier ++ i :: later ∧ turns[i]? = some t ∧
    response = (serveAlone o t.conditions t.request (oneByOne o turns w earlier)).1

section

variable {o : Options} {turns : List Turn} {w : World} {order : List Nat} {i : Nat} {t : Turn}
  {response : Cni.Response}

theorem serveNext_eq (ht : turns[i]? = some t) :
    serveNext o turns w i = (serveAlone o t.conditions t.request w).2.world := by
  rw [serveNext, ht]

theorem oneByOne_concat (ht : turns[i]? = some t) :
    oneByOne o turns w (order ++ [i]) =
      (serveAlone o t.conditions t.request (oneByOne o turns w order)).2.world := by
  simp only [oneByOne, List.foldl_append, List.foldl_cons, List.foldl_nil, serveNext_eq ht]

/-- The response of the last one. -/
theorem gets_last (ht : turns[i]? = some t) :
    Gets o turns w (order ++ [i]) i
      (serveAlone o t.conditions t.request (oneByOne o turns w order)).1 :=
  ⟨order, [], t, rfl, ht, rfl⟩

/-- What comes later does not change a response. -/
theorem Gets.append (h : Gets o turns w order i response) (later : List Nat) :
    Gets o turns w (order ++ later) i response := by
  obtain ⟨earlier, rest, t, rfl, ht, hresponse⟩ := h
  exact ⟨earlier, rest ++ later, t, by simp, ht, hresponse⟩

end

/-! ## Requests that change nothing -/

section

variable {o : Options} {turns : List Turn} {w : World} {order order' : List Nat} {i : Nat}
  {response : Cni.Response}

/-- The first request gets its response in the world that all start from, and the others get
theirs after it. -/
theorem gets_cons_iff {j : Nat} : Gets o turns w (j :: order) i response ↔
    (i = j ∧ ∃ t, turns[i]? = some t ∧
      response = (serveAlone o t.conditions t.request w).1) ∨
      Gets o turns (serveNext o turns w j) order i response := by
  constructor
  · rintro ⟨earlier, later, t, horder, ht, hresponse⟩
    cases earlier with
    | nil =>
      obtain ⟨rfl, -⟩ := List.cons.inj horder
      exact .inl ⟨rfl, t, ht, hresponse⟩
    | cons j' earlier =>
      obtain ⟨rfl, rfl⟩ := List.cons.inj horder
      exact .inr ⟨earlier, later, t, rfl, ht, hresponse⟩
  · rintro (⟨rfl, t, ht, hresponse⟩ | ⟨earlier, later, t, rfl, ht, hresponse⟩)
    · exact ⟨[], order, t, rfl, ht, hresponse⟩
    · exact ⟨j :: earlier, later, t, rfl, ht, hresponse⟩

/-- What is idle stays idle where the first request is left out. -/
theorem idle_of_cons {j : Nat} (hnodup : (j :: order').Nodup)
    (hidle : ∀ i ∈ j :: order', i ∉ j :: order → ∀ v, serveNext o turns v i = v) :
    ∀ i ∈ order', i ∉ order → ∀ v, serveNext o turns v i = v := by
  intro i hi hnot
  refine hidle i (by simp [hi]) fun hmem => ?_
  rcases List.mem_cons.1 hmem with rfl | hmem
  · exact (List.nodup_cons.1 hnodup).1 hi
  · exact hnot hmem

/-- Requests that change nothing can be left out. -/
theorem oneByOne_of_sublist (hsub : order.Sublist order') (hnodup : order'.Nodup)
    (hidle : ∀ j ∈ order', j ∉ order → ∀ v, serveNext o turns v j = v) (v : World) :
    oneByOne o turns v order' = oneByOne o turns v order := by
  induction hsub generalizing v with
  | slnil => rfl
  | @cons l l' j hsub ih =>
    obtain ⟨hj, hnodup'⟩ := List.nodup_cons.1 hnodup
    have hsame := hidle j (by simp) (fun hmem => hj (hsub.subset hmem)) v
    calc oneByOne o turns v (j :: l')
        = oneByOne o turns (serveNext o turns v j) l' := rfl
      _ = oneByOne o turns v l' := by rw [hsame]
      _ = oneByOne o turns v l := ih hnodup' (fun j' hj' => hidle j' (by simp [hj'])) v
  | cons_cons j hsub ih =>
    exact ih (List.nodup_cons.1 hnodup).2 (idle_of_cons hnodup hidle) _

/-- Where requests that change nothing are left out, the others get the same responses. -/
theorem Gets.of_sublist (h : Gets o turns w order i response) (hsub : order.Sublist order')
    (hnodup : order'.Nodup)
    (hidle : ∀ j ∈ order', j ∉ order → ∀ v, serveNext o turns v j = v) :
    Gets o turns w order' i response := by
  induction hsub generalizing w with
  | slnil => exact h
  | @cons l l' j hsub ih =>
    obtain ⟨hj, hnodup'⟩ := List.nodup_cons.1 hnodup
    refine gets_cons_iff.2 (.inr ?_)
    rw [hidle j (by simp) (fun hmem => hj (hsub.subset hmem)) w]
    exact ih h hnodup' fun j' hj' => hidle j' (by simp [hj'])
  | cons_cons j hsub ih =>
    rcases gets_cons_iff.1 h with hfirst | hlater
    · exact gets_cons_iff.2 (.inl hfirst)
    · exact gets_cons_iff.2 (.inr
        (ih hlater (List.nodup_cons.1 hnodup).2 (idle_of_cons hnodup hidle)))

end

/-! ## A request that is served among others -/

variable {o : Options} {w : World} {turns : List Turn} {nameOf : String → String}

/-- How a request among others stands to the requests that are served one by one, in the order of
their locks.  Before it takes its lock, it can be served from any world still.  While it has the
lock, it is at some point of being served alone, in a world that is alike in its territory. -/
def Phase (o : Options) (w : World) (turns : List Turn) (T : Territory) (world : World)
    (order : List Nat) (i : Nat) (turn : Turn) (t : Task) : Prop :=
  match LockStage.of t.log with
  | .outside => ∀ v, t.work.run (Episode.answer t.conditions) ⟨v, t.log⟩ =
      serveAlone o turn.conditions turn.request v
  | .inside => ∃ v, T.Covers v ∧ T.Agrees world v ∧
      Gets o turns w order i (t.work.run (Episode.answer t.conditions) ⟨v, t.log⟩).1 ∧
      T.Agrees (t.work.run (Episode.answer t.conditions) ⟨v, t.log⟩).2.world
        (oneByOne o turns w order)
  | .ended => ∃ response, t.work = .done response ∧ Gets o turns w order i response

/-- Requests together are like requests one by one, in the order of their locks. -/
structure Serializes (o : Options) (w : World) (turns : List Turn) (nameOf : String → String)
    (s : Together) : Prop where
  keeps : s.Keeps (territoryAt o w turns nameOf) none
  locked : s.Locked (territoryAt o w turns nameOf)
  sandbox : ∀ i (t : Task), s.tasks[i]? = some t → (∃ response, t.work = .done response) ∨
    IsSandbox o turns (territoryAt o w turns nameOf i).container
  phase : ∀ i (t : Task), s.tasks[i]? = some t → ∃ turn, turns[i]? = some turn ∧
    t.conditions = turn.conditions ∧
    Phase o w turns (territoryAt o w turns nameOf i) s.world s.lockOrder i turn t
  coherent : s.world.store.Coherent
  covers : ∀ c, (territoryOf o w turns nameOf c).Covers (oneByOne o turns w s.lockOrder)
  slot : ∀ n, (∀ h ∈ s.arbiter.holders, ¬ Uses o w turns h.2 n) →
    s.world.slot n = (oneByOne o turns w s.lockOrder).slot n
  next : s.world.bridge.nextOfport = (oneByOne o turns w s.lockOrder).bridge.nextOfport

/-- The bridge counts as before. -/
theorem nextOfport_serveAlone (o : Options) (k : Conditions) (r : Cni.Request) (v : World) :
    (serveAlone o k r v).2.world.bridge.nextOfport = v.bridge.nextOfport := by
  have hrun : ∀ (p : Activity Cni.Response) (e : Episode),
      (p.run (Episode.answer k) e).2.world.bridge.nextOfport = e.world.bridge.nextOfport := by
    intro p
    induction p with
    | done a => exact fun _ => rfl
    | ask q next ih =>
      intro e
      rw [Proc.run_ask]
      exact (ih _ _).trans (World.nextOfport_meet k e.world _ q)
  exact hrun _ _

/-- Serving one request leaves all territories covered, and what its sandbox does not use. -/
theorem territories_serveAlone (huuid : ∀ t ∈ turns, ∀ n, nameOf (t.conditions.uuid n) = n)
    {t : Turn} (ht : t ∈ turns) {v : World}
    (hcovers : ∀ c, (territoryOf o w turns nameOf c).Covers v) :
    (∀ c, (territoryOf o w turns nameOf c).Covers
        (serveAlone o t.conditions t.request v).2.world) ∧
      ∀ n, ¬ Uses o w turns (sandboxOf o t.request) n →
        (serveAlone o t.conditions t.request v).2.world.slot n = v.slot n := by
  have hrules : (handle o t.request).Ensures ((territoryOf o w turns nameOf
      (sandboxOf o t.request)).rules o.lockTimeout t.conditions.descriptor) .outside _ :=
    Territory.ensures_handle (fits_territoryOf ht)
  obtain ⟨hself, houtside⟩ := Territory.run_outside (huuid t ht) hrules (e := ⟨v, []⟩) (hcovers _)
  refine ⟨fun c => ?_, fun n hn => (houtside n hn).1⟩
  by_cases hc : sandboxOf o t.request = c
  · exact hc ▸ hself
  · refine Territory.run_covers_other (huuid t ht) ?_ ?_ hrules (e := ⟨v, []⟩) (hcovers _)
      (hcovers c)
    · exact hc
    · rfl

/-- What others do changes nothing for a request, as long as they keep out of its territory while
it has its lock. -/
theorem Phase.transfer {T : Territory} {world world' : World} {order order' : List Nat} {i : Nat}
    {turn : Turn} {t : Task} (h : Phase o w turns T world order i turn t)
    (horder : order <+: order')
    (hsame : LockStage.of t.log = .inside → ∀ n, T.owns n →
      world'.slot n = world.slot n ∧
        (oneByOne o turns w order').slot n = (oneByOne o turns w order).slot n) :
    Phase o w turns T world' order' i turn t := by
  obtain ⟨later, rfl⟩ := horder
  unfold Phase at h ⊢
  cases hstage : LockStage.of t.log with
  | outside =>
    rw [hstage] at h
    exact h
  | inside =>
    rw [hstage] at h
    obtain ⟨v, hcovers, hagrees, hgets, hend⟩ := h
    refine ⟨v, hcovers, fun n hn => ?_, hgets.append later, fun n hn => ?_⟩
    · rw [(hsame hstage n hn).1, hagrees n hn]
    · rw [(hsame hstage n hn).2, hend n hn]
  | ended =>
    rw [hstage] at h
    obtain ⟨response, hwork, hgets⟩ := h
    exact ⟨response, hwork, hgets.append later⟩

/-- A task that is served alone from some point on takes its next step. -/
theorem run_ask_task {t : Task} {q : Ask} {next : q.Reply → Activity Cni.Response}
    (hwork : t.work = .ask q next) (v : World) :
    t.work.run (Episode.answer t.conditions) ⟨v, t.log⟩ =
      (t.after v q next).work.run (Episode.answer t.conditions)
        ⟨(v.meet t.conditions (t.conditions.mishap t.log.length) q).2, (t.after v q next).log⟩ := by
  rw [hwork]
  rfl

namespace Serializes

variable {s : Together} {i : Nat} {t : Task} {q : Ask} {next : q.Reply → Activity Cni.Response}

/-- A request that has something left to do has a sandbox. -/
theorem isSandbox (h : Serializes o w turns nameOf s) (ht : s.tasks[i]? = some t)
    (hwork : ∀ response, t.work ≠ .done response) :
    IsSandbox o turns (territoryAt o w turns nameOf i).container := by
  rcases h.sandbox i t ht with ⟨response, hdone⟩ | hsandbox
  · exact absurd hdone (hwork response)
  · exact hsandbox

/-- A request that has its lock has something left to do. -/
theorem ne_done (h : Serializes o w turns nameOf s) (ht : s.tasks[i]? = some t)
    (hstage : s.stage i = .inside) (response : Cni.Response) : t.work ≠ .done response := by
  intro hdone
  have hkeeps := h.keeps.work i t ht
  rw [hdone, ← Together.stage_of_task ht, hstage] at hkeeps
  exact hkeeps rfl

/-- Who has a lock has it for a sandbox. -/
theorem isSandbox_of_inside (h : Serializes o w turns nameOf s) (hstage : s.stage i = .inside) :
    IsSandbox o turns (territoryAt o w turns nameOf i).container := by
  cases ht : s.tasks[i]? with
  | none =>
    rw [Together.stage, ht] at hstage
    cases hstage
  | some t => exact h.isSandbox ht (h.ne_done ht hstage)

/-- Different requests that have their locks use different interfaces. -/
theorem not_uses_of_inside (h : Serializes o w turns nameOf s) (hseparate : Separate o w turns)
    {j : Nat} (hi : s.stage i = .inside) (hj : s.stage j = .inside) (hne : i ≠ j) {n : String}
    (hn : (territoryAt o w turns nameOf j).owns n) :
    ¬ Uses o w turns (territoryAt o w turns nameOf i).container n := fun hn' =>
  hne (h.locked.keys i j hi hj
    (hseparate _ _ (h.isSandbox_of_inside hi) (h.isSandbox_of_inside hj) n hn' hn))

/-- What others use that have their locks is not used by a sandbox whose lock is free. -/
theorem not_uses_of_free (h : Serializes o w turns nameOf s) (hseparate : Separate o w turns)
    {key : String} (hfree : s.arbiter.isBusy key = false) (hsandbox : IsSandbox o turns key)
    {j : Nat} (hj : s.stage j = .inside) {n : String}
    (hn : (territoryAt o w turns nameOf j).owns n) : ¬ Uses o w turns key n := fun hn' =>
  h.locked.ne_of_free hfree hj (hseparate _ _ (h.isSandbox_of_inside hj) hsandbox n hn hn')

/-- A step of one request keeps the correspondence, if it does for that request and for what no
one has the lock of. -/
theorem answer (h : Serializes o w turns nameOf s) (ht : s.tasks[i]? = some t)
    (hwork : t.work = .ask q next) {arbiter : Arbiter Nat} {s' : Together}
    (hstep : s.step i = s') (hs' : s' = s.answer i t q next arbiter)
    (horder : s.lockOrder <+: s'.lockOrder)
    (hphase : ∀ turn, turns[i]? = some turn → t.conditions = turn.conditions →
      Phase o w turns (territoryAt o w turns nameOf i) s.world s.lockOrder i turn t →
      Phase o w turns (territoryAt o w turns nameOf i) s'.world s'.lockOrder i turn
        (t.after s.world q next))
    (hothers : ∀ j, j ≠ i → s.stage j = .inside → ∀ n,
      (territoryAt o w turns nameOf j).owns n →
      s'.world.slot n = s.world.slot n ∧
        (oneByOne o turns w s'.lockOrder).slot n = (oneByOne o turns w s.lockOrder).slot n)
    (hcovers : ∀ c, (territoryOf o w turns nameOf c).Covers (oneByOne o turns w s'.lockOrder))
    (hslot : ∀ n, (∀ h ∈ s'.arbiter.holders, ¬ Uses o w turns h.2 n) →
      s'.world.slot n = (oneByOne o turns w s'.lockOrder).slot n)
    (hnext : (oneByOne o turns w s'.lockOrder).bridge.nextOfport =
      (oneByOne o turns w s.lockOrder).bridge.nextOfport) :
    Serializes o w turns nameOf s' := by
  have hkeeps : s'.Keeps (territoryAt o w turns nameOf) none := hstep ▸ h.keeps.step i
  have hlocked : s'.Locked (territoryAt o w turns nameOf) := hstep ▸ h.locked.step h.keeps i
  refine ⟨hkeeps, hlocked, fun j t' ht' => ?_, fun j t' ht' => ?_, ?_, hcovers, hslot, ?_⟩
  · rw [hs'] at ht'
    rcases Together.answer_tasks ht' with ⟨rfl, -⟩ | ⟨-, hold⟩
    · refine .inr (h.isSandbox ht fun response => ?_)
      rw [hwork]
      exact nofun
    · exact h.sandbox j t' hold
  · by_cases hij : j = i
    · subst hij
      obtain ⟨turn, hturn, hconditions, hold⟩ := h.phase j t ht
      rw [hs'] at ht'
      rcases Together.answer_tasks ht' with ⟨-, rfl⟩ | ⟨hne, -⟩
      · exact ⟨turn, hturn, hconditions, hs' ▸ hphase turn hturn hconditions hold⟩
      · exact absurd rfl hne
    · have hold : s.tasks[j]? = some t' := by
        rw [hs'] at ht'
        rcases Together.answer_tasks ht' with ⟨heq, -⟩ | ⟨-, hold⟩
        · exact absurd heq hij
        · exact hold
      obtain ⟨turn, hturn, hconditions, hphase'⟩ := h.phase j t' hold
      refine ⟨turn, hturn, hconditions, hphase'.transfer horder fun hstage n hn => ?_⟩
      rw [← Together.stage_of_task hold] at hstage
      exact hothers j hij hstage n hn
  · rw [hs']
    exact World.coherent_meet _ h.coherent _ q
  · rw [hnext, ← h.next, hs']
    exact World.nextOfport_meet ..

/-- A step keeps the correspondence that takes no lock, if it does for the request that takes the
step and for what no one has the lock of. -/
theorem answer_of_order_eq (h : Serializes o w turns nameOf s) (ht : s.tasks[i]? = some t)
    (hwork : t.work = .ask q next) {arbiter : Arbiter Nat}
    (hstep : s.step i = s.answer i t q next arbiter) (horder : (s.step i).lockOrder = s.lockOrder)
    (hphase : ∀ turn,
      Phase o w turns (territoryAt o w turns nameOf i) s.world s.lockOrder i turn t →
      Phase o w turns (territoryAt o w turns nameOf i) (s.step i).world s.lockOrder i turn
        (t.after s.world q next))
    (hothers : ∀ j, j ≠ i → s.stage j = .inside → ∀ n,
      (territoryAt o w turns nameOf j).owns n → (s.step i).world.slot n = s.world.slot n)
    (hslot : ∀ n, (∀ h ∈ arbiter.holders, ¬ Uses o w turns h.2 n) →
      (s.step i).world.slot n = (oneByOne o turns w s.lockOrder).slot n) :
    Serializes o w turns nameOf (s.step i) := by
  refine h.answer ht hwork rfl hstep (horder ▸ List.prefix_refl _) ?_ ?_ ?_ ?_ ?_
  · intro turn _ _ hold
    rw [horder]
    exact hphase turn hold
  · intro j hji hj n hn
    rw [horder]
    exact ⟨hothers j hji hj n hn, rfl⟩
  · rw [horder]
    exact h.covers
  · intro n hn
    rw [hstep] at hn
    rw [horder]
    exact hslot n hn
  · rw [horder]

/-- Waiting for the network. -/
theorem step_awaitReady {limit : Duration} {next : Bool → Activity Cni.Response}
    (h : Serializes o w turns nameOf s) (ht : s.tasks[i]? = some t)
    (hwork : t.work = .ask (.awaitReady limit) next)
    (hstep : s.step i = s.answer i t (.awaitReady limit) next s.arbiter) :
    Serializes o w turns nameOf (s.step i) := by
  have hstage : LockStage.of t.log = .outside := h.keeps.asks ht hwork
  have hmeet : ∀ v : World, v.meet t.conditions (t.conditions.mishap t.log.length)
      (.awaitReady limit) = (t.conditions.ready, v) := by
    intro v
    cases t.conditions.mishap t.log.length <;> rfl
  have hworld : (s.step i).world = s.world := by
    rw [hstep]
    exact congrArg Prod.snd (hmeet s.world)
  have horder : (s.step i).lockOrder = s.lockOrder := by
    rw [hstep, Together.lockOrder_answer]
    rfl
  refine h.answer_of_order_eq ht hwork hstep horder ?_ ?_ ?_
  · intro turn hphase
    unfold Phase at hphase ⊢
    rw [hstage] at hphase
    have hstage' : LockStage.of (t.after s.world (.awaitReady limit) next).log = .outside := hstage
    rw [hstage']
    intro v
    have hafter : t.after s.world (.awaitReady limit) next =
        t.after v (.awaitReady limit) next := by
      unfold Task.after
      rw [hmeet, hmeet]
    have hrun := hphase v
    rw [run_ask_task hwork, hmeet, ← hafter] at hrun
    exact hrun
  · intro j _ _ n _
    rw [hworld]
  · intro n hn
    rw [hworld]
    exact h.slot n hn

/-- Taking the lock: from here on the request is served alone, after those that took their locks
before. -/
theorem step_acquire {key : String} {limit : Option Duration} {next : Bool → Activity Cni.Response}
    (h : Serializes o w turns nameOf s) (hseparate : Separate o w turns)
    (huuid : ∀ t ∈ turns, ∀ n, nameOf (t.conditions.uuid n) = n) (ht : s.tasks[i]? = some t)
    (hwork : t.work = .ask (.acquire key limit) next)
    (hgate : (Together.gate s.arbiter i (.acquire key limit)).1 = true)
    (hstep : s.step i = s.answer i t (.acquire key limit) next
      (Together.gate s.arbiter i (.acquire key limit)).2) :
    Serializes o w turns nameOf (s.step i) := by
  obtain ⟨hstage, rfl, rfl⟩ := h.keeps.asks ht hwork
  obtain ⟨hfree, hholders⟩ := Together.gate_acquire hgate
  obtain ⟨turn, hturn, hconditions, hphase⟩ := h.phase i t ht
  have hsandbox := h.isSandbox ht fun response => by rw [hwork]; exact nofun
  have hcontainer : (territoryAt o w turns nameOf i).container = sandboxOf o turn.request := by
    rw [territoryAt_eq hturn]
    rfl
  have hworld : (s.step i).world = s.world := by
    rw [hstep]
    exact congrArg Prod.snd (Together.meet_acquire ..)
  have horder : (s.step i).lockOrder = s.lockOrder ++ [i] := by
    rw [hstep, Together.lockOrder_answer, Together.meet_acquire]
    rfl
  have hserved : oneByOne o turns w (s.lockOrder ++ [i]) = _ := oneByOne_concat hturn
  obtain ⟨hcovers, houtside⟩ := territories_serveAlone (o := o) (w := w) huuid
    (List.mem_of_getElem? hturn) h.covers
  rw [← hserved, ← hcontainer] at houtside
  rw [← hserved] at hcovers
  refine h.answer ht hwork rfl hstep (horder ▸ List.prefix_append ..) ?_ ?_ ?_ ?_ ?_
  · intro turn' hturn' _ hphase
    obtain rfl : turn = turn' := Option.some.inj (hturn.symm.trans hturn')
    have hafter : ∀ v, t.after v (.acquire (territoryAt o w turns nameOf i).container none) next =
        ⟨next true, t.conditions,
          ⟨.acquire (territoryAt o w turns nameOf i).container none, true⟩ :: t.log⟩ := by
      intro v
      unfold Task.after
      rw [Together.meet_acquire]
    unfold Phase at hphase ⊢
    rw [hstage] at hphase
    have hrun := hphase (oneByOne o turns w s.lockOrder)
    rw [run_ask_task hwork, Together.meet_acquire, hafter] at hrun
    rw [hafter]
    refine ⟨oneByOne o turns w s.lockOrder, h.covers _, fun n hn => ?_, ?_, fun n _ => ?_⟩
    · -- no one has the lock of what this sandbox uses, so it is as it is one by one
      rw [hworld]
      refine h.slot n fun x hx hx' => ?_
      obtain ⟨hj, hkey⟩ := (h.locked.mem_holders x.1 x.2).1 hx
      rw [hkey] at hx'
      exact h.not_uses_of_free hseparate hfree hsandbox hj hx' hn
    · rw [hrun, horder]
      exact gets_last hturn
    · rw [hrun, horder, hserved]
  · intro j _ hj n hn
    rw [hworld, horder]
    exact ⟨rfl, houtside n (h.not_uses_of_free hseparate hfree hsandbox hj hn)⟩
  · rw [horder]
    exact hcovers
  · intro n hn
    rw [hstep] at hn
    have hn' : ∀ x ∈ s.arbiter.holders ++ [(i, (territoryAt o w turns nameOf i).container)],
        ¬ Uses o w turns x.2 n := hholders ▸ hn
    rw [hworld, horder, houtside n (hn' (i, _) (by simp))]
    exact h.slot n fun x hx => hn' x (by simp [hx])
  · rw [horder, hserved]
    exact nextOfport_serveAlone ..

/-- Work under the lock: the same step is taken alone. -/
theorem step_inside (h : Serializes o w turns nameOf s) (hseparate : Separate o w turns)
    (ht : s.tasks[i]? = some t) (hwork : t.work = .ask q next)
    (hstage : LockStage.of t.log = .inside) (hq : (territoryAt o w turns nameOf i).Allows q)
    (hstep : s.step i = s.answer i t q next s.arbiter) :
    Serializes o w turns nameOf (s.step i) := by
  have hinside : s.stage i = .inside := (Together.stage_of_task ht).trans hstage
  have hheld : (i, (territoryAt o w turns nameOf i).container) ∈ s.arbiter.holders :=
    (h.locked.mem_holders ..).2 ⟨hinside, rfl⟩
  have hcovers := h.keeps.covers i t ht
  have huuid := h.keeps.uuid i t ht
  have horder : (s.step i).lockOrder = s.lockOrder := by
    rw [hstep, Together.lockOrder_answer, if_neg]
    cases q <;> first | exact Bool.false_ne_true | exact hq.elim
  have houtside : ∀ n, ¬ (territoryAt o w turns nameOf i).owns n →
      (s.step i).world.slot n = s.world.slot n := by
    rw [hstep]
    exact fun n hn => hcovers.slot_meet_of_not_owns hq _ hn
  refine h.answer_of_order_eq ht hwork hstep horder ?_ ?_ ?_
  · intro turn hphase
    unfold Phase at hphase ⊢
    rw [hstage] at hphase
    have hstage' : LockStage.of (t.after s.world q next).log = .inside := by
      show (LockStage.of t.log).after q _ = .inside
      rw [hstage]
      cases q <;> first | rfl | exact hq.elim
    obtain ⟨v, hv, hagrees, hgets, hend⟩ := hphase
    have hafter : t.after s.world q next = t.after v q next := by
      unfold Task.after
      rw [hagrees.reply_eq hcovers hv hq]
    rw [run_ask_task hwork, ← hafter] at hgets hend
    rw [hstage']
    refine ⟨_, hv.meet huuid hq _, ?_, hgets, hend⟩
    rw [hstep]
    exact hagrees.meet hcovers hv q _
  · intro j hji hj n hn
    exact houtside n (h.not_uses_of_inside hseparate hinside hj (Ne.symm hji) hn)
  · intro n hn
    rw [houtside n (hn _ hheld)]
    exact h.slot n hn

/-- Giving the lock back: the request is over, and its territory is as it is one by one. -/
theorem step_release {key : String} {next : Unit → Activity Cni.Response}
    (h : Serializes o w turns nameOf s) (ht : s.tasks[i]? = some t)
    (hwork : t.work = .ask (.release key) next)
    (hstep : s.step i = s.answer i t (.release key) next (s.arbiter.release key)) :
    Serializes o w turns nameOf (s.step i) := by
  obtain ⟨hstage, rfl⟩ := h.keeps.asks ht hwork
  have hmeet : ∀ v : World, v.meet t.conditions (t.conditions.mishap t.log.length)
      (.release (territoryAt o w turns nameOf i).container) = ((), v) := by
    intro v
    cases t.conditions.mishap t.log.length <;> rfl
  have hworld : (s.step i).world = s.world := by
    rw [hstep]
    exact congrArg Prod.snd (hmeet s.world)
  have horder : (s.step i).lockOrder = s.lockOrder := by
    rw [hstep, Together.lockOrder_answer]
    rfl
  obtain ⟨response, hresponse⟩ : ∃ response, next () = .done response := by
    have hkeeps := h.keeps.work i t ht
    rw [hwork] at hkeeps
    have hrest := hkeeps.2 () .ended ⟨trivial, rfl⟩
    cases hnext : next () with
    | done response => exact ⟨response, rfl⟩
    | ask q' next' =>
      rw [hnext] at hrest
      exact absurd hrest.1 Territory.not_asks_ended
  have hafter : ∀ v, t.after v (.release (territoryAt o w turns nameOf i).container) next =
      ⟨.done response, t.conditions,
        ⟨.release (territoryAt o w turns nameOf i).container, ()⟩ :: t.log⟩ := by
    intro v
    unfold Task.after
    simp only [hmeet, hresponse]
  -- served alone, the request is over too
  obtain ⟨hgets, hend⟩ : Gets o turns w s.lockOrder i response ∧
      (territoryAt o w turns nameOf i).Agrees s.world (oneByOne o turns w s.lockOrder) := by
    obtain ⟨turn, -, -, hphase⟩ := h.phase i t ht
    unfold Phase at hphase
    rw [hstage] at hphase
    obtain ⟨v, -, hagrees, hgets, hend⟩ := hphase
    rw [run_ask_task hwork, hafter, hmeet] at hgets hend
    exact ⟨hgets, fun n hn => (hagrees n hn).trans (hend n hn)⟩
  refine h.answer_of_order_eq ht hwork hstep horder ?_ ?_ ?_
  · intro turn _
    unfold Phase
    rw [hafter]
    exact ⟨response, rfl, hgets⟩
  · intro j _ _ n _
    rw [hworld]
  · intro n hn
    rw [hworld]
    by_cases huses : (territoryAt o w turns nameOf i).owns n
    · exact hend n huses
    · -- whoever has a lock of something else has it still
      refine h.slot n fun x hx hx' => ?_
      by_cases hkey : x.2 = (territoryAt o w turns nameOf i).container
      · rw [hkey] at hx'
        exact huses hx'
      · exact hn x (List.mem_filter.2 ⟨hx, by simpa using hkey⟩) hx'

/-- Every step keeps the correspondence. -/
theorem step (h : Serializes o w turns nameOf s) (hseparate : Separate o w turns)
    (huuid : ∀ t ∈ turns, ∀ n, nameOf (t.conditions.uuid n) = n) (i : Nat) :
    Serializes o w turns nameOf (s.step i) := by
  have hkeeps := h.keeps.step i
  have hlocked := h.locked.step h.keeps i
  rcases s.step_cases i with ⟨arbiter, hstep, hholders⟩ | ⟨t, q, next, ht, hwork, hgate, hstep⟩
  · rw [hstep] at hkeeps hlocked ⊢
    refine ⟨hkeeps, hlocked, h.sandbox, h.phase, h.coherent, h.covers, fun n hn => ?_, h.next⟩
    have hn' : ∀ x ∈ s.arbiter.holders, ¬ Uses o w turns x.2 n := hholders ▸ hn
    exact h.slot n hn'
  · have hasks := h.keeps.asks ht hwork
    cases q with
    | awaitReady limit => exact h.step_awaitReady ht hwork hstep
    | acquire key limit => exact h.step_acquire hseparate huuid ht hwork hgate hstep
    | release key => exact h.step_release ht hwork hstep
    | _ => exact h.step_inside hseparate ht hwork hasks.1 hasks.2 hstep

/-- When every request was answered, no one has a lock. -/
theorem not_inside (h : Serializes o w turns nameOf s) (hfinished : s.Finished) (i : Nat) :
    s.stage i ≠ .inside := by
  intro hstage
  cases ht : s.tasks[i]? with
  | none =>
    rw [Together.stage, ht] at hstage
    cases hstage
  | some t =>
    obtain ⟨response, hdone⟩ := hfinished.done ht
    exact h.ne_done ht hstage response hdone

/-- When every request was answered, the world is the one that comes about one by one. -/
theorem world_eq (h : Serializes o w turns nameOf s) (hfinished : s.Finished) :
    s.world = oneByOne o turns w s.lockOrder := by
  refine World.ext_slot h.coherent (h.covers "").coherent h.next fun n => h.slot n fun x hx => ?_
  exact absurd ((h.locked.mem_holders x.1 x.2).1 hx).1 (h.not_inside hfinished x.1)

/-- A request that took its lock was answered as it is one by one. -/
theorem gets_of_mem (h : Serializes o w turns nameOf s) (hfinished : s.Finished) {i : Nat}
    (hi : i ∈ s.lockOrder) :
    ∃ response, s.response? i = some response ∧ Gets o turns w s.lockOrder i response := by
  have hstage := (h.locked.mem_lockOrder i).1 hi
  cases ht : s.tasks[i]? with
  | none =>
    rw [Together.stage, ht] at hstage
    exact absurd rfl hstage
  | some t =>
    obtain ⟨turn, -, -, hphase⟩ := h.phase i t ht
    have hinside := h.not_inside hfinished i
    rw [Together.stage_of_task ht] at hstage hinside
    unfold Phase at hphase
    cases hof : LockStage.of t.log with
    | outside => exact absurd hof hstage
    | inside => exact absurd hof hinside
    | ended =>
      rw [hof] at hphase
      obtain ⟨response, hdone, hgets⟩ := hphase
      exact ⟨response, Together.response?_eq_some_iff.2 ⟨t, ht, hdone⟩, hgets⟩

/-- A request that took no lock is answered the same from any world, which it leaves as it is. -/
theorem idle_of_not_mem (h : Serializes o w turns nameOf s) (hfinished : s.Finished) {i : Nat}
    (hi : i ∉ s.lockOrder) {t : Task} (ht : s.tasks[i]? = some t) :
    ∃ turn response, turns[i]? = some turn ∧ s.response? i = some response ∧
      ∀ v, serveAlone o turn.conditions turn.request v = (response, ⟨v, t.log⟩) := by
  obtain ⟨turn, hturn, -, hphase⟩ := h.phase i t ht
  obtain ⟨response, hdone⟩ := hfinished.done ht
  have hstage : LockStage.of t.log = .outside := by
    by_cases hof : s.stage i = .outside
    · exact Together.stage_of_task ht ▸ hof
    · exact absurd ((h.locked.mem_lockOrder i).2 hof) hi
  unfold Phase at hphase
  rw [hstage] at hphase
  refine ⟨turn, response, hturn, Together.response?_eq_some_iff.2 ⟨t, ht, hdone⟩, fun v => ?_⟩
  have hrun := hphase v
  rw [hdone] at hrun
  exact hrun.symm

end Serializes

/-- A request that has no sandbox has nothing to do. -/
theorem handle_of_decode_error {r : Cni.Request} {e : Cni.CallError}
    (hdecode : decode o r.args = .error e) : ∃ response, handle o r = .done response := by
  refine ⟨.ofExcept (.error e), ?_⟩
  unfold handle serve add del checkCall
  rw [hdecode]
  cases r.command <;> rfl

/-- At the start nothing was served. -/
theorem serializes_start (hlimit : o.lockTimeout = none) (hsound : w.Sound nameOf)
    (huuid : ∀ t ∈ turns, ∀ n, nameOf (t.conditions.uuid n) = n) :
    Serializes o w turns nameOf (.start o w turns) := by
  refine ⟨hlimit ▸ keeps_start hsound huuid, Together.locked_start, fun i t ht => ?_,
    fun i t ht => ?_, hsound.coherent, fun c => covers_territoryOf hsound c, fun _ _ => rfl, rfl⟩
  · obtain ⟨turn, hturn, rfl⟩ := Together.start_task ht
    rw [territoryAt_eq hturn]
    cases hdecode : decode o turn.request.args with
    | error e => exact .inl (handle_of_decode_error hdecode)
    | ok c =>
      refine .inr ⟨turn, List.mem_of_getElem? hturn, c, hdecode, ?_⟩
      simp only [territoryOf, sandboxOf, hdecode]
  · obtain ⟨turn, hturn, rfl⟩ := Together.start_task ht
    exact ⟨turn, hturn, rfl, fun v => rfl⟩

/-- Requests that are served together, in any order of their steps, end like requests that are
served one after the other, in the order in which they took their locks: they get the same
responses and leave the same world.  A request that took no lock may come at any place. -/
theorem together_eq_oneByOne {schedule order : List Nat} (hlimit : o.lockTimeout = none)
    (hsound : w.Sound nameOf) (huuid : ∀ t ∈ turns, ∀ n, nameOf (t.conditions.uuid n) = n)
    (hseparate : Separate o w turns)
    (hfinished : ((Together.start o w turns).run schedule).Finished)
    (hperm : order.Perm (List.range turns.length))
    (horder : ((Together.start o w turns).run schedule).lockOrder.Sublist order) :
    ((Together.start o w turns).run schedule).world = oneByOne o turns w order ∧
      ∀ i, i < turns.length → ∃ response,
        ((Together.start o w turns).run schedule).response? i = some response ∧
          Gets o turns w order i response := by
  have h : Serializes o w turns nameOf ((Together.start o w turns).run schedule) :=
    Together.run_induction (fun s i hs => hs.step hseparate huuid i)
      (serializes_start hlimit hsound huuid) schedule
  have hlength := Together.length_run o w turns schedule
  generalize (Together.start o w turns).run schedule = s at *
  have htask : ∀ i, i < turns.length → ∃ t, s.tasks[i]? = some t := fun i hi =>
    ⟨_, List.getElem?_eq_getElem (hlength ▸ hi)⟩
  have hnodup : order.Nodup := hperm.nodup_iff.2 List.nodup_range
  have hidle : ∀ i ∈ order, i ∉ s.lockOrder → ∀ v, serveNext o turns v i = v := by
    intro i hi hnot v
    obtain ⟨t, ht⟩ := htask i (List.mem_range.1 (hperm.mem_iff.1 hi))
    obtain ⟨turn, response, hturn, -, hserve⟩ := h.idle_of_not_mem hfinished hnot ht
    rw [serveNext_eq hturn, hserve]
  refine ⟨?_, fun i hi => ?_⟩
  · rw [h.world_eq hfinished]
    exact (oneByOne_of_sublist horder hnodup hidle w).symm
  · by_cases hmem : i ∈ s.lockOrder
    · obtain ⟨response, hresponse, hgets⟩ := h.gets_of_mem hfinished hmem
      exact ⟨response, hresponse, hgets.of_sublist horder hnodup hidle⟩
    · obtain ⟨t, ht⟩ := htask i hi
      obtain ⟨turn, response, hturn, hresponse, hserve⟩ := h.idle_of_not_mem hfinished hmem ht
      obtain ⟨earlier, later, hsplit⟩ :=
        List.append_of_mem (hperm.mem_iff.2 (List.mem_range.2 hi))
      exact ⟨response, hresponse, earlier, later, turn, hsplit, hturn, by rw [hserve]⟩

/-! ## Other numbers -/

/-- The same request is served under the same conditions, but for the numbers. -/
structure Turn.Alike (t t' : Turn) : Prop where
  request : t'.request = t.request
  conditions : t.conditions.Alike t'.conditions

/-- What stands for each other when the same requests are served twice.  What was there at the start
is the same in both runs.  What a request is handed out in the first one stands for what the same
request is handed out, for the same purpose, in the second one. -/
def StandsFor {α κ : Type} (old : α → Prop) (handed : Turn → κ → α) (turns turns' : List Turn)
    (a a' : α) : Prop :=
  old a ∧ a = a' ∨ ∃ (i : Nat) (t t' : Turn) (k : κ), turns[i]? = some t ∧ turns'[i]? = some t' ∧
    a = handed t k ∧ a' = handed t' k

/-- Which UUIDs and numbers stand for each other when the same requests are served twice.  A UUID is
handed out for a name. -/
def handedOut (w : World) (turns turns' : List Turn) : Renaming where
  uuid := StandsFor w.HasUuid (fun t name => t.conditions.uuid name) turns turns'
  ofport := StandsFor w.HasOfport (fun t (_ : Unit) => t.conditions.ofport) turns turns'

/-- What requests are handed out was not there, and no two of them are handed out the same. -/
structure AllNew {α κ : Type} (old : α → Prop) (handed : Turn → κ → α) (turns : List Turn) :
    Prop where
  absent : ∀ t ∈ turns, ∀ k, ¬ old (handed t k)
  apart : ∀ (i j : Nat) (t u : Turn) (k l : κ), turns[i]? = some t → turns[j]? = some u →
    handed t k = handed u l → i = j ∧ k = l

/-- The UUIDs and numbers that requests are handed out are new in a world, and different. -/
structure HandsOutNew (w : World) (turns : List Turn) : Prop where
  uuid : AllNew w.HasUuid (fun t name => t.conditions.uuid name) turns
  ofport : AllNew w.HasOfport (fun t (_ : Unit) => t.conditions.ofport) turns

section

variable {α κ : Type} {old : α → Prop} {handed : Turn → κ → α} {turns turns' : List Turn}

theorem StandsFor.comm {a a' : α} (h : StandsFor old handed turns turns' a a') :
    StandsFor old handed turns' turns a' a := by
  rcases h with ⟨hold, rfl⟩ | ⟨i, t, t', k, ht, ht', rfl, rfl⟩
  · exact .inl ⟨hold, rfl⟩
  · exact .inr ⟨i, t', t, k, ht', ht, rfl, rfl⟩

/-- What is new in the second run stands for one thing only. -/
theorem AllNew.leftUnique (h : AllNew old handed turns') :
    Relator.LeftUnique (StandsFor old handed turns turns') := by
  intro a b c ha hb
  rcases ha with ⟨hold, rfl⟩ | ⟨i, t, t', k, ht, ht', rfl, rfl⟩
  · rcases hb with ⟨-, rfl⟩ | ⟨j, u, u', l, -, hu', rfl, rfl⟩
    · rfl
    · exact absurd hold (h.absent u' (List.mem_of_getElem? hu') l)
  · rcases hb with ⟨hold, rfl⟩ | ⟨j, u, u', l, hu, hu', rfl, hsame⟩
    · exact absurd hold (h.absent t' (List.mem_of_getElem? ht') k)
    · obtain ⟨rfl, rfl⟩ := h.apart i j t' u' k l ht' hu' hsame
      rw [Option.some.inj (ht.symm.trans hu)]

theorem AllNew.biUnique (h : AllNew old handed turns) (h' : AllNew old handed turns') :
    Relator.BiUnique (StandsFor old handed turns turns') :=
  ⟨h'.leftUnique, fun _ _ _ hb hc => h.leftUnique hb.comm hc.comm⟩

end

section

variable {turns' : List Turn} {nameOf' : String → String} {v v' : World} {order : List Nat}
  {i : Nat} {t t' : Turn} {response : Cni.Response}

theorem hands_handedOut (w : World) (ht : turns[i]? = some t) (ht' : turns'[i]? = some t') :
    (handedOut w turns turns').Hands t.conditions t'.conditions where
  uuid name := .inr ⟨i, t, t', name, ht, ht', rfl, rfl⟩
  ofport := .inr ⟨i, t, t', (), ht, ht', rfl, rfl⟩

theorem renamed_handedOut (w : World) (turns turns' : List Turn) :
    w.Renamed (handedOut w turns turns') w :=
  World.renamed_self (fun _ hu => .inl ⟨hu, rfl⟩) fun _ hn => .inl ⟨hn, rfl⟩

/-- Where both runs are handed out new numbers, these stand for each other one to one. -/
theorem oneToOne_handedOut (h : HandsOutNew w turns) (h' : HandsOutNew w turns') :
    (handedOut w turns turns').OneToOne where
  uuid := h.uuid.biUnique h'.uuid
  ofport := h.ofport.biUnique h'.ofport

theorem alike_turn (halike : List.Forall₂ Turn.Alike turns turns') (ht : turns[i]? = some t) :
    ∃ t', turns'[i]? = some t' ∧ t.Alike t' := by
  obtain ⟨hi, rfl⟩ := List.getElem?_eq_some_iff.1 ht
  have hi' : i < turns'.length := halike.length_eq ▸ hi
  exact ⟨turns'[i], List.getElem?_eq_getElem hi', halike.get hi hi'⟩

/-- The worlds that two runs have come to, if other numbers were handed out in the second one. -/
structure Renumbered (o : Options) (w : World) (turns turns' : List Turn)
    (nameOf nameOf' : String → String) (v v' : World) : Prop where
  twin : v.Twin (handedOut w turns turns') (IsSandbox o turns) nameOf nameOf' v'
  covers : ∀ c, (territoryOf o w turns nameOf c).Covers v

/-- A record of another sandbox is not where an interface is planned. -/
theorem Renumbered.containerId_eq (h : Renumbered o w turns turns' nameOf nameOf' v v')
    (hseparate : Separate o w turns) (ht : t ∈ turns) {c : Cni.Call} {res : Cni.Result} {p : Plan}
    (hplans : Plans o t.conditions t.request c res p) {a : Attachment}
    (ha : (v.slot p.hostIfname).record = some a) (hsandbox : IsSandbox o turns a.containerId) :
    a.containerId = c.containerId := by
  have hc : IsSandbox o turns c.containerId :=
    ⟨t, ht, c, hplans.decoded, infraContainerId_of_isInfra hplans.decoded hplans.infra⟩
  have howns : Uses o w turns a.containerId p.hostIfname := (h.covers a.containerId).owns ha rfl
  have hplanned : Uses o w turns c.containerId p.hostIfname :=
    .inr ⟨t, ht, c, res, p, hplans, rfl, rfl⟩
  exact hseparate _ _ hsandbox hc _ howns hplanned

theorem Renumbered.serve (h : Renumbered o w turns turns' nameOf nameOf' v v')
    (hseparate : Separate o w turns) (huuid : ∀ t ∈ turns, ∀ n, nameOf (t.conditions.uuid n) = n)
    (huuid' : ∀ t ∈ turns', ∀ n, nameOf' (t.conditions.uuid n) = n) (ht : turns[i]? = some t)
    (ht' : turns'[i]? = some t') (halike : t.Alike t') :
    Renumbered o w turns turns' nameOf nameOf' (serveAlone o t.conditions t.request v).2.world
        (serveAlone o t'.conditions t'.request v').2.world ∧
      (serveAlone o t.conditions t.request v).1 =
        (serveAlone o t'.conditions t'.request v').1 := by
  have hmem := List.mem_of_getElem? ht
  rw [halike.request]
  obtain ⟨htwin, hresponse⟩ := serveAlone_twin (huuid t hmem)
    (huuid' t' (List.mem_of_getElem? ht')) h.twin (hands_handedOut w ht ht') halike.conditions
    (fun c hdecode => ⟨t, hmem, c, hdecode, rfl⟩)
    fun c res p hplans a ha hsandbox => h.containerId_eq hseparate hmem hplans ha hsandbox
  exact ⟨⟨htwin, (territories_serveAlone huuid hmem h.covers).1⟩, hresponse⟩

/-- Requests that are served one after the other leave the same world, up to the numbers. -/
theorem Renumbered.serveAll (h : Renumbered o w turns turns' nameOf nameOf' v v')
    (hseparate : Separate o w turns) (huuid : ∀ t ∈ turns, ∀ n, nameOf (t.conditions.uuid n) = n)
    (huuid' : ∀ t ∈ turns', ∀ n, nameOf' (t.conditions.uuid n) = n)
    (halike : List.Forall₂ Turn.Alike turns turns') (order : List Nat) :
    Renumbered o w turns turns' nameOf nameOf' (oneByOne o turns v order)
      (oneByOne o turns' v' order) := by
  induction order generalizing v v' with
  | nil => exact h
  | cons i order ih =>
    have hnext : Renumbered o w turns turns' nameOf nameOf' (serveNext o turns v i)
        (serveNext o turns' v' i) := by
      cases ht : turns[i]? with
      | none =>
        have ht' : turns'[i]? = none := by
          rw [List.getElem?_eq_none_iff] at ht ⊢
          exact halike.length_eq ▸ ht
        simp only [serveNext, ht, ht']
        exact h
      | some t =>
        obtain ⟨t', ht', hsame⟩ := alike_turn halike ht
        rw [serveNext_eq ht, serveNext_eq ht']
        exact (h.serve hseparate huuid huuid' ht ht' hsame).1
    exact ih hnext

/-- Requests that are served one after the other get the same responses, whatever numbers are
handed out. -/
theorem Renumbered.gets (h : Renumbered o w turns turns' nameOf nameOf' v v')
    (hseparate : Separate o w turns) (huuid : ∀ t ∈ turns, ∀ n, nameOf (t.conditions.uuid n) = n)
    (huuid' : ∀ t ∈ turns', ∀ n, nameOf' (t.conditions.uuid n) = n)
    (halike : List.Forall₂ Turn.Alike turns turns') (hgets : Gets o turns v order i response) :
    Gets o turns' v' order i response := by
  obtain ⟨earlier, later, t, rfl, ht, rfl⟩ := hgets
  obtain ⟨t', ht', hsame⟩ := alike_turn halike ht
  refine ⟨earlier, later, t', rfl, ht', ?_⟩
  exact ((h.serveAll hseparate huuid huuid' halike earlier).serve hseparate huuid huuid' ht ht'
    hsame).2

end

/-- Requests that are served together, in any order of their steps, end like requests that are
served one after the other, in the order in which they took their locks.  If each is handed out the
same UUIDs and OpenFlow number in both runs, they get the same responses and leave the same world.
If they are handed out others in the second run, they get the same responses too, and each number
in the world that they leave stands for the number in its place in the other world, one to one where
no number is handed out twice.  A request that took no lock may come at any place. -/
theorem together_alike_oneByOne {schedule order : List Nat} (hlimit : o.lockTimeout = none)
    (hsound : w.Sound nameOf) (huuid : ∀ t ∈ turns, ∀ n, nameOf (t.conditions.uuid n) = n)
    (hseparate : Separate o w turns)
    (hfinished : ((Together.start o w turns).run schedule).Finished)
    (hperm : order.Perm (List.range turns.length))
    (horder : ((Together.start o w turns).run schedule).lockOrder.Sublist order) :
    (((Together.start o w turns).run schedule).world = oneByOne o turns w order ∧
      ∀ i, i < turns.length → ∃ response,
        ((Together.start o w turns).run schedule).response? i = some response ∧
          Gets o turns w order i response) ∧
    ∀ (turns' : List Turn) (nameOf' : String → String), w.Sound nameOf' →
      (∀ t ∈ turns', ∀ n, nameOf' (t.conditions.uuid n) = n) →
      List.Forall₂ Turn.Alike turns turns' →
      ((Together.start o w turns).run schedule).world.Renamed (handedOut w turns turns')
          (oneByOne o turns' w order) ∧
        (HandsOutNew w turns → HandsOutNew w turns' → (handedOut w turns turns').OneToOne) ∧
        ∀ i, i < turns.length → ∃ response,
          ((Together.start o w turns).run schedule).response? i = some response ∧
            Gets o turns' w order i response := by
  obtain ⟨hworld, hresponses⟩ :=
    together_eq_oneByOne hlimit hsound huuid hseparate hfinished hperm horder
  refine ⟨⟨hworld, hresponses⟩, fun turns' nameOf' hsound' huuid' halike => ?_⟩
  have hstart : Renumbered o w turns turns' nameOf nameOf' w w :=
    ⟨.refl hsound hsound' (renamed_handedOut w turns turns'), covers_territoryOf hsound⟩
  refine ⟨?_, oneToOne_handedOut, fun i hi => ?_⟩
  · rw [hworld]
    exact (hstart.serveAll hseparate huuid huuid' halike order).twin.renamed
  · obtain ⟨response, hresponse, hgets⟩ := hresponses i hi
    exact ⟨response, hresponse, hstart.gets hseparate huuid huuid' halike hgets⟩

namespace Sample

/-- A request for one sandbox, and what it is handed out. -/
def rival (command : Cni.Command) (tag : String) (ofport : Nat) : Turn :=
  ⟨⟨command, args "c1"⟩,
    { conditions (fun _ => none) with uuid := fun name => tag ++ name, ofport }⟩

/-- Two Adds and a Del; each tag is that of the UUIDs of one of them. -/
def rivals (numbers : List (String × Nat)) : List Turn :=
  List.zipWith (fun command number => rival command number.1 number.2) [.add, .add, .del] numbers

/-- Numbers for one run. -/
def numbers : List (String × Nat) := [("uuid-", 10), ("next-", 11), ("last-", 12)]

/-- Other numbers. -/
def others : List (String × Nat) := [("port-", 20), ("more-", 21), ("rest-", 22)]

/-- Each takes one step after the other. -/
def inTurns : List Nat :=
  (List.replicate 30 [0, 1, 2]).flatten

theorem exists_of_getElem?_rivals {l : List (String × Nat)} {i : Nat} {t : Turn}
    (ht : (rivals l)[i]? = some t) :
    ∃ command number, l[i]? = some number ∧ t = rival command number.1 number.2 := by
  obtain ⟨command, number, -, hnumber, rfl⟩ := List.getElem?_zipWith_eq_some.1 ht
  exact ⟨command, number, hnumber, rfl⟩

theorem separate_rivals (l : List (String × Nat)) : Separate {} {} (rivals l) := by
  have hsandbox : ∀ c, IsSandbox {} (rivals l) c → c = (call "c1").infraContainerId := by
    rintro c ⟨t, ht, c', hdecode, rfl⟩
    obtain ⟨i, hi⟩ := List.getElem?_of_mem ht
    obtain ⟨command, number, -, rfl⟩ := exists_of_getElem?_rivals hi
    have hcall : decode {} (args "c1") = .ok (call "c1") := eq_ok_getD (by decide +kernel) default
    rw [Except.ok.inj (hcall.symm.trans hdecode)]
  intro c c' hc hc' n _ _
  rw [hsandbox c hc, hsandbox c' hc']

/-- Tags of five characters tell for which name a UUID was handed out. -/
theorem nameOf_rivals {l : List (String × Nat)} (htags : ∀ e ∈ l, e.1.toList.length = 5) :
    ∀ t ∈ rivals l, ∀ n, Sample.nameOf (t.conditions.uuid n) = n := by
  intro t ht n
  obtain ⟨i, hi⟩ := List.getElem?_of_mem ht
  obtain ⟨command, number, hnumber, rfl⟩ := exists_of_getElem?_rivals hi
  exact nameOf_append (htags _ (List.mem_of_getElem? hnumber)) n

/-- In a list whose elements have different images, elements with one image are at one place. -/
theorem eq_of_getElem?_map {α β : Type} {f : α → β} {l : List α} (hl : (l.map f).Nodup) {i j : Nat}
    {a b : α} (ha : l[i]? = some a) (hb : l[j]? = some b) (h : f a = f b) : i = j := by
  have hi : i < (l.map f).length := by
    rw [List.length_map]
    exact (List.getElem?_eq_some_iff.1 ha).1
  refine (List.getElem?_inj hi hl).1 ?_
  rw [List.getElem?_map, List.getElem?_map, ha, hb, Option.map_some, Option.map_some, h]

theorem handsOutNew_rivals {l : List (String × Nat)} (htags : ∀ e ∈ l, e.1.toList.length = 5)
    (hapart : (l.map Prod.fst).Nodup) (hofports : (l.map Prod.snd).Nodup) :
    HandsOutNew {} (rivals l) where
  uuid.absent t _ name := by
    rintro ⟨n, ⟨p, hp, -⟩ | ⟨a, q, ha, -⟩⟩
    · cases hp
    · cases ha
  uuid.apart i j t u n m ht hu hsame := by
    obtain ⟨command, number, hnumber, rfl⟩ := exists_of_getElem?_rivals ht
    obtain ⟨command', number', hnumber', rfl⟩ := exists_of_getElem?_rivals hu
    have hchars : number.1.toList ++ n.toList = number'.1.toList ++ m.toList := by
      rw [← String.toList_append, ← String.toList_append]
      exact congrArg String.toList hsame
    obtain ⟨htag, hname⟩ := List.append_inj hchars
      ((htags _ (List.mem_of_getElem? hnumber)).trans
        (htags _ (List.mem_of_getElem? hnumber')).symm)
    exact ⟨eq_of_getElem?_map hapart hnumber hnumber' (String.toList_inj.1 htag),
      String.toList_inj.1 hname⟩
  ofport.absent t _ _ := by
    rintro ⟨n, ⟨p, hp, -⟩ | ⟨a, q, ha, -⟩ | hflows⟩
    · cases hp
    · cases ha
    · cases hflows
  ofport.apart i j t u _ _ ht hu hsame := by
    obtain ⟨command, number, hnumber, rfl⟩ := exists_of_getElem?_rivals ht
    obtain ⟨command', number', hnumber', rfl⟩ := exists_of_getElem?_rivals hu
    exact ⟨eq_of_getElem?_map hofports hnumber hnumber' hsame, rfl⟩

theorem alike_rivals : List.Forall₂ Turn.Alike (rivals numbers) (rivals others) := by
  have hrival : ∀ command tag tag' ofport ofport',
      (rival command tag ofport).Alike (rival command tag' ofport') :=
    fun _ _ _ _ _ => ⟨rfl, rfl, rfl, rfl, rfl, rfl⟩
  exact .cons (hrival ..) (.cons (hrival ..) (.cons (hrival ..) .nil))

end Sample

/-- The Del comes first, as it does not wait for the network; one Add attaches the sandbox, and
the other one finds it attached. -/
theorem rivals_in_order_of_locks :
    ((Together.start {} {} (Sample.rivals Sample.numbers)).run Sample.inTurns).lockOrder =
        [2, 0, 1] ∧
      ((Together.start {} {} (Sample.rivals Sample.numbers)).run Sample.inTurns).world =
        oneByOne {} (Sample.rivals Sample.numbers) {} [2, 0, 1] ∧
      ((Together.start {} {} (Sample.rivals Sample.numbers)).run Sample.inTurns).world.Renamed
        (handedOut {} (Sample.rivals Sample.numbers) (Sample.rivals Sample.others))
        (oneByOne {} (Sample.rivals Sample.others) {} [2, 0, 1]) ∧
      (handedOut {} (Sample.rivals Sample.numbers) (Sample.rivals Sample.others)).OneToOne ∧
      (oneByOne {} (Sample.rivals Sample.others) {} [2, 0, 1]).Attached "c1" := by
  have horder : ((Together.start {} {} (Sample.rivals Sample.numbers)).run
      Sample.inTurns).lockOrder = [2, 0, 1] := by decide +kernel
  have htags : ∀ e ∈ Sample.numbers, e.1.toList.length = 5 := by decide
  have htags' : ∀ e ∈ Sample.others, e.1.toList.length = 5 := by decide
  have hempty := World.sound_empty Sample.nameOf
  have hfinished : ((Together.start {} {} (Sample.rivals Sample.numbers)).run
      Sample.inTurns).Finished := by decide +kernel
  have hperm : [2, 0, 1].Perm (List.range (Sample.rivals Sample.numbers).length) := by decide
  have hsublist : ((Together.start {} {} (Sample.rivals Sample.numbers)).run
      Sample.inTurns).lockOrder.Sublist [2, 0, 1] := by rw [horder]
  obtain ⟨⟨hworld, -⟩, hothers⟩ := together_alike_oneByOne rfl hempty
    (Sample.nameOf_rivals htags) (Sample.separate_rivals _) hfinished hperm hsublist
  obtain ⟨hrenamed, honeToOne, -⟩ :=
    hothers _ _ hempty (Sample.nameOf_rivals htags') Sample.alike_rivals
  exact ⟨horder, hworld, hrenamed,
    honeToOne (Sample.handsOutNew_rivals htags (by decide) (by decide))
      (Sample.handsOutNew_rivals htags' (by decide) (by decide)), by decide +kernel⟩

end PodAttach.Agent
