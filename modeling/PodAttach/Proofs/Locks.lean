import PodAttach.Proofs.Together

/-!
# Who has a lock

`LockStage` says where a request stands with its lock, by what it asked.
`Locked` is the invariant that ties this to the arbiter: the holders are those
that are inside, no two of them have the same key, and `lockOrder` lists each
task once that has taken its lock.  `Locked.step` has one case for taking a
lock, one for giving it back and one for all other steps.
-/

namespace PodAttach.Agent

namespace Together

/-- Where a request stands with its lock. -/
def stage (s : Together) (i : Nat) : LockStage :=
  match s.tasks[i]? with
  | some t => .of t.log
  | none => .outside

theorem stage_of_task {s : Together} {i : Nat} {t : Task} (ht : s.tasks[i]? = some t) :
    s.stage i = .of t.log := by
  rw [stage, ht]

section

variable {s : Together} {i : Nat} {t : Task} {q : Ask}
  {next : q.Reply → Activity Cni.Response} {arbiter : Arbiter Nat}

/-- The stages after an answer. -/
theorem stage_answer (ht : s.tasks[i]? = some t) (j : Nat) :
    (s.answer i t q next arbiter).stage j =
      if j = i then (s.stage i).after q
        (s.world.meet t.conditions (t.conditions.mishap t.log.length) q).1
      else s.stage j := by
  by_cases hij : j = i
  · subst hij
    have hlt : j < s.tasks.length := (List.getElem?_eq_some_iff.1 ht).1
    rw [if_pos rfl, stage_of_task ht]
    simp only [stage, answer, List.getElem?_set_self hlt]
    rfl
  · rw [if_neg hij]
    simp only [stage, answer, List.getElem?_set_ne (Ne.symm hij)]

/-- The order of the locks after an answer. -/
theorem lockOrder_answer :
    (s.answer i t q next arbiter).lockOrder =
      if Event.locks ⟨q, (s.world.meet t.conditions (t.conditions.mishap t.log.length) q).1⟩ then
        s.lockOrder ++ [i]
      else s.lockOrder := by
  unfold lockOrder answer
  split
  · next hlocks => simp [hlocks]
  · next hlocks => simp [hlocks]

end

/-- Who holds a lock is inside, and holds the one of its territory; every lock has one holder.
Each task takes its lock once. -/
structure Locked (T : Nat → Territory) (s : Together) : Prop where
  mem_holders : ∀ i key, (i, key) ∈ s.arbiter.holders ↔
    s.stage i = .inside ∧ key = (T i).container
  keys : ∀ i j, s.stage i = .inside → s.stage j = .inside →
    (T i).container = (T j).container → i = j
  nodup : s.lockOrder.Nodup
  mem_lockOrder : ∀ i, i ∈ s.lockOrder ↔ s.stage i ≠ .outside

/-- Where a lock is free, no one is inside with it. -/
theorem Locked.ne_of_free {T : Nat → Territory} {s : Together} (h : s.Locked T) {key : String}
    (hfree : s.arbiter.isBusy key = false) {j : Nat} (hj : s.stage j = .inside) :
    (T j).container ≠ key := by
  intro heq
  have hheld : (j, key) ∈ s.arbiter.holders := (h.mem_holders ..).2 ⟨hj, heq.symm⟩
  have hbusy : s.arbiter.isBusy key = true := List.any_eq_true.2 ⟨_, hheld, by simp⟩
  simp [hfree] at hbusy

/-- The stages after a request took its lock. -/
theorem Locked.acquire {T : Nat → Territory} {s s' : Together} (h : s.Locked T) {i : Nat}
    (hstage : s.stage i = .outside) (hfree : s.arbiter.isBusy (T i).container = false)
    (hholders : s'.arbiter.holders = s.arbiter.holders ++ [(i, (T i).container)])
    (hstages : ∀ j, s'.stage j = if j = i then .inside else s.stage j)
    (horder : s'.lockOrder = s.lockOrder ++ [i]) : s'.Locked T where
  mem_holders j key := by
    rw [hholders, hstages, List.mem_append, h.mem_holders, List.mem_singleton, Prod.mk.injEq]
    by_cases hij : j = i
    · subst hij
      simp [hstage]
    · simp [hij]
  keys j j' hj hj' heq := by
    -- the lock was free, so the others that are inside have other keys
    have hother : ∀ j, s.stage j = .inside → (T j).container ≠ (T i).container :=
      fun j hj => h.ne_of_free hfree hj
    rw [hstages] at hj hj'
    by_cases hij : j = i <;> by_cases hij' : j' = i
    · rw [hij, hij']
    · rw [if_neg hij'] at hj'
      exact absurd (heq.symm.trans (congrArg _ (congrArg T hij))) (hother j' hj')
    · rw [if_neg hij] at hj
      exact absurd (heq.trans (congrArg _ (congrArg T hij'))) (hother j hj)
    · rw [if_neg hij] at hj
      rw [if_neg hij'] at hj'
      exact h.keys j j' hj hj' heq
  nodup := by
    -- who takes a lock was outside, and so is not in the list
    rw [horder, List.nodup_append]
    refine ⟨h.nodup, by simp, fun j hj j' hj' heq => ?_⟩
    obtain rfl := List.mem_singleton.1 hj'
    subst heq
    exact (h.mem_lockOrder j).1 hj hstage
  mem_lockOrder j := by
    rw [horder, hstages, List.mem_append, h.mem_lockOrder, List.mem_singleton]
    by_cases hij : j = i
    · simp [hij]
    · simp [hij]

/-- The stages after a request gave its lock back. -/
theorem Locked.release {T : Nat → Territory} {s s' : Together} (h : s.Locked T) {i : Nat}
    (hstage : s.stage i = .inside)
    (hholders : s'.arbiter.holders = s.arbiter.holders.filter fun x => x.2 != (T i).container)
    (hstages : ∀ j, s'.stage j = if j = i then .ended else s.stage j)
    (horder : s'.lockOrder = s.lockOrder) : s'.Locked T where
  mem_holders j key := by
    rw [hholders, hstages, List.mem_filter, h.mem_holders]
    rw [bne_iff_ne]
    by_cases hij : j = i
    · subst hij
      simp
    · rw [if_neg hij]
      refine and_iff_left_of_imp ?_
      rintro ⟨hj, rfl⟩ heq
      exact hij (h.keys j i hj hstage heq)
  keys j j' hj hj' heq := by
    rw [hstages] at hj hj'
    by_cases hij : j = i
    · simp [hij] at hj
    · by_cases hij' : j' = i
      · simp [hij'] at hj'
      · rw [if_neg hij] at hj
        rw [if_neg hij'] at hj'
        exact h.keys j j' hj hj' heq
  nodup := horder ▸ h.nodup
  mem_lockOrder j := by
    rw [horder, hstages, h.mem_lockOrder]
    by_cases hij : j = i
    · subst hij
      simp [hstage]
    · simp [hij]

/-- Nothing happened with the locks. -/
theorem Locked.of_same {T : Nat → Territory} {s s' : Together} (h : s.Locked T)
    (hholders : s'.arbiter.holders = s.arbiter.holders) (hstages : ∀ j, s'.stage j = s.stage j)
    (horder : s'.lockOrder = s.lockOrder) : s'.Locked T where
  mem_holders j key := by rw [hholders, hstages, h.mem_holders]
  keys j j' := by
    rw [hstages, hstages]
    exact h.keys j j'
  nodup := horder ▸ h.nodup
  mem_lockOrder j := by rw [horder, hstages, h.mem_lockOrder]

theorem meet_acquire (k : Conditions) (w : World) (m : Option Mishap) (key : String)
    (limit : Option Duration) : w.meet k m (.acquire key limit) = (true, w) := by
  cases m <;> rfl

theorem Locked.step {T : Nat → Territory} {limit : Option Duration} {s : Together}
    (h : s.Locked T) (hkeeps : s.Keeps T limit) (i : Nat) : (s.step i).Locked T := by
  rcases s.step_cases i with ⟨arbiter, hstep, hholders⟩ | ⟨t, q, next, ht, hwork, hgate, hstep⟩
  · rw [hstep]
    exact h.of_same hholders (fun _ => rfl) rfl
  · rw [hstep]
    have hasks := hkeeps.asks ht hwork
    rw [← stage_of_task ht] at hasks
    have hstages : ∀ j, (s.answer i t q next (gate s.arbiter i q).2).stage j = _ :=
      stage_answer ht
    have horder : (s.answer i t q next (gate s.arbiter i q).2).lockOrder = _ := lockOrder_answer
    cases q with
    | acquire key l =>
      obtain ⟨hstage, rfl, rfl⟩ := hasks
      obtain ⟨hfree, hholders⟩ := gate_acquire hgate
      rw [meet_acquire] at hstages horder
      exact h.acquire hstage hfree hholders hstages horder
    | release key =>
      obtain ⟨hstage, rfl⟩ := hasks
      exact h.release hstage rfl hstages horder
    | _ =>
      refine h.of_same rfl (fun j => (hstages j).trans ?_) horder
      split
      · next hij => rw [hij]; rfl
      · rfl

/-- At the start no one has a lock. -/
theorem locked_start {T : Nat → Territory} {o : Options} {w : World} {turns : List Turn} :
    (start o w turns).Locked T := by
  have hstage : ∀ i, (start o w turns).stage i = .outside := by
    intro i
    unfold stage
    split
    · next t ht =>
      obtain ⟨turn, -, rfl⟩ := start_task ht
      rfl
    · rfl
  refine ⟨fun i key => ?_, fun i j hi => ?_, List.nodup_nil, fun i => ?_⟩
  · rw [hstage]
    exact ⟨fun h => absurd h List.not_mem_nil, fun h => nomatch h.1⟩
  · cases (hstage i).symm.trans hi
  · rw [hstage]
    exact ⟨fun h => absurd h List.not_mem_nil, fun h => absurd rfl h⟩

end Together

end PodAttach.Agent
