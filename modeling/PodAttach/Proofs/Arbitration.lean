import PodAttach.Agent.Arbiter

/-!
# Arbitration step by step

`Arbiter` takes, waits and gives back in one go.  On a node that has several
processors other tasks may come between: after a task registered to be
notified and before it tries to take its key, and after a key was given back
and before those that wait are notified.  Here every such point is a `Phase`
of its own, and any task may take the next step.

* `Arbitration.Step` lists the steps, and `Arbitration.Reachable` the states they lead to.
* `Arbitration.Sound` is the invariant over the phases of all tasks, and `Sound.step` keeps it.
* `arbitrated_of_reachable`: keys are held by one task each, and no one sleeps who will not be
  woken.
* `Arbiter.Reached` are the arbiters that come about by whole operations.  Each of them shows a
  state that the single steps reach (`Reached.shown`), so what is proved of these states is
  true of it: `Reached.waits_for_busy`.
-/

namespace PodAttach.Agent

variable {ι : Type}

/-! ## Phases and steps -/

/-- Where a task is that may take a key. -/
inductive Arbitration.Phase where
  | idle
  /-- It wants a key, and is not registered yet. -/
  | wanting (key : String)
  /-- It is registered to be notified, and may have been. -/
  | registered (key : String) (notified : Bool)
  /-- It found its key busy, and goes to sleep next. -/
  | refused (key : String) (notified : Bool)
  | asleep (key : String) (notified : Bool)
  /-- It has a guard of the key. -/
  | holding (key : String)
  /-- Its guard is being dropped, and the key was not removed yet. -/
  | removing (key : String)
  /-- The key was removed, and those who wait were not notified yet. -/
  | notifying (key : String)
  /-- It gave up waiting for the key. -/
  | cancelled (key : String)
  deriving DecidableEq, Repr

namespace Arbitration.Phase

/-- The key that nobody else can take. -/
def guarded : Phase → Option String
  | .holding key => some key
  | .removing key => some key
  | _ => none

/-- The key of a lock that is pending, and can be cancelled. -/
def pending : Phase → Option String
  | .wanting key => some key
  | .registered key _ => some key
  | .refused key _ => some key
  | .asleep key _ => some key
  | _ => none

/-- A key that was found busy by a task that was not notified since. -/
def unnotified : Phase → Option String
  | .refused key false => some key
  | .asleep key false => some key
  | _ => none

/-- Whoever is registered is notified. -/
def notify : Phase → Phase
  | .registered key _ => .registered key true
  | .refused key _ => .refused key true
  | .asleep key _ => .asleep key true
  | phase => phase

/-- Whether a task may begin to want a key. -/
def isFree : Phase → Bool
  | .idle => true
  | .cancelled _ => true
  | _ => false

@[simp]
theorem guarded_notify (phase : Phase) : phase.notify.guarded = phase.guarded := by
  cases phase <;> rfl

@[simp]
theorem isFree_notify (phase : Phase) : phase.notify.isFree = phase.isFree := by
  cases phase <;> rfl

@[simp]
theorem unnotified_notify (phase : Phase) : phase.notify.unnotified = none := by
  cases phase <;> rfl

theorem notify_eq_holding {phase : Phase} {key : String} :
    phase.notify = .holding key ↔ phase = .holding key := by
  cases phase <;> simp [notify]

theorem notify_eq_asleep {phase : Phase} {key : String} {notified : Bool} :
    phase.notify = .asleep key notified ↔ notified = true ∧ ∃ n, phase = .asleep key n := by
  cases phase <;> simp [notify, eq_comm, and_comm]

theorem guarded_iff {phase : Phase} {key : String} :
    phase.guarded = some key ↔ phase = .holding key ∨ phase = .removing key := by
  cases phase <;> simp [guarded]

end Arbitration.Phase

/-- The locks and the tasks that take them. -/
structure Arbitration (ι : Type) where
  /-- The keys that are taken. -/
  busy : String → Bool
  phase : ι → Arbitration.Phase
  /-- How often a key was taken so far. -/
  acquisitions : Nat

namespace Arbitration

/-- No key is taken, and no task wants one. -/
def start : Arbitration ι := ⟨fun _ => false, fun _ => .idle, 0⟩

/-- Whether a key is taken is set. -/
def mark (s : Arbitration ι) (key : String) (busy : Bool) : Arbitration ι :=
  { s with busy := fun k => if k = key then busy else s.busy k }

/-- A key was taken once more. -/
def count (s : Arbitration ι) : Arbitration ι :=
  { s with acquisitions := s.acquisitions + 1 }

/-- All who are registered are notified. -/
def notifyAll (s : Arbitration ι) : Arbitration ι :=
  { s with phase := fun j => (s.phase j).notify }

variable {s s' : Arbitration ι} {i j : ι} {key : String} {phase : Phase}

@[simp]
theorem phase_mark (key : String) (busy : Bool) : (s.mark key busy).phase = s.phase := rfl

@[simp]
theorem phase_count : s.count.phase = s.phase := rfl

@[simp]
theorem phase_notifyAll : s.notifyAll.phase i = (s.phase i).notify := rfl

@[simp]
theorem busy_mark (key k : String) (busy : Bool) :
    (s.mark key busy).busy k = if k = key then busy else s.busy k := rfl

@[simp]
theorem busy_count : s.count.busy = s.busy := rfl

@[simp]
theorem busy_notifyAll : s.notifyAll.busy = s.busy := rfl

/-- What all steps keep. -/
structure Sound (s : Arbitration ι) : Prop where
  /-- A key is taken exactly if a task has a guard of it that has not removed it yet. -/
  busy : ∀ key, s.busy key = true ↔ ∃ i, (s.phase i).guarded = some key
  /-- No two guards have the same key. -/
  exclusive : ∀ i j key, (s.phase i).guarded = some key → (s.phase j).guarded = some key → i = j
  /-- Who found its key busy and was not notified since will be. -/
  wakes : ∀ i key, (s.phase i).unnotified = some key →
    s.busy key = true ∨ ∃ j, s.phase j = .notifying key

theorem sound_start : (start : Arbitration ι).Sound where
  busy key := ⟨nofun, fun ⟨_, h⟩ => by cases h⟩
  exclusive _ _ _ h := by cases h
  wakes _ _ h := by cases h

variable [DecidableEq ι]

/-- A task comes to another phase. -/
def move (s : Arbitration ι) (i : ι) (phase : Phase) : Arbitration ι :=
  { s with phase := fun j => if j = i then phase else s.phase j }

@[simp]
theorem busy_move : (s.move i phase).busy = s.busy := rfl

@[simp]
theorem move_self : (s.move i phase).phase i = phase := if_pos rfl

theorem move_of_ne (h : j ≠ i) : (s.move i phase).phase j = s.phase j := if_neg h

/-- What is true of the new phase of one task and of the phases of all others. -/
theorem forall_move {P : ι → Phase → Prop} (hself : P i phase)
    (hothers : ∀ j, j ≠ i → P j (s.phase j)) : ∀ j, P j ((s.move i phase).phase j) := by
  intro j
  by_cases hj : j = i
  · subst hj
    rw [move_self]
    exact hself
  · rw [move_of_ne hj]
    exact hothers j hj

/-- One step of one task. -/
inductive Step (s : Arbitration ι) : Arbitration ι → Prop
  | want {i : ι} (key : String) (h : (s.phase i).isFree = true) : Step s (s.move i (.wanting key))
  | register {i : ι} {key : String} (h : s.phase i = .wanting key) :
      Step s (s.move i (.registered key false))
  | take {i : ι} {key : String} {notified : Bool} (h : s.phase i = .registered key notified)
      (hfree : s.busy key = false) :
      Step s ((s.move i (.holding key)).mark key true).count
  | refuse {i : ι} {key : String} {notified : Bool} (h : s.phase i = .registered key notified)
      (hbusy : s.busy key = true) : Step s (s.move i (.refused key notified))
  | sleep {i : ι} {key : String} {notified : Bool} (h : s.phase i = .refused key notified) :
      Step s (s.move i (.asleep key notified))
  | wake {i : ι} {key : String} (h : s.phase i = .asleep key true) :
      Step s (s.move i (.wanting key))
  | cancel {i : ι} {key : String} (h : (s.phase i).pending = some key) :
      Step s (s.move i (.cancelled key))
  | drop {i : ι} {key : String} (h : s.phase i = .holding key) : Step s (s.move i (.removing key))
  | remove {i : ι} {key : String} (h : s.phase i = .removing key) :
      Step s ((s.move i (.notifying key)).mark key false)
  | notify {i : ι} {key : String} (h : s.phase i = .notifying key) :
      Step s (s.notifyAll.move i .idle)

/-- What can come about, in any order of steps. -/
inductive Reachable : Arbitration ι → Prop
  | start : Reachable start
  | step {s s' : Arbitration ι} (h : Reachable s) (hstep : s.Step s') : Reachable s'

/-! ## The invariant -/

/-- A task that keeps its guard, or goes without one, disturbs no one. -/
theorem Sound.moved (h : s.Sound) (hguarded : phase.guarded = (s.phase i).guarded)
    (hnotifying : ∀ key, s.phase i ≠ .notifying key)
    (hunnotified : ∀ key, phase.unnotified = some key →
      s.busy key = true ∨ (s.phase i).unnotified = some key) : (s.move i phase).Sound := by
  have hsame : ∀ j, ((s.move i phase).phase j).guarded = (s.phase j).guarded :=
    forall_move (P := fun j p => p.guarded = (s.phase j).guarded) hguarded fun _ _ => rfl
  have hstill : ∀ key, (∃ j, s.phase j = .notifying key) →
      ∃ j, (s.move i phase).phase j = .notifying key := by
    rintro key ⟨j, hj⟩
    have hne : j ≠ i := by
      rintro rfl
      exact hnotifying key hj
    exact ⟨j, (move_of_ne hne).trans hj⟩
  refine ⟨fun key => ?_, fun j j' key => ?_, fun j key => ?_⟩
  · simp only [hsame]
    exact h.busy key
  · simp only [hsame]
    exact h.exclusive j j' key
  · intro hj
    refine Or.imp_right (hstill key) ?_
    by_cases hself : j = i
    · subst hself
      rw [move_self] at hj
      exact (hunnotified key hj).elim .inl (h.wakes j key)
    · rw [move_of_ne hself] at hj
      exact h.wakes j key hj

/-- A task that takes a free key guards it alone. -/
theorem Sound.taken {notified : Bool} (h : s.Sound) (hphase : s.phase i = .registered key notified)
    (hfree : s.busy key = false) : ((s.move i (.holding key)).mark key true).count.Sound := by
  have hnone : ∀ j, (s.phase j).guarded ≠ some key := by
    intro j hj
    rw [(h.busy key).2 ⟨j, hj⟩] at hfree
    cases hfree
  have hguarded : ∀ j k, ((s.move i (.holding key)).phase j).guarded = some k ↔
      j = i ∧ k = key ∨ (s.phase j).guarded = some k := by
    intro j k
    by_cases hj : j = i
    · subst hj
      rw [move_self, hphase]
      simp [Phase.guarded, eq_comm]
    · simp [move_of_ne hj, hj]
  refine ⟨fun k => ?_, fun j j' k hj hj' => ?_, fun j k hj => ?_⟩
  · simp only [busy_count, busy_mark, phase_count, phase_mark, hguarded, busy_move]
    by_cases hkey : k = key
    · subst hkey
      simp
    · simpa [hkey] using h.busy k
  · rcases (hguarded j k).1 hj with ⟨hi, hk⟩ | hold <;>
      rcases (hguarded j' k).1 hj' with ⟨hi', hk'⟩ | hold'
    · exact hi.trans hi'.symm
    · exact absurd (hk ▸ hold') (hnone j')
    · exact absurd (hk' ▸ hold) (hnone j)
    · exact h.exclusive j j' k hold hold'
  · -- the one who took the key does not wait, and was not the one to notify
    simp only [phase_count, phase_mark] at hj ⊢
    have hne : j ≠ i := by
      rintro rfl
      rw [move_self] at hj
      cases hj
    rw [move_of_ne hne] at hj
    rcases h.wakes j k hj with hbusy | ⟨j', hj'⟩
    · exact .inl (by simp [hbusy])
    · have hne' : j' ≠ i := by
        rintro rfl
        cases hphase.symm.trans hj'
      exact .inr ⟨j', (move_of_ne hne').trans hj'⟩

/-- A task that removes its key guards nothing, and is the one who will notify. -/
theorem Sound.removed (h : s.Sound) (hphase : s.phase i = .removing key) :
    ((s.move i (.notifying key)).mark key false).Sound := by
  have hself : (s.phase i).guarded = some key := by rw [hphase]; rfl
  have hguarded : ∀ j k, ((s.move i (.notifying key)).phase j).guarded = some k ↔
      k ≠ key ∧ (s.phase j).guarded = some k := by
    intro j k
    by_cases hj : j = i
    · subst hj
      rw [move_self, hphase]
      simp [Phase.guarded, eq_comm]
    · rw [move_of_ne hj]
      refine ⟨fun hk => ⟨?_, hk⟩, And.right⟩
      rintro rfl
      exact hj (h.exclusive j i k hk hself)
  refine ⟨fun k => ?_, fun j j' k hj hj' => ?_, fun j k hj => ?_⟩
  · simp only [busy_mark, phase_mark, hguarded, busy_move]
    by_cases hkey : k = key
    · simp [hkey]
    · simpa [hkey] using h.busy k
  · exact h.exclusive j j' k ((hguarded j k).1 hj).2 ((hguarded j' k).1 hj').2
  · simp only [phase_mark] at hj ⊢
    have hne : j ≠ i := by
      rintro rfl
      rw [move_self] at hj
      cases hj
    rw [move_of_ne hne] at hj
    by_cases hkey : k = key
    · exact .inr ⟨i, hkey ▸ move_self⟩
    · rcases h.wakes j k hj with hbusy | ⟨j', hj'⟩
      · exact .inl (by simpa [hkey] using hbusy)
      · have hne' : j' ≠ i := by
          rintro rfl
          cases hphase.symm.trans hj'
        exact .inr ⟨j', (move_of_ne hne').trans hj'⟩

/-- Once a task has notified, no one is left that was not. -/
theorem Sound.notified (h : s.Sound) (hphase : s.phase i = .notifying key) :
    (s.notifyAll.move i .idle).Sound := by
  have hguarded : ∀ j, ((s.notifyAll.move i .idle).phase j).guarded = (s.phase j).guarded :=
    forall_move (P := fun j p => p.guarded = (s.phase j).guarded) (by rw [hphase]; rfl)
      fun j _ => by simp
  refine ⟨fun k => ?_, fun j j' k => ?_, fun j k hj => ?_⟩
  · simp only [hguarded, busy_move, busy_notifyAll]
    exact h.busy k
  · simp only [hguarded]
    exact h.exclusive j j' k
  · have hnone : ((s.notifyAll.move i .idle).phase j).unnotified = none :=
      forall_move (P := fun _ p => p.unnotified = none) rfl (fun j _ => by simp) j
    cases hnone.symm.trans hj

/-- Every step keeps the invariant. -/
theorem Sound.step (h : s.Sound) (hstep : s.Step s') : s'.Sound := by
  cases hstep with
  | @want i key hfree =>
    refine h.moved ?_ ?_ (by simp [Phase.unnotified]) <;> cases hphase : s.phase i <;>
      simp_all [Phase.isFree, Phase.guarded]
  | register hphase =>
    exact h.moved (by rw [hphase]; rfl) (by simp [hphase]) (by simp [Phase.unnotified])
  | take hphase hfree => exact h.taken hphase hfree
  | @refuse i key notified hphase hbusy =>
    refine h.moved (by rw [hphase]; rfl) (by simp [hphase]) fun k hk => .inl ?_
    cases notified with
    | true => cases hk
    | false => exact Option.some.inj hk ▸ hbusy
  | @sleep i key notified hphase =>
    refine h.moved (by rw [hphase]; rfl) (by simp [hphase]) fun k hk => .inr ?_
    rw [hphase]
    cases notified <;> exact hk
  | wake hphase =>
    exact h.moved (by rw [hphase]; rfl) (by simp [hphase]) (by simp [Phase.unnotified])
  | @cancel i _ hpending =>
    refine h.moved ?_ ?_ (by simp [Phase.unnotified]) <;> cases hphase : s.phase i <;>
      simp_all [Phase.pending, Phase.guarded]
  | drop hphase =>
    exact h.moved (by rw [hphase]; rfl) (by simp [hphase]) (by simp [Phase.unnotified])
  | remove hphase => exact h.removed hphase
  | notify hphase => exact h.notified hphase

theorem Reachable.sound (h : s.Reachable) : s.Sound := by
  induction h with
  | start => exact sound_start
  | step _ hstep ih => exact ih.step hstep

/-! ## Arbitration -/

/-- What the locks are for. -/
structure Arbitrated (s : Arbitration ι) : Prop where
  /-- A key is taken exactly if there is a guard of it, or one that is being dropped and has not
  removed it yet. -/
  busy : ∀ key, s.busy key = true ↔ ∃ i, s.phase i = .holding key ∨ s.phase i = .removing key
  exclusive : ∀ i j key, (s.phase i).guarded = some key → (s.phase j).guarded = some key → i = j
  /-- A task that gave up waiting holds nothing: if its key is taken, then by another one. -/
  cancelled : ∀ i key, s.phase i = .cancelled key → s.busy key = true →
    ∃ j, j ≠ i ∧ (s.phase j).guarded = some key
  /-- No one sleeps who will not be woken: the key is taken still, or it was removed and those who
  wait are to be notified next. -/
  awake : ∀ i key, s.phase i = .asleep key false →
    s.busy key = true ∨ ∃ j, s.phase j = .notifying key

/-- In every state that can come about, keys are held by one task each, and no one sleeps who will
not be woken. -/
theorem arbitrated_of_reachable (h : s.Reachable) : s.Arbitrated where
  busy key := by
    simp only [h.sound.busy key, Phase.guarded_iff]
  exclusive := h.sound.exclusive
  cancelled i key hi hbusy := by
    obtain ⟨j, hj⟩ := (h.sound.busy key).1 hbusy
    refine ⟨j, ?_, hj⟩
    rintro rfl
    rw [hi] at hj
    cases hj
  awake i key hi := h.sound.wakes i key (by rw [hi]; rfl)

/-- A key was given back and its waiter sleeps still: the one who gave it back has to notify. -/
theorem arbitrated_while_notifying : ∃ s : Arbitration Nat, s.Arbitrated ∧
    s.phase 1 = .asleep "c1" false ∧ s.busy "c1" = false ∧ s.phase 0 = .notifying "c1" := by
  -- task 0 takes the key
  have h₁ := (Reachable.start (ι := Nat)).step (.want (i := 0) "c1" rfl)
  have h₂ := (h₁.step (.register (i := 0) rfl)).step (.take (i := 0) rfl rfl)
  -- task 1 finds it busy and goes to sleep
  have h₃ := (h₂.step (.want (i := 1) "c1" rfl)).step (.register (i := 1) rfl)
  have h₄ := (h₃.step (.refuse (i := 1) rfl rfl)).step (.sleep (i := 1) rfl)
  -- task 0 gives it back
  have h₅ := (h₄.step (.drop (i := 0) rfl)).step (.remove (i := 0) rfl)
  exact ⟨_, arbitrated_of_reachable h₅, rfl, rfl, rfl⟩

/-! ## Whole operations -/

/-- A task came to hold a key if that was free, and else to sleep; the other tasks stay where they
are. -/
structure Tried (i : ι) (key : String) (s s' : Arbitration ι) : Prop where
  others : ∀ j, j ≠ i → s'.phase j = s.phase j
  refused : s.busy key = true →
    s'.phase i = .asleep key false ∧ s'.acquisitions = s.acquisitions
  taken : s.busy key = false →
    s'.phase i = .holding key ∧ s'.acquisitions = s.acquisitions + 1

theorem Reachable.tried (h : s.Reachable) (hi : s.phase i = .wanting key) :
    ∃ s', s'.Reachable ∧ Tried i key s s' := by
  have hregistered := h.step (.register hi)
  cases hbusy : s.busy key with
  | true =>
    have hrefused := hregistered.step (.refuse move_self hbusy)
    refine ⟨_, hrefused.step (.sleep move_self), fun j hj => ?_, fun _ => ⟨move_self, rfl⟩, ?_⟩
    · rw [move_of_ne hj, move_of_ne hj, move_of_ne hj]
    · rw [hbusy]
      nofun
  | false =>
    refine ⟨_, hregistered.step (.take move_self hbusy), fun j hj => ?_, ?_,
      fun _ => ⟨move_self, rfl⟩⟩
    · rw [phase_count, phase_mark, move_of_ne hj, move_of_ne hj]
    · rw [hbusy]
      nofun

/-- It does not matter where the task was before. -/
theorem Tried.of_move (h : Tried i key (s.move i phase) s') : Tried i key s s' where
  others j hj := (h.others j hj).trans (move_of_ne hj)
  refused := h.refused
  taken := h.taken

/-- A task that wants nothing, or sleeps and is to give up, can try to take a key. -/
theorem Reachable.locked (h : s.Reachable)
    (hi : (s.phase i).isFree = true ∨ ∃ key notified, s.phase i = .asleep key notified)
    (key : String) : ∃ s', s'.Reachable ∧ Tried i key s s' := by
  rcases hi with hfree | ⟨k, n, hk⟩
  · obtain ⟨s', hs', htried⟩ := (h.step (.want key hfree)).tried move_self
    exact ⟨s', hs', htried.of_move⟩
  · have hpending : (s.phase i).pending = some k := by rw [hk]; rfl
    have hcancelled := h.step (.cancel hpending)
    obtain ⟨s', hs', htried⟩ :=
      (hcancelled.step (.want key (by rw [move_self]; rfl))).tried move_self
    exact ⟨s', hs', htried.of_move.of_move⟩

/-- A task that was woken tries again. -/
theorem Reachable.woken (h : s.Reachable) (hi : s.phase i = .asleep key true) :
    ∃ s', s'.Reachable ∧ Tried i key s s' := by
  obtain ⟨s', hs', htried⟩ := (h.step (.wake hi)).tried move_self
  exact ⟨s', hs', htried.of_move⟩

end Arbitration

namespace Arbiter

/-- An arbiter shows who holds a key and who sleeps, where no task is in between. -/
structure Shows (a : Arbiter ι) (s : Arbitration ι) : Prop where
  holders : ∀ i key, (i, key) ∈ a.holders ↔ s.phase i = .holding key
  waiters : ∀ i key notified, ⟨i, key, notified⟩ ∈ a.waiters ↔ s.phase i = .asleep key notified
  others : ∀ i, (s.phase i).isFree = true ∨ (∃ key, s.phase i = .holding key) ∨
    ∃ key notified, s.phase i = .asleep key notified
  acquisitions : a.acquisitions = s.acquisitions

variable {a : Arbiter ι} {s s' : Arbitration ι} {i : ι} {key : String}

theorem isBusy_iff : a.isBusy key = true ↔ ∃ i, (i, key) ∈ a.holders := by
  rw [isBusy, List.any_eq_true]
  constructor
  · rintro ⟨⟨i, k⟩, hmem, hk⟩
    obtain rfl : k = key := by simpa using hk
    exact ⟨i, hmem⟩
  · rintro ⟨i, hmem⟩
    exact ⟨(i, key), hmem, by simp⟩

theorem Shows.isBusy (h : a.Shows s) (hs : s.Sound) (key : String) : a.isBusy key = s.busy key := by
  rw [Bool.eq_iff_iff, isBusy_iff, hs.busy]
  refine exists_congr fun i => ?_
  rw [h.holders, Arbitration.Phase.guarded_iff]
  constructor
  · exact .inl
  · rintro (hheld | hremoving)
    · exact hheld
    · rcases h.others i with hfree | ⟨k, hk⟩ | ⟨k, n, hk⟩
      · rw [hremoving] at hfree
        cases hfree
      · cases hremoving.symm.trans hk
      · cases hremoving.symm.trans hk

/-- The arbiters that come about by whole operations. -/
inductive Reached [DecidableEq ι] : Arbiter ι → Prop
  | empty : Reached .empty
  /-- A task that holds no key wants one. -/
  | lock {a : Arbiter ι} {i : ι} (h : Reached a) (hfree : ∀ key, (i, key) ∉ a.holders)
      (key : String) : Reached (a.lock i key).2
  | poll {a : Arbiter ι} (h : Reached a) (i : ι) : Reached (a.poll i).2
  | cancel {a : Arbiter ι} (h : Reached a) (i : ι) : Reached (a.cancel i)
  /-- A task gives back the key that it holds. -/
  | release {a : Arbiter ι} {i : ι} {key : String} (h : Reached a) (hheld : (i, key) ∈ a.holders) :
      Reached (a.release key)

variable [DecidableEq ι]

theorem mem_cancel {x : Waiter ι} : x ∈ (a.cancel i).waiters ↔ x ∈ a.waiters ∧ x.id ≠ i := by
  simp [cancel]

/-- Trying to take a key shows where the task came to. -/
theorem Shows.lock (h : a.Shows s) (hs : s.Sound) (hfree : ∀ key, (i, key) ∉ a.holders)
    (htried : Arbitration.Tried i key s s') : (a.lock i key).2.Shows s' := by
  have hcancel : (a.cancel i).isBusy key = s.busy key := h.isBusy hs key
  unfold Arbiter.lock
  simp only [hcancel]
  cases hbusy : s.busy key with
  | true =>
    obtain ⟨hi, hacquisitions⟩ := htried.refused hbusy
    refine ⟨fun j k => ?_, fun j k n => ?_, fun j => ?_, h.acquisitions.trans hacquisitions.symm⟩
    · show (j, k) ∈ a.holders ↔ _
      by_cases hj : j = i
      · subst hj
        simp [hi, hfree]
      · rw [htried.others j hj]
        exact h.holders j k
    · show ⟨j, k, n⟩ ∈ (a.cancel i).waiters ++ [⟨i, key, false⟩] ↔ _
      rw [List.mem_append, mem_cancel, List.mem_singleton]
      by_cases hj : j = i
      · subst hj
        simp [hi, eq_comm]
      · rw [htried.others j hj, h.waiters]
        simp [hj]
    · by_cases hj : j = i
      · subst hj
        exact .inr (.inr ⟨_, _, hi⟩)
      · rw [htried.others j hj]
        exact h.others j
  | false =>
    obtain ⟨hi, hacquisitions⟩ := htried.taken hbusy
    refine ⟨fun j k => ?_, fun j k n => ?_, fun j => ?_, ?_⟩
    · show (j, k) ∈ a.holders ++ [(i, key)] ↔ _
      rw [List.mem_append, List.mem_singleton]
      by_cases hj : j = i
      · subst hj
        simp [hi, hfree, eq_comm]
      · rw [htried.others j hj, h.holders]
        simp [hj]
    · show ⟨j, k, n⟩ ∈ (a.cancel i).waiters ↔ _
      rw [mem_cancel]
      by_cases hj : j = i
      · subst hj
        simp [hi]
      · rw [htried.others j hj, h.waiters]
        simp [hj]
    · by_cases hj : j = i
      · subst hj
        exact .inr (.inl ⟨_, hi⟩)
      · rw [htried.others j hj]
        exact h.others j
    · rw [hacquisitions, ← h.acquisitions]
      rfl

/-- A task that sleeps gives up, and one that does not has nothing to give up. -/
theorem Shows.cancel (h : a.Shows s) (hs : s.Reachable) (i : ι) :
    ∃ s', s'.Reachable ∧ (a.cancel i).Shows s' := by
  by_cases hi : ∃ key notified, s.phase i = .asleep key notified
  · obtain ⟨key, notified, hi⟩ := hi
    have hpending : (s.phase i).pending = some key := by rw [hi]; rfl
    refine ⟨_, hs.step (.cancel hpending), ?_⟩
    refine ⟨fun j k => ?_, fun j k n => ?_, fun j => ?_, h.acquisitions⟩
    · show (j, k) ∈ a.holders ↔ _
      rw [h.holders]
      by_cases hj : j = i
      · subst hj
        simp [hi]
      · rw [Arbitration.move_of_ne hj]
    · rw [mem_cancel, h.waiters]
      by_cases hj : j = i
      · subst hj
        simp
      · simp [Arbitration.move_of_ne hj, hj]
    · by_cases hj : j = i
      · subst hj
        exact .inl (by rw [Arbitration.move_self]; rfl)
      · rw [Arbitration.move_of_ne hj]
        exact h.others j
  · have hsame : a.cancel i = a := by
      have hwaiters : (a.cancel i).waiters = a.waiters := by
        refine List.filter_eq_self.2 fun x hx => bne_iff_ne.2 ?_
        rintro rfl
        exact hi ⟨_, _, (h.waiters x.id x.key x.notified).1 hx⟩
      show { a with waiters := (a.cancel i).waiters } = a
      rw [hwaiters]
    exact ⟨s, hs, by rwa [hsame]⟩

/-- A task that gives its key back notifies all who sleep. -/
theorem Shows.release (h : a.Shows s) (hs : s.Reachable) (hheld : (i, key) ∈ a.holders) :
    ∃ s', s'.Reachable ∧ (a.release key).Shows s' := by
  have hi := (h.holders i key).1 hheld
  have hdropped := hs.step (.drop hi)
  have hremoved := hdropped.step (.remove Arbitration.move_self)
  have hnotified := hremoved.step (.notify Arbitration.move_self)
  have hphase : ∀ j, j ≠ i → ((((s.move i (.removing key)).move i (.notifying key)).mark key
      false).notifyAll.move i .idle).phase j = (s.phase j).notify := by
    intro j hj
    rw [Arbitration.move_of_ne hj, Arbitration.phase_notifyAll, Arbitration.phase_mark,
      Arbitration.move_of_ne hj, Arbitration.move_of_ne hj]
  refine ⟨_, hnotified, fun j k => ?_, fun j k n => ?_, fun j => ?_, h.acquisitions⟩
  · show (j, k) ∈ a.holders.filter (fun x => x.2 != key) ↔ _
    rw [List.mem_filter, h.holders, bne_iff_ne]
    by_cases hj : j = i
    · subst hj
      simp [hi, eq_comm]
    · rw [hphase j hj, Arbitration.Phase.notify_eq_holding]
      refine and_iff_left_of_imp fun hk heq => hj ?_
      exact hs.sound.exclusive j i key (by rw [hk, ← heq]; rfl) (by rw [hi]; rfl)
  · show ⟨j, k, n⟩ ∈ a.waiters.map (fun x => { x with notified := true }) ↔ _
    have hmem : ⟨j, k, n⟩ ∈ a.waiters.map (fun x => { x with notified := true }) ↔
        n = true ∧ ∃ n', s.phase j = .asleep k n' := by
      rw [List.mem_map]
      constructor
      · rintro ⟨⟨j', k', n'⟩, hx, heq⟩
        obtain ⟨rfl, rfl, rfl⟩ := Waiter.mk.inj heq
        exact ⟨rfl, n', (h.waiters _ _ _).1 hx⟩
      · rintro ⟨rfl, n', hx⟩
        exact ⟨⟨j, k, n'⟩, (h.waiters _ _ _).2 hx, rfl⟩
    rw [hmem]
    by_cases hj : j = i
    · subst hj
      simp [hi]
    · rw [hphase j hj, Arbitration.Phase.notify_eq_asleep]
  · by_cases hj : j = i
    · subst hj
      exact .inl (by rw [Arbitration.move_self]; rfl)
    · rw [hphase j hj]
      rcases h.others j with hfree | ⟨k, hk⟩ | ⟨k, n, hk⟩
      · exact .inl (by rw [Arbitration.Phase.isFree_notify]; exact hfree)
      · exact .inr (.inl ⟨k, by rw [hk]; rfl⟩)
      · exact .inr (.inr ⟨k, true, by rw [hk]; rfl⟩)

/-- Every arbiter shows a state that single steps reach. -/
theorem Reached.shown (h : a.Reached) : ∃ s : Arbitration ι, s.Reachable ∧ a.Shows s := by
  induction h with
  | empty =>
    refine ⟨.start, .start, fun i key => ?_, fun i key n => ?_, fun i => .inl rfl, rfl⟩
    · simp [Arbiter.empty, Arbitration.start]
    · simp [Arbiter.empty, Arbitration.start]
  | @lock a i _ hfree key ih =>
    obtain ⟨s, hs, hshows⟩ := ih
    have hi : (s.phase i).isFree = true ∨ ∃ key notified, s.phase i = .asleep key notified := by
      rcases hshows.others i with hfree' | ⟨k, hk⟩ | hasleep
      · exact .inl hfree'
      · exact absurd ((hshows.holders i k).2 hk) (hfree k)
      · exact .inr hasleep
    obtain ⟨s', hs', htried⟩ := hs.locked hi key
    exact ⟨s', hs', hshows.lock hs.sound hfree htried⟩
  | @poll a _ i ih =>
    obtain ⟨s, hs, hshows⟩ := ih
    unfold Arbiter.poll
    split
    · exact ⟨s, hs, hshows⟩
    · next x hx =>
      split
      · next hnotified =>
        -- it was woken, and tries again
        obtain ⟨hmem, hid⟩ : x ∈ a.waiters ∧ x.id = i := by
          refine ⟨List.mem_of_find?_eq_some hx, ?_⟩
          simpa using List.find?_some hx
        have hasleep : s.phase i = .asleep x.key true := by
          rw [← hnotified, ← hid]
          exact (hshows.waiters _ _ _).1 hmem
        obtain ⟨s', hs', htried⟩ := hs.woken hasleep
        refine ⟨s', hs', hshows.lock hs.sound (fun k hk => ?_) htried⟩
        cases hasleep.symm.trans ((hshows.holders i k).1 hk)
      · exact ⟨s, hs, hshows⟩
  | cancel _ i ih =>
    obtain ⟨s, hs, hshows⟩ := ih
    exact hshows.cancel hs i
  | release _ hheld ih =>
    obtain ⟨s, hs, hshows⟩ := ih
    exact hshows.release hs hheld

/-- No two tasks hold one key. -/
theorem Reached.exclusive (h : a.Reached) {j : ι} (hi : (i, key) ∈ a.holders)
    (hj : (j, key) ∈ a.holders) : i = j := by
  obtain ⟨s, hs, hshows⟩ := h.shown
  refine hs.sound.exclusive i j key ?_ ?_
  · rw [(hshows.holders i key).1 hi]
    rfl
  · rw [(hshows.holders j key).1 hj]
    rfl

/-- Who waits and was not notified waits for a key that is held. -/
theorem Reached.waits_for_busy (h : a.Reached) (hi : ⟨i, key, false⟩ ∈ a.waiters) :
    a.isBusy key = true := by
  obtain ⟨s, hs, hshows⟩ := h.shown
  have hasleep : s.phase i = .asleep key false := (hshows.waiters _ _ _).1 hi
  rw [hshows.isBusy hs.sound]
  rcases hs.sound.wakes i key (by rw [hasleep]; rfl) with hbusy | ⟨j, hj⟩
  · exact hbusy
  · -- between operations no task is about to notify
    rcases hshows.others j with hfree | ⟨k, hk⟩ | ⟨k, n, hk⟩
    · rw [hj] at hfree
      cases hfree
    · cases hj.symm.trans hk
    · cases hj.symm.trans hk

end Arbiter

end PodAttach.Agent
