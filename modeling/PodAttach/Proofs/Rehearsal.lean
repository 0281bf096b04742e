import PodAttach.Proofs.Lists
import PodAttach.Proofs.Machine
import PodAttach.Proofs.Work
import PodAttach.Scenario.Netlab

/-!
# A machine that answers

Under `answering` a machine answers, faults and all.  Armed faults can let any
request fail, and a request that fails changes no link (`answer_request`).

* `run_ends` and `run_keeping_ends`: what holds of all answers holds of those of the machine.
* `perform_bind`, `perform_tryCatch` and `perform_request` go through work step by step.
* `sameFiles_perform` and `numbered_answer`: work changes neither where paths lead nor which numbers
  are free.
* A request fails by the first fault that is due (`passFaults_fst`), and those of other kinds are
  armed still (`passFaults_other`).  A request that is spared is served (`answer_spared`).
-/

namespace PodAttach.Link

open Kernel Scenario Work

/-- The answers of a machine to rehearse on. -/
def answering : Proc.Rules Kernel.Ask Kernel.Ask.Reply Netlab where
  asks _ _ := True
  answers q n reply n' := Netlab.answer q n = (reply, n')

section

variable {ε α β : Type} {n : Netlab}

/-- What work ends with, it ends with when the machine answers. -/
theorem run_ends {w : Work ε α} {post : α → Netlab → Prop} {failed : Netlab → Prop}
    (h : Ends answering n w post failed) :
    (∀ a, (n.perform w).1 = .ok a → post a (n.perform w).2) ∧
      ∀ e, (n.perform w).1 = .error e → failed (n.perform w).2 := by
  have hanswer : ∀ q n, answering.asks q n →
      answering.answers q n (Netlab.answer q n).1 (Netlab.answer q n).2 := fun _ _ _ => rfl
  have hrun := Proc.Ensures.run h hanswer
  unfold Netlab.perform
  constructor
  · intro a ha
    rw [ha] at hrun
    exact hrun
  · intro e he
    rw [he] at hrun
    exact hrun

/-- What work ends with, it ends with when the machine answers, with what it was asked. -/
theorem run_keeping_ends {w : Work ε α} {asked : List Kernel.Ask}
    {post : α → Netlab × List Kernel.Ask → Prop} {failed : Netlab × List Kernel.Ask → Prop}
    (h : Ends answering.keeping (n, asked) w post failed) :
    (∀ a, (n.perform w).1 = .ok a →
      post a ((n.perform w).2, asked ++ w.run.asked Netlab.answer n)) ∧
    ∀ e, (n.perform w).1 = .error e →
      failed ((n.perform w).2, asked ++ w.run.asked Netlab.answer n) := by
  have hanswer : ∀ q n, answering.asks q n →
      answering.answers q n (Netlab.answer q n).1 (Netlab.answer q n).2 := fun _ _ _ => rfl
  have hrun := Proc.Ensures.run_keeping h hanswer
  unfold Netlab.perform
  constructor
  · intro a ha
    rw [ha] at hrun
    exact hrun
  · intro e he
    rw [he] at hrun
    exact hrun

/-- What work gives, it gives when the machine answers. -/
theorem run_gives {w : Work ε α} {post : α → Netlab → Prop} (h : Gives answering n w post) {a : α}
    (hok : (n.perform w).1 = .ok a) : post a (n.perform w).2 :=
  (run_ends h).1 a hok

theorem run_succeeds {w : Work ε α} {post : α → Netlab → Prop}
    (h : Succeeds answering n w post) :
    ∃ a, (n.perform w).1 = .ok a ∧ post a (n.perform w).2 := by
  have hrun := run_ends h
  cases hx : (n.perform w).1 with
  | ok a => exact ⟨a, rfl, hrun.1 a hx⟩
  | error e => exact (hrun.2 e hx).elim

/-! ## Step by step -/

theorem perform_bind (n : Netlab) (w : Work ε α) (f : α → Work ε β) :
    n.perform (w >>= f) = match n.perform w with
      | (.ok a, n') => n'.perform (f a)
      | (.error e, n') => (.error e, n') := by
  have hrun : n.perform (w >>= f) =
      Proc.run Netlab.answer (ExceptT.bindCont f (n.perform w).1) (n.perform w).2 :=
    Proc.run_bind Netlab.answer w.run _ n
  rw [hrun]
  cases n.perform w with
  | mk x n' => cases x <;> rfl

theorem perform_tryCatch (n : Netlab) (w : Work ε α) (handler : ε → Work ε α) :
    n.perform (tryCatch w handler) = match n.perform w with
      | (.ok a, n') => (.ok a, n')
      | (.error e, n') => n'.perform (handler e) := by
  have hrun : n.perform (tryCatch w handler) = Proc.run Netlab.answer
      (match (n.perform w).1 with
        | .ok a => .done (.ok a)
        | .error e => (handler e).run) (n.perform w).2 :=
    Proc.run_bind Netlab.answer w.run _ n
  rw [hrun]
  cases n.perform w with
  | mk x n' => cases x <;> rfl

theorem perform_request (n : Netlab) (space : Space) (r : Request) (wrap : Errno → ε) :
    n.perform (Work.request space r wrap) = match n.request space r with
      | (.ok v, n') => (.ok v, n')
      | (.error e, n') => (.error (wrap e), n') := by
  have hask : n.perform (Work.ask (.request space r) : Work ε (Kernel.Ask.request space r).Reply) =
      (.ok (n.request space r).1, (n.request space r).2) := rfl
  unfold Work.request
  rw [perform_bind, hask]
  cases n.request space r with
  | mk reply n' => cases reply <;> rfl

end

/-! ## Requests -/

variable {n n' : Netlab} {space : Space} {name : String}

theorem settle_ok {m m' : Machine} {x : Except Errno Machine}
    (h : m.settle x = (.ok (), m')) : x = .ok m' := by
  cases x with
  | error e => cases h
  | ok m₁ => rw [← (Prod.mk.inj h).2]

theorem settle_error {m m' : Machine} {x : Except Errno Machine} {e : Errno}
    (h : m.settle x = (.error e, m')) : m' = m := by
  cases x with
  | error e => exact ((Prod.mk.inj h).2).symm
  | ok m₁ => cases h

/-- A request that is not served changes nothing. -/
theorem serve_error {m m' : Machine} {r : Request} {e : Errno}
    (h : m.serve space r = (.error e, m')) : m' = m := by
  cases r with
  | getLink name => exact ((Prod.mk.inj h).2).symm
  | _ => exact settle_error h

/-- A request meets a fault, or the machine serves it. -/
theorem request_cases (n : Netlab) (space : Space) (r : Request) :
    (∃ e n', n.request space r = (.error e, n') ∧ n.fault (.of r) = (some e, n')) ∨
    ∃ faults, n.fault (.of r) = (none, { n with faults }) ∧
      n.request space r = ((n.machine.serve space r).1,
        { n with faults, machine := (n.machine.serve space r).2 }) := by
  unfold Netlab.request Netlab.fault
  cases Netlab.passFaults (.of r) n.faults with
  | mk e? faults =>
    cases e? with
    | some e => exact .inl ⟨e, _, rfl, rfl⟩
    | none => exact .inr ⟨faults, rfl, rfl⟩

/-- A request that fails changes no link, and one that succeeds was served. -/
theorem answer_request {r : Request} {reply : r.Reply}
    (h : Netlab.answer (.request space r) n = (reply, n')) :
    (∃ e, reply = .error e ∧ n'.machine = n.machine) ∨
      ∃ v, reply = .ok v ∧ n.machine.serve space r = (.ok v, n'.machine) := by
  have hrequest : n.request space r = (reply, n') := h
  rcases request_cases n space r with ⟨e, n₁, hfailed, hfault⟩ | ⟨faults, -, hserved⟩
  · rw [hfailed] at hrequest
    obtain ⟨rfl, rfl⟩ := Prod.mk.inj hrequest
    obtain ⟨-, rfl⟩ := Prod.mk.inj hfault
    exact .inl ⟨e, rfl, rfl⟩
  · rw [hserved] at hrequest
    obtain ⟨rfl, rfl⟩ := Prod.mk.inj hrequest
    cases hreply : (n.machine.serve space r).1 with
    | error e => exact .inl ⟨e, rfl, serve_error (Prod.ext hreply rfl)⟩
    | ok v => exact .inr ⟨v, rfl, Prod.ext hreply rfl⟩

/-- A socket is opened on the same machine. -/
theorem openSocket_same (n : Netlab) (netns : Option NsFile) :
    (n.openSocket netns).2 = { n with faults := (n.openSocket netns).2.faults } := by
  unfold Netlab.openSocket
  split
  · rfl
  · split
    · next e n₁ hfailed =>
      obtain ⟨-, rfl⟩ := Prod.mk.inj hfailed
      rfl
    · next n₁ hpassed =>
      obtain ⟨-, rfl⟩ := Prod.mk.inj hpassed
      split <;> rfl

/-- Whatever is asked, files and namespaces stay as they are. -/
theorem answer_same (n : Netlab) (q : Kernel.Ask) :
    (Netlab.answer q n).2 = { n with
      machine := (Netlab.answer q n).2.machine, faults := (Netlab.answer q n).2.faults } := by
  cases q with
  | openPath path => rfl
  | socket netns =>
    show (n.openSocket netns).2 = { n with
      machine := (n.openSocket netns).2.machine, faults := (n.openSocket netns).2.faults }
    rw [openSocket_same]
  | request space r =>
    show (n.request space r).2 = { n with
      machine := (n.request space r).2.machine, faults := (n.request space r).2.faults }
    rcases request_cases n space r with ⟨e, n₁, hfailed, hfault⟩ | ⟨faults, -, hserved⟩
    · rw [hfailed]
      obtain ⟨-, rfl⟩ := Prod.mk.inj hfault
      rfl
    · rw [hserved]

/-- No question spoils the numbers of the links. -/
theorem numbered_answer (h : n.machine.Numbered) (q : Kernel.Ask) :
    (Netlab.answer q n).2.machine.Numbered := by
  cases q with
  | openPath path => exact h
  | socket netns =>
    show (n.openSocket netns).2.machine.Numbered
    rw [openSocket_same]
    exact h
  | request space r =>
    show (n.request space r).2.machine.Numbered
    rcases request_cases n space r with ⟨e, n₁, hfailed, hfault⟩ | ⟨faults, -, hserved⟩
    · rw [hfailed]
      obtain ⟨-, rfl⟩ := Prod.mk.inj hfault
      exact h
    · rw [hserved]
      exact h.serve space r

/-- The same paths lead to the same namespaces, and the agent's own is the same. -/
structure SameFiles (n n' : Netlab) : Prop where
  own : n'.own = n.own
  openPath : ∀ path, n'.openPath path = n.openPath path

theorem SameFiles.trans {n'' : Netlab} (h : SameFiles n n') (h' : SameFiles n' n'') :
    SameFiles n n'' :=
  ⟨h'.own.trans h.own, fun path => (h'.openPath path).trans (h.openPath path)⟩

theorem sameFiles_answer (n : Netlab) (q : Kernel.Ask) : SameFiles n (Netlab.answer q n).2 := by
  rw [answer_same]
  exact ⟨rfl, fun _ => rfl⟩

/-- No work changes where paths lead. -/
theorem sameFiles_perform {ε α : Type} (n : Netlab) (w : Work ε α) :
    SameFiles n (n.perform w).2 :=
  Proc.invariant_run (I := SameFiles n) (fun q n' h => h.trans (sameFiles_answer n' q)) w.run
    ⟨rfl, fun _ => rfl⟩

/-! ## Faults -/

/-- No request of a kind fails by itself next. -/
def Spares (kind : RequestKind) (n : Netlab) : Prop :=
  (n.fault kind).1 = none

/-- No request of a kind ever fails by itself. -/
def CalmFor (kind : RequestKind) (n : Netlab) : Prop :=
  ∀ f ∈ n.faults, f.kind = kind → f.count = 0

/-- No request fails by itself. -/
def Calm (n : Netlab) : Prop :=
  ∀ f ∈ n.faults, f.count = 0

/-- Whether a fault is due at a request of a kind. -/
def isDue (kind : RequestKind) (f : KernelFault) : Bool :=
  decide (f.kind = kind) && decide (f.after = 0) && decide (0 < f.count)

theorem isDue_iff {kind : RequestKind} {f : KernelFault} :
    isDue kind f = true ↔ f.kind = kind ∧ f.after = 0 ∧ 0 < f.count := by
  simp [isDue, and_assoc]

/-- A request fails by the first fault that is due. -/
theorem passFaults_fst (kind : RequestKind) (faults : List KernelFault) :
    (Netlab.passFaults kind faults).1 = (faults.find? (isDue kind)).map KernelFault.errno := by
  induction faults with
  | nil => rfl
  | cons f rest ih =>
    have hskip : ¬ (f.kind = kind ∧ f.after = 0 ∧ 0 < f.count) →
        ((f :: rest).find? (isDue kind)).map KernelFault.errno =
          (Netlab.passFaults kind rest).1 := by
      intro hnot
      rw [ih, List.find?_cons_of_neg (by rwa [isDue_iff])]
    unfold Netlab.passFaults
    split
    · next hkind => exact (hskip fun h => hkind h.1).symm
    · next hkind =>
      split
      · next hafter => exact (hskip fun h => by omega).symm
      · split
        · next hafter hcount =>
          have hdue : isDue kind f = true := isDue_iff.2 ⟨by simpa using hkind, by omega, hcount⟩
          rw [List.find?_cons_of_pos hdue]
          rfl
        · next hcount => exact (hskip fun h => hcount h.2.2).symm

/-- A request uses up faults of its kind, and leaves the others as they are. -/
theorem forall₂_passFaults (kind : RequestKind) (faults : List KernelFault) :
    List.Forall₂ (fun f g => g.kind = f.kind ∧ g.count ≤ f.count ∧ (f.kind ≠ kind → g = f))
      faults (Netlab.passFaults kind faults).2 := by
  induction faults with
  | nil => exact .nil
  | cons f rest ih =>
    unfold Netlab.passFaults
    split
    · exact .cons ⟨rfl, Nat.le_refl _, fun _ => rfl⟩ ih
    · next hkind =>
      split
      · exact .cons ⟨rfl, Nat.le_refl _, fun h => absurd h hkind⟩ ih
      · split
        · refine .cons ⟨rfl, Nat.sub_le _ _, fun h => absurd h hkind⟩ ?_
          exact List.forall₂_same.2 fun g _ => ⟨rfl, Nat.le_refl _, fun _ => rfl⟩
        · exact .cons ⟨rfl, Nat.le_refl _, fun _ => rfl⟩ ih

/-- Requests of one kind leave the faults of another one as they are. -/
theorem passFaults_other {kind other : RequestKind} (hne : other ≠ kind)
    (faults : List KernelFault) :
    (Netlab.passFaults other (Netlab.passFaults kind faults).2).1 =
      (Netlab.passFaults other faults).1 := by
  rw [passFaults_fst, passFaults_fst]
  have hpassed := forall₂_passFaults kind faults
  revert hpassed
  generalize (Netlab.passFaults kind faults).2 = later
  intro hpassed
  induction hpassed with
  | nil => rfl
  | @cons f g rest later hsame _ ih =>
    by_cases hkind : f.kind = kind
    · -- neither is of the other kind, before it was passed or after
      have hf : ¬ isDue other f = true := fun h => hne ((isDue_iff.1 h).1.symm.trans hkind)
      have hg : ¬ isDue other g = true :=
        fun h => hne ((isDue_iff.1 h).1.symm.trans (hsame.1.trans hkind))
      rw [List.find?_cons_of_neg hf, List.find?_cons_of_neg hg]
      exact ih
    · rw [hsame.2.2 hkind]
      cases hdue : isDue other f with
      | true => rw [List.find?_cons_of_pos hdue, List.find?_cons_of_pos hdue]
      | false =>
        rw [List.find?_cons_of_neg (by simp [hdue]), List.find?_cons_of_neg (by simp [hdue])]
        exact ih

theorem spares_of_calmFor {kind : RequestKind} (hcalm : CalmFor kind n) : Spares kind n := by
  show (Netlab.passFaults kind n.faults).1 = none
  rw [passFaults_fst, Option.map_eq_none_iff, List.find?_eq_none]
  intro f hf hdue
  obtain ⟨hkind, -, hcount⟩ := isDue_iff.1 hdue
  have hzero := hcalm f hf hkind
  omega

/-- A fault that is never due is none after a request either. -/
theorem CalmFor.passed {kind : RequestKind} (hcalm : CalmFor kind n) (passed : RequestKind)
    {machine : Machine} :
    CalmFor kind { n with machine, faults := (Netlab.passFaults passed n.faults).2 } := by
  intro g hg hkind
  obtain ⟨f, hf, hsame, hcount, -⟩ := exists_of_mem_forall₂ (forall₂_passFaults passed n.faults) hg
  have hzero := hcalm f hf (hsame.symm.trans hkind)
  omega

/-- A request that is spared is served. -/
theorem answer_spared (space : Space) {r : Request} (hspares : Spares (.of r) n) :
    Netlab.answer (.request space r) n = ((n.machine.serve space r).1,
      { n with
        machine := (n.machine.serve space r).2
        faults := (Netlab.passFaults (.of r) n.faults).2 }) := by
  rcases request_cases n space r with ⟨e, n₁, -, hfault⟩ | ⟨faults, hfault, hserved⟩
  · unfold Spares at hspares
    rw [hfault] at hspares
    cases hspares
  · have hfaults : (n.fault (.of r)).2 = { n with faults } := congrArg Prod.snd hfault
    have hlater : (Netlab.passFaults (.of r) n.faults).2 = faults := congrArg Netlab.faults hfaults
    rw [hlater]
    exact hserved

end PodAttach.Link
