import PodAttach.Proc
import PodAttach.Switch.Tool

/-!
# What a computation ensures

A computation that asks plays against its surroundings: it chooses the
questions, they choose the answers.  `Rules` say which question may be asked
in a state, and which answers may come back with which new state.  `Ensures`
says that a computation keeps to the rules on every path and ends with a
postcondition, whatever the answers are.

* `ensures_bind` takes a computation apart at its sequencing, so each part is
  described once and the descriptions are put together.
* `Ensures.mono` weakens the postcondition.
* `invariant_run` carries an invariant through a run.
* `Ensures.run` goes from all paths to the one that is taken when the
  questions are answered by a function.
* `Ensures.run_keeping` does so where the state keeps what was asked.
* `Toolwork.ensures_run`, `Toolwork.ensures_clock` and `Toolwork.ensures_sleep` are the
  steps of work with the tools of the switch.
-/

namespace PodAttach.Proc

/-- What may be asked, and how it may be answered. -/
structure Rules (Q : Type) (A : Q → Type) (σ : Type) where
  /-- Whether a question may be asked in a state. -/
  asks : Q → σ → Prop
  /-- The answers to a question in a state, with the state after them. -/
  answers : (q : Q) → σ → A q → σ → Prop

variable {Q : Type} {A : Q → Type} {α β σ : Type}

/-- A computation keeps to the rules and ends as the postcondition says, whatever it is
answered. -/
def Ensures (R : Rules Q A σ) : Proc Q A α → σ → (α → σ → Prop) → Prop
  | .done a, s, post => post a s
  | .ask q next, s, post =>
    R.asks q s ∧ ∀ r s', R.answers q s r s' → (next r).Ensures R s' post

variable {R : Rules Q A σ} {s : σ}

@[simp]
theorem ensures_done {a : α} {post : α → σ → Prop} :
    (Proc.done a : Proc Q A α).Ensures R s post ↔ post a s := Iff.rfl

@[simp]
theorem ensures_ask {q : Q} {next : A q → Proc Q A α} {post : α → σ → Prop} :
    (Proc.ask q next).Ensures R s post ↔
      R.asks q s ∧ ∀ r s', R.answers q s r s' → (next r).Ensures R s' post := Iff.rfl

/-- A question alone ensures what all its answers satisfy. -/
theorem ensures_question {q : Q} {post : A q → σ → Prop} :
    (question q : Proc Q A (A q)).Ensures R s post ↔
      R.asks q s ∧ ∀ r s', R.answers q s r s' → post r s' := Iff.rfl

/-- The second of two computations starts where the first one ended. -/
theorem ensures_bind {p : Proc Q A α} {f : α → Proc Q A β} {post : β → σ → Prop} :
    (p >>= f).Ensures R s post ↔ p.Ensures R s fun a s' => (f a).Ensures R s' post := by
  induction p generalizing s with
  | done a => exact Iff.rfl
  | ask q next ih =>
    simp only [ask_bind, ensures_ask]
    exact and_congr_right fun _ => forall_congr' fun r => forall_congr' fun s' =>
      imp_congr_right fun _ => ih r

/-- A function on the result acts on the postcondition. -/
theorem ensures_map {p : Proc Q A α} {f : α → β} {post : β → σ → Prop} :
    (f <$> p).Ensures R s post ↔ p.Ensures R s fun a s' => post (f a) s' := by
  rw [map_eq_pure_bind, ensures_bind]
  exact Iff.rfl

theorem Ensures.mono {p : Proc Q A α} {post post' : α → σ → Prop} (h : p.Ensures R s post)
    (himp : ∀ a s', post a s' → post' a s') : p.Ensures R s post' := by
  induction p generalizing s with
  | done a => exact himp a s h
  | ask q next ih => exact ⟨h.1, fun r s' hr => ih r (h.2 r s' hr)⟩

/-- What is ensured twice is ensured together. -/
theorem Ensures.and {p : Proc Q A α} {post post' : α → σ → Prop} (h : p.Ensures R s post)
    (h' : p.Ensures R s post') : p.Ensures R s fun a s' => post a s' ∧ post' a s' := by
  induction p generalizing s with
  | done a => exact ⟨h, h'⟩
  | ask q next ih => exact ⟨h.1, fun r s' hr => ih r (h.2 r s' hr) (h'.2 r s' hr)⟩

/-- The second computation has to be looked at only where the first one can end. -/
theorem Ensures.bind {p : Proc Q A α} {f : α → Proc Q A β} {mid : α → σ → Prop}
    {post : β → σ → Prop} (h : p.Ensures R s mid)
    (hf : ∀ a s', mid a s' → (f a).Ensures R s' post) : (p >>= f).Ensures R s post :=
  ensures_bind.2 (h.mono hf)

/-- Answers that keep to the rules lead to the postcondition. -/
theorem Ensures.run {p : Proc Q A α} {post : α → σ → Prop} (h : p.Ensures R s post)
    {answer : (q : Q) → σ → A q × σ}
    (hanswer : ∀ q s, R.asks q s → R.answers q s (answer q s).1 (answer q s).2) :
    post (p.run answer s).1 (p.run answer s).2 := by
  induction p generalizing s with
  | done a => exact h
  | ask q next ih =>
    rw [run_ask]
    exact ih _ (h.2 _ _ (hanswer q s h.1))

/-! ## What was asked -/

/-- The questions of a computation, in order. -/
def asked (answer : (q : Q) → σ → A q × σ) : Proc Q A α → σ → List Q
  | .done _, _ => []
  | .ask q next, s => q :: (next (answer q s).1).asked answer (answer q s).2

/-- The rules, where the state keeps what was asked. -/
def Rules.keeping (R : Rules Q A σ) : Rules Q A (σ × List Q) where
  asks q s := R.asks q s.1
  answers q s r s' := R.answers q s.1 r s'.1 ∧ s'.2 = s.2 ++ [q]

/-- Answers that keep to the rules lead to the postcondition, with the questions that were
asked. -/
theorem Ensures.run_keeping {p : Proc Q A α} {asked : List Q} {post : α → σ × List Q → Prop}
    (h : p.Ensures R.keeping (s, asked) post) {answer : (q : Q) → σ → A q × σ}
    (hanswer : ∀ q s, R.asks q s → R.answers q s (answer q s).1 (answer q s).2) :
    post (p.run answer s).1 ((p.run answer s).2, asked ++ p.asked answer s) := by
  induction p generalizing s asked with
  | done a => simpa [Proc.asked] using h
  | ask q next ih =>
    have hnext := h.2 _ ((answer q s).2, asked ++ [q]) ⟨hanswer q s h.1, rfl⟩
    simpa [Proc.asked] using ih _ hnext

/-- Rules under which everything may be asked and answered. -/
def Rules.free : Rules Q A σ :=
  ⟨fun _ _ => True, fun _ _ _ _ => True⟩

theorem ensures_free (p : Proc Q A α) (s : σ) : p.Ensures .free s fun _ _ => True := by
  induction p generalizing s with
  | done a => trivial
  | ask q next ih => exact ⟨trivial, fun r s' _ => ih r s'⟩

/-- What every answer keeps, a run keeps. -/
theorem invariant_run {I : σ → Prop} {answer : (q : Q) → σ → A q × σ}
    (hanswer : ∀ q s, I s → I (answer q s).2) (p : Proc Q A α) {s : σ} (hs : I s) :
    I (p.run answer s).2 := by
  induction p generalizing s with
  | done a => exact hs
  | ask q next ih =>
    rw [run_ask]
    exact ih _ (hanswer q s hs)

end PodAttach.Proc

/-! ## Work with tools -/

namespace PodAttach.Switch.Toolwork

open Proc

variable {σ α : Type} {R : Rules ToolAsk ToolAsk.Reply σ} {s : σ} {post : α → σ → Prop}

/-- The rest of the work gets what the run gives. -/
theorem ensures_run {i : Invocation} {f : Except Error String → Toolwork α} :
    (run i >>= f).Ensures R s post ↔
      R.asks (.run i) s ∧ ∀ (outcome : ToolOutcome) (s' : σ),
        R.answers (.run i) s outcome s' → (f (i.interpret outcome)).Ensures R s' post := Iff.rfl

/-- It gets any time that the clock may show. -/
theorem ensures_clock {f : Duration → Toolwork α} :
    (clock >>= f).Ensures R s post ↔
      R.asks .clock s ∧ ∀ (now : Duration) (s' : σ),
        R.answers .clock s now s' → (f now).Ensures R s' post := Iff.rfl

/-- It goes on after the sleep. -/
theorem ensures_sleep {d : Duration} {work : Toolwork α} :
    (sleep d >>= fun _ => work).Ensures R s post ↔
      R.asks (.sleep d) s ∧ ∀ s' : σ, R.answers (.sleep d) s () s' → work.Ensures R s' post :=
  and_congr_right fun _ => ⟨fun h s' => h () s', fun h _ s' => h s'⟩

end PodAttach.Switch.Toolwork
