/-!
# Computations that ask

A computation that needs things from outside is a tree: it asks one
question, and how it goes on depends on the answer.  Nothing else happens
between two questions, so a tree says exactly at which points other
computations may run.  `run` answers the questions from a state, and
`resolve` answers each by a computation that asks other questions.
`run_bind` and `resolve_bind` say that both go through a computation step
by step.
-/

namespace PodAttach

/-- A computation with questions `Q`, whose answers have the types `A`. -/
inductive Proc (Q : Type) (A : Q → Type) (α : Type) where
  | done (a : α)
  | ask (q : Q) (next : A q → Proc Q A α)

namespace Proc

variable {Q : Type} {A : Q → Type} {R : Type} {B : R → Type} {α β γ σ : Type}

instance [Inhabited α] : Inhabited (Proc Q A α) := ⟨.done default⟩

/-- One computation after the other. -/
def bind : Proc Q A α → (α → Proc Q A β) → Proc Q A β
  | .done a, f => f a
  | .ask q next, f => .ask q fun a => (next a).bind f

instance : Monad (Proc Q A) where
  pure := .done
  bind := bind

/-- Asks one question. -/
def question (q : Q) : Proc Q A (A q) :=
  .ask q .done

@[simp]
theorem pure_def (a : α) : (pure a : Proc Q A α) = .done a := rfl

@[simp]
theorem done_bind (a : α) (f : α → Proc Q A β) : (Proc.done a : Proc Q A α) >>= f = f a := rfl

@[simp]
theorem ask_bind (q : Q) (next : A q → Proc Q A α) (f : α → Proc Q A β) :
    Proc.ask q next >>= f = .ask q fun a => next a >>= f := rfl

theorem bind_done (p : Proc Q A α) : p >>= Proc.done = p := by
  induction p with
  | done a => rfl
  | ask q next ih => simp [ih]

theorem bind_assoc (p : Proc Q A α) (f : α → Proc Q A β) (g : β → Proc Q A γ) :
    p >>= f >>= g = p >>= fun a => f a >>= g := by
  induction p with
  | done a => rfl
  | ask q next ih => simp [ih]

instance : LawfulMonad (Proc Q A) :=
  LawfulMonad.mk' _ (fun p => bind_done p) (fun _ _ => rfl) bind_assoc

/-! ## Answering from a state -/

/-- Answers every question from a state, which each answer may change. -/
def run (answer : (q : Q) → σ → A q × σ) : Proc Q A α → σ → α × σ
  | .done a, s => (a, s)
  | .ask q next, s =>
    let (a, s) := answer q s
    (next a).run answer s

@[simp]
theorem run_done (answer : (q : Q) → σ → A q × σ) (a : α) (s : σ) :
    (Proc.done a : Proc Q A α).run answer s = (a, s) := rfl

@[simp]
theorem run_ask (answer : (q : Q) → σ → A q × σ) (q : Q) (next : A q → Proc Q A α)
    (s : σ) :
    (Proc.ask q next).run answer s = (next (answer q s).1).run answer (answer q s).2 := rfl

/-- Running one computation after the other is running the one and then the other. -/
theorem run_bind (answer : (q : Q) → σ → A q × σ) (p : Proc Q A α)
    (f : α → Proc Q A β) (s : σ) :
    (p >>= f).run answer s = (f (p.run answer s).1).run answer (p.run answer s).2 := by
  induction p generalizing s with
  | done a => rfl
  | ask q next ih => simp [ih]

/-! ## Answering by other computations -/

/-- Answers every question by a computation with questions of another kind. -/
def resolve (answer : (q : Q) → Proc R B (A q)) : Proc Q A α → Proc R B α
  | .done a => .done a
  | .ask q next => answer q >>= fun a => (next a).resolve answer

@[simp]
theorem resolve_done (answer : (q : Q) → Proc R B (A q)) (a : α) :
    (Proc.done a : Proc Q A α).resolve answer = .done a := rfl

@[simp]
theorem resolve_ask (answer : (q : Q) → Proc R B (A q)) (q : Q) (next : A q → Proc Q A α) :
    (Proc.ask q next).resolve answer = answer q >>= fun a => (next a).resolve answer := rfl

/-- Resolving one computation after the other is resolving both. -/
theorem resolve_bind (answer : (q : Q) → Proc R B (A q)) (p : Proc Q A α)
    (f : α → Proc Q A β) :
    (p >>= f).resolve answer = p.resolve answer >>= fun a => (f a).resolve answer := by
  induction p with
  | done a => rfl
  | ask q next ih => simp [ih]

end Proc

end PodAttach
