import PodAttach.Kernel.Ask
import PodAttach.Proofs.Rules

/-!
# Work that may end with an error

Work with the kernel may end with an error at every step.  `Work.Ends` says
what holds when it gives something and what holds when it fails, and the two
are carried from step to step: after an error nothing more is done.

* `Work.Gives` says only what holds when the work gives something, and
  `Work.Succeeds` that it does.
* `ends_bind`, `ends_tryCatch` and `ends_forM` put work together.
-/

namespace PodAttach.Kernel.Work

variable {σ ε ε' α β : Type} {R : Proc.Rules Ask Ask.Reply σ} {s : σ}

/-- The work keeps to the rules; it gives something as one postcondition says, or ends with an
error as the other one does. -/
def Ends (R : Proc.Rules Ask Ask.Reply σ) (s : σ) (w : Work ε α) (post : α → σ → Prop)
    (failed : σ → Prop) : Prop :=
  w.run.Ensures R s fun
    | .ok a, s' => post a s'
    | .error _, s' => failed s'

/-- The work keeps to the rules, and if it ends without an error then as the postcondition
says. -/
def Gives (R : Proc.Rules Ask Ask.Reply σ) (s : σ) (w : Work ε α) (post : α → σ → Prop) : Prop :=
  Ends R s w post fun _ => True

/-- The work keeps to the rules, and it ends without an error. -/
def Succeeds (R : Proc.Rules Ask Ask.Reply σ) (s : σ) (w : Work ε α) (post : α → σ → Prop) :
    Prop :=
  Ends R s w post fun _ => False

section

variable {post : α → σ → Prop} {failed : σ → Prop}

theorem ends_pure {a : α} (h : post a s) : Ends R s (pure a : Work ε α) post failed := h

theorem ends_throw {e : ε} (h : failed s) : Ends R s (throw e : Work ε α) post failed := h

theorem Ends.mono {w : Work ε α} {post' : α → σ → Prop} {failed' : σ → Prop}
    (h : Ends R s w post failed) (hpost : ∀ a s', post a s' → post' a s')
    (hfailed : ∀ s', failed s' → failed' s') : Ends R s w post' failed' := by
  refine Proc.Ensures.mono h fun x s' hx => ?_
  cases x with
  | ok a => exact hpost a s' hx
  | error e => exact hfailed s' hx

theorem Ends.imp_post {w : Work ε α} {post' : α → σ → Prop} (h : Ends R s w post failed)
    (himp : ∀ a s', post a s' → post' a s') : Ends R s w post' failed :=
  h.mono himp fun _ hfailed => hfailed

theorem Ends.imp_failed {w : Work ε α} {failed' : σ → Prop} (h : Ends R s w post failed)
    (himp : ∀ s', failed s' → failed' s') : Ends R s w post failed' :=
  h.mono (fun _ _ hpost => hpost) himp

theorem ends_ite {p : Prop} [Decidable p] {w w' : Work ε α} (h : p → Ends R s w post failed)
    (h' : ¬ p → Ends R s w' post failed) : Ends R s (if p then w else w') post failed := by
  split
  · next hp => exact h hp
  · next hp => exact h' hp

theorem ends_ask {q : Ask} {post : q.Reply → σ → Prop} (hq : R.asks q s)
    (h : ∀ reply s', R.answers q s reply s' → post reply s') :
    Ends R s (ask q : Work ε q.Reply) post failed :=
  ⟨hq, h⟩

theorem ends_orFail {wrap : Errno → ε} {x : Except Errno α} (h : ∀ a, x = .ok a → post a s)
    (hfailed : ∀ e, x = .error e → failed s) : Ends R s (orFail wrap x) post failed := by
  cases x with
  | error e => exact ends_throw (hfailed e rfl)
  | ok a => exact ends_pure (h a rfl)

end

theorem ends_bind {w : Work ε α} {f : α → Work ε β} {mid : α → σ → Prop} {post : β → σ → Prop}
    {failed : σ → Prop} (h : Ends R s w mid failed)
    (hf : ∀ a s', mid a s' → Ends R s' (f a) post failed) : Ends R s (w >>= f) post failed := by
  refine Proc.Ensures.bind h fun x s' hx => ?_
  cases x with
  | error e => exact ends_throw hx
  | ok a => exact hf a s' hx

/-- After an error the handler goes on from what then holds. -/
theorem ends_tryCatch {w : Work ε α} {handler : ε → Work ε α} {post : α → σ → Prop}
    {thrown failed : σ → Prop} (h : Ends R s w post thrown)
    (hhandler : ∀ e s', thrown s' → Ends R s' (handler e) post failed) :
    Ends R s (tryCatch w handler) post failed := by
  refine Proc.Ensures.bind h fun x s' hx => ?_
  cases x with
  | error e => exact hhandler e s' hx
  | ok a => exact ends_pure hx

theorem ends_adapt {w : Work ε α} {f : ε → ε'} {post : α → σ → Prop} {failed : σ → Prop}
    (h : Ends R s w post failed) : Ends R s (ExceptT.adapt f w) post failed := by
  refine Proc.ensures_map.2 (Proc.Ensures.mono h fun x s' hx => ?_)
  cases x with
  | error e => exact hx
  | ok a => exact hx

/-- What holds of the steps that were done holds of all of them after the loop. -/
theorem ends_forM {xs : List β} {f : β → Work ε Unit} (inv : List β → σ → Prop)
    {failed : σ → Prop} (hs : inv [] s)
    (hf : ∀ done x s, x ∈ xs → inv done s →
      Ends R s (f x) (fun _ s' => inv (done ++ [x]) s') failed) :
    Ends R s (xs.forM f) (fun _ s' => inv xs s') failed := by
  have hfrom : ∀ done s, inv done s →
      Ends R s (xs.forM f) (fun _ s' => inv (done ++ xs) s') failed := by
    clear hs
    induction xs with
    | nil =>
      intro done s hdone
      rw [List.append_nil]
      exact ends_pure hdone
    | cons x xs ih =>
      intro done s hdone
      refine ends_bind (hf done x s (by simp) hdone) fun _ s' hstep => ?_
      rw [List.append_cons]
      exact ih (fun done y s hy => hf done y s (by simp [hy])) _ _ hstep
  exact hfrom [] s hs

/-- Work that may ask anything gives something. -/
theorem gives_trivial (hasks : ∀ q s, R.asks q s) (w : Work ε α) :
    Gives R s w fun _ _ => True := by
  have hany : ∀ (p : Proc Ask Ask.Reply (Except ε α)) s,
      p.Ensures R s fun
        | .ok _, _ => True
        | .error _, _ => True := by
    intro p
    induction p with
    | done x => cases x <;> exact fun _ => trivial
    | ask q next ih => exact fun s => ⟨hasks q s, fun reply s' _ => ih reply s'⟩
  exact hany w.run s

end PodAttach.Kernel.Work
