import Mathlib.Data.List.Forall2
import Mathlib.Data.List.Induction
import PodAttach.Address.Addressing

/-!
# Lists that are read and put together

A list is read item by item, and it cannot be had if one of its items cannot.
`mapM_eq_some_iff` and `mapM_eq_ok_iff` say what it is read as, item by item,
and `exists_mapM_ok_iff` when it can be read at all.

Lists are put together without repeats.  `eraseDups_appendNew` says that it
makes no difference whether repeats are left out on the way or at the end,
and `appendNew_concat` which items are left out.
-/

namespace PodAttach

variable {α β ε : Type}

/-! ## Item by item -/

theorem bind_eq_ok_iff {x : Except ε α} {f : α → Except ε β} {b : β} :
    x >>= f = .ok b ↔ ∃ a, x = .ok a ∧ f a = .ok b := by
  cases x with
  | error e => simp [bind, Except.bind]
  | ok a => simp [bind, Except.bind]

/-- Each item of the one list has to do with one of the other. -/
theorem exists_of_mem_forall₂ {R : α → β → Prop} {xs : List α} {ys : List β}
    (h : List.Forall₂ R xs ys) {y : β} (hy : y ∈ ys) : ∃ x ∈ xs, R x y := by
  induction h with
  | nil => cases hy
  | cons hx _ ih =>
    rcases List.mem_cons.1 hy with rfl | hy
    · exact ⟨_, List.mem_cons_self, hx⟩
    · obtain ⟨x, hmem, hx⟩ := ih hy
      exact ⟨x, List.mem_cons_of_mem _ hmem, hx⟩

/-- What is said of the items of the one list is said of those of the other. -/
theorem forall_mem_iff_of_forall₂ {R : α → β → Prop} {P : α → Prop} {Q : β → Prop} {xs : List α}
    {ys : List β} (h : List.Forall₂ R xs ys) (hsame : ∀ x ∈ xs, ∀ y, R x y → (P x ↔ Q y)) :
    (∀ x ∈ xs, P x) ↔ ∀ y ∈ ys, Q y := by
  induction h with
  | nil => simp
  | @cons x y xs ys hx _ ih =>
    have hfirst : P x ↔ Q y := hsame x List.mem_cons_self y hx
    have hrest := ih fun x' hx' => hsame x' (List.mem_cons_of_mem x hx')
    rw [List.forall_mem_cons, List.forall_mem_cons, hfirst, hrest]

/-- Looking for the same in both lists gives two items that have to do with each other. -/
theorem rel_find?_of_forall₂ {R : α → β → Prop} {p : α → Bool} {q : β → Bool} {xs : List α}
    {ys : List β} (h : List.Forall₂ R xs ys) (hsame : ∀ x ∈ xs, ∀ y, R x y → p x = q y) :
    Option.Rel (fun x y => x ∈ xs ∧ R x y) (xs.find? p) (ys.find? q) := by
  induction h with
  | nil => exact .none
  | @cons x y xs ys hx _ ih =>
    have hfirst : p x = q y := hsame x List.mem_cons_self y hx
    rw [List.find?_cons, List.find?_cons, ← hfirst]
    cases p x with
    | true => exact .some ⟨List.mem_cons_self, hx⟩
    | false =>
      have hrest := ih fun x' hx' => hsame x' (List.mem_cons_of_mem x hx')
      dsimp only
      generalize xs.find? p = found, ys.find? q = found' at hrest ⊢
      cases hrest with
      | none => exact .none
      | some hfound => exact .some ⟨List.mem_cons_of_mem x hfound.1, hfound.2⟩

/-- A list is read as the list of what its items are read as. -/
theorem mapM_eq_some_iff {f : α → Option β} {xs : List α} {ys : List β} :
    xs.mapM f = some ys ↔ List.Forall₂ (fun x y => f x = some y) xs ys := by
  induction xs generalizing ys with
  | nil => simp [eq_comm]
  | cons x xs ih =>
    rw [List.mapM_cons, List.forall₂_cons_left_iff]
    cases hx : f x with
    | none => simp
    | some y =>
      cases hxs : xs.mapM f with
      | none =>
        simp only [hxs] at ih
        simp [← ih]
      | some rest =>
        simp only [hxs] at ih
        simp [← ih, eq_comm]

theorem mapM_eq_ok_iff {f : α → Except ε β} {xs : List α} {ys : List β} :
    xs.mapM f = .ok ys ↔ List.Forall₂ (fun x y => f x = .ok y) xs ys := by
  induction xs generalizing ys with
  | nil => simp [pure, Except.pure, eq_comm]
  | cons x xs ih =>
    rw [List.mapM_cons, List.forall₂_cons_left_iff]
    cases hx : f x with
    | error e => simp [bind, Except.bind]
    | ok y =>
      cases hxs : xs.mapM f with
      | error e =>
        simp only [hxs] at ih
        simp [bind, Except.bind, ← ih]
      | ok rest =>
        simp only [hxs] at ih
        simp [bind, Except.bind, pure, Except.pure, ← ih, eq_comm]

/-- A list can be read exactly if each of its items can. -/
theorem exists_mapM_ok_iff {f : α → Except ε β} {xs : List α} :
    (∃ ys, xs.mapM f = .ok ys) ↔ ∀ x ∈ xs, ∃ y, f x = .ok y := by
  induction xs with
  | nil => simp [pure, Except.pure]
  | cons x xs ih =>
    simp only [List.mapM_cons, bind_eq_ok_iff, List.forall_mem_cons, ← ih, pure, Except.pure,
      Except.ok.injEq]
    constructor
    · intro h
      obtain ⟨_, y, hy, ys, hys, -⟩ := h
      exact ⟨⟨y, hy⟩, ys, hys⟩
    · intro h
      obtain ⟨⟨y, hy⟩, ys, hys⟩ := h
      exact ⟨_, y, hy, ys, hys, rfl⟩

/-- What every step of a fold keeps, the fold keeps, if it succeeds. -/
theorem foldlM_invariant {P : β → Prop} {f : β → α → Except ε β}
    (hf : ∀ b x b', f b x = .ok b' → P b → P b') {xs : List α} {b b' : β} (hb : P b)
    (hfold : xs.foldlM f b = .ok b') : P b' := by
  induction xs generalizing b with
  | nil =>
    cases hfold
    exact hb
  | cons x xs ih =>
    rw [List.foldlM_cons] at hfold
    cases hx : f b x with
    | error e =>
      rw [hx] at hfold
      cases hfold
    | ok b₁ =>
      rw [hx] at hfold
      exact ih (hf b x b₁ hx hb) hfold

/-! ## Without repeats -/

section

variable [BEq α] [LawfulBEq α]

/-- The last item is left out if it is there already. -/
theorem eraseDups_concat (xs : List α) (y : α) :
    (xs ++ [y]).eraseDups = if y ∈ xs then xs.eraseDups else xs.eraseDups ++ [y] := by
  rw [List.eraseDups_append]
  split
  · next hy => simp [List.removeAll, hy]
  · next hy => simp [List.removeAll, hy, List.eraseDups_cons]

theorem mem_appendNew {xs ys : List α} {z : α} : z ∈ appendNew xs ys ↔ z ∈ xs ++ ys := by
  unfold appendNew
  induction ys generalizing xs with
  | nil => simp
  | cons y ys ih =>
    rw [List.foldl_cons, ih]
    split
    · next hy =>
      have hmem : y ∈ xs := List.contains_iff_mem.1 hy
      simp only [List.mem_append, List.mem_cons]
      grind
    · simp

/-- The last item is not appended if it is there already. -/
theorem appendNew_concat (xs ys : List α) (y : α) :
    appendNew xs (ys ++ [y]) = if y ∈ xs ++ ys then appendNew xs ys else appendNew xs ys ++ [y] := by
  have hstep : appendNew xs (ys ++ [y]) =
      if (appendNew xs ys).contains y then appendNew xs ys else appendNew xs ys ++ [y] := by
    unfold appendNew
    rw [List.foldl_append]
    rfl
  rw [hstep]
  simp only [List.contains_iff_mem, mem_appendNew]

/-- It makes no difference whether repeats are left out on the way or at the end. -/
theorem eraseDups_appendNew (xs ys : List α) :
    (appendNew xs ys).eraseDups = (xs ++ ys).eraseDups := by
  induction ys using List.reverseRecOn with
  | nil => simp [appendNew]
  | append_singleton ys y ih =>
    rw [appendNew_concat, ← List.append_assoc, eraseDups_concat, ← ih]
    split
    · rfl
    · next hy => rw [eraseDups_concat, if_neg (mt mem_appendNew.1 hy)]

theorem eraseDups_of_nodup {xs : List α} (h : xs.Nodup) : xs.eraseDups = xs := by
  induction xs using List.reverseRecOn with
  | nil => simp
  | append_singleton xs x ih =>
    obtain ⟨hxs, -, hdisjoint⟩ := List.nodup_append.1 h
    have hx : x ∉ xs := by
      intro hmem
      exact hdisjoint x hmem x (List.mem_singleton_self x) rfl
    rw [eraseDups_concat, if_neg hx, ih hxs]

/-- Lists that are the same up to repeats stay so when others like them are put behind them. -/
theorem eraseDups_append_congr {xs xs' ys ys' : List α} (hxs : xs.eraseDups = xs'.eraseDups)
    (hys : ys.eraseDups = ys'.eraseDups) : (xs ++ ys).eraseDups = (xs' ++ ys').eraseDups := by
  -- only what is new in the second list counts, and that is so up to repeats as well
  have hnew : ∀ zs : List α, (zs.removeAll xs).eraseDups = zs.eraseDups.removeAll xs := by
    intro zs
    induction zs using List.reverseRecOn with
    | nil => simp [List.removeAll]
    | append_singleton zs z ih =>
      have hsplit : ∀ us vs : List α, (us ++ vs).removeAll xs = us.removeAll xs ++ vs.removeAll xs :=
        fun us vs => List.filter_append ..
      rw [hsplit]
      by_cases hz : z ∈ xs
      · have hgone : [z].removeAll xs = [] := by simp [List.removeAll, hz]
        rw [hgone, List.append_nil, ih, eraseDups_concat]
        split
        · rfl
        · rw [hsplit, hgone, List.append_nil]
      · have hkept : [z].removeAll xs = [z] := by simp [List.removeAll, hz]
        have hmem : z ∈ zs.removeAll xs ↔ z ∈ zs := by simp [List.removeAll, hz]
        rw [hkept, eraseDups_concat, eraseDups_concat, ih]
        simp only [hmem]
        split
        · rfl
        · rw [hsplit, hkept]
  have hmem : ∀ z, z ∈ xs ↔ z ∈ xs' := by
    intro z
    rw [← List.mem_eraseDups, hxs, List.mem_eraseDups]
  have hsame : ys'.removeAll xs = ys'.removeAll xs' := by
    simp only [List.removeAll, List.elem_eq_mem, hmem]
  rw [List.eraseDups_append, List.eraseDups_append, hxs, hnew, hys, ← hnew, hsame]

theorem nodup_appendNew {xs : List α} (hxs : xs.Nodup) (ys : List α) :
    (appendNew xs ys).Nodup := by
  induction ys using List.reverseRecOn with
  | nil => exact hxs
  | append_singleton ys y ih =>
    rw [appendNew_concat]
    split
    · exact ih
    · next hy =>
      rw [List.nodup_append]
      refine ⟨ih, by simp, ?_⟩
      intro z hz w hw heq
      rw [List.mem_singleton.1 hw] at heq
      exact hy (mem_appendNew.1 (heq ▸ hz))

/-- Items that are new and differ from each other are all appended. -/
theorem appendNew_of_nodup {xs ys : List α} (h : (xs ++ ys).Nodup) :
    appendNew xs ys = xs ++ ys := by
  have hnodup := nodup_appendNew (List.nodup_append.1 h).1 ys
  rw [← eraseDups_of_nodup hnodup, eraseDups_appendNew, eraseDups_of_nodup h]

end

end PodAttach
