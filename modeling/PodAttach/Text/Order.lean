/-!
# The order of texts

Texts are put in order by their characters, and those by their numbers: the
first difference decides, and a text comes before every longer one that
starts with it.  `Before` is a strict order, and of two different texts one
comes before the other (`before_trichotomy`).  `notAfter` is that order with
equality, by which lists are sorted.
-/

namespace PodAttach.Text

/-- Whether characters come before others. -/
def charsBefore : List Char → List Char → Bool
  | _, [] => false
  | [], _ :: _ => true
  | c :: s, d :: t => decide (c.toNat < d.toNat) || (c == d && charsBefore s t)

/-- One text comes before another. -/
def Before (s t : String) : Prop :=
  charsBefore s.toList t.toList = true

instance (s t : String) : Decidable (Before s t) :=
  inferInstanceAs (Decidable (_ = true))

/-- A text does not come after another. -/
def notAfter (s t : String) : Bool :=
  !charsBefore t.toList s.toList

/-! ## A strict order -/

theorem charsBefore_irrefl (s : List Char) : charsBefore s s = false := by
  induction s with
  | nil => rfl
  | cons c s ih => simp [charsBefore, ih]

theorem charsBefore_trans {s t u : List Char} (hst : charsBefore s t = true)
    (htu : charsBefore t u = true) : charsBefore s u = true := by
  induction s generalizing t u with
  | nil =>
    cases u with
    | nil => cases t <;> simp [charsBefore] at htu
    | cons d u => rfl
  | cons c s ih =>
    cases t with
    | nil => simp [charsBefore] at hst
    | cons d t =>
      cases u with
      | nil => simp [charsBefore] at htu
      | cons e u =>
        simp only [charsBefore, Bool.or_eq_true, decide_eq_true_eq, Bool.and_eq_true,
          beq_iff_eq] at hst htu ⊢
        rcases hst with hcd | ⟨rfl, hst⟩ <;> rcases htu with hde | ⟨rfl, htu⟩
        · exact .inl (Nat.lt_trans hcd hde)
        · exact .inl hcd
        · exact .inl hde
        · exact .inr ⟨rfl, ih hst htu⟩

theorem charsBefore_trichotomy (s t : List Char) :
    charsBefore s t = true ∨ s = t ∨ charsBefore t s = true := by
  induction s generalizing t with
  | nil => cases t <;> simp [charsBefore]
  | cons c s ih =>
    cases t with
    | nil => simp [charsBefore]
    | cons d t =>
      simp only [charsBefore, Bool.or_eq_true, decide_eq_true_eq, Bool.and_eq_true, beq_iff_eq]
      rcases Nat.lt_trichotomy c.toNat d.toNat with h | h | h
      · exact .inl (.inl h)
      · have hcd : c = d := Char.toNat_inj.1 h
        rcases ih t with hst | hst | hst
        · exact .inl (.inr ⟨hcd, hst⟩)
        · exact .inr (.inl (by rw [hcd, hst]))
        · exact .inr (.inr (.inr ⟨hcd.symm, hst⟩))
      · exact .inr (.inr (.inl h))

theorem not_before_self (s : String) : ¬ Before s s := by
  simp [Before, charsBefore_irrefl]

theorem Before.trans {s t u : String} (hst : Before s t) (htu : Before t u) : Before s u :=
  charsBefore_trans hst htu

theorem Before.ne {s t : String} (h : Before s t) : s ≠ t := by
  rintro rfl
  exact not_before_self s h

/-- Of two different texts one comes before the other. -/
theorem before_trichotomy (s t : String) : Before s t ∨ s = t ∨ Before t s := by
  rcases charsBefore_trichotomy s.toList t.toList with h | h | h
  · exact .inl h
  · exact .inr (.inl (String.toList_inj.1 h))
  · exact .inr (.inr h)

/-! ## The order with equality -/

theorem notAfter_iff {s t : String} : notAfter s t = true ↔ Before s t ∨ s = t := by
  have hnot : notAfter s t = true ↔ ¬ Before t s := by simp [notAfter, Before]
  rw [hnot]
  constructor
  · intro h
    rcases before_trichotomy s t with hbefore | heq | hafter
    · exact .inl hbefore
    · exact .inr heq
    · exact absurd hafter h
  · rintro (hbefore | rfl) hafter
    · exact not_before_self s (hbefore.trans hafter)
    · exact not_before_self s hafter

theorem notAfter_trans (s t u : String) (hst : notAfter s t = true) (htu : notAfter t u = true) :
    notAfter s u = true := by
  rw [notAfter_iff] at hst htu ⊢
  rcases hst with hst | rfl
  · rcases htu with htu | rfl
    · exact .inl (hst.trans htu)
    · exact .inl hst
  · exact htu

theorem notAfter_total (s t : String) : (notAfter s t || notAfter t s) = true := by
  rw [Bool.or_eq_true, notAfter_iff, notAfter_iff]
  rcases before_trichotomy s t with hbefore | heq | hafter
  · exact .inl (.inl hbefore)
  · exact .inl (.inr heq)
  · exact .inr (.inl hafter)

end PodAttach.Text
