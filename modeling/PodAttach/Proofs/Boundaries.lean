import PodAttach.Proofs.Encoding

/-!
# Ends of characters among bytes

The first byte of a character is told from the others by its top bits
(`encodeChar_eq_cons`), so a look at one byte says whether a character ends
before it.

* `isBoundary_encodeChars_iff`: the places that pass are those where a text
  that the whole one starts with ends.
* `lastBoundary?_spec`: a search backwards from any place finds the last of
  them; at the latest it stops before the first byte.
* `encodeChars_take`: cut off there, the bytes spell that text.
-/

namespace PodAttach.Utf8

theorem isTail_ofNat_eq {n : Nat} (hn : n < 256) :
    isTail (UInt8.ofNat n) = (decide (0x80 ≤ n) && decide (n ≤ 0xBF)) :=
  between_ofNat 0x80 0xBF (by decide) (by decide) hn

/-- A character is a first byte and bytes that continue it. -/
theorem encodeChar_eq_cons (c : Char) :
    ∃ b tail, encodeChar c = b :: tail ∧ isTail b = false ∧ ∀ t ∈ tail, isTail t = true := by
  have hrange := toNat_lt c
  have hhead : ∀ n, n < 256 → ¬ (0x80 ≤ n ∧ n ≤ 0xBF) → isTail (UInt8.ofNat n) = false := by
    intro n hn hnot
    rw [isTail_ofNat_eq hn, ← Bool.decide_and]
    exact decide_eq_false hnot
  have htail : ∀ n, isTail (UInt8.ofNat (0x80 + n % 64)) = true :=
    fun n => isTail_ofNat (Nat.mod_lt n (by decide))
  rcases encodeChar_cases c with ⟨h, hc⟩ | ⟨-, h, hc⟩ | ⟨-, h, hc⟩ | ⟨h, hc⟩
  · exact ⟨_, _, hc, hhead _ (by omega) (by omega), List.forall_mem_nil _⟩
  · exact ⟨_, _, hc, hhead _ (by omega) (by omega), List.forall_mem_singleton.2 (htail _)⟩
  · exact ⟨_, _, hc, hhead _ (by omega) (by omega),
      List.forall_mem_cons.2 ⟨htail _, List.forall_mem_singleton.2 (htail _)⟩⟩
  · exact ⟨_, _, hc, hhead _ (by omega) (by omega),
      List.forall_mem_cons.2 ⟨htail _, List.forall_mem_cons.2 ⟨htail _,
        List.forall_mem_singleton.2 (htail _)⟩⟩⟩

theorem length_encodeChar (c : Char) : (encodeChar c).length = c.utf8Size := by
  unfold Char.utf8Size
  simp only [UInt32.le_iff_toNat_le, UInt32.toNat_ofNatLT]
  have hnat : c.val.toNat = c.toNat := rfl
  rw [hnat]
  rcases encodeChar_cases c with ⟨h, hc⟩ | ⟨h, h', hc⟩ | ⟨h, h', hc⟩ | ⟨h, hc⟩
  · rw [hc, if_pos (by omega)]
    rfl
  · rw [hc, if_neg (by omega), if_pos (by omega)]
    rfl
  · rw [hc, if_neg (by omega), if_neg (by omega), if_pos (by omega)]
    rfl
  · rw [hc, if_neg (by omega), if_neg (by omega), if_neg (by omega)]
    rfl

theorem encodeChars_cons (c : Char) (cs : List Char) :
    encodeChars (c :: cs) = encodeChar c ++ encodeChars cs :=
  List.flatMap_cons

/-- No text starts inside a character. -/
theorem isTail_head?_encodeChars {cs : List Char} {b : UInt8}
    (hb : (encodeChars cs)[0]? = some b) : isTail b = false := by
  cases cs with
  | nil => cases hb
  | cons c cs =>
    obtain ⟨first, tail, hc, hfirst, -⟩ := encodeChar_eq_cons c
    rw [encodeChars_cons, hc] at hb
    cases hb
    exact hfirst

/-- Behind the bytes of a first character the places are those of what follows it. -/
theorem isBoundary_append_encodeChars {bytes : Bytes} (hne : bytes ≠ []) (cs : List Char)
    (i : Nat) :
    isBoundary (bytes ++ encodeChars cs) (bytes.length + i) = isBoundary (encodeChars cs) i := by
  have hpos : bytes.length + i ≠ 0 := by
    have := List.length_pos_iff.2 hne
    omega
  have hget : (bytes ++ encodeChars cs)[bytes.length + i]? = (encodeChars cs)[i]? := by
    rw [List.getElem?_append_right (Nat.le_add_right _ _), Nat.add_sub_cancel_left]
  rw [isBoundary, isBoundary, hget, beq_false_of_ne hpos, Bool.false_or, List.length_append]
  cases hb : (encodeChars cs)[i]? with
  | none =>
    have hend := List.getElem?_eq_none_iff.1 hb
    rw [Bool.eq_iff_iff, Bool.or_eq_true, beq_iff_eq, beq_iff_eq, beq_iff_eq]
    omega
  | some b =>
    cases i with
    | zero =>
      show (!isTail b) = true
      rw [isTail_head?_encodeChars hb]
      rfl
    | succ i => rfl

/-- No character ends between the first byte of a character and one that continues it. -/
theorem not_isBoundary_of_tail {first : UInt8} {tail rest : Bytes}
    (htail : ∀ t ∈ tail, isTail t = true) {i : Nat} (hi : i < tail.length) :
    isBoundary (first :: tail ++ rest) (i + 1) = false := by
  have hget : (first :: tail ++ rest)[i + 1]? = some tail[i] := by
    rw [List.cons_append, List.getElem?_cons_succ, List.getElem?_append_left hi,
      List.getElem?_eq_getElem hi]
  rw [isBoundary, hget]
  show (false || !isTail tail[i]) = false
  rw [htail _ (List.getElem_mem hi)]
  rfl

/-- A character ends where a text ends that the whole one starts with, and nowhere else. -/
theorem isBoundary_encodeChars_iff {cs : List Char} {i : Nat} :
    isBoundary (encodeChars cs) i = true ↔
      ∃ front, front <+: cs ∧ (encodeChars front).length = i := by
  induction cs generalizing i with
  | nil =>
    have hnil : isBoundary (encodeChars []) i = true ↔ i = 0 := by
      simp [isBoundary, encodeChars]
    rw [hnil]
    constructor
    · intro h
      exact ⟨[], List.prefix_rfl, h.symm⟩
    · intro h
      obtain ⟨front, hfront, hsize⟩ := h
      rw [List.prefix_nil.1 hfront] at hsize
      exact hsize.symm
  | cons c cs ih =>
    obtain ⟨first, tail, hc, -, htail⟩ := encodeChar_eq_cons c
    -- the place is before the first character, inside it, or at its end or behind
    cases i with
    | zero => exact iff_of_true rfl ⟨[], List.nil_prefix, rfl⟩
    | succ i =>
      have hsizes : ∀ front, front <+: c :: cs → (encodeChars front).length = i + 1 →
          ∃ rest, front = c :: rest ∧ rest <+: cs ∧
            tail.length + (encodeChars rest).length = i := by
        intro front hfront hsize
        cases front with
        | nil => cases hsize
        | cons d rest =>
          obtain ⟨rfl, hrest⟩ := List.cons_prefix_cons.1 hfront
          rw [encodeChars_cons, hc, List.length_append, List.length_cons] at hsize
          exact ⟨rest, rfl, hrest, by omega⟩
      by_cases hi : i < tail.length
      · rw [encodeChars_cons, hc, not_isBoundary_of_tail htail hi]
        refine iff_of_false Bool.false_ne_true ?_
        intro h
        obtain ⟨front, hfront, hsize⟩ := h
        obtain ⟨rest, -, -, hlength⟩ := hsizes front hfront hsize
        omega
      · obtain ⟨j, rfl⟩ := Nat.exists_eq_add_of_le (Nat.le_of_not_lt hi)
        have hplace : tail.length + j + 1 = (encodeChar c).length + j := by
          rw [hc, List.length_cons]
          omega
        rw [encodeChars_cons, hplace, isBoundary_append_encodeChars (by simp [hc]), ih, ← hplace]
        constructor
        · intro h
          obtain ⟨rest, hrest, hsize⟩ := h
          refine ⟨c :: rest, List.cons_prefix_cons.2 ⟨rfl, hrest⟩, ?_⟩
          rw [encodeChars_cons, hc, List.length_append, List.length_cons, hsize]
          omega
        · intro h
          obtain ⟨front, hfront, hsize⟩ := h
          obtain ⟨rest, -, hrest, hlength⟩ := hsizes front hfront hsize
          exact ⟨rest, hrest, by omega⟩

/-- The search backwards finds the last end of a character up to where it starts. -/
theorem lastBoundary?_spec (bytes : Bytes) (i : Nat) :
    ∃ stop, lastBoundary? bytes i = some stop ∧ stop ≤ i ∧ isBoundary bytes stop = true ∧
      ∀ j, j ≤ i → isBoundary bytes j = true → j ≤ stop := by
  induction i with
  | zero => exact ⟨0, rfl, Nat.le_refl 0, rfl, fun j hj _ => hj⟩
  | succ i ih =>
    by_cases hi : isBoundary bytes (i + 1) = true
    · exact ⟨i + 1, if_pos hi, Nat.le_refl _, hi, fun j hj _ => hj⟩
    · obtain ⟨stop, hstop, hle, hboundary, hlast⟩ := ih
      refine ⟨stop, (if_neg hi).trans hstop, Nat.le_succ_of_le hle, hboundary, fun j hj hend => ?_⟩
      have hne : j ≠ i + 1 := by
        rintro rfl
        exact hi hend
      exact hlast j (by omega) hend

/-- The bytes up to the end of a text that another one starts with are those of that text. -/
theorem encodeChars_take {front cs : List Char} (hfront : front <+: cs) :
    (encodeChars cs).take (encodeChars front).length = encodeChars front := by
  obtain ⟨rest, rfl⟩ := hfront
  rw [encodeChars_append, List.take_left]

end PodAttach.Utf8
