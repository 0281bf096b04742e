import PodAttach.Text.Blank
import PodAttach.Text.Digits
import PodAttach.Text.Split

/-!
# Numbers and lists in texts

What is written to a text is read back from it.

* `readNat?_toDigits` and `readHex?_toDigits`: the digits of a number denote it.
* `head?_toDigits`: they have no leading zero.
* `lower_lower`: a text in lower case stays as it is.
* `pieces_join`: texts that were joined are the pieces again, if none of them holds the
  separator; otherwise each of them is cut apart from the others (`pieces_join_eq_flatMap`).
* `trimChars_append`: white space behind a text is taken off.
* `padded_trimChars` and `Padded.trimChars_eq`: the rest of a text has nothing but white space
  around it, and there is no other such text that starts and ends with other characters.
-/

namespace PodAttach.Text

/-! ## Digits -/

theorem isDigit_of_mem_toDigits {n : Nat} {c : Char} (hc : c ∈ Nat.toDigits 10 n) :
    isDigit c = true := by
  have h := Nat.isDigit_of_mem_toDigits (by decide) (by decide) hc
  simpa [isDigit, Char.isDigit, Char.le_def] using h

theorem ofDigits_toDigits (n : Nat) : ofDigits (Nat.toDigits 10 n) = n := by
  have h : Nat.ofDigitChars 10 (Nat.toDigits 10 n) 0 = n :=
    Nat.ofDigitChars_toDigits (by decide) (by decide)
  rw [Nat.ofDigitChars_eq_foldl] at h
  simp only [ofDigits, digitValue, Nat.mul_comm _ 10]
  exact h

/-- The decimal digits of a number denote it. -/
theorem readNat?_toDigits (n : Nat) : readNat? (Nat.toDigits 10 n) = some n := by
  have hall : (Nat.toDigits 10 n).all isDigit = true :=
    List.all_eq_true.2 fun c hc => isDigit_of_mem_toDigits hc
  rw [readNat?, hall, List.isEmpty_eq_false_iff.2 Nat.toDigits_ne_nil, ofDigits_toDigits]
  rfl

/-- A number is read from characters exactly if they are digits, and at least one. -/
theorem readNat?_eq_some_iff {cs : List Char} {n : Nat} :
    readNat? cs = some n ↔ cs ≠ [] ∧ (∀ c ∈ cs, isDigit c = true) ∧ ofDigits cs = n := by
  rw [readNat?]
  split
  · next hnot =>
    refine iff_of_false nofun fun ⟨hne, hdigits, _⟩ => ?_
    rw [Bool.or_eq_true, List.isEmpty_iff, Bool.not_eq_true', List.all_eq_false] at hnot
    rcases hnot with hnil | ⟨c, hc, hdigit⟩
    · exact hne hnil
    · exact hdigit (hdigits c hc)
  · next hdigits =>
    rw [Bool.not_eq_true, Bool.or_eq_false_iff, List.isEmpty_eq_false_iff, Bool.not_eq_false',
      List.all_eq_true] at hdigits
    rw [Option.some_inj, and_iff_right hdigits.1, and_iff_right hdigits.2]

theorem hexValue?_digitChar {d : Nat} (hd : d < 16) : hexValue? (Nat.digitChar d) = some d := by
  have h : ∀ d : Fin 16, hexValue? (Nat.digitChar d) = some d.val := by decide
  exact h ⟨d, hd⟩

theorem hexValue?_hexDigit {d : Nat} (hd : d < 16) : hexValue? (hexDigit d) = some d := by
  have h : ∀ d : Fin 16, hexValue? (hexDigit d) = some d.val := by decide
  exact h ⟨d, hd⟩

/-- The hexadecimal digits of a number denote it. -/
theorem readHex?_toDigits (n : Nat) : readHex? (Nat.toDigits 16 n) = some n := by
  have hfold : (Nat.toDigits 16 n).foldlM (fun n c => (hexValue? c).map (n * 16 + ·)) 0 =
      some n := by
    induction n using Nat.strongRecOn with
    | _ n ih =>
      rw [Nat.toDigits_eq_if (by decide)]
      split
      · next hn => simp [hexValue?_digitChar hn]
      · next hn =>
        rw [List.foldlM_append, ih (n / 16) (by omega)]
        simp [hexValue?_digitChar (Nat.mod_lt n (by decide))]
        omega
  rw [readHex?, List.isEmpty_eq_false_iff.2 Nat.toDigits_ne_nil]
  exact hfold

theorem isHexDigit_of_mem_toDigits {n : Nat} {c : Char} (hc : c ∈ Nat.toDigits 16 n) :
    isHexDigit c = true := by
  induction n using Nat.strongRecOn with
  | _ n ih =>
    rw [Nat.toDigits_eq_if (by decide)] at hc
    split at hc
    · next hn =>
      rw [List.mem_singleton.1 hc, isHexDigit, hexValue?_digitChar hn]
      rfl
    · next hn =>
      rcases List.mem_append.1 hc with hc | hc
      · exact ih (n / 16) (by omega) hc
      · rw [List.mem_singleton.1 hc, isHexDigit, hexValue?_digitChar (Nat.mod_lt n (by decide))]
        rfl

theorem isHexDigit_of_isDigit {c : Char} (hc : isDigit c = true) : isHexDigit c = true := by
  rw [isHexDigit, hexValue?, if_pos hc]
  rfl

/-- A number that is not zero has no leading zero. -/
theorem head?_toDigits {b n : Nat} (hb : 1 < b) (hn : 0 < n) :
    (Nat.toDigits b n).head? ≠ some '0' := by
  induction n using Nat.strongRecOn with
  | _ n ih =>
    rw [Nat.toDigits_eq_if hb]
    split
    · intro hhead
      have hzero := Nat.digitChar_eq_zero.1 (Option.some.inj hhead)
      omega
    · next hle =>
      have hpos : 0 < n / b := Nat.div_pos (by omega) (by omega)
      have hhead := ih (n / b) (Nat.div_lt_self hn hb) hpos
      obtain ⟨c, cs, hcs⟩ := List.exists_cons_of_ne_nil (Nat.toDigits_ne_nil (n := n / b) (b := b))
      rw [hcs] at hhead ⊢
      exact hhead

/-! ## Letters -/

theorem toLower_toLower (c : Char) : c.toLower.toLower = c.toLower := by
  unfold Char.toLower
  split
  · next h =>
    obtain ⟨hlow, hhigh⟩ := h
    rw [dif_neg]
    rintro ⟨-, hupper⟩
    simp only [ge_iff_le, UInt32.le_iff_toNat_le, UInt32.toNat_add, UInt32.toNat_sub]
      at hlow hhigh hupper
    have hfirst : 'A'.val.toNat = 65 := rfl
    have hlast : 'Z'.val.toNat = 90 := rfl
    have hlower : 'a'.val.toNat = 97 := rfl
    omega
  · rfl

theorem lower_lower (s : String) : lower (lower s) = lower s := by
  have hcomp : Char.toLower ∘ Char.toLower = Char.toLower := funext toLower_toLower
  unfold lower
  rw [String.toList_ofList, List.map_map, hcomp]

/-! ## Pieces -/

variable {sep : Char}

theorem pieces_of_not_mem {p : List Char} (hp : sep ∉ p) : pieces sep p = [p] := by
  induction p with
  | nil => rfl
  | cons c rest ih =>
    rw [List.mem_cons, not_or] at hp
    rw [pieces, if_neg (Ne.symm hp.1), ih hp.2]

/-- A text is cut on both sides of a separator apart. -/
theorem pieces_append_cons (cs rest : List Char) :
    pieces sep (cs ++ sep :: rest) = pieces sep cs ++ pieces sep rest := by
  induction cs with
  | nil => simp [pieces]
  | cons c cs ih =>
    rw [List.cons_append, pieces, pieces, ih]
    split
    · rfl
    · obtain ⟨p, ps, hps⟩ := List.exists_cons_of_ne_nil (pieces_ne_nil sep cs)
      rw [hps]
      rfl

theorem pieces_append {p : List Char} (hp : sep ∉ p) (rest : List Char) :
    pieces sep (p ++ sep :: rest) = p :: pieces sep rest := by
  rw [pieces_append_cons, pieces_of_not_mem hp, List.singleton_append]

/-- Texts that were joined are cut one by one. -/
theorem pieces_join_eq_flatMap {ps : List (List Char)} (hne : ps ≠ []) :
    pieces sep (join sep ps) = ps.flatMap (pieces sep) := by
  induction ps with
  | nil => exact absurd rfl hne
  | cons p ps ih =>
    cases ps with
    | nil => simp [join]
    | cons q ps => rw [join, pieces_append_cons, ih (by simp), ← List.flatMap_cons]

/-- Joining texts without the separator and cutting the result gives the texts. -/
theorem pieces_join {ps : List (List Char)} (hne : ps ≠ []) (hps : ∀ p ∈ ps, sep ∉ p) :
    pieces sep (join sep ps) = ps := by
  have hsame : ps.map (pieces sep) = ps.map fun p => [p] :=
    List.map_congr_left fun p hp => pieces_of_not_mem (hps p hp)
  rw [pieces_join_eq_flatMap hne, List.flatMap_def, hsame, ← List.flatMap_def,
    List.flatMap_singleton']

/-- The library's way to put texts together is the same. -/
theorem intercalate_eq_join (ps : List (List Char)) : [sep].intercalate ps = join sep ps := by
  induction ps with
  | nil => rfl
  | cons p ps ih =>
    cases ps with
    | nil => simp [List.intercalate, join]
    | cons q ps =>
      rw [join, ← ih]
      simp [List.intercalate]

theorem mem_join {ps : List (List Char)} {c : Char} (hc : c ∈ join sep ps) :
    c = sep ∨ ∃ p ∈ ps, c ∈ p := by
  induction ps with
  | nil => cases hc
  | cons p ps ih =>
    cases ps with
    | nil => exact .inr ⟨p, by simp, hc⟩
    | cons q ps =>
      rw [join, List.mem_append, List.mem_cons] at hc
      rcases hc with hc | hc | hc
      · exact .inr ⟨p, by simp, hc⟩
      · exact .inl hc
      · rcases ih hc with hsep | ⟨p', hp', hc'⟩
        · exact .inl hsep
        · exact .inr ⟨p', List.mem_cons_of_mem _ hp', hc'⟩

theorem split_of_not_mem {s : String} (hs : sep ∉ s.toList) : split sep s = [s] := by
  rw [split, pieces_of_not_mem hs, List.map_singleton, String.ofList_toList]

/-- A text is split on both sides of a separator apart. -/
theorem split_append {s l r : String} (hs : s.toList = l.toList ++ sep :: r.toList) :
    split sep s = split sep l ++ split sep r := by
  rw [split, hs, pieces_append_cons, List.map_append]
  rfl

/-! ## White space -/

theorem isBlank_of_isHexDigit {c : Char} (hc : isHexDigit c = true) :
    isBlank c = false := by
  have hrange : 48 ≤ c.toNat ∧ c.toNat ≤ 57 ∨ 97 ≤ c.toNat ∧ c.toNat ≤ 102 ∨
      65 ≤ c.toNat ∧ c.toNat ≤ 70 := by
    unfold isHexDigit hexValue? isDigit at hc
    simp only [Char.le_def, UInt32.le_iff_toNat_le, Bool.and_eq_true, decide_eq_true_eq] at hc
    split at hc
    · next h => exact .inl h
    split at hc
    · next h => exact .inr (.inl h)
    split at hc
    · next h => exact .inr (.inr h)
    · cases hc
  unfold isBlank
  simp only [Bool.or_eq_false_iff, Bool.and_eq_false_iff, decide_eq_false_iff_not,
    beq_eq_false_iff_ne]
  omega

/-- White space after a text that starts and ends with other characters is taken off. -/
theorem trimChars_append {cs ws : List Char} (hne : cs ≠ [])
    (hhead : ∀ c, cs.head? = some c → isBlank c = false)
    (hlast : ∀ c, cs.getLast? = some c → isBlank c = false)
    (hblank : ∀ c ∈ ws, isBlank c = true) : trimChars (cs ++ ws) = cs := by
  have hdrop : ∀ ds, (cs ++ ds).dropWhile isBlank = cs ++ ds := by
    intro ds
    obtain ⟨c, rest, rfl⟩ := List.exists_cons_of_ne_nil hne
    exact List.dropWhile_cons_of_neg (by simp [hhead c rfl])
  have hnone := hdrop []
  have hself := trimChars_eq_self hhead hlast
  rw [List.append_nil] at hnone
  rw [trimChars, hnone] at hself
  rw [trimChars, hdrop, List.reverse_append,
    List.dropWhile_append_of_pos (fun c hc => hblank c (List.mem_reverse.1 hc)), hself]

/-- Characters with nothing but white space before and after others. -/
def Padded (body cs : List Char) : Prop :=
  ∃ before after, cs = before ++ body ++ after ∧ (∀ c ∈ before, isBlank c = true) ∧
    ∀ c ∈ after, isBlank c = true

theorem padded_trimChars (cs : List Char) : Padded (trimChars cs) cs := by
  have hblank : ∀ {l : List Char}, ∀ c ∈ l.takeWhile isBlank, isBlank c = true :=
    List.all_eq_true.1 List.all_takeWhile
  refine ⟨cs.takeWhile isBlank, ((cs.dropWhile isBlank).reverse.takeWhile isBlank).reverse, ?_,
    hblank, fun c hc => hblank c (List.mem_reverse.1 hc)⟩
  rw [trimChars, List.append_assoc, ← List.reverse_append, List.takeWhile_append_dropWhile,
    List.reverse_reverse, List.takeWhile_append_dropWhile]

theorem Padded.trimChars_eq {body cs : List Char} (h : Padded body cs) (hne : body ≠ [])
    (hhead : ∀ c, body.head? = some c → isBlank c = false)
    (hlast : ∀ c, body.getLast? = some c → isBlank c = false) : trimChars cs = body := by
  obtain ⟨before, after, rfl, hbefore, hafter⟩ := h
  rw [trimChars, List.append_assoc, List.dropWhile_append_of_pos hbefore, ← trimChars]
  exact trimChars_append hne hhead hlast hafter

end PodAttach.Text
