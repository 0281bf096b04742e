import PodAttach.Text.Utf8

/-!
# Reading what was written in UTF-8

`encode` writes a text as bytes, and `decode` reads it again, and reads nothing else.

* `encodeChar_cases`: the four shapes of the bytes of a character.
* `scan_encodeChar`: a scan finds a character at the front of its own bytes.
* `decodeChars_encodeChars`: by induction over the characters.
* `encodeChar_of_scan`: what a scan finds is written in the bytes that it went over.
* `decode_eq_ok_iff`: bytes are read as a text if they are its bytes.
* `decodeLossy_encode`: a text without faults is read without replacements.
-/

namespace PodAttach.Utf8

theorem toNat_lt (c : Char) : c.toNat < 0x110000 := by
  rcases c.valid with h | ⟨-, h⟩
  · exact Nat.lt_trans h (by decide)
  · exact h

/-- No character is half of a pair. -/
theorem not_surrogate (c : Char) : ¬ (0xD800 ≤ c.toNat ∧ c.toNat ≤ 0xDFFF) := by
  rintro ⟨hlow, hhigh⟩
  rcases c.valid with h | ⟨h, -⟩
  · exact absurd h (Nat.not_lt.2 hlow)
  · exact absurd h (Nat.not_lt.2 hhigh)

/-- The bytes of a character, by its size. -/
theorem encodeChar_cases (c : Char) :
    c.toNat < 0x80 ∧ encodeChar c = [UInt8.ofNat c.toNat] ∨
    0x80 ≤ c.toNat ∧ c.toNat < 0x800 ∧ encodeChar c =
      [UInt8.ofNat (0xC0 + c.toNat / 64), UInt8.ofNat (0x80 + c.toNat % 64)] ∨
    0x800 ≤ c.toNat ∧ c.toNat < 0x10000 ∧ encodeChar c =
      [UInt8.ofNat (0xE0 + c.toNat / 4096), UInt8.ofNat (0x80 + c.toNat / 64 % 64),
        UInt8.ofNat (0x80 + c.toNat % 64)] ∨
    0x10000 ≤ c.toNat ∧ encodeChar c =
      [UInt8.ofNat (0xF0 + c.toNat / 262144), UInt8.ofNat (0x80 + c.toNat / 4096 % 64),
        UInt8.ofNat (0x80 + c.toNat / 64 % 64), UInt8.ofNat (0x80 + c.toNat % 64)] := by
  unfold encodeChar
  dsimp only
  split
  · next h => exact .inl ⟨h, rfl⟩
  · split
    · exact .inr (.inl ⟨by omega, by omega, rfl⟩)
    · split
      · exact .inr (.inr (.inl ⟨by omega, by omega, rfl⟩))
      · exact .inr (.inr (.inr ⟨by omega, rfl⟩))

theorem toNat_ofNat_of_lt {n : Nat} (h : n < 256) : (UInt8.ofNat n).toNat = n := by
  rw [UInt8.toNat_ofNat']
  exact Nat.mod_eq_of_lt h

/-- A comparison of bytes is one of numbers. -/
theorem between_ofNat (low high : Nat) {n : Nat} (hlow : low < 256) (hhigh : high < 256)
    (hn : n < 256) :
    (decide (UInt8.ofNat low ≤ UInt8.ofNat n) && decide (UInt8.ofNat n ≤ UInt8.ofNat high)) =
      (decide (low ≤ n) && decide (n ≤ high)) := by
  simp only [UInt8.le_iff_toNat_le, toNat_ofNat_of_lt hlow, toNat_ofNat_of_lt hhigh,
    toNat_ofNat_of_lt hn]

theorem isTail_ofNat {n : Nat} (hn : n < 64) : isTail (UInt8.ofNat (0x80 + n)) = true := by
  have h := between_ofNat 0x80 0xBF (n := 0x80 + n) (by omega) (by omega) (by omega)
  unfold isTail
  refine h.trans ?_
  simp only [Bool.and_eq_true, decide_eq_true_eq]
  omega

theorem ofNat_beq {m n : Nat} (hm : m < 256) (hn : n < 256) :
    (UInt8.ofNat m == UInt8.ofNat n) = decide (m = n) := by
  have heq : UInt8.ofNat m = UInt8.ofNat n ↔ m = n := by
    rw [← UInt8.toNat_inj, toNat_ofNat_of_lt hm, toNat_ofNat_of_lt hn]
  rw [Bool.eq_iff_iff, beq_iff_eq, decide_eq_true_eq, heq]

/-- The second byte of a character of three bytes: the spelling is not too long, and the character
is no half of a pair. -/
theorem isSecondOfThree_ofNat {p q : Nat} (hp : p < 16) (hq : q < 64) (hlong : p = 0 → 32 ≤ q)
    (hpair : p = 13 → q < 32) :
    isSecondOfThree (UInt8.ofNat (0xE0 + p)) (UInt8.ofNat (0x80 + q)) = true := by
  have hfirst := ofNat_beq (m := 0xE0 + p) (n := 0xE0) (by omega) (by omega)
  have hlast := ofNat_beq (m := 0xE0 + p) (n := 0xED) (by omega) (by omega)
  have hhigh := between_ofNat 0xA0 0xBF (n := 0x80 + q) (by omega) (by omega) (by omega)
  have hlow := between_ofNat 0x80 0x9F (n := 0x80 + q) (by omega) (by omega) (by omega)
  show (if UInt8.ofNat (0xE0 + p) == UInt8.ofNat 0xE0 then
      decide (UInt8.ofNat 0xA0 ≤ UInt8.ofNat (0x80 + q)) &&
        decide (UInt8.ofNat (0x80 + q) ≤ UInt8.ofNat 0xBF)
    else if UInt8.ofNat (0xE0 + p) == UInt8.ofNat 0xED then
      decide (UInt8.ofNat 0x80 ≤ UInt8.ofNat (0x80 + q)) &&
        decide (UInt8.ofNat (0x80 + q) ≤ UInt8.ofNat 0x9F)
    else isTail (UInt8.ofNat (0x80 + q))) = true
  rw [hfirst, hlast, hhigh, hlow, isTail_ofNat hq]
  grind

/-- The second byte of a character of four bytes: the spelling is not too long, and the number is
one of a character. -/
theorem isSecondOfFour_ofNat {p q : Nat} (hp : p < 5) (hq : q < 64) (hlong : p = 0 → 16 ≤ q)
    (hlast : p = 4 → q < 16) :
    isSecondOfFour (UInt8.ofNat (0xF0 + p)) (UInt8.ofNat (0x80 + q)) = true := by
  have hfirst := ofNat_beq (m := 0xF0 + p) (n := 0xF0) (by omega) (by omega)
  have hfifth := ofNat_beq (m := 0xF0 + p) (n := 0xF4) (by omega) (by omega)
  have hhigh := between_ofNat 0x90 0xBF (n := 0x80 + q) (by omega) (by omega) (by omega)
  have hlow := between_ofNat 0x80 0x8F (n := 0x80 + q) (by omega) (by omega) (by omega)
  show (if UInt8.ofNat (0xF0 + p) == UInt8.ofNat 0xF0 then
      decide (UInt8.ofNat 0x90 ≤ UInt8.ofNat (0x80 + q)) &&
        decide (UInt8.ofNat (0x80 + q) ≤ UInt8.ofNat 0xBF)
    else if UInt8.ofNat (0xF0 + p) == UInt8.ofNat 0xF4 then
      decide (UInt8.ofNat 0x80 ≤ UInt8.ofNat (0x80 + q)) &&
        decide (UInt8.ofNat (0x80 + q) ≤ UInt8.ofNat 0x8F)
    else isTail (UInt8.ofNat (0x80 + q))) = true
  rw [hfirst, hfifth, hhigh, hlow, isTail_ofNat hq]
  grind

/-! ## Scanning -/

/-- A scan finds a character at the front of its own bytes. -/
theorem scan_encodeChar (c : Char) (rest : Bytes) :
    ∃ a bs, encodeChar c = a :: bs ∧ scan a (bs ++ rest) = .char c (bs.length + 1) := by
  have hlt := toNat_lt c
  have hpair := not_surrogate c
  have hself : ∀ n, n = c.toNat → Char.ofNat n = c := by
    intro n hn
    rw [hn]
    exact Char.ofNat_toNat c
  rcases encodeChar_cases c with ⟨h, hbytes⟩ | ⟨h, h', hbytes⟩ | ⟨h, h', hbytes⟩ | ⟨h, hbytes⟩
  · refine ⟨_, _, hbytes, ?_⟩
    have hfirst := toNat_ofNat_of_lt (n := c.toNat) (by omega)
    unfold scan
    simp only [hfirst, if_pos h, hself _ rfl, List.length_nil]
  · refine ⟨_, _, hbytes, ?_⟩
    have hfirst := toNat_ofNat_of_lt (n := 0xC0 + c.toNat / 64) (by omega)
    have hsecond := toNat_ofNat_of_lt (n := 0x80 + c.toNat % 64) (by omega)
    unfold scan
    simp only [hfirst, hsecond, List.cons_append, isTail_ofNat (n := c.toNat % 64) (by omega),
      if_true, List.length_cons, List.length_nil]
    rw [if_neg (by omega), if_pos (by omega), hself _ (by omega)]
  · refine ⟨_, _, hbytes, ?_⟩
    have hfirst := toNat_ofNat_of_lt (n := 0xE0 + c.toNat / 4096) (by omega)
    have hsecond := toNat_ofNat_of_lt (n := 0x80 + c.toNat / 64 % 64) (by omega)
    have hthird := toNat_ofNat_of_lt (n := 0x80 + c.toNat % 64) (by omega)
    have hmiddle := isSecondOfThree_ofNat (p := c.toNat / 4096) (q := c.toNat / 64 % 64) (by omega)
      (by omega) (by omega) (by omega)
    unfold scan
    simp only [hfirst, hsecond, hthird, hmiddle, List.cons_append, Bool.not_true,
      isTail_ofNat (n := c.toNat % 64) (by omega), Bool.false_eq_true, if_false, if_true,
      List.length_cons, List.length_nil]
    rw [if_neg (by omega), if_neg (by omega), if_pos (by omega), hself _ (by omega)]
  · refine ⟨_, _, hbytes, ?_⟩
    have hfirst := toNat_ofNat_of_lt (n := 0xF0 + c.toNat / 262144) (by omega)
    have hsecond := toNat_ofNat_of_lt (n := 0x80 + c.toNat / 4096 % 64) (by omega)
    have hthird := toNat_ofNat_of_lt (n := 0x80 + c.toNat / 64 % 64) (by omega)
    have hfourth := toNat_ofNat_of_lt (n := 0x80 + c.toNat % 64) (by omega)
    have hmiddle := isSecondOfFour_ofNat (p := c.toNat / 262144) (q := c.toNat / 4096 % 64)
      (by omega) (by omega) (by omega) (by omega)
    unfold scan
    simp only [hfirst, hsecond, hthird, hfourth, hmiddle, List.cons_append, Bool.not_true,
      isTail_ofNat (n := c.toNat / 64 % 64) (by omega),
      isTail_ofNat (n := c.toNat % 64) (by omega), Bool.false_eq_true, if_false, if_true,
      List.length_cons, List.length_nil]
    rw [if_neg (by omega), if_neg (by omega), if_neg (by omega), if_pos (by omega),
      hself _ (by omega)]

/-! ## Decoding -/

/-- The rest of a character that was read is passed over. -/
theorem decodeFrom_skip (index : Nat) (done : List Char) (bs rest : Bytes) :
    decodeFrom index bs.length done (bs ++ rest) =
      decodeFrom (index + bs.length) 0 done rest := by
  induction bs generalizing index with
  | nil => rfl
  | cons b bs ih =>
    have hnext := ih (index + 1)
    rw [Nat.add_right_comm, Nat.add_assoc] at hnext
    exact hnext

theorem decodeFrom_encodeChars (index : Nat) (done cs : List Char) :
    decodeFrom index 0 done (encodeChars cs) = .ok (done.reverse ++ cs) := by
  induction cs generalizing index done with
  | nil => simp [encodeChars, decodeFrom]
  | cons c cs ih =>
    obtain ⟨a, bs, hbytes, hscan⟩ := scan_encodeChar c (encodeChars cs)
    have hsplit : encodeChars (c :: cs) = a :: (bs ++ encodeChars cs) := by
      simp only [encodeChars, List.flatMap_cons, hbytes, List.cons_append]
    rw [hsplit, decodeFrom, hscan]
    dsimp only
    rw [Nat.add_sub_cancel, decodeFrom_skip, ih]
    simp

theorem decodeChars_encodeChars (cs : List Char) : decodeChars (encodeChars cs) = .ok cs :=
  decodeFrom_encodeChars 0 [] cs

/-- A text is read from its bytes as it was written. -/
theorem decode?_encodeChars (cs : List Char) :
    decode? (encodeChars cs) = some (String.ofList cs) := by
  unfold decode? decode
  rw [decodeChars_encodeChars]
  rfl

theorem encodeChars_append (cs ds : List Char) :
    encodeChars (cs ++ ds) = encodeChars cs ++ encodeChars ds :=
  List.flatMap_append

/-! ## Bytes that are read -/

theorem isTail_toNat {b : UInt8} (hb : isTail b = true) : 0x80 ≤ b.toNat ∧ b.toNat ≤ 0xBF := by
  simpa [isTail, UInt8.le_iff_toNat_le] using hb

theorem beq_iff_toNat {a b : UInt8} : (a == b) = true ↔ a.toNat = b.toNat := by
  rw [beq_iff_eq, UInt8.toNat_inj]

/-- The second byte of a character of three bytes: the spelling is not too long, and the character
is no half of a pair. -/
theorem isSecondOfThree_toNat {a b : UInt8} (hb : isSecondOfThree a b = true) :
    0x80 ≤ b.toNat ∧ b.toNat ≤ 0xBF ∧ (a.toNat = 0xE0 → 0xA0 ≤ b.toNat) ∧
      (a.toNat = 0xED → b.toNat ≤ 0x9F) := by
  unfold isSecondOfThree isTail at hb
  simp only [beq_iff_toNat, UInt8.le_iff_toNat_le, UInt8.reduceToNat] at hb
  split at hb
  · simp only [Bool.and_eq_true, decide_eq_true_eq] at hb
    omega
  · split at hb <;> simp only [Bool.and_eq_true, decide_eq_true_eq] at hb <;> omega

/-- The second byte of a character of four bytes: the spelling is not too long, and the number is
one of a character. -/
theorem isSecondOfFour_toNat {a b : UInt8} (hb : isSecondOfFour a b = true) :
    0x80 ≤ b.toNat ∧ b.toNat ≤ 0xBF ∧ (a.toNat = 0xF0 → 0x90 ≤ b.toNat) ∧
      (a.toNat = 0xF4 → b.toNat ≤ 0x8F) := by
  unfold isSecondOfFour isTail at hb
  simp only [beq_iff_toNat, UInt8.le_iff_toNat_le, UInt8.reduceToNat] at hb
  split at hb
  · simp only [Bool.and_eq_true, decide_eq_true_eq] at hb
    omega
  · split at hb <;> simp only [Bool.and_eq_true, decide_eq_true_eq] at hb <;> omega

theorem toNat_ofNat_of_isValidChar {n : Nat} (hn : n.isValidChar) : (Char.ofNat n).toNat = n := by
  unfold Char.ofNat
  rw [dif_pos hn]
  rfl

theorem ofNat_eq {b : UInt8} {n : Nat} (hn : n = b.toNat) : UInt8.ofNat n = b := by
  rw [hn, UInt8.ofNat_toNat]

/-- The character of a first byte below `0x80`. -/
theorem encodeChar_one {a : UInt8} (ha : a.toNat < 0x80) :
    encodeChar (Char.ofNat a.toNat) = [a] := by
  unfold encodeChar
  rw [toNat_ofNat_of_isValidChar (.inl (by omega))]
  simp only [if_pos ha, UInt8.ofNat_toNat]

/-- The character of two bytes. -/
theorem encodeChar_two {a b : UInt8} (ha : 0xC2 ≤ a.toNat ∧ a.toNat ≤ 0xDF) (hb : isTail b = true) :
    encodeChar (Char.ofNat ((a.toNat - 0xC0) * 64 + (b.toNat - 0x80))) = [a, b] := by
  have hb := isTail_toNat hb
  unfold encodeChar
  rw [toNat_ofNat_of_isValidChar (.inl (by omega))]
  dsimp only
  rw [if_neg (by omega), if_pos (by omega), ofNat_eq (b := a) (by omega),
    ofNat_eq (b := b) (by omega)]

/-- The character of three bytes. -/
theorem encodeChar_three {a b d : UInt8} (ha : 0xE0 ≤ a.toNat ∧ a.toNat ≤ 0xEF)
    (hb : isSecondOfThree a b = true) (hd : isTail d = true) :
    encodeChar (Char.ofNat
      ((a.toNat - 0xE0) * 4096 + (b.toNat - 0x80) * 64 + (d.toNat - 0x80))) = [a, b, d] := by
  have hb := isSecondOfThree_toNat hb
  have hd := isTail_toNat hd
  unfold encodeChar
  rw [toNat_ofNat_of_isValidChar (by unfold Nat.isValidChar; omega)]
  dsimp only
  rw [if_neg (by omega), if_neg (by omega), if_pos (by omega), ofNat_eq (b := a) (by omega),
    ofNat_eq (b := b) (by omega), ofNat_eq (b := d) (by omega)]

/-- The character of four bytes. -/
theorem encodeChar_four {a b d e : UInt8} (ha : 0xF0 ≤ a.toNat ∧ a.toNat ≤ 0xF4)
    (hb : isSecondOfFour a b = true) (hd : isTail d = true) (he : isTail e = true) :
    encodeChar (Char.ofNat ((a.toNat - 0xF0) * 262144 + (b.toNat - 0x80) * 4096 +
      (d.toNat - 0x80) * 64 + (e.toNat - 0x80))) = [a, b, d, e] := by
  have hb := isSecondOfFour_toNat hb
  have hd := isTail_toNat hd
  have he := isTail_toNat he
  unfold encodeChar
  rw [toNat_ofNat_of_isValidChar (by unfold Nat.isValidChar; omega)]
  dsimp only
  rw [if_neg (by omega), if_neg (by omega), if_neg (by omega), ofNat_eq (b := a) (by omega),
    ofNat_eq (b := b) (by omega), ofNat_eq (b := d) (by omega), ofNat_eq (b := e) (by omega)]

/-- What a scan finds is written in the bytes that the scan went over. -/
theorem encodeChar_of_scan {a : UInt8} {rest : Bytes} {c : Char} {size : Nat}
    (hscan : scan a rest = .char c size) :
    ∃ bs rest', rest = bs ++ rest' ∧ size = bs.length + 1 ∧ encodeChar c = a :: bs := by
  unfold scan at hscan
  dsimp only at hscan
  split at hscan
  · next ha =>
    obtain ⟨rfl, rfl⟩ := Scan.char.inj hscan
    exact ⟨[], rest, rfl, rfl, encodeChar_one ha⟩
  split at hscan
  · next ha =>
    match rest with
    | b :: rest =>
      simp only at hscan
      split at hscan
      · next hb =>
        obtain ⟨rfl, rfl⟩ := Scan.char.inj hscan
        exact ⟨[b], rest, rfl, rfl, encodeChar_two ha hb⟩
      · cases hscan
  split at hscan
  · next ha =>
    match rest with
    | b :: rest =>
      simp only [Bool.not_eq_true'] at hscan
      split at hscan
      · cases hscan
      next hb =>
      match rest with
      | d :: rest =>
        simp only at hscan
        split at hscan
        · next hd =>
          obtain ⟨rfl, rfl⟩ := Scan.char.inj hscan
          exact ⟨[b, d], rest, rfl, rfl, encodeChar_three ha (by simpa using hb) hd⟩
        · cases hscan
  split at hscan
  · next ha =>
    match rest with
    | b :: rest =>
      simp only [Bool.not_eq_true'] at hscan
      split at hscan
      · cases hscan
      next hb =>
      match rest with
      | d :: rest =>
        simp only at hscan
        split at hscan
        · cases hscan
        next hd =>
        match rest with
        | e :: rest =>
          simp only at hscan
          split at hscan
          · next he =>
            obtain ⟨rfl, rfl⟩ := Scan.char.inj hscan
            exact ⟨[b, d, e], rest, rfl, rfl,
              encodeChar_four ha (by simpa using hb) (by simpa using hd) he⟩
          · cases hscan
  · cases hscan

/-- The characters that bytes are read as are written in these bytes. -/
theorem encodeChars_of_decodeFrom {index : Nat} {done : List Char} {bytes : Bytes}
    {cs : List Char} (hdecode : decodeFrom index 0 done bytes = .ok cs) :
    ∃ ds, cs = done.reverse ++ ds ∧ encodeChars ds = bytes := by
  induction hsize : bytes.length using Nat.strongRecOn generalizing index done bytes with
  | _ n ih =>
    cases bytes with
    | nil =>
      cases hdecode
      exact ⟨[], (List.append_nil _).symm, rfl⟩
    | cons a rest =>
      rw [decodeFrom] at hdecode
      cases hscan : scan a rest with
      | invalid size => rw [hscan] at hdecode; cases hdecode
      | incomplete => rw [hscan] at hdecode; cases hdecode
      | char c size =>
        obtain ⟨bs, rest', rfl, rfl, hbytes⟩ := encodeChar_of_scan hscan
        rw [hscan] at hdecode
        dsimp only at hdecode
        rw [Nat.add_sub_cancel, decodeFrom_skip] at hdecode
        obtain ⟨ds, hcs, hds⟩ := ih rest'.length (by simp at hsize; omega) hdecode rfl
        refine ⟨c :: ds, by rw [hcs]; simp, ?_⟩
        rw [encodeChars, List.flatMap_cons, hbytes]
        exact congrArg (a :: bs ++ ·) hds

theorem encodeChars_of_decodeChars {bytes : Bytes} {cs : List Char}
    (hdecode : decodeChars bytes = .ok cs) : encodeChars cs = bytes := by
  obtain ⟨ds, rfl, hds⟩ := encodeChars_of_decodeFrom hdecode
  exact hds

/-- Bytes are read as the text that is written in them, and no others are. -/
theorem decode_eq_ok_iff {bytes : Bytes} {s : String} :
    decode bytes = .ok s ↔ bytes = encode s := by
  constructor
  · intro hdecode
    unfold decode at hdecode
    cases hchars : decodeChars bytes with
    | error f => rw [hchars] at hdecode; cases hdecode
    | ok cs =>
      rw [hchars] at hdecode
      cases hdecode
      rw [encode, String.toList_ofList, encodeChars_of_decodeChars hchars]
  · rintro rfl
    rw [decode, encode, decodeChars_encodeChars]
    exact congrArg Except.ok (String.ofList_toList)

/-! ## Decoding with replacements -/

/-- Bytes without faults are read as they are. -/
theorem decodeLossyFrom_of_decodeFrom {index skip : Nat} {done : List Char} {bytes : Bytes}
    {cs : List Char} (hdecode : decodeFrom index skip done bytes = .ok cs) :
    decodeLossyFrom skip done bytes = cs := by
  induction bytes generalizing index skip done with
  | nil => exact Except.ok.inj hdecode
  | cons a rest ih =>
    cases skip with
    | succ k => exact ih hdecode
    | zero =>
      rw [decodeFrom] at hdecode
      rw [decodeLossyFrom]
      cases hscan : scan a rest with
      | invalid size => rw [hscan] at hdecode; cases hdecode
      | incomplete => rw [hscan] at hdecode; cases hdecode
      | char c size =>
        rw [hscan] at hdecode
        exact ih hdecode

theorem decodeLossy_encode (s : String) : decodeLossy (encode s) = s := by
  have hchars : decodeFrom 0 0 [] (encode s) = .ok s.toList := decodeChars_encodeChars s.toList
  rw [decodeLossy, decodeLossyFrom_of_decodeFrom hchars, String.ofList_toList]

end PodAttach.Utf8
