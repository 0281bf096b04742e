import PodAttach.Json.Basic
import PodAttach.Json.Token
import PodAttach.Proofs.Encoding
import PodAttach.Proofs.Texts

/-!
# The tokens of a written value

The text of a value without fractions is cut into the tokens that one expects
of it, and the inside of a string denotes the text that was written.

* `escapeChar_cases`: the three shapes of a character inside a string.
* `textOf?_escaped`: undoing the escapes gives the text back.
* `Lexer.Holds`: the automaton has seen some tokens, the last of which may be a
  number or a word that goes on.
* `lexes_chars`: by induction on the value, with one statement for its items and
  one for its members.
-/

namespace PodAttach.Json

open Utf8

/-! ## Characters inside strings -/

/-- The bytes of a character of one byte are below `0x80`, and those of another one are not. -/
theorem mem_encodeChar {c : Char} {b : UInt8} (hb : b ∈ encodeChar c) :
    b.toNat = c.toNat ∧ c.toNat < 0x80 ∨ 0x80 ≤ b.toNat := by
  have hlt := toNat_lt c
  have hhigh : ∀ n, 0x80 ≤ n → n < 256 → 0x80 ≤ (UInt8.ofNat n).toNat := by
    intro n hn hn'
    rw [toNat_ofNat_of_lt hn']
    exact hn
  rcases encodeChar_cases c with ⟨h, hbytes⟩ | ⟨h, h', hbytes⟩ | ⟨h, h', hbytes⟩ | ⟨h, hbytes⟩
  · rw [hbytes, List.mem_singleton] at hb
    subst hb
    exact .inl ⟨toNat_ofNat_of_lt (by omega), h⟩
  all_goals
    right
    rw [hbytes] at hb
    simp only [List.mem_cons, List.not_mem_nil, or_false] at hb
  · rcases hb with rfl | rfl <;> exact hhigh _ (by omega) (by omega)
  · rcases hb with rfl | rfl | rfl <;> exact hhigh _ (by omega) (by omega)
  · rcases hb with rfl | rfl | rfl | rfl <;> exact hhigh _ (by omega) (by omega)

/-- A byte that stands for itself inside a string. -/
def IsPlainByte (b : UInt8) : Prop :=
  (b == 0x22) = false ∧ (b == 0x5C) = false ∧ ¬ b < 0x20

theorem isPlainByte_of_toNat {b : UInt8} (hlow : 0x20 ≤ b.toNat) (hquote : b.toNat ≠ 0x22)
    (hslash : b.toNat ≠ 0x5C) : IsPlainByte b := by
  refine ⟨?_, ?_, ?_⟩
  · rw [beq_eq_false_iff_ne]
    rintro rfl
    exact hquote rfl
  · rw [beq_eq_false_iff_ne]
    rintro rfl
    exact hslash rfl
  · rw [UInt8.lt_iff_toNat_lt]
    exact Nat.not_lt.2 hlow

/-- A character inside a string: a short escape, an escape by number, or itself. -/
inductive Escaped (c : Char) : Bytes → Prop
  | short {e : UInt8} (hshort : isShortEscape e = true) (hnumber : (e == 0x75) = false)
      (hbytes : encodeChar c = [shortEscape e]) : Escaped c [0x5C, e]
  | number {x y : UInt8} {p q : Nat} (hx : hexByte? x = some p) (hy : hexByte? y = some q)
      (hvalue : c.toNat = p * 16 + q) (hlow : c.toNat < 0x20) :
      Escaped c [0x5C, 0x75, 0x30, 0x30, x, y]
  | plain (hplain : ∀ b ∈ encodeChar c, IsPlainByte b) : Escaped c (encodeChar c)

theorem escapeChar_cases (c : Char) : Escaped c (encodeChars (escapeChar c)) := by
  have hcontrol : ∀ n : Fin 32, encodeChars (['\\', 'u'] ++ Text.hexDigits 4 n.val) =
      [0x5C, 0x75, 0x30, 0x30, UInt8.ofNat (Text.hexDigit (n.val / 16)).toNat,
        UInt8.ofNat (Text.hexDigit (n.val % 16)).toNat] ∧
      hexByte? (UInt8.ofNat (Text.hexDigit (n.val / 16)).toNat) = some (n.val / 16) ∧
      hexByte? (UInt8.ofNat (Text.hexDigit (n.val % 16)).toNat) = some (n.val % 16) := by
    decide +kernel
  unfold escapeChar
  split
  · next h =>
    obtain rfl := eq_of_beq h
    exact .short (e := 0x22) (by decide) (by decide) (by decide)
  split
  · next h =>
    obtain rfl := eq_of_beq h
    exact .short (e := 0x5C) (by decide) (by decide) (by decide)
  split
  · next h =>
    obtain rfl := eq_of_beq h
    exact .short (e := 0x6E) (by decide) (by decide) (by decide)
  split
  · next h =>
    obtain rfl := eq_of_beq h
    exact .short (e := 0x72) (by decide) (by decide) (by decide)
  split
  · next h =>
    obtain rfl := eq_of_beq h
    exact .short (e := 0x74) (by decide) (by decide) (by decide)
  split
  · next h =>
    obtain rfl : c = Char.ofNat 8 := by rw [← eq_of_beq h, Char.ofNat_toNat]
    exact .short (e := 0x62) (by decide) (by decide) (by decide)
  split
  · next h =>
    obtain rfl : c = Char.ofNat 12 := by rw [← eq_of_beq h, Char.ofNat_toNat]
    exact .short (e := 0x66) (by decide) (by decide) (by decide)
  split
  · next hlow =>
    obtain ⟨hbytes, hx, hy⟩ := hcontrol ⟨c.toNat, hlow⟩
    rw [hbytes]
    exact .number hx hy (by dsimp only; omega) hlow
  · next hquote hslash _ _ _ _ _ hlow =>
    have hself : encodeChars [c] = encodeChar c := List.append_nil _
    rw [hself]
    refine .plain fun b hb => ?_
    rcases mem_encodeChar hb with ⟨hb', -⟩ | hb'
    · have hne : ∀ d : Char, (c == d) = false → c.toNat ≠ d.toNat := by
        intro d hd heq
        rw [beq_eq_false_iff_ne] at hd
        apply hd
        rw [← Char.ofNat_toNat c, heq, Char.ofNat_toNat]
      refine isPlainByte_of_toNat (by omega) ?_ ?_
      · rw [hb']
        exact hne '"' (by simpa using hquote)
      · rw [hb']
        exact hne '\\' (by simpa using hslash)
    · exact isPlainByte_of_toNat (by omega) (by omega) (by omega)

/-! ## Undoing the escapes -/

/-- The bytes of a text between its quotes. -/
def escaped (s : String) : Bytes :=
  encodeChars (s.toList.flatMap escapeChar)

theorem encodeChars_stringChars (s : String) :
    encodeChars (stringChars s) = 0x22 :: (escaped s ++ [0x22]) := by
  have hquote : encodeChars ['"'] = [0x22] := by decide
  show encodeChars (['"'] ++ (s.toList.flatMap escapeChar ++ ['"'])) = _
  rw [encodeChars_append, encodeChars_append, hquote]
  rfl

theorem unescapeFrom_plain {bs : Bytes} (hplain : ∀ b ∈ bs, IsPlainByte b) (done rest : Bytes) :
    unescapeFrom .plain done (bs ++ rest) = unescapeFrom .plain (bs.reverse ++ done) rest := by
  induction bs generalizing done with
  | nil => rfl
  | cons b bs ih =>
    have hslash : (b == 0x5C) = false := (hplain b (by simp)).2.1
    rw [List.cons_append, unescapeFrom, hslash]
    simp only [Bool.false_eq_true, if_false]
    rw [ih (fun b' hb' => hplain b' (by simp [hb'])), List.reverse_cons, List.append_assoc]
    rfl

theorem unescapeFrom_escaped {c : Char} {bytes : Bytes} (hescaped : Escaped c bytes)
    (done rest : Bytes) :
    unescapeFrom .plain done (bytes ++ rest) =
      unescapeFrom .plain ((encodeChar c).reverse ++ done) rest := by
  cases hescaped with
  | short hshort hnumber hbytes =>
    rw [hbytes]
    simp [unescapeFrom, hnumber]
  | @number x y p q hx hy hvalue hlow =>
    have hzero : hexByte? 0x30 = some 0 := by decide
    have hclose : closeHex none (p * 16 + q) done =
        some (.plain, (encodeChar c).reverse ++ done) := by
      unfold closeHex
      dsimp only
      rw [if_neg (by omega), if_neg (by omega), ← hvalue, Char.ofNat_toNat]
    simp [unescapeFrom, hzero, hx, hy, hclose]
  | plain hplain => exact unescapeFrom_plain hplain done rest

theorem unescapeFrom_flatMap (cs : List Char) (done : Bytes) :
    unescapeFrom .plain done (encodeChars (cs.flatMap escapeChar)) =
      some (done.reverse ++ encodeChars cs) := by
  induction cs generalizing done with
  | nil => simp [encodeChars, unescapeFrom]
  | cons c cs ih =>
    rw [List.flatMap_cons, encodeChars_append, unescapeFrom_escaped (escapeChar_cases c), ih]
    simp [encodeChars]

/-- The inside of a string denotes the text that was written. -/
theorem textOf?_escaped (s : String) : textOf? (escaped s) = some s := by
  unfold textOf? escaped
  rw [unescapeFrom_flatMap, List.reverse_nil, List.nil_append]
  dsimp only
  rw [decode?_encodeChars, String.ofList_toList]

/-! ## The automaton inside a string -/

theorem Lexer.run_append (l : Lexer) (bs cs : Bytes) :
    l.run (bs ++ cs) = (l.run bs).bind (·.run cs) := by
  induction bs generalizing l with
  | nil => rfl
  | cons b bs ih =>
    rw [List.cons_append, Lexer.run, Lexer.run]
    cases l.feed b with
    | none => rfl
    | some l' => exact ih l'

theorem Lexer.run_plain {bs : Bytes} (hplain : ∀ b ∈ bs, IsPlainByte b) (seen : Bytes)
    (ts : List Token) :
    (Lexer.mk (.text seen .plain) ts).run bs = some ⟨.text (bs.reverse ++ seen) .plain, ts⟩ := by
  induction bs generalizing seen with
  | nil => rfl
  | cons b bs ih =>
    obtain ⟨hquote, hslash, hlow⟩ := hplain b (by simp)
    have hfeed : (Lexer.mk (.text seen .plain) ts).feed b =
        some ⟨.text (b :: seen) .plain, ts⟩ := by
      simp [Lexer.feed, hquote, hslash, hlow]
    rw [Lexer.run, hfeed]
    dsimp only
    rw [ih (fun b' hb' => hplain b' (by simp [hb'])), List.reverse_cons, List.append_assoc]
    rfl

theorem isHexDigit_of_hexByte? {b : UInt8} {n : Nat} (hb : hexByte? b = some n) :
    Text.isHexDigit (Char.ofNat b.toNat) = true := by
  unfold hexByte? at hb
  simp [Text.isHexDigit, hb]

theorem Lexer.run_escaped {c : Char} {bytes : Bytes} (hescaped : Escaped c bytes) (seen : Bytes)
    (ts : List Token) :
    (Lexer.mk (.text seen .plain) ts).run bytes =
      some ⟨.text (bytes.reverse ++ seen) .plain, ts⟩ := by
  cases hescaped with
  | short hshort hnumber hbytes => simp [Lexer.run, Lexer.feed, hnumber, hshort]
  | number hx hy hvalue hlow =>
    have hx' := isHexDigit_of_hexByte? hx
    have hy' := isHexDigit_of_hexByte? hy
    have hzero' : Text.isHexDigit '0' = true := by decide
    simp [Lexer.run, Lexer.feed, hzero', hx', hy']
  | plain hplain => exact Lexer.run_plain hplain seen ts

theorem Lexer.run_flatMap (cs : List Char) (seen : Bytes) (ts : List Token) :
    (Lexer.mk (.text seen .plain) ts).run (encodeChars (cs.flatMap escapeChar)) =
      some ⟨.text ((encodeChars (cs.flatMap escapeChar)).reverse ++ seen) .plain, ts⟩ := by
  induction cs generalizing seen with
  | nil => rfl
  | cons c cs ih =>
    rw [List.flatMap_cons, encodeChars_append, Lexer.run_append,
      Lexer.run_escaped (escapeChar_cases c), Option.bind_some, ih, List.reverse_append,
      List.append_assoc]

/-- A string makes one token, which keeps the bytes between the quotes. -/
theorem Lexer.run_stringChars (s : String) (ts : List Token) :
    (Lexer.mk .blank ts).run (encodeChars (stringChars s)) =
      some ⟨.blank, .str (escaped s) :: ts⟩ := by
  have hopen : (Lexer.mk .blank ts).feed 0x22 = some ⟨.text [] .plain, ts⟩ := by
    simp [Lexer.feed, feedBlank]
  rw [encodeChars_stringChars, Lexer.run, hopen]
  dsimp only
  rw [Lexer.run_append]
  unfold escaped
  rw [Lexer.run_flatMap, Option.bind_some]
  simp [Lexer.run, Lexer.feed]

/-! ## Words and numbers -/

/-- The automaton has seen the tokens `ts`; the last one may be a word that goes on. -/
inductive Lexer.Holds : Lexer → List Token → Prop
  | blank (ts : List Token) : Holds ⟨.blank, ts⟩ ts
  | word {seen : List Char} {done ts : List Token} (hend : endWord? seen done = some ts) :
      Holds ⟨.word seen, done⟩ ts

/-- A byte that belongs to no word ends one. -/
theorem Lexer.Holds.feed {l : Lexer} {ts : List Token} {b : UInt8} (hl : l.Holds ts)
    (hb : isWordByte b = false) : l.feed b = feedBlank ts b := by
  cases hl with
  | blank => rfl
  | word hend => simp [Lexer.feed, hb, hend]

theorem Lexer.Holds.finish? {l : Lexer} {ts : List Token} (hl : l.Holds ts) :
    l.finish? = some ts.reverse := by
  cases hl with
  | blank => rfl
  | word hend => simp [Lexer.finish?, hend]

/-- A character of a number or a word, which is one byte. -/
def IsWordChar (c : Char) : Prop :=
  encodeChar c = [UInt8.ofNat c.toNat] ∧ Char.ofNat (UInt8.ofNat c.toNat).toNat = c ∧
    isWordByte (UInt8.ofNat c.toNat) = true

instance (c : Char) : Decidable (IsWordChar c) :=
  inferInstanceAs (Decidable (_ ∧ _ ∧ _))

-- The characters of the list are gone through, not all the characters there are.
instance (cs : List Char) : Decidable (∀ c ∈ cs, IsWordChar c) :=
  List.decidableBAll IsWordChar cs

theorem isWordChar_of_isDigit {c : Char} (hc : Text.isDigit c = true) : IsWordChar c := by
  have hdigits : ∀ k : Fin 10, IsWordChar (Char.ofNat (0x30 + k.val)) := by decide
  simp only [Text.isDigit, Bool.and_eq_true, decide_eq_true_eq, Char.le_def,
    UInt32.le_iff_toNat_le] at hc
  have hlow : 0x30 ≤ c.toNat := hc.1
  have hhigh : c.toNat ≤ 0x39 := hc.2
  have h := hdigits ⟨c.toNat - 0x30, by omega⟩
  dsimp only at h
  rwa [Nat.add_sub_cancel' hlow, Char.ofNat_toNat] at h

/-- A word starts with any of its bytes: none of them has a meaning of its own. -/
theorem feedBlank_of_isWordByte {b : UInt8} (hb : isWordByte b = true) (ts : List Token) :
    feedBlank ts b = some ⟨.word [Char.ofNat b.toNat], ts⟩ := by
  have hne : ∀ b' : UInt8, isWordByte b' = false → (b == b') = false := by
    intro b' hb'
    rw [beq_eq_false_iff_ne]
    rintro rfl
    rw [hb'] at hb
    cases hb
  simp (disch := decide) only [feedBlank, hne, hb, Bool.or_self, Bool.false_eq_true, if_false,
    if_true]

theorem IsWordChar.encodeChars_cons {c : Char} (hc : IsWordChar c) (cs : List Char) :
    encodeChars (c :: cs) = UInt8.ofNat c.toNat :: encodeChars cs := by
  simp only [encodeChars, List.flatMap_cons, hc.1, List.singleton_append]

theorem Lexer.run_word {cs : List Char} (hword : ∀ c ∈ cs, IsWordChar c) (seen : List Char)
    (ts : List Token) :
    (Lexer.mk (.word seen) ts).run (encodeChars cs) = some ⟨.word (cs.reverse ++ seen), ts⟩ := by
  induction cs generalizing seen with
  | nil => rfl
  | cons c cs ih =>
    have hc : IsWordChar c := hword c (by simp)
    have hself := hc.2.1
    have hbyte := hc.2.2
    have hfeed : (Lexer.mk (.word seen) ts).feed (UInt8.ofNat c.toNat) =
        some ⟨.word (c :: seen), ts⟩ := by
      simp only [Lexer.feed, hbyte, if_true, hself]
    rw [hc.encodeChars_cons, Lexer.run, hfeed]
    dsimp only
    rw [ih (fun c' hc' => hword c' (by simp [hc'])), List.reverse_cons, List.append_assoc]
    rfl

/-- A word or a number makes its token once something follows it. -/
theorem Lexer.run_wordToken {cs : List Char} {t : Token} (hne : cs ≠ [])
    (hword : ∀ c ∈ cs, IsWordChar c) (htoken : wordToken? cs = some t) (ts : List Token) :
    ∃ l, (Lexer.mk .blank ts).run (encodeChars cs) = some l ∧ l.Holds (t :: ts) := by
  obtain ⟨c, cs, rfl⟩ := List.exists_cons_of_ne_nil hne
  have hc : IsWordChar c := hword c (by simp)
  have hself := hc.2.1
  have hbyte := hc.2.2
  have hfeed : (Lexer.mk .blank ts).feed (UInt8.ofNat c.toNat) = some ⟨.word [c], ts⟩ := by
    have h := feedBlank_of_isWordByte hbyte ts
    rwa [hself] at h
  refine ⟨⟨.word (cs.reverse ++ [c]), ts⟩, ?_, .word ?_⟩
  · rw [hc.encodeChars_cons, Lexer.run, hfeed]
    exact Lexer.run_word (fun c' hc' => hword c' (by simp [hc'])) [c] ts
  · rw [endWord?, List.reverse_append, List.reverse_reverse]
    have hcons : [c].reverse ++ cs = c :: cs := rfl
    rw [hcons, htoken]
    rfl

/-- The number that is written for an integer. -/
def numeral (i : Int) : Numeral :=
  ⟨decide (i < 0), Nat.toDigits 10 i.natAbs, none, none⟩

theorem spanDigits_toDigits (n : Nat) :
    spanDigits (Nat.toDigits 10 n) = (Nat.toDigits 10 n, []) := by
  have hall : ∀ c ∈ Nat.toDigits 10 n, Text.isDigit c = true :=
    fun c hc => Text.isDigit_of_mem_toDigits hc
  have htake : (Nat.toDigits 10 n ++ []).takeWhile Text.isDigit = Nat.toDigits 10 n ++ [] :=
    List.takeWhile_append_of_pos hall
  have hdrop : (Nat.toDigits 10 n ++ []).dropWhile Text.isDigit = [] :=
    List.dropWhile_append_of_pos hall
  rw [List.append_nil] at htake hdrop
  rw [spanDigits, htake, hdrop]

/-- The digits of a number have no leading zero, unless there is one digit only. -/
theorem leading_toDigits (n : Nat) :
    ((Nat.toDigits 10 n).head? == some '0' && decide (1 < (Nat.toDigits 10 n).length)) = false := by
  rcases Nat.eq_zero_or_pos n with rfl | hn
  · decide
  · have h := Text.head?_toDigits (b := 10) (by decide) hn
    rw [beq_eq_false_iff_ne.2 h, Bool.false_and]

theorem toList_decimalInt (i : Int) :
    (Text.decimalInt i).toList =
      if i < 0 then '-' :: Nat.toDigits 10 i.natAbs else Nat.toDigits 10 i.natAbs := by
  unfold Text.decimalInt Text.decimal
  split
  · simp
  · simp

/-- The digits of a number do not start with a sign. -/
theorem toDigits_cons (n : Nat) :
    ∃ d ds, Nat.toDigits 10 n = d :: ds ∧ Text.isDigit d = true := by
  obtain ⟨d, ds, hds⟩ := List.exists_cons_of_ne_nil (Nat.toDigits_ne_nil (n := n) (b := 10))
  exact ⟨d, ds, hds, Text.isDigit_of_mem_toDigits (n := n) (by rw [hds]; simp)⟩

theorem read?_decimalInt (i : Int) :
    Numeral.read? (Text.decimalInt i).toList = some (numeral i) := by
  have hempty : (Nat.toDigits 10 i.natAbs).isEmpty = false :=
    List.isEmpty_eq_false_iff.2 Nat.toDigits_ne_nil
  have hzero := leading_toDigits i.natAbs
  have hspan := spanDigits_toDigits i.natAbs
  rw [toList_decimalInt]
  split
  · next hneg => simp [Numeral.read?, hspan, hempty, hzero, readExponent?, numeral, hneg]
  · next hpos =>
    obtain ⟨d, ds, hds, hd⟩ := toDigits_cons i.natAbs
    have hsign : d ≠ '-' := by
      rintro rfl
      exact absurd hd (by decide)
    rw [hds] at hspan hzero
    have hzero' : d = '0' → ds = [] := by simpa using hzero
    simpa [Numeral.read?, hds, hsign, hspan, readExponent?, numeral, hpos] using hzero'

theorem isWordChar_of_mem_decimalInt {i : Int} {c : Char} (hc : c ∈ (Text.decimalInt i).toList) :
    IsWordChar c := by
  have hdigit : ∀ c ∈ Nat.toDigits 10 i.natAbs, IsWordChar c :=
    fun c hc => isWordChar_of_isDigit (Text.isDigit_of_mem_toDigits hc)
  rw [toList_decimalInt] at hc
  split at hc
  · rcases List.mem_cons.1 hc with rfl | hc
    · decide
    · exact hdigit c hc
  · exact hdigit c hc

/-- The text of an integer is not empty, and starts like no word. -/
theorem toList_decimalInt_cons (i : Int) :
    ∃ c cs, (Text.decimalInt i).toList = c :: cs ∧ c ≠ 'n' ∧ c ≠ 't' ∧ c ≠ 'f' := by
  rw [toList_decimalInt]
  split
  · exact ⟨'-', _, rfl, by decide, by decide, by decide⟩
  · obtain ⟨d, ds, hds, hd⟩ := toDigits_cons i.natAbs
    refine ⟨d, ds, hds, ?_, ?_, ?_⟩ <;> (rintro rfl; exact absurd hd (by decide))

theorem wordToken?_decimalInt (i : Int) :
    wordToken? (Text.decimalInt i).toList = some (.num (numeral i)) := by
  obtain ⟨c, cs, hcs, hnull, htrue, hfalse⟩ := toList_decimalInt_cons i
  have hread := read?_decimalInt i
  rw [hcs] at hread ⊢
  simp [wordToken?, hread, hnull, htrue, hfalse]

/-! ## Values -/

mutual

/-- No number of the value has a fraction or an exponent. -/
def Whole : Json → Prop
  | .null | .bool _ | .int _ | .str _ => True
  | .real _ => False
  | .arr items => WholeItems items
  | .obj members => WholeMembers members

/-- All items are without fractions. -/
def WholeItems : List Json → Prop
  | [] => True
  | v :: rest => Whole v ∧ WholeItems rest

/-- All members are without fractions. -/
def WholeMembers : List (String × Json) → Prop
  | [] => True
  | m :: rest => Whole m.2 ∧ WholeMembers rest

end

mutual

/-- The tokens of a value without fractions. -/
def tokens : Json → List Token
  | .null => [.null]
  | .bool b => [.bool b]
  | .int i => [.num (numeral i)]
  | .real _ => []
  | .str s => [.str (escaped s)]
  | .arr items => .openArray :: itemsTokens items ++ [.closeArray]
  | .obj members => .openObject :: membersTokens members ++ [.closeObject]

/-- The tokens of the items of an array. -/
def itemsTokens : List Json → List Token
  | [] => []
  | [v] => tokens v
  | v :: w :: rest => tokens v ++ .comma :: itemsTokens (w :: rest)

/-- The tokens of the members of an object. -/
def membersTokens : List (String × Json) → List Token
  | [] => []
  | [(k, v)] => .str (escaped k) :: .colon :: tokens v
  | (k, v) :: m :: rest =>
    .str (escaped k) :: .colon :: tokens v ++ .comma :: membersTokens (m :: rest)

end

/-- The automaton goes over the characters `cs` and sees the tokens `ts`. -/
def Lexes (cs : List Char) (ts : List Token) : Prop :=
  ∀ done, ∃ l, (Lexer.mk .blank done).run (encodeChars cs) = some l ∧ l.Holds (ts.reverse ++ done)

theorem Lexes.nil : Lexes [] [] :=
  fun done => ⟨_, rfl, .blank done⟩

/-- The characters that make a token of their own. -/
inductive IsMark : Char → Token → Prop
  | openArray : IsMark '[' .openArray
  | closeArray : IsMark ']' .closeArray
  | openObject : IsMark '\x7b' .openObject
  | closeObject : IsMark '\x7d' .closeObject
  | comma : IsMark ',' .comma
  | colon : IsMark ':' .colon

theorem IsMark.feed {c : Char} {t : Token} (hmark : IsMark c t) :
    ∃ b, encodeChar c = [b] ∧ isWordByte b = false ∧
      ∀ done, feedBlank done b = some ⟨.blank, t :: done⟩ := by
  cases hmark with
  | openArray => exact ⟨0x5B, by decide, by decide, fun _ => rfl⟩
  | closeArray => exact ⟨0x5D, by decide, by decide, fun _ => rfl⟩
  | openObject => exact ⟨0x7B, by decide, by decide, fun _ => rfl⟩
  | closeObject => exact ⟨0x7D, by decide, by decide, fun _ => rfl⟩
  | comma => exact ⟨0x2C, by decide, by decide, fun _ => rfl⟩
  | colon => exact ⟨0x3A, by decide, by decide, fun _ => rfl⟩

/-- After the tokens of `cs` comes the one of the character `c`, and then those of `ds`. -/
theorem Lexes.mark {cs ds : List Char} {ts us : List Token} {c : Char} {t : Token}
    (hcs : Lexes cs ts) (hmark : IsMark c t) (hds : Lexes ds us) :
    Lexes (cs ++ c :: ds) (ts ++ t :: us) := by
  intro done
  obtain ⟨b, hbytes, hword, hfeed⟩ := hmark.feed
  obtain ⟨l, hrun, hl⟩ := hcs done
  obtain ⟨l', hrun', hl'⟩ := hds (t :: (ts.reverse ++ done))
  refine ⟨l', ?_, by simpa using hl'⟩
  have hsplit : encodeChars (cs ++ c :: ds) = encodeChars cs ++ b :: encodeChars ds := by
    rw [encodeChars_append]
    simp [encodeChars, hbytes]
  rw [hsplit, Lexer.run_append, hrun, Option.bind_some, Lexer.run, hl.feed hword, hfeed]
  exact hrun'

theorem Lexes.word {cs : List Char} {t : Token} (hne : cs ≠ []) (hword : ∀ c ∈ cs, IsWordChar c)
    (htoken : wordToken? cs = some t) : Lexes cs [t] :=
  fun done => Lexer.run_wordToken hne hword htoken done

theorem Lexes.string (s : String) : Lexes (stringChars s) [.str (escaped s)] :=
  fun done => ⟨_, Lexer.run_stringChars s done, .blank _⟩

mutual

/-- The text of a value without fractions is cut into its tokens. -/
theorem lexes_chars : ∀ j : Json, j.Whole → Lexes j.chars j.tokens
  | .null, _ => .word (by decide) (by decide) (by decide)
  | .bool true, _ => .word (by decide) (by decide) (by decide)
  | .bool false, _ => .word (by decide) (by decide) (by decide)
  | .int i, _ => by
    obtain ⟨c, cs, hcs, -⟩ := toList_decimalInt_cons i
    have hne : (Text.decimalInt i).toList ≠ [] := by
      rw [hcs]
      exact List.cons_ne_nil c cs
    exact .word hne (fun _ hc => isWordChar_of_mem_decimalInt hc) (wordToken?_decimalInt i)
  | .str s, _ => .string s
  | .arr items, hwhole => by
    have hitems := lexes_itemsChars items hwhole
    exact Lexes.nil.mark .openArray (hitems.mark .closeArray .nil)
  | .obj members, hwhole => by
    have hmembers := lexes_membersChars members hwhole
    exact Lexes.nil.mark .openObject (hmembers.mark .closeObject .nil)

theorem lexes_itemsChars : ∀ items : List Json, WholeItems items →
    Lexes (itemsChars items) (itemsTokens items)
  | [], _ => .nil
  | [v], hwhole => lexes_chars v hwhole.1
  | v :: w :: rest, hwhole => by
    have hv := lexes_chars v hwhole.1
    have hrest := lexes_itemsChars (w :: rest) hwhole.2
    exact hv.mark .comma hrest

theorem lexes_membersChars : ∀ members : List (String × Json), WholeMembers members →
    Lexes (membersChars members) (membersTokens members)
  | [], _ => .nil
  | [(k, v)], hwhole => by
    have hv := lexes_chars v hwhole.1
    exact (Lexes.string k).mark .colon hv
  | (k, v) :: m :: rest, hwhole => by
    have hv := lexes_chars v hwhole.1
    have hrest := lexes_membersChars (m :: rest) hwhole.2
    have hmember := ((Lexes.string k).mark .colon hv).mark .comma hrest
    simpa [membersChars, membersTokens] using hmember

end

/-- The tokens of the text of a value without fractions. -/
theorem tokens?_chars {j : Json} (hwhole : j.Whole) :
    tokens? (encodeChars j.chars) = some j.tokens := by
  obtain ⟨l, hrun, hl⟩ := lexes_chars j hwhole []
  rw [List.append_nil] at hl
  rw [tokens?, hrun]
  dsimp only
  rw [hl.finish?, List.reverse_reverse]

end PodAttach.Json
