import Mathlib.Algebra.Group.Nat.Defs
import PodAttach.Net.Cidr
import PodAttach.Proofs.Addresses
import PodAttach.Proofs.Lists

/-!
# The addresses of a block

A block is an address and the number of bits that every address of the block
has in common with it.  `Ip.Agree` says that two addresses have so many bits
in common, and `Cidr.Covers` which addresses are in a block.

`Spells` says what a text says of a block, for each way to write one: an
address alone, a number of bits behind a slash, or a netmask there.
`Denotes` are the addresses that such a text stands for.

* `ofChars?_eq_some_iff`: a text is read as a block exactly if it spells it.
* `parse?_render`: the text of a block is read as the block.
* `covers_iff_range`: the addresses of a block come one after the other from its least address.
* `network_eq_iff`: blocks named by their least addresses are equal exactly if they have the same
  addresses.
-/

namespace PodAttach.Net

/-! ## Common bits -/

/-- Numbers agree above some bits exactly if dividing these away leaves the same. -/
theorem div_two_pow_eq_iff {x y h : Nat} :
    x / 2 ^ h = y / 2 ^ h ↔ ∀ i, h ≤ i → x.testBit i = y.testBit i := by
  constructor
  · intro heq i hi
    have hbit := congrArg (Nat.testBit · (i - h)) heq
    simp only [Nat.testBit_div_two_pow, Nat.sub_add_cancel hi] at hbit
    exact hbit
  · intro hbits
    apply Nat.eq_of_testBit_eq
    intro i
    rw [Nat.testBit_div_two_pow, Nat.testBit_div_two_pow]
    exact hbits (i + h) (Nat.le_add_left h i)

theorem Ip.eq_of_bits {a b : Ip} (hfamily : a.family = b.family) (hbits : a.bits = b.bits) :
    a = b := by
  cases a
  cases b
  simp_all

/-- Two addresses of one version have their first `len` bits in common. -/
def Ip.Agree (len : Nat) (a b : Ip) : Prop :=
  a.family = b.family ∧
    ∀ i, a.family.width - len ≤ i → a.bits.testBit i = b.bits.testBit i

namespace Cidr

theorem eq_of_len {c d : Cidr} (hip : c.ip = d.ip) (hlen : c.len = d.len) : c = d := by
  cases c
  cases d
  simp_all

/-- An address is in a block. -/
def Covers (c : Cidr) (a : Ip) : Prop :=
  c.ip.Agree c.len a

theorem covers_iff_networkNumber {c : Cidr} {a : Ip} :
    c.Covers a ↔
      a.family = c.family ∧ c.networkNumber a.bits = c.networkNumber c.ip.bits := by
  have hnumber : c.networkNumber a.bits = c.networkNumber c.ip.bits ↔
      ∀ i, c.hostBits ≤ i → a.bits.testBit i = c.ip.bits.testBit i := div_two_pow_eq_iff
  rw [hnumber]
  constructor
  · intro h
    exact ⟨h.1.symm, fun i hi => (h.2 i hi).symm⟩
  · intro h
    exact ⟨h.1.symm, fun i hi => (h.2 i hi).symm⟩

theorem contains_iff {c : Cidr} {a : Ip} : c.contains a = true ↔ c.Covers a := by
  rw [covers_iff_networkNumber, contains, Bool.and_eq_true, beq_iff_eq, beq_iff_eq]
  rfl

theorem networkIp_bits (c : Cidr) :
    c.networkIp.bits = c.ip.bits / 2 ^ c.hostBits * 2 ^ c.hostBits := rfl

/-- The addresses of a block come one after the other from its least address. -/
theorem covers_iff_range {c : Cidr} {a : Ip} :
    c.Covers a ↔ a.family = c.family ∧
      c.networkIp.bits ≤ a.bits ∧ a.bits < c.networkIp.bits + 2 ^ c.hostBits := by
  have hpos : 0 < 2 ^ c.hostBits := Nat.two_pow_pos _
  have hrange : a.bits / 2 ^ c.hostBits = c.ip.bits / 2 ^ c.hostBits ↔
      c.networkIp.bits ≤ a.bits ∧ a.bits < c.networkIp.bits + 2 ^ c.hostBits := by
    rw [Nat.div_eq_iff hpos, networkIp_bits]
    have hmul := Nat.mul_comm (2 ^ c.hostBits) (c.ip.bits / 2 ^ c.hostBits)
    omega
  rw [covers_iff_networkNumber]
  exact and_congr_right fun _ => hrange

/-- A block ends where its version ends, or before. -/
theorem networkIp_add_le (c : Cidr) :
    c.networkIp.bits + 2 ^ c.hostBits ≤ 2 ^ c.family.width := by
  have hwidth : 2 ^ c.family.width = 2 ^ c.len * 2 ^ c.hostBits := by
    rw [← Nat.pow_add]
    congr 1
    have hlen := c.len_le
    show c.ip.family.width = c.len + (c.ip.family.width - c.len)
    omega
  have hbits : c.ip.bits < 2 ^ c.family.width := c.ip.bits_lt
  have hnumber : c.ip.bits / 2 ^ c.hostBits < 2 ^ c.len := by
    rw [Nat.div_lt_iff_lt_mul (Nat.two_pow_pos _), ← hwidth]
    exact hbits
  calc c.networkIp.bits + 2 ^ c.hostBits
      = (c.ip.bits / 2 ^ c.hostBits + 1) * 2 ^ c.hostBits := by rw [networkIp_bits, Nat.succ_mul]
    _ ≤ 2 ^ c.len * 2 ^ c.hostBits := Nat.mul_le_mul_right _ hnumber
    _ = 2 ^ c.family.width := hwidth.symm

/-! ## The least address -/

/-- The bits of the least address that name a host are zero. -/
theorem testBit_networkIp (c : Cidr) {i : Nat} (hi : i < c.hostBits) :
    c.networkIp.bits.testBit i = false := by
  rw [networkIp_bits, Nat.mul_comm, Nat.testBit_two_pow_mul, decide_eq_false (by omega),
    Bool.false_and]

theorem networkIp_network (c : Cidr) : c.network.networkIp = c.networkIp := by
  apply Ip.eq_of_bits
  · rfl
  · show c.networkIp.bits / 2 ^ c.hostBits * 2 ^ c.hostBits = c.networkIp.bits
    rw [networkIp_bits, Nat.mul_div_cancel _ (Nat.two_pow_pos _)]

/-- A block that is named by its least address stays as it is. -/
theorem network_network (c : Cidr) : c.network.network = c.network :=
  eq_of_len (networkIp_network c) rfl

/-- Naming a block by its least address leaves it its addresses. -/
theorem covers_network {c : Cidr} {a : Ip} : c.network.Covers a ↔ c.Covers a := by
  rw [covers_iff_range, covers_iff_range, networkIp_network]
  rfl

/-- The first and the last address of a block are in it, so another block that has the same
addresses begins and ends where it does. -/
theorem range_le_of_covers {c d : Cidr} (h : ∀ a, c.Covers a → d.Covers a) :
    d.networkIp.bits ≤ c.networkIp.bits ∧
      c.networkIp.bits + 2 ^ c.hostBits ≤ d.networkIp.bits + 2 ^ d.hostBits := by
  have hpos : 0 < 2 ^ c.hostBits := Nat.two_pow_pos _
  have hend := networkIp_add_le c
  have hfirst := h c.networkIp (covers_iff_range.2 ⟨rfl, by omega, by omega⟩)
  have hlast := h ⟨c.family, c.networkIp.bits + 2 ^ c.hostBits - 1, by
    show _ < 2 ^ c.family.width
    omega⟩ (covers_iff_range.2 ⟨rfl, by dsimp only; omega, by dsimp only; omega⟩)
  have hfirst := (covers_iff_range.1 hfirst).2.1
  have hlast := (covers_iff_range.1 hlast).2.2
  dsimp only at hlast
  exact ⟨hfirst, by omega⟩

/-- Blocks of one version that are named by their least addresses are equal exactly if they have the
same addresses. -/
theorem network_eq_iff {c d : Cidr} (hfamily : c.family = d.family) :
    c.network = d.network ↔ ∀ a, c.Covers a ↔ d.Covers a := by
  constructor
  · intro heq a
    rw [← covers_network, heq, covers_network]
  · intro hsame
    obtain ⟨hlow, hhigh⟩ := range_le_of_covers fun a => (hsame a).1
    obtain ⟨hlow', hhigh'⟩ := range_le_of_covers fun a => (hsame a).2
    have hbits : c.networkIp.bits = d.networkIp.bits := by omega
    have hhost : c.hostBits = d.hostBits := by
      have hpow : 2 ^ c.hostBits = 2 ^ d.hostBits := by omega
      exact (Nat.pow_right_inj (by decide)).1 hpow
    have hlen : c.len = d.len := by
      have hc := c.len_le
      have hd := d.len_le
      have hwidth : c.ip.family.width = d.ip.family.width := congrArg Family.width hfamily
      unfold hostBits at hhost
      omega
    exact eq_of_len (Ip.eq_of_bits hfamily hbits) hlen

/-! ## Texts -/

/-- What a text says of a block: an address, and how many of its bits name the network. -/
inductive Spells (cs : List Char) (ip : Ip) : Nat → Prop where
  /-- An address alone is a block of its own. -/
  | alone (hcut : Text.pieces '/' cs = [cs]) (hip : Ip.ofChars? cs = some ip) :
    Spells cs ip ip.family.width
  /-- The number of bits stands behind a slash. -/
  | number {addr num : List Char} {n : Nat} (hcut : Text.pieces '/' cs = [addr, num])
      (hip : Ip.ofChars? addr = some ip) (hnum : Text.readSignedNat? num = some n)
      (hn : n ≤ ip.family.width) :
    Spells cs ip n
  /-- An IPv4 netmask stands there: its first bits are set and the others are not. -/
  | netmask {addr mask : List Char} {m n : Nat} (hcut : Text.pieces '/' cs = [addr, mask])
      (hip : Ip.ofChars? addr = some ip) (hv4 : ip.family = .v4)
      (hmask : Ip.v4Bits? mask = some m) (hn : n ≤ 32)
      (hbits : ∀ i < 32, m.testBit i = decide (32 - n ≤ i)) :
    Spells cs ip n

/-- An address is one of those that a text stands for. -/
def Denotes (text : String) (a : Ip) : Prop :=
  ∃ ip n, Spells text.toList ip n ∧ ip.Agree n a

/-- The netmask of which the first bits are set. -/
theorem testBit_mask {m n : Nat} (hm : m < 2 ^ 32) (hn : n ≤ 32) :
    m = 2 ^ 32 - 2 ^ (32 - n) ↔ ∀ i < 32, m.testBit i = decide (32 - n ≤ i) := by
  have hmask : ∀ i, (2 ^ 32 - 2 ^ (32 - n)).testBit i = (decide (32 - n ≤ i) && decide (i < 32)) := by
    intro i
    have hfactor : 2 ^ 32 - 2 ^ (32 - n) = 2 ^ (32 - n) * (2 ^ n - 1) := by
      rw [Nat.mul_sub_one, ← Nat.pow_add, Nat.sub_add_cancel hn]
    rw [hfactor, Nat.testBit_two_pow_mul, Nat.testBit_two_pow_sub_one]
    by_cases hi : 32 - n ≤ i
    · have hlt : i - (32 - n) < n ↔ i < 32 := by omega
      simp [hi, hlt]
    · simp [hi]
  constructor
  · intro heq i hi
    rw [heq, hmask, decide_eq_true hi, Bool.and_true]
  · intro hbits
    apply Nat.eq_of_testBit_eq
    intro i
    rw [hmask]
    by_cases hi : i < 32
    · rw [hbits i hi, decide_eq_true hi, Bool.and_true]
    · have hlarge : m < 2 ^ i := Nat.lt_of_lt_of_le hm (Nat.pow_le_pow_right (by decide) (by omega))
      rw [Nat.testBit_lt_two_pow hlarge, decide_eq_false hi, Bool.and_false]

/-- The length of a netmask is the number of its set bits, which come first. -/
theorem maskLen?_eq_some_iff {m n : Nat} (hm : m < 2 ^ 32) :
    maskLen? m = some n ↔ n ≤ 32 ∧ ∀ i < 32, m.testBit i = decide (32 - n ≤ i) := by
  have hfound : ∀ {k}, maskLen? m = some k → k ≤ 32 ∧ m = 2 ^ 32 - 2 ^ (32 - k) := by
    intro k hk
    have hmem := List.mem_range.1 (List.mem_of_find?_eq_some hk)
    have hmask := List.find?_some hk
    rw [beq_iff_eq] at hmask
    exact ⟨by omega, hmask⟩
  constructor
  · intro h
    obtain ⟨hn, hmask⟩ := hfound h
    exact ⟨hn, (testBit_mask hm hn).1 hmask⟩
  · intro h
    have hmask := (testBit_mask hm h.1).2 h.2
    cases hlen : maskLen? m with
    | none =>
      have hnot := List.find?_eq_none.1 hlen n (List.mem_range.2 (by omega))
      exact absurd (beq_iff_eq.2 hmask) hnot
    | some k =>
      obtain ⟨hk, hmask'⟩ := hfound hlen
      -- masks of different lengths are different
      have hpow : 2 ^ (32 - k) = 2 ^ (32 - n) := by
        have hle : ∀ j, 2 ^ (32 - j) ≤ 2 ^ 32 := fun j =>
          Nat.pow_le_pow_right (by decide) (Nat.sub_le 32 j)
        have hlek := hle k
        have hlen := hle n
        omega
      have heq := (Nat.pow_right_inj (a := 2) (by decide)).1 hpow
      congr 1
      omega

theorem octet?_le {cs : List Char} {n : Nat} (h : Ip.octet? cs = some n) : n ≤ 255 := by
  unfold Ip.octet? at h
  split at h
  · cases h
  · split at h
    · split at h
      · next hle =>
        cases h
        exact hle
      · cases h
    · cases h

/-- An IPv4 text denotes a number of 32 bits. -/
theorem v4Bits?_lt {cs : List Char} {m : Nat} (h : Ip.v4Bits? cs = some m) : m < 2 ^ 32 := by
  unfold Ip.v4Bits? at h
  split at h
  · next a b c d hoctets =>
    have hle : ∀ n ∈ [a, b, c, d], n ≤ 255 := by
      intro n hn
      obtain ⟨p, -, hp⟩ := exists_of_mem_forall₂ (mapM_eq_some_iff.1 hoctets) hn
      exact octet?_le hp
    have ha := hle a (by simp)
    have hb := hle b (by simp)
    have hc := hle c (by simp)
    have hd := hle d (by simp)
    have hm := Option.some.inj h
    omega
  · cases h

/-- There are points in every IPv4 text. -/
theorem v4Bits?_of_no_point {cs : List Char} (hcs : '.' ∉ cs) : Ip.v4Bits? cs = none := by
  rw [Ip.v4Bits?, Text.pieces_of_not_mem hcs, List.mapM_cons, List.mapM_nil]
  cases Ip.octet? cs <;> rfl

/-- A netmask is not a number. -/
theorem readSignedNat?_of_v4Bits? {cs : List Char} {m : Nat} (h : Ip.v4Bits? cs = some m) :
    Text.readSignedNat? cs = none := by
  have hdigits : ∀ {ds : List Char} {n}, Text.readNat? ds = some n → '.' ∉ ds := by
    intro ds n hread hpoint
    have hnot : ds.all Text.isDigit = false := by
      rw [← Bool.not_eq_true, List.all_eq_true]
      intro hall
      exact absurd (hall _ hpoint) (by decide)
    rw [Text.readNat?, hnot, Bool.not_false, Bool.or_true] at hread
    cases hread
  cases hread : Text.readSignedNat? cs with
  | none => rfl
  | some n =>
    have hpoint : '.' ∉ cs := by
      unfold Text.readSignedNat? at hread
      split at hread
      · simpa using hdigits hread
      · exact hdigits hread
    rw [v4Bits?_of_no_point hpoint] at h
    cases h

/-! ## Reading -/

theorem make?_eq_some_iff {ip : Ip} {n : Nat} {c : Cidr} :
    make? ip n = some c ↔ ip = c.ip ∧ n = c.len := by
  unfold make?
  constructor
  · intro h
    split at h
    · cases h
      exact ⟨rfl, rfl⟩
    · cases h
  · intro h
    obtain ⟨rfl, rfl⟩ := h
    exact dif_pos c.len_le

/-- What stands behind the slash is a number of bits, or an IPv4 netmask. -/
theorem len?_eq_some_iff {family : Family} {cs : List Char} {n : Nat} (hn : n ≤ family.width) :
    len? family cs = some n ↔ Text.readSignedNat? cs = some n ∨
      family = .v4 ∧ ∃ m, Ip.v4Bits? cs = some m ∧
        ∀ i < 32, m.testBit i = decide (32 - n ≤ i) := by
  have hbyte : n ≤ 255 := by
    have hwidth : family.width ≤ 255 := by cases family <;> decide
    omega
  unfold len?
  cases hread : Text.readSignedNat? cs with
  | some k =>
    have hmask : ∀ m, Ip.v4Bits? cs ≠ some m := by
      intro m hm
      rw [readSignedNat?_of_v4Bits? hm] at hread
      cases hread
    simp only [hmask, false_and, exists_false, and_false, or_false, Option.some.injEq]
    split
    · simp
    · simp
      omega
  | none =>
    simp only [reduceCtorEq, false_or]
    cases family with
    | v6 => simp
    | v4 =>
      simp only [true_and, Option.bind_eq_some_iff]
      apply exists_congr
      intro m
      apply and_congr_right
      intro hm
      rw [maskLen?_eq_some_iff (v4Bits?_lt hm), and_iff_right]
      exact hn

/-- A text is read as a block exactly if it spells it. -/
theorem ofChars?_eq_some_iff {cs : List Char} {c : Cidr} :
    ofChars? cs = some c ↔ Spells cs c.ip c.len := by
  constructor
  · intro h
    unfold ofChars? at h
    split at h
    · next addr hcut =>
      obtain rfl : addr = cs := by
        rw [← Text.join_pieces '/' cs, hcut]
        rfl
      obtain ⟨ip, hip, hmake⟩ := Option.bind_eq_some_iff.1 h
      obtain ⟨rfl, hlen⟩ := make?_eq_some_iff.1 hmake
      rw [← hlen]
      exact .alone hcut hip
    · next addr num hcut =>
      obtain ⟨ip, hip, hrest⟩ := Option.bind_eq_some_iff.1 h
      obtain ⟨n, hlen, hmake⟩ := Option.bind_eq_some_iff.1 hrest
      obtain ⟨rfl, rfl⟩ := make?_eq_some_iff.1 hmake
      rcases (len?_eq_some_iff c.len_le).1 hlen with hnum | ⟨hv4, m, hmask, hbits⟩
      · exact .number hcut hip hnum c.len_le
      · have hn := c.len_le
        rw [hv4] at hn
        exact .netmask hcut hip hv4 hmask hn hbits
    · cases h
  · intro h
    unfold ofChars?
    have hmake : make? c.ip c.len = some c := make?_eq_some_iff.2 ⟨rfl, rfl⟩
    have hread : ∀ {addr num}, Text.pieces '/' cs = [addr, num] →
        Ip.ofChars? addr = some c.ip → len? c.ip.family num = some c.len → ofChars? cs = some c := by
      intro addr num hcut hip hlen
      simp only [ofChars?, hcut, hip, hlen, Option.bind_eq_bind, Option.bind_some, hmake]
    generalize hlen : c.len = n at h
    cases h with
    | alone hcut hip => simp only [hcut, hip, Option.bind_some, hlen ▸ hmake]
    | number hcut hip hnum hn =>
      subst hlen
      exact hread hcut hip ((len?_eq_some_iff c.len_le).2 (.inl hnum))
    | netmask hcut hip hv4 hmask hn hbits =>
      subst hlen
      exact hread hcut hip ((len?_eq_some_iff c.len_le).2 (.inr ⟨hv4, _, hmask, hbits⟩))

/-- A text that is read as a block stands for the addresses of the block. -/
theorem denotes_iff {text : String} {c : Cidr} (h : parse? text = some c) {a : Ip} :
    Denotes text a ↔ c.Covers a := by
  constructor
  · intro hdenotes
    obtain ⟨ip, n, hspells, hagree⟩ := hdenotes
    have hn : n ≤ ip.family.width := by
      cases hspells with
      | alone => exact Nat.le_refl _
      | number _ _ _ hn => exact hn
      | netmask _ _ hv4 _ hn _ =>
        rw [hv4]
        exact hn
    have hread : ofChars? text.toList = some ⟨ip, n, hn⟩ := ofChars?_eq_some_iff.2 hspells
    obtain rfl := Option.some.inj (h.symm.trans hread)
    exact hagree
  · intro hcovers
    exact ⟨c.ip, c.len, ofChars?_eq_some_iff.1 h, hcovers⟩

/-- The text of a block is read as the block. -/
theorem parse?_render (c : Cidr) : parse? c.render = some c := by
  have hslash : '/' ∉ c.ip.chars := by
    intro hmem
    rcases Ip.chars_cases hmem with h | h | h <;> revert h <;> decide
  have hdigits : '/' ∉ Nat.toDigits 10 c.len := by
    intro hmem
    have hdigit := Text.isDigit_of_mem_toDigits hmem
    revert hdigit
    decide
  have hcut : Text.pieces '/' c.chars = [c.ip.chars, Nat.toDigits 10 c.len] := by
    rw [chars, Text.pieces_append hslash, Text.pieces_of_not_mem hdigits]
  have hnum : Text.readSignedNat? (Nat.toDigits 10 c.len) = some c.len := by
    have hread := Text.readNat?_toDigits c.len
    unfold Text.readSignedNat?
    split
    · next cs hplus =>
      have hdigit := Text.isDigit_of_mem_toDigits (n := c.len) (c := '+') (by simp [hplus])
      exact absurd hdigit (by decide)
    · exact hread
  rw [parse?, render, String.toList_ofList]
  exact ofChars?_eq_some_iff.2 (.number hcut (Ip.ofChars?_chars c.ip) hnum c.len_le)

end Cidr

end PodAttach.Net
