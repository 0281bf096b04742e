import PodAttach.Net.Ip
import PodAttach.Net.Mac
import PodAttach.Proofs.Texts

/-!
# Addresses in texts

`ofChars?_chars`: the text of an address denotes the address.

An IPv4 text is four numbers with points between them (`v4Bits?_v4Chars`).
An IPv6 text is written in one of three forms: with an IPv4 address at the
end, with all eight groups, or with a gap in the place of a run of zeros.
`splitGap_groupChars` says that the gap is found where it was written, and
`longestZeros_spec` that nothing but zeros was left out there.

A hardware address is cut into its bytes again (`pieces_render`), so it is known
by its text (`render_injective`).
-/

namespace PodAttach.Net.Ip

open Text

/-! ## IPv4 -/

theorem octet?_toDigits {n : Nat} (hn : n ≤ 255) : octet? (Nat.toDigits 10 n) = some n := by
  have hlength : (Nat.toDigits 10 n).length ≤ 3 :=
    (Nat.length_toDigits_le_iff (by decide) (by decide)).2 (by omega)
  have hhead : ((Nat.toDigits 10 n).head? == some '0' && 1 < (Nat.toDigits 10 n).length) =
      false := by
    by_cases hzero : n = 0
    · subst hzero
      rfl
    · have hne := head?_toDigits (b := 10) (by decide) (Nat.pos_of_ne_zero hzero)
      rw [beq_eq_false_iff_ne.2 hne, Bool.false_and]
  simp [octet?, hhead, hlength, readNat?_toDigits, hn]

theorem v4Bits?_v4Chars {n : Nat} (hn : n < 0x100000000) : v4Bits? (v4Chars n) = some n := by
  have hpoint : ∀ m, '.' ∉ Nat.toDigits 10 m := by
    intro m hm
    have hdigit := isDigit_of_mem_toDigits hm
    revert hdigit
    decide
  have hpieces : pieces '.' (v4Chars n) =
      [n / 0x1000000 % 0x100, n / 0x10000 % 0x100, n / 0x100 % 0x100, n % 0x100].map
        (Nat.toDigits 10) := by
    refine pieces_join (by simp) fun p hp => ?_
    obtain ⟨m, -, rfl⟩ := List.mem_map.1 hp
    exact hpoint m
  have hoctet : ∀ m, octet? (Nat.toDigits 10 (m % 0x100)) = some (m % 0x100) :=
    fun m => octet?_toDigits (by omega)
  rw [v4Bits?, hpieces]
  simp only [List.map_cons, List.map_nil, List.mapM_cons, List.mapM_nil, hoctet, Option.pure_def,
    Option.bind_eq_bind, Option.bind_some, Option.some.injEq]
  omega

theorem v4Chars_cases {n : Nat} {c : Char} (hc : c ∈ v4Chars n) : c = '.' ∨ isDigit c = true := by
  refine (mem_join hc).imp_right ?_
  rintro ⟨p, hp, hcp⟩
  obtain ⟨m, -, rfl⟩ := List.mem_map.1 hp
  exact isDigit_of_mem_toDigits hcp

theorem mapM_eq_none {α β : Type} {f : α → Option β} {l : List α} {a : α} (ha : a ∈ l)
    (hf : f a = none) : l.mapM f = none := by
  induction l with
  | nil => cases ha
  | cons b l ih =>
    rw [List.mapM_cons]
    rcases List.mem_cons.1 ha with rfl | ha
    · rw [hf]
      rfl
    · rw [ih ha]
      cases f b <;> rfl

/-- No IPv4 text holds a colon. -/
theorem v4Bits?_of_colon {cs : List Char} (hcs : ':' ∈ cs) : v4Bits? cs = none := by
  rw [← join_pieces '.' cs] at hcs
  obtain ⟨p, hp, hcolon⟩ := (mem_join hcs).resolve_left (by decide)
  have hoctet : octet? p = none := by
    have hnot : p.all isDigit = false := by
      rw [← Bool.not_eq_true, List.all_eq_true]
      exact fun hall => absurd (hall _ hcolon) (by decide)
    simp [octet?, readNat?, hnot]
  rw [v4Bits?, mapM_eq_none hp hoctet]

/-! ## Groups -/

theorem group?_toDigits {g : Nat} (hg : g < 0x10000) : group? (Nat.toDigits 16 g) = some g := by
  have hlength : (Nat.toDigits 16 g).length ≤ 4 :=
    (Nat.length_toDigits_le_iff (by decide) (by decide)).2 (by omega)
  rw [group?, if_neg (by omega), readHex?_toDigits]

theorem colon_not_mem_toDigits (g : Nat) : ':' ∉ Nat.toDigits 16 g := by
  intro hg
  have hdigit := isHexDigit_of_mem_toDigits hg
  revert hdigit
  decide

/-- A text of groups begins with a digit. -/
theorem groupChars_cons (g : Nat) (gs : List Nat) :
    ∃ d cs, groupChars (g :: gs) = d :: cs ∧ d ≠ ':' := by
  obtain ⟨d, ds, hds⟩ := List.exists_cons_of_ne_nil (Nat.toDigits_ne_nil (n := g) (b := 16))
  have hd : d ≠ ':' := by
    rintro rfl
    exact colon_not_mem_toDigits g (by simp [hds])
  cases gs with
  | nil => exact ⟨d, ds, hds, hd⟩
  | cons g' gs => exact ⟨d, ds ++ ':' :: groupChars (g' :: gs), by simp [groupChars, join, hds], hd⟩

theorem groupTexts_groupChars (gs : List Nat) :
    groupTexts (groupChars gs) = gs.map (Nat.toDigits 16) := by
  cases gs with
  | nil => rfl
  | cons g gs =>
    obtain ⟨d, cs, hcs, -⟩ := groupChars_cons g gs
    have hpieces : pieces ':' (groupChars (g :: gs)) = (g :: gs).map (Nat.toDigits 16) := by
      refine pieces_join (by simp) fun p hp => ?_
      obtain ⟨m, -, rfl⟩ := List.mem_map.1 hp
      exact colon_not_mem_toDigits m
    rw [groupTexts, hpieces, hcs]
    rfl

theorem mapM_group? {gs : List Nat} (hgs : ∀ g ∈ gs, g < 0x10000) :
    (gs.map (Nat.toDigits 16)).mapM group? = some gs := by
  induction gs with
  | nil => rfl
  | cons g gs ih =>
    rw [List.map_cons, List.mapM_cons, group?_toDigits (hgs g (by simp)),
      ih fun g' hg' => hgs g' (by simp [hg'])]
    rfl

theorem tailGroups?_toDigits {gs : List Nat} (hgs : ∀ g ∈ gs, g < 0x10000) :
    tailGroups? (gs.map (Nat.toDigits 16)) = some gs := by
  induction gs with
  | nil => rfl
  | cons g gs ih =>
    have hg := group?_toDigits (hgs g (by simp))
    have hrest := ih fun g' hg' => hgs g' (by simp [hg'])
    cases gs with
    | nil => rw [List.map_cons, List.map_nil, tailGroups?, hg]
    | cons g' gs =>
      rw [List.map_cons, List.map_cons, tailGroups?, hg, ← List.map_cons, hrest]
      rfl

/-! ## The gap -/

theorem splitGap_cons {c : Char} (hc : c ≠ ':') (cs : List Char) :
    splitGap (c :: cs) = (splitGap cs).map fun (l, r) => (c :: l, r) := by
  rw [splitGap]
  exact fun _ h => absurd h hc

theorem splitGap_colon {d : Char} (hd : d ≠ ':') (cs : List Char) :
    splitGap (':' :: d :: cs) = (splitGap (d :: cs)).map fun (l, r) => (':' :: l, r) := by
  rw [splitGap]
  rintro rest - h
  exact hd (List.cons.inj h).1

theorem splitGap_append {p : List Char} (hp : ':' ∉ p) (rest : List Char) :
    splitGap (p ++ rest) = (splitGap rest).map fun (l, r) => (p ++ l, r) := by
  induction p with
  | nil => rw [List.nil_append]; cases splitGap rest <;> rfl
  | cons c p ih =>
    rw [List.mem_cons, not_or] at hp
    rw [List.cons_append, splitGap_cons (Ne.symm hp.1), ih hp.2]
    cases splitGap rest <;> rfl

/-- No gap begins in groups with colons between them, nor where they end. -/
theorem splitGap_groupChars (gs : List Nat) (rest : List Char) :
    splitGap (groupChars gs ++ rest) =
      (splitGap rest).map fun (l, r) => (groupChars gs ++ l, r) := by
  induction gs with
  | nil =>
    show splitGap rest = _
    cases splitGap rest <;> rfl
  | cons g gs ih =>
    cases gs with
    | nil => exact splitGap_append (colon_not_mem_toDigits g) rest
    | cons g' gs =>
      obtain ⟨d, cs, hcs, hd⟩ := groupChars_cons g' gs
      have hjoin : groupChars (g :: g' :: gs) =
          Nat.toDigits 16 g ++ ':' :: groupChars (g' :: gs) := rfl
      rw [hjoin, List.append_assoc, splitGap_append (colon_not_mem_toDigits g), List.cons_append]
      rw [hcs, List.cons_append] at ih ⊢
      rw [splitGap_colon hd, ih]
      cases splitGap rest <;> simp

theorem take_of_zeroRun {gs : List Nat} {len : Nat} (h : len ≤ zeroRun gs) :
    gs.take len = List.replicate len 0 := by
  induction len generalizing gs with
  | zero => simp
  | succ len ih =>
    cases gs with
    | nil => cases h
    | cons g gs =>
      by_cases hg : g = 0
      · subst hg
        have hrest : len ≤ zeroRun gs := by simpa [zeroRun] using h
        rw [List.take_succ_cons, ih hrest, List.replicate_succ]
      · simp [zeroRun, hg] at h

/-- What the longest run of zeros stands for. -/
theorem longestZeros_spec (gs : List Nat) :
    gs = gs.take (longestZeros gs).1 ++ List.replicate (longestZeros gs).2 0 ++
      gs.drop ((longestZeros gs).1 + (longestZeros gs).2) := by
  -- wherever the run that was found so far starts, there are as many zeros
  have hrun : (longestZeros gs).2 ≤ zeroRun (gs.drop (longestZeros gs).1) := by
    unfold longestZeros
    refine List.foldlRecOn (motive := fun run : Nat × Nat => run.2 ≤ zeroRun (gs.drop run.1)) _ _
      (Nat.zero_le _) fun run hrun i _ => ?_
    dsimp only
    split
    · exact Nat.le_refl _
    · exact hrun
  have hzeros := take_of_zeroRun hrun
  rw [← hzeros, List.append_assoc, ← List.drop_drop, List.take_append_drop, List.take_append_drop]

/-! ## IPv6 -/

theorem groups_lt {n g : Nat} (hg : g ∈ groups n) : g < 0x10000 := by
  obtain ⟨i, -, rfl⟩ := List.mem_map.1 hg
  exact Nat.mod_lt _ (by decide)

/-- The lowest groups of a number, put behind another one. -/
theorem foldl_groups (n k acc : Nat) :
    ((List.range k).reverse.map fun i => n / Nat.pow 2 (16 * i) % 0x10000).foldl
      (fun n g => n * 0x10000 + g) acc = acc * Nat.pow 2 (16 * k) + n % Nat.pow 2 (16 * k) := by
  induction k generalizing acc with
  | zero => simp [Nat.mod_one]
  | succ k ih =>
    have hpow : Nat.pow 2 (16 * (k + 1)) = Nat.pow 2 (16 * k) * 0x10000 :=
      Nat.pow_add 2 (16 * k) 16
    rw [List.range_succ, List.reverse_append, List.reverse_singleton, List.singleton_append,
      List.map_cons, List.foldl_cons, ih, hpow, Nat.mod_mul]
    grind

theorem ofGroups_groups {n : Nat} (hn : n < Nat.pow 2 128) : ofGroups (groups n) = n := by
  have hfold := foldl_groups n 8 0
  rw [Nat.zero_mul, Nat.zero_add, Nat.mod_eq_of_lt hn] at hfold
  exact hfold

/-- Eight groups without a gap. -/
theorem v6Bits?_groupChars {gs : List Nat} (hgs : ∀ g ∈ gs, g < 0x10000) (hlength : gs.length = 8) :
    v6Bits? (groupChars gs) = some (ofGroups gs) := by
  have hgap : splitGap (groupChars gs) = none := by
    have h := splitGap_groupChars gs []
    rw [List.append_nil] at h
    exact h
  rw [v6Bits?, hgap]
  simp only [groupTexts_groupChars, tailGroups?_toDigits hgs, hlength, if_true]

/-- Groups around a gap. -/
theorem v6Bits?_gap {ls rs : List Nat} (hls : ∀ g ∈ ls, g < 0x10000) (hrs : ∀ g ∈ rs, g < 0x10000)
    (hlength : ls.length + rs.length ≤ 7) :
    v6Bits? (groupChars ls ++ [':', ':'] ++ groupChars rs) =
      some (ofGroups (ls ++ List.replicate (8 - ls.length - rs.length) 0 ++ rs)) := by
  have hgap : splitGap (groupChars ls ++ [':', ':'] ++ groupChars rs) =
      some (groupChars ls, groupChars rs) := by
    rw [List.append_assoc, splitGap_groupChars]
    simp [splitGap]
  rw [v6Bits?, hgap]
  simp only [groupTexts_groupChars, mapM_group? hls, tailGroups?_toDigits hrs]
  exact if_pos hlength

/-- An IPv4 address that is mapped into IPv6. -/
theorem v6Bits?_mapped {m : Nat} (hm : m < 0x100000000) :
    v6Bits? ([':', ':', 'f', 'f', 'f', 'f', ':'] ++ v4Chars m) =
      some (0xFFFF * 0x100000000 + m) := by
  have hgap : splitGap ([':', ':', 'f', 'f', 'f', 'f', ':'] ++ v4Chars m) =
      some ([], ['f', 'f', 'f', 'f'] ++ ':' :: v4Chars m) := rfl
  have hcolon : ':' ∉ v4Chars m := by
    intro hmem
    rcases v4Chars_cases hmem with h | h <;> revert h <;> decide
  have htexts : groupTexts (['f', 'f', 'f', 'f'] ++ ':' :: v4Chars m) =
      [['f', 'f', 'f', 'f'], v4Chars m] := by
    rw [groupTexts, pieces_append (by decide), pieces_of_not_mem hcolon]
    rfl
  -- four numbers and the points between them are too long for a group
  have hlong : group? (v4Chars m) = none := by
    have hpos : ∀ i, 0 < (Nat.toDigits 10 i).length := fun i => Nat.length_toDigits_pos
    have hlength : 4 < (v4Chars m).length := by
      simp only [v4Chars, List.map_cons, List.map_nil, join, List.length_append, List.length_cons]
      have h₁ := hpos (m / 0x1000000 % 0x100)
      have h₂ := hpos (m / 0x10000 % 0x100)
      omega
    rw [group?, if_pos hlength]
  have htail : tailGroups? [['f', 'f', 'f', 'f'], v4Chars m] =
      some [0xFFFF, m / 0x10000, m % 0x10000] := by
    have hffff : group? ['f', 'f', 'f', 'f'] = some 0xFFFF := by decide
    simp only [tailGroups?, hffff, hlong, v4Bits?_v4Chars hm]
    rfl
  rw [v6Bits?, hgap]
  simp only [htexts, htail]
  simp [groupTexts, ofGroups]
  omega

theorem v6Bits?_v6Chars {n : Nat} (hn : n < Nat.pow 2 128) : v6Bits? (v6Chars n) = some n := by
  unfold v6Chars
  split
  · next hmapped =>
    rw [v6Bits?_mapped (Nat.mod_lt _ (by decide))]
    exact congrArg some (by omega)
  · have hspec := longestZeros_spec (groups n)
    have hlength : (groups n).length = 8 := rfl
    dsimp only
    generalize longestZeros (groups n) = run at hspec ⊢
    obtain ⟨start, len⟩ := run
    dsimp only at hspec ⊢
    split
    · rw [v6Bits?_groupChars (fun g hg => groups_lt hg) hlength, ofGroups_groups hn]
    · next hlen =>
      have hsum := congrArg List.length hspec
      simp only [List.length_append, List.length_replicate, hlength] at hsum
      have hleft : ((groups n).take start).length + ((groups n).drop (start + len)).length ≤ 7 := by
        omega
      rw [v6Bits?_gap (fun g hg => groups_lt (List.mem_of_mem_take hg))
        (fun g hg => groups_lt (List.mem_of_mem_drop hg)) hleft]
      have hzeros : 8 - ((groups n).take start).length -
          ((groups n).drop (start + len)).length = len := by omega
      rw [hzeros, ← hspec, ofGroups_groups hn]

/-! ## All addresses -/

theorem colon_mem_v6Chars (n : Nat) : ':' ∈ v6Chars n := by
  unfold v6Chars
  split
  · simp
  · dsimp only
    split
    · have hjoin : groupChars (groups n) = Nat.toDigits 16 (n / Nat.pow 2 (16 * 7) % 0x10000) ++
          ':' :: groupChars (groups n).tail := rfl
      rw [hjoin]
      simp
    · simp

/-- The text of an address denotes it. -/
theorem ofChars?_chars (a : Ip) : ofChars? a.chars = some a := by
  obtain ⟨family, bits, hbits⟩ := a
  cases family with
  | v4 =>
    have hread : v4Bits? (v4Chars bits) = some bits := v4Bits?_v4Chars hbits
    simp only [chars, ofChars?, hread, ofBits, Nat.mod_eq_of_lt hbits]
  | v6 =>
    have hread : v6Bits? (v6Chars bits) = some bits := v6Bits?_v6Chars hbits
    simp only [chars, ofChars?, v4Bits?_of_colon (colon_mem_v6Chars bits), hread, Option.map_some,
      ofBits, Nat.mod_eq_of_lt hbits]

theorem parse?_render (a : Ip) : parse? a.render = some a := by
  rw [parse?, render, String.toList_ofList]
  exact ofChars?_chars a

/-! ## What the texts are made of -/

theorem groupChars_cases {gs : List Nat} {c : Char} (hc : c ∈ groupChars gs) :
    c = ':' ∨ isHexDigit c = true := by
  refine (mem_join hc).imp_right ?_
  rintro ⟨p, hp, hcp⟩
  obtain ⟨m, -, rfl⟩ := List.mem_map.1 hp
  exact isHexDigit_of_mem_toDigits hcp

theorem chars_cases {a : Ip} {c : Char} (hc : c ∈ a.chars) :
    c = '.' ∨ c = ':' ∨ isHexDigit c = true := by
  have hv4 : ∀ n, c ∈ v4Chars n → c = '.' ∨ c = ':' ∨ isHexDigit c = true := by
    intro n hc
    exact (v4Chars_cases hc).imp_right fun hdigit => .inr (isHexDigit_of_isDigit hdigit)
  have hgroups : ∀ gs, c ∈ groupChars gs → c = '.' ∨ c = ':' ∨ isHexDigit c = true :=
    fun gs hc => .inr (groupChars_cases hc)
  unfold chars at hc
  split at hc
  · exact hv4 _ hc
  · unfold v6Chars at hc
    split at hc
    · rcases List.mem_append.1 hc with hc | hc
      · have hmark : c = ':' ∨ c = 'f' := by
          simp only [List.mem_cons, List.not_mem_nil] at hc
          grind
        refine .inr (hmark.imp_right fun hf => ?_)
        rw [hf]
        decide
      · exact hv4 _ hc
    · dsimp only at hc
      split at hc
      · exact hgroups _ hc
      · rcases List.mem_append.1 hc with hc | hc
        · rcases List.mem_append.1 hc with hc | hc
          · exact hgroups _ hc
          · exact .inr (.inl (by simpa using hc))
        · exact hgroups _ hc

/-- Addresses can be listed with commas between them. -/
theorem comma_not_mem_chars (a : Ip) : ',' ∉ a.chars := by
  intro hmem
  rcases chars_cases hmem with h | h | h <;> revert h <;> decide

end PodAttach.Net.Ip

/-! ## Hardware addresses -/

namespace PodAttach.Net.Mac

theorem isHexDigit_of_mem_octetChars {b : UInt8} {c : Char} (hc : c ∈ octetChars b) :
    Text.isHexDigit c = true := by
  have hb := b.toNat_lt
  have hdigit : ∀ d < 16, Text.isHexDigit (Text.hexDigit d) = true := by
    intro d hd
    rw [Text.isHexDigit, Text.hexValue?_hexDigit hd, Option.isSome_some]
  simp only [octetChars, List.mem_cons, List.not_mem_nil, or_false] at hc
  cases hc with
  | inl hhigh => exact hhigh ▸ hdigit _ (by omega)
  | inr hlow => exact hlow ▸ hdigit _ (by omega)

theorem pieces_render (bytes : Bytes) (hne : bytes ≠ []) :
    Text.pieces ':' (render bytes).toList = bytes.map octetChars := by
  rw [render, String.toList_ofList]
  refine Text.pieces_join (by simpa using hne) fun octet hoctet hcolon => ?_
  obtain ⟨b, -, rfl⟩ := List.mem_map.1 hoctet
  exact absurd (isHexDigit_of_mem_octetChars hcolon) (by decide)

theorem hexDigit_inj {d e : Nat} (hd : d < 16) (he : e < 16)
    (h : Text.hexDigit d = Text.hexDigit e) : d = e := by
  apply Option.some.inj
  rw [← Text.hexValue?_hexDigit hd, ← Text.hexValue?_hexDigit he, h]

theorem octetChars_injective : Function.Injective octetChars := by
  intro a b h
  have ha := a.toNat_lt
  have hb := b.toNat_lt
  simp only [octetChars, List.cons.injEq, and_true] at h
  have hhigh := hexDigit_inj (by omega) (by omega) h.1
  have hlow := hexDigit_inj (by omega) (by omega) h.2
  apply UInt8.toNat_inj.1
  omega

/-- Only the empty text has no byte in it. -/
theorem render_cons_ne {b : UInt8} {bytes : Bytes} : render (b :: bytes) ≠ render [] := by
  intro h
  have hpieces := pieces_render (b :: bytes) nofun
  rw [h] at hpieces
  have hempty : ([[]] : List (List Char)) = (b :: bytes).map octetChars := hpieces
  rw [List.map_cons, List.cons.injEq] at hempty
  cases hempty.1

/-- Hardware addresses of one text are the same. -/
theorem render_injective : Function.Injective render := by
  intro x y h
  cases x with
  | nil =>
    cases y with
    | nil => rfl
    | cons b rest => exact absurd h.symm render_cons_ne
  | cons a rest =>
    cases y with
    | nil => exact absurd h render_cons_ne
    | cons b rest' =>
      have hx := pieces_render (a :: rest) nofun
      have hy := pieces_render (b :: rest') nofun
      rw [h, hy] at hx
      exact ((List.map_inj_right fun _ _ => (octetChars_injective ·)).1 hx).symm

end PodAttach.Net.Mac
