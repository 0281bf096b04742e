import Mathlib.Data.Nat.Bitwise
import Mathlib.Data.Nat.ModEq
import PodAttach.Proofs.Rules
import PodAttach.Proofs.Spoofing
import PodAttach.Switch.Ofctl

/-!
# Cookies of interfaces

The flows of an interface are removed by a cookie, which is a tag and some bits
of a hash of the name of the interface.  A step of the hash multiplies by an odd
number, so what it makes of these bits can be undone, and it makes nothing else
of them (`low_hashByte_inj`).

* `low_foldl_inj`: what differs in these bits stays different, whatever bytes
  follow, so one byte makes a difference wherever it stands (`low_hash_ne`).
* `toNat_cookie`: a cookie is the tag and these bits.
* `differOnce_iff`: names that differ in one byte are the same before and behind it.
* `uninstall_ensures`: removing by a cookie removes the rules with that cookie.
* `neighbours_apart`: the flows of an interface stay when those of another one
  are removed whose name differs in one byte.
-/

namespace PodAttach.Switch

/-! ## The hash -/

/-- The bits of a hash that a cookie has. -/
def low (h : UInt64) : Nat := h.toNat % 2 ^ 60

theorem low_lt (h : UInt64) : low h < 2 ^ 60 :=
  Nat.mod_lt _ (by decide)

theorem low_hashByte (h : UInt64) (b : UInt8) :
    low (hashByte h b) = (low h ^^^ b.toNat) * hashPrime.toNat % 2 ^ 60 := by
  have hsize : (2 : Nat) ^ 60 ∣ 2 ^ 64 := Nat.pow_dvd_pow 2 (by decide)
  have hbyte : b.toNat % 2 ^ 60 = b.toNat :=
    Nat.mod_eq_of_lt (Nat.lt_trans b.toNat_lt (by decide))
  calc low (hashByte h b)
      = (h.toNat ^^^ b.toNat) * hashPrime.toNat % 2 ^ 60 := by
        rw [low, hashByte, UInt64.toNat_mul, Nat.mod_mod_of_dvd _ hsize, UInt64.toNat_xor,
          UInt8.toNat_toUInt64]
    _ = (h.toNat ^^^ b.toNat) % 2 ^ 60 * hashPrime.toNat % 2 ^ 60 :=
        (Nat.mod_mul_mod _ _ _).symm
    _ = (low h ^^^ b.toNat) * hashPrime.toNat % 2 ^ 60 := by
        rw [Nat.xor_mod_two_pow, hbyte, low]

/-- A step can be undone in these bits. -/
theorem low_hashByte_inj {h h' : UInt64} {b b' : UInt8} :
    low (hashByte h b) = low (hashByte h' b') ↔ low h ^^^ b.toNat = low h' ^^^ b'.toNat := by
  have hlt : ∀ (h : UInt64) (b : UInt8), low h ^^^ b.toNat < 2 ^ 60 := fun h b =>
    Nat.xor_lt_two_pow (low_lt h) (Nat.lt_trans b.toNat_lt (by decide))
  rw [low_hashByte, low_hashByte]
  constructor
  · intro heq
    have hcoprime : (2 ^ 60).gcd hashPrime.toNat = 1 := by decide +kernel
    have hmod : low h ^^^ b.toNat ≡ low h' ^^^ b'.toNat [MOD 2 ^ 60] :=
      Nat.ModEq.cancel_right_of_coprime hcoprime heq
    exact hmod.eq_of_lt_of_lt (hlt h b) (hlt h' b')
  · intro heq
    rw [heq]

/-- What is different in these bits stays so, whatever follows. -/
theorem low_foldl_inj {h h' : UInt64} (bytes : Bytes) :
    low (bytes.foldl hashByte h) = low (bytes.foldl hashByte h') ↔ low h = low h' := by
  induction bytes generalizing h h' with
  | nil => exact Iff.rfl
  | cons b bytes ih =>
    rw [List.foldl_cons, List.foldl_cons, ih, low_hashByte_inj, Nat.xor_left_inj]

/-- One byte makes a difference, wherever it stands. -/
theorem low_hash_ne (front rest : Bytes) {x y : UInt8} (hne : x ≠ y) :
    low (hash (front ++ x :: rest)) ≠ low (hash (front ++ y :: rest)) := by
  intro heq
  rw [hash, hash, List.foldl_append, List.foldl_append, List.foldl_cons, List.foldl_cons,
    low_foldl_inj, low_hashByte_inj, Nat.xor_right_inj] at heq
  exact hne (UInt8.toNat_inj.1 heq)

/-! ## Cookies -/

/-- A cookie is the tag and some bits of the hash. -/
theorem toNat_cookie (name : String) :
    (cookie name).toNat = 2 ^ 60 + low (hash (Utf8.encode name)) := by
  have hmask : cookieMask.toNat = 2 ^ 60 - 1 := by decide
  have htag : cookieTag.toNat = 2 ^ 60 * 1 := by decide
  rw [cookie, UInt64.toNat_or, UInt64.toNat_and, hmask, htag, Nat.and_two_pow_sub_one_eq_mod,
    ← Nat.two_pow_add_eq_or_of_lt (Nat.mod_lt _ (by decide)), Nat.mul_one]
  rfl

theorem cookie_tag (name : String) : cookie name >>> 60 = 1 := by
  have hlow := low_lt (hash (Utf8.encode name))
  have hshift : (60 : UInt64).toNat % 64 = 60 := by decide
  have hone : (1 : UInt64).toNat = 1 := by decide
  rw [← UInt64.toNat_inj, UInt64.toNat_shiftRight, hshift, hone, Nat.shiftRight_eq_div_pow,
    toNat_cookie]
  omega

/-! ## Names that differ in one byte -/

/-- Sequences of bytes of one length that differ in exactly one place. -/
def DifferOnce (xs ys : Bytes) : Prop :=
  xs.length = ys.length ∧ ∃! i : Nat, xs[i]? ≠ ys[i]?

/-- Before and behind that place they are the same. -/
theorem differOnce_iff {xs ys : Bytes} :
    DifferOnce xs ys ↔
      ∃ front x y rest, xs = front ++ x :: rest ∧ ys = front ++ y :: rest ∧ x ≠ y := by
  constructor
  · rintro ⟨hlength, i, hi, honly⟩
    have hsame : ∀ j, j ≠ i → xs[j]? = ys[j]? := fun j hj =>
      not_not.1 fun hdiffer => hj (honly j hdiffer)
    have hxs : i < xs.length := by
      by_contra hlast
      have hnone : xs[i]? = ys[i]? := by
        rw [List.getElem?_eq_none (by omega), List.getElem?_eq_none (by omega)]
      exact hi hnone
    have hys : i < ys.length := hlength ▸ hxs
    have hfront : ys.take i = xs.take i := by
      ext1 j
      rw [List.getElem?_take, List.getElem?_take]
      split
      · next hj => exact (hsame j (Nat.ne_of_lt hj)).symm
      · rfl
    have hrest : ys.drop (i + 1) = xs.drop (i + 1) := by
      ext1 j
      rw [List.getElem?_drop, List.getElem?_drop]
      exact (hsame _ (by omega)).symm
    refine ⟨xs.take i, xs[i], ys[i], xs.drop (i + 1), ?_, ?_, ?_⟩
    · rw [← List.drop_eq_getElem_cons, List.take_append_drop]
    · rw [← hfront, ← hrest, ← List.drop_eq_getElem_cons, List.take_append_drop]
    · intro heq
      rw [List.getElem?_eq_getElem hxs, List.getElem?_eq_getElem hys, heq] at hi
      exact hi rfl
  · rintro ⟨front, x, y, rest, rfl, rfl, hne⟩
    refine ⟨by simp, front.length, by simpa using hne, fun j hj => ?_⟩
    by_contra hother
    refine hj ?_
    rw [List.getElem?_append, List.getElem?_append]
    split
    · rfl
    · next hle =>
      obtain ⟨k, hk⟩ : ∃ k, j - front.length = k + 1 := ⟨j - front.length - 1, by omega⟩
      rw [hk, List.getElem?_cons_succ, List.getElem?_cons_succ]

theorem cookie_ne {a b : String} (h : DifferOnce (Utf8.encode a) (Utf8.encode b)) :
    cookie a ≠ cookie b := by
  obtain ⟨front, x, y, rest, ha, hb, hne⟩ := differOnce_iff.1 h
  intro heq
  have hnat := congrArg UInt64.toNat heq
  rw [toNat_cookie, toNat_cookie, ha, hb] at hnat
  exact low_hash_ne front rest hne (Nat.add_left_cancel hnat)

/-! ## Removing -/

/-- A run removes the rules of a bridge that a selection means. -/
def Invocation.Clears (i : Invocation) (bridge : String) (s : Selection) : Prop :=
  i.program = Ofctl.program ∧
    ∃ text, i.args = ["del-flows", bridge, text] ∧ Selection.read? text = some s

/-- The rules of a bridge, of which some are removed, and nothing else is done.  A run that fails
may have removed them all the same. -/
def removing (bridge : String) : Proc.Rules ToolAsk ToolAsk.Reply (List Rule) where
  asks
    | .run i, _ => ∃ s, i.Clears bridge s
    | _, _ => False
  answers
    | .run i, rules, outcome, left =>
      (∃ s, i.Clears bridge s ∧ left = s.remove rules) ∨
        left = rules ∧ ∃ e, i.interpret outcome = .error e
    | _, rules, _, left => left = rules

/-- The selection that means a cookie, and no other one. -/
def Selection.exactly (c : UInt64) : Selection :=
  ⟨c.toNat, wholeMask⟩

theorem Selection.read?_exactly (c : UInt64) :
    Selection.read? ("cookie=" ++ cookieText c ++ "/-1") = some (.exactly c) := by
  have hcookie := written_cookieText c
  have hdigits : '/' ∉ (cookieText c).toList := by
    intro hmem
    rw [cookieText, String.toList_append, String.toList_ofList, List.mem_append] at hmem
    rcases hmem with hmem | hmem
    · exact absurd hmem (by decide)
    · rw [String.toList_ofList] at hmem
      exact absurd (Text.isHexDigit_of_mem_toDigits hmem) (by decide)
  have htext : ("cookie=" ++ cookieText c ++ "/-1").toList =
      "cookie".toList ++ '=' :: (cookieText c ++ "/-1").toList := by
    simp
  have hvalue : (cookieText c ++ "/-1").toList = (cookieText c).toList ++ '/' :: "-1".toList := by
    simp
  have hequals : '=' ∉ (cookieText c ++ "/-1").toList := by
    rw [hvalue, List.mem_append, not_or]
    exact ⟨hcookie.unmarked.equals, by decide⟩
  have hpair : Text.split '=' ("cookie=" ++ cookieText c ++ "/-1") =
      ["cookie", cookieText c ++ "/-1"] := by
    rw [Text.split_append htext, Text.split_of_not_mem hequals]
    rfl
  have hparts : Text.split '/' (cookieText c ++ "/-1") = [cookieText c, "-1"] := by
    rw [Text.split_append hvalue, Text.split_of_not_mem hdigits]
    rfl
  simp only [Selection.read?, hpair, hparts, hcookie.read]
  rfl

theorem Selection.selects_exactly {c : UInt64} {r : Rule} :
    (Selection.exactly c).selects r = true ↔ r.cookie % 2 ^ 64 = c.toNat := by
  have hmask : wholeMask = 2 ^ 64 - 1 := by decide
  rw [selects, beq_iff_eq, exactly, hmask, Nat.and_two_pow_sub_one_eq_mod,
    Nat.and_two_pow_sub_one_eq_mod, Nat.mod_eq_of_lt c.toNat_lt]

theorem Selection.mem_remove_exactly {c : UInt64} {rules : List Rule} {r : Rule} :
    r ∈ (Selection.exactly c).remove rules ↔ r ∈ rules ∧ r.cookie % 2 ^ 64 ≠ c.toNat := by
  rw [remove, List.mem_filter, Bool.not_eq_true', Bool.eq_false_iff, ne_eq, selects_exactly]

/-- The rules with the cookie of the interface are removed, or an error is reported. -/
theorem uninstall_ensures (c : Ofctl.Client) (name : String) (rules : List Rule) :
    (Ofctl.uninstall c name).Ensures (removing c.bridge) rules fun result left =>
      left = (Selection.exactly (cookie name)).remove rules ∨
        left = rules ∧ ∃ e, result = .error e := by
  have hclears : ∀ s, (Ofctl.delFlows c name).Clears c.bridge s ↔
      s = .exactly (cookie name) := by
    intro s
    constructor
    · rintro ⟨-, text, hargs, hread⟩
      have htext : "cookie=" ++ cookieText (cookie name) ++ "/-1" = text := by
        simpa [Ofctl.delFlows] using hargs
      rw [← htext, Selection.read?_exactly] at hread
      exact (Option.some.inj hread).symm
    · rintro rfl
      exact ⟨rfl, _, rfl, Selection.read?_exactly _⟩
  refine Toolwork.ensures_run.2 ⟨⟨_, (hclears _).2 rfl⟩, fun outcome left hleft => ?_⟩
  rcases hleft with ⟨s, hs, rfl⟩ | ⟨rfl, e, he⟩
  · rw [(hclears s).1 hs]
    cases (Ofctl.delFlows c name).interpret outcome with
    | ok text => exact .inl rfl
    | error e => exact .inl rfl
  · rw [he]
    exact .inr ⟨rfl, _, rfl⟩

/-! ## Neighbours -/

theorem Interface.cookie_of_mem_rules {i : Interface} {r : Rule} (hr : r ∈ i.rules) :
    r.cookie = (cookie i.name).toNat := by
  simp only [rules, List.mem_append, List.mem_map, List.mem_cons, List.not_mem_nil, or_false] at hr
  obtain ⟨q, -, rfl⟩ | rfl | rfl := hr <;> rfl

/-- What becomes of a table when the flows of one interface are removed and those of another one
are not. -/
structure Spares (removed spared : String) (table left : List Rule) (result : Except Error Unit) :
    Prop where
  /-- If it went well, no rule with the cookie of the one is left. -/
  gone : result = .ok () → ∀ r ∈ left, r.cookie ≠ (cookie removed).toNat
  /-- The rules with the cookie of the other one are what they were. -/
  kept : ∀ r, r.cookie = (cookie spared).toNat → (r ∈ left ↔ r ∈ table)
  /-- These are the rules that its flows are read as. -/
  flows : ∀ i : Interface, i.name = spared →
    ∃ rules, readRules? i.text = some rules ∧ ∀ r ∈ rules, r ∈ table → r ∈ left

/-- All cookies have the same tag.  Those of names that differ in one byte are different, so that
removing the flows of the one leaves those of the other. -/
theorem neighbours_apart :
    (∀ name, cookie name >>> 60 = 1) ∧
      ∀ a b, DifferOnce (Utf8.encode a) (Utf8.encode b) → cookie a ≠ cookie b ∧
        ∀ (c : Ofctl.Client) (table : List Rule),
          (Ofctl.uninstall c a).Ensures (removing c.bridge) table fun result left =>
            Spares a b table left result := by
  refine ⟨cookie_tag, fun a b hdiffer => ⟨cookie_ne hdiffer, fun c table => ?_⟩⟩
  refine (uninstall_ensures c a table).mono fun result left hleft => ?_
  have hkept : ∀ r, r.cookie = (cookie b).toNat → (r ∈ left ↔ r ∈ table) := by
    intro r hr
    rcases hleft with rfl | ⟨rfl, -⟩
    · have hother : r.cookie % 2 ^ 64 ≠ (cookie a).toNat := by
        rw [hr, Nat.mod_eq_of_lt (cookie b).toNat_lt]
        exact fun heq => cookie_ne hdiffer (UInt64.toNat_inj.1 heq).symm
      rw [Selection.mem_remove_exactly, and_iff_left hother]
    · exact Iff.rfl
  constructor
  · rintro rfl r hr heq
    rcases hleft with rfl | ⟨-, e, he⟩
    · have hcookie := (Selection.mem_remove_exactly.1 hr).2
      rw [heq, Nat.mod_eq_of_lt (cookie a).toNat_lt] at hcookie
      exact hcookie rfl
    · cases he
  · exact hkept
  · rintro i rfl
    exact ⟨i.rules, i.readRules?_text, fun r hr =>
      (hkept r (Interface.cookie_of_mem_rules hr)).2⟩

/-- A switch that removes what it is told to. -/
def Sample.clear : (q : ToolAsk) → List Rule → q.Reply × List Rule
  | .run i, rules =>
    match i.args with
    | ["del-flows", _, text] => match Selection.read? text with
      | some s => (.ended true [] [], s.remove rules)
      | none => (.failed "", rules)
    | _ => (.failed "", rules)
  | .clock, rules => (.zero, rules)
  | .sleep _, rules => ((), rules)

/-- Removing the flows of an interface leaves those of its neighbour. -/
theorem neighbour_spared :
    cookie "tap0123456789b" ≠ cookie Sample.mixed.name ∧
      ∃ left, Proc.run Sample.clear (Ofctl.uninstall ⟨"br-int", .ofSecs 5⟩ "tap0123456789b")
        Sample.mixed.rules = (.ok (), left) ∧ ∀ r ∈ Sample.mixed.rules, r ∈ left := by
  have hdiffer : DifferOnce (Utf8.encode "tap0123456789b") (Utf8.encode Sample.mixed.name) :=
    differOnce_iff.2 ⟨Utf8.encode "tap0123456789", 98, 97, [], by decide, by decide, by decide⟩
  have hclear : ∀ q rules, (removing "br-int").asks q rules →
      (removing "br-int").answers q rules (Sample.clear q rules).1 (Sample.clear q rules).2 := by
    rintro (i | _ | _) rules hasks
    · obtain ⟨s, hs⟩ := hasks
      have ⟨_, text, hargs, hread⟩ := hs
      have hcleared : Sample.clear (.run i) rules = (.ended true [] [], s.remove rules) := by
        simp only [Sample.clear, hargs, hread]
      rw [hcleared]
      exact .inl ⟨s, hs, rfl⟩
    · cases hasks
    · cases hasks
  obtain ⟨hne, huninstall⟩ := neighbours_apart.2 _ _ hdiffer
  have hspares := (huninstall ⟨"br-int", .ofSecs 5⟩ Sample.mixed.rules).run hclear
  refine ⟨hne, _, Prod.ext ?_ rfl, fun r hr =>
    (hspares.kept r (Interface.cookie_of_mem_rules hr)).2 hr⟩
  decide +kernel

end PodAttach.Switch
