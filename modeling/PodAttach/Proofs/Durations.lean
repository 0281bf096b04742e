import Mathlib.Algebra.Ring.Nat
import PodAttach.Config.File
import PodAttach.Proofs.Texts

/-!
# Durations that are read and written

A duration is given as digits and a unit, with white space around them at most
(`Spells`).  What is given so is whole seconds or whole milliseconds, and of
these no more than 64 bits hold.

* `parse?_eq_some_iff`: which texts are read, and as what; `Gives` says it without the reader.
* `parse?_render`: a duration that is written is read back, cut to whole milliseconds.
* `Whole.parse?_render`: one that was read before is read back whole.
* `durations_exact`: all of it, and the same of limits.
-/

namespace PodAttach

/-- Digits have no other case. -/
theorem Text.toLower_of_isDigit {c : Char} (hc : isDigit c = true) : c.toLower = c := by
  unfold Char.toLower
  rw [dif_neg]
  intro h
  have hupper := h.1
  rw [isDigit, Bool.and_eq_true, decide_eq_true_eq, decide_eq_true_eq, Char.le_def, Char.le_def,
    UInt32.le_iff_toNat_le, UInt32.le_iff_toNat_le] at hc
  rw [ge_iff_le, UInt32.le_iff_toNat_le] at hupper
  have hfirst : 'A'.val.toNat = 65 := rfl
  have hnine : '9'.val.toNat = 57 := rfl
  omega

namespace Duration

/-! ## What is read -/

/-- What may stand behind a number, and the nanoseconds in one of it. -/
def units : List (String × Nat) :=
  [("", 1000000000), ("s", 1000000000), ("ms", 1000000), ("m", 60000000000)]

/-- A text is digits that denote a number and then a unit, with white space around them at most. -/
def Spells (v : String) (n : Nat) (unit : String) : Prop :=
  ∃ digits, digits ≠ [] ∧ (∀ c ∈ digits, Text.isDigit c = true) ∧ Text.ofDigits digits = n ∧
    Text.Padded (digits ++ unit.toList) v.toList

section

variable {n : Nat} {unit : String}

theorem ofUnit?_isSome_iff :
    (ofUnit? n unit.toList).isSome = true ↔ ∃ scale, (unit, scale) ∈ units := by
  constructor
  · intro h
    have hunit : unit = String.ofList unit.toList := String.ofList_toList.symm
    unfold ofUnit? at h
    split at h
    · next hnil =>
      rw [hnil] at hunit
      exact ⟨_, by rw [hunit]; exact List.mem_cons_self⟩
    · next hs =>
      rw [hs] at hunit
      exact ⟨_, by rw [hunit]; exact List.mem_cons_of_mem _ List.mem_cons_self⟩
    · next hms =>
      rw [hms] at hunit
      exact ⟨1000000, by rw [hunit]; decide⟩
    · next hm =>
      rw [hm] at hunit
      exact ⟨60000000000, by rw [hunit]; decide⟩
    · cases h
  · intro ⟨scale, h⟩
    simp only [units, List.mem_cons, Prod.mk.injEq, List.not_mem_nil, or_false] at h
    rcases h with ⟨rfl, -⟩ | ⟨rfl, -⟩ | ⟨rfl, -⟩ | ⟨rfl, -⟩ <;> rfl

/-- So many of a unit are as long as the unit says; of the seconds, what 64 bits do not hold is cut
off. -/
theorem ofUnit?_eq_mod {scale : Nat} (hunit : (unit, scale) ∈ units) (hn : n ≤ maxAmount) :
    ofUnit? n unit.toList = some ⟨n * scale % (2 ^ 64 * 1000000000)⟩ := by
  have hmax : n < 2 ^ 64 := Nat.lt_succ_of_le hn
  simp only [units, List.mem_cons, Prod.mk.injEq, List.not_mem_nil, or_false] at hunit
  rcases hunit with ⟨rfl, rfl⟩ | ⟨rfl, rfl⟩ | ⟨rfl, rfl⟩ | ⟨rfl, rfl⟩
  · rw [Nat.mod_eq_of_lt (by omega)]
    rfl
  · rw [Nat.mod_eq_of_lt (by omega)]
    rfl
  · rw [Nat.mod_eq_of_lt (by omega)]
    rfl
  · have hsecs : minuteSecs n * 1000000000 = n * 60000000000 % (2 ^ 64 * 1000000000) := by
      rw [minuteSecs, ← Nat.mul_mod_mul_right, Nat.mul_assoc]
      rfl
    exact congrArg (fun nanos => some (⟨nanos⟩ : Duration)) hsecs

/-- So many of a unit are as long as the unit says, if 64 bits hold the seconds. -/
theorem ofUnit?_eq {scale : Nat} (hunit : (unit, scale) ∈ units) (hn : n ≤ maxAmount)
    (hminutes : unit = "m" → n * 60 < 2 ^ 64) : ofUnit? n unit.toList = some ⟨n * scale⟩ := by
  have hmax : n < 2 ^ 64 := Nat.lt_succ_of_le hn
  have hkept : n * scale < 2 ^ 64 * 1000000000 := by
    simp only [units, List.mem_cons, Prod.mk.injEq, List.not_mem_nil, or_false] at hunit
    rcases hunit with ⟨-, rfl⟩ | ⟨-, rfl⟩ | ⟨-, rfl⟩ | ⟨rfl, rfl⟩
    · omega
    · omega
    · omega
    · have hsecs := hminutes rfl
      omega
  rw [ofUnit?_eq_mod hunit hn, Nat.mod_eq_of_lt hkept]

/-- No unit starts with a digit, and no white space is in it. -/
theorem unit_chars (hunit : (ofUnit? n unit.toList).isSome = true) :
    (∀ c, unit.toList.head? = some c → Text.isDigit c = false) ∧
      ∀ c ∈ unit.toList, Text.isBlank c = false := by
  obtain ⟨scale, hscale⟩ := ofUnit?_isSome_iff.1 hunit
  simp only [units, List.mem_cons, Prod.mk.injEq, List.not_mem_nil, or_false] at hscale
  rcases hscale with ⟨rfl, -⟩ | ⟨rfl, -⟩ | ⟨rfl, -⟩ | ⟨rfl, -⟩ <;> simp <;> decide

/-- Digits are told from a unit behind them. -/
theorem ofChars?_append {digits cs : List Char} (hdigits : ∀ c ∈ digits, Text.isDigit c = true)
    (hne : digits ≠ []) (hcs : ∀ c, cs.head? = some c → Text.isDigit c = false) :
    ofChars? (digits ++ cs) =
      if maxAmount < Text.ofDigits digits then none else ofUnit? (Text.ofDigits digits) cs := by
  have htake : cs.takeWhile Text.isDigit = [] := by
    cases cs with
    | nil => rfl
    | cons c cs => exact List.takeWhile_cons_of_neg (by simp [hcs c rfl])
  have hdrop : cs.dropWhile Text.isDigit = cs := by
    cases cs with
    | nil => rfl
    | cons c cs => exact List.dropWhile_cons_of_neg (by simp [hcs c rfl])
  have hread := Text.readNat?_eq_some_iff.2 ⟨hne, hdigits, rfl⟩
  rw [ofChars?, List.takeWhile_append_of_pos hdigits, List.dropWhile_append_of_pos hdigits, htake,
    hdrop, List.append_nil, hread]

/-- The characters of a text that spells a number of a unit, without white space around them. -/
theorem Spells.trimChars_eq {v : String} (h : Spells v n unit)
    (hunit : ∀ c ∈ unit.toList, Text.isBlank c = false) :
    ∃ digits, digits ≠ [] ∧ (∀ c ∈ digits, Text.isDigit c = true) ∧ Text.ofDigits digits = n ∧
      Text.trimChars v.toList = digits ++ unit.toList := by
  obtain ⟨digits, hne, hdigits, hn, hpadded⟩ := h
  have hblank : ∀ c ∈ digits ++ unit.toList, Text.isBlank c = false := by
    intro c hc
    rcases List.mem_append.1 hc with hc | hc
    · exact Text.isBlank_of_isHexDigit (Text.isHexDigit_of_isDigit (hdigits c hc))
    · exact hunit c hc
  refine ⟨digits, hne, hdigits, hn, hpadded.trimChars_eq (List.append_ne_nil_of_left_ne_nil hne _)
    (fun c hc => hblank c (List.mem_of_mem_head? hc)) fun c hc => hblank c ?_⟩
  exact List.mem_of_getLast? hc

/-- A text is read exactly if it spells a number of a unit and 64 bits hold the number. -/
theorem parse?_eq_some_iff {v : String} {d : Duration} :
    parse? v = some d ↔
      ∃ n unit, Spells v n unit ∧ n ≤ maxAmount ∧ ofUnit? n unit.toList = some d := by
  constructor
  · intro h
    rw [parse?, ofChars?] at h
    cases hread : Text.readNat? ((Text.trimChars v.toList).takeWhile Text.isDigit) with
    | none => simp [hread] at h
    | some n =>
      obtain ⟨hne, hdigits, hn⟩ := Text.readNat?_eq_some_iff.1 hread
      simp only [hread] at h
      split at h
      · cases h
      · next hmax =>
        refine ⟨n, String.ofList ((Text.trimChars v.toList).dropWhile Text.isDigit),
          ⟨_, hne, hdigits, hn, ?_⟩, Nat.le_of_not_lt hmax, ?_⟩
        · rw [String.toList_ofList, List.takeWhile_append_dropWhile]
          exact Text.padded_trimChars v.toList
        · rw [String.toList_ofList]
          exact h
  · intro ⟨n, unit, hspells, hmax, hunit⟩
    obtain ⟨hhead, hblank⟩ := unit_chars (Option.isSome_iff_exists.2 ⟨d, hunit⟩)
    obtain ⟨digits, hne, hdigits, rfl, htrim⟩ := hspells.trimChars_eq hblank
    rw [parse?, htrim, ofChars?_append hdigits hne hhead, if_neg (Nat.not_lt.2 hmax), hunit]

/-- A text gives a duration: digits for a number that 64 bits hold and then a unit, with white space
around them at most.  Of the seconds, what 64 bits do not hold is cut off. -/
def Gives (text : String) (d : Duration) : Prop :=
  ∃ n unit scale, (unit, scale) ∈ units ∧ n < 2 ^ 64 ∧ Spells text n unit ∧
    d = ⟨n * scale % (2 ^ 64 * 1000000000)⟩

theorem parse?_eq_some_iff_gives {text : String} {d : Duration} :
    parse? text = some d ↔ Gives text d := by
  rw [parse?_eq_some_iff]
  constructor
  · intro h
    obtain ⟨n, unit, hspells, hn, hd⟩ := h
    obtain ⟨scale, hscale⟩ := ofUnit?_isSome_iff.1 (Option.isSome_iff_exists.2 ⟨d, hd⟩)
    rw [ofUnit?_eq_mod hscale hn] at hd
    exact ⟨n, unit, scale, hscale, Nat.lt_succ_of_le hn, hspells, (Option.some.inj hd).symm⟩
  · intro h
    obtain ⟨n, unit, scale, hscale, hn, hspells, rfl⟩ := h
    have hmax : n ≤ maxAmount := Nat.le_of_lt_succ hn
    exact ⟨n, unit, hspells, hmax, ofUnit?_eq_mod hscale hmax⟩

end

/-! ## What is written -/

/-- The digits of a number with a unit behind them. -/
theorem spells_decimal (n : Nat) (unit : String) : Spells (Text.decimal n ++ unit) n unit := by
  refine ⟨Nat.toDigits 10 n, Nat.toDigits_ne_nil, fun c hc => Text.isDigit_of_mem_toDigits hc,
    Text.ofDigits_toDigits n, [], [], ?_, List.forall_mem_nil _, List.forall_mem_nil _⟩
  rw [String.toList_append, Text.decimal, String.toList_ofList, List.append_nil, List.nil_append]

theorem parse?_secs {n : Nat} (hn : n ≤ maxAmount) :
    parse? (Text.decimal n ++ "s") = some (ofSecs n) :=
  parse?_eq_some_iff.2 ⟨n, "s", spells_decimal n "s", hn, rfl⟩

theorem parse?_millis {n : Nat} (hn : n ≤ maxAmount) :
    parse? (Text.decimal n ++ "ms") = some (ofMillis n) :=
  parse?_eq_some_iff.2 ⟨n, "ms", spells_decimal n "ms", hn, rfl⟩

/-- A duration that is written is read back, cut to whole milliseconds. -/
theorem parse?_render {d : Duration} (hd : d.millis ≤ maxAmount) :
    parse? d.render = some (ofMillis d.millis) := by
  rw [render]
  split
  · exact parse?_millis hd
  · next hwhole =>
    have hzero : d.millis % 1000 = 0 := by simpa [subsecMillis] using hwhole
    have hsecs : d.secs = d.millis / 1000 := by
      rw [secs, millis, Nat.div_div_eq_div_mul]
    have hsame : ofSecs d.secs = ofMillis d.millis := by
      rw [ofSecs, ofMillis, mk.injEq]
      omega
    rw [parse?_secs (by omega), hsame]

/-- Whole seconds or whole milliseconds, of which 64 bits hold the number. -/
inductive Whole : Duration → Prop where
  | secs {n : Nat} (hn : n ≤ maxAmount) : Whole (ofSecs n)
  | millis {n : Nat} (hn : n ≤ maxAmount) : Whole (ofMillis n)

/-- Whatever is read is so. -/
theorem whole_of_parse? {v : String} {d : Duration} (h : parse? v = some d) : Whole d := by
  obtain ⟨n, unit, -, hn, hunit⟩ := parse?_eq_some_iff.1 h
  unfold ofUnit? at hunit
  split at hunit
  · exact Option.some.inj hunit ▸ .secs hn
  · exact Option.some.inj hunit ▸ .secs hn
  · exact Option.some.inj hunit ▸ .millis hn
  · have hsecs : minuteSecs n < maxAmount + 1 := Nat.mod_lt _ (Nat.succ_pos _)
    exact Option.some.inj hunit ▸ .secs (Nat.le_of_lt_succ hsecs)
  · cases hunit

/-- So it is read back whole. -/
theorem Whole.parse?_render {d : Duration} (h : Whole d) : parse? d.render = some d := by
  cases h with
  | @secs n hn =>
    have hwhole : (ofSecs n).subsecMillis = 0 := by
      show n * 1000000000 / 1000000 % 1000 = 0
      omega
    have hsecs : (ofSecs n).secs = n := Nat.mul_div_cancel n (by decide)
    rw [render, hwhole, hsecs]
    exact parse?_secs hn
  | @millis n hn =>
    have hmillis : (ofMillis n).millis = n := Nat.mul_div_cancel n (by decide)
    have hread := Duration.parse?_render (d := ofMillis n) (by rw [hmillis]; exact hn)
    rwa [hmillis] at hread

/-! ## Limits -/

/-- A text that is read as a duration is not the word for no limit. -/
theorem not_none_of_parse? {v : String} {d : Duration} (h : parse? v = some d) :
    Text.sameLetters (Text.trim v) "none" = false := by
  obtain ⟨n, unit, hspells, -, hunit⟩ := parse?_eq_some_iff.1 h
  obtain ⟨-, hblank⟩ := unit_chars (Option.isSome_iff_exists.2 ⟨d, hunit⟩)
  obtain ⟨digits, hne, hdigits, -, htrim⟩ := hspells.trimChars_eq hblank
  obtain ⟨c, rest, rfl⟩ := List.exists_cons_of_ne_nil hne
  have hc := hdigits c List.mem_cons_self
  rw [Text.sameLetters, beq_eq_false_iff_ne]
  intro hsame
  have hchars := congrArg String.toList hsame
  rw [Text.lower, Text.trim, htrim, String.toList_ofList, String.toList_ofList] at hchars
  have hhead := congrArg List.head? hchars
  rw [List.cons_append, List.map_cons, List.head?_cons, Text.toLower_of_isDigit hc] at hhead
  obtain rfl : c = 'n' := Option.some.inj hhead
  cases hc

theorem parseLimit?_limitText {v : String} {l : Option Duration} (h : parseLimit? v = some l) :
    parseLimit? (Config.limitText l) = some l := by
  rw [parseLimit?] at h
  split at h
  · cases h
    rfl
  · cases hread : parse? v with
    | none => simp [hread] at h
    | some d =>
      simp only [hread, Option.some_inj] at h
      split at h
      · cases h
        rfl
      · next hzero =>
        cases h
        have hback := (whole_of_parse? hread).parse?_render
        show parseLimit? d.render = _
        rw [parseLimit?, not_none_of_parse? hback, hback]
        simp [hzero]

/-- A text is read exactly if it is digits for a number that 64 bits hold, then no unit or one of
three, and white space around them at most; it is read as what it says, if 64 bits hold the seconds.
What is written is read back, cut to whole milliseconds if 64 bits hold these, and what was read
before is read back whole, also of limits. -/
theorem durations_exact :
    (∀ v, (parse? v).isSome = true ↔
      ∃ n unit scale, (unit, scale) ∈ units ∧ n < 2 ^ 64 ∧ Spells v n unit) ∧
    (∀ v n unit scale, (unit, scale) ∈ units → n < 2 ^ 64 → (unit = "m" → n * 60 < 2 ^ 64) →
      Spells v n unit → parse? v = some ⟨n * scale⟩) ∧
    (∀ d : Duration, d.millis < 2 ^ 64 → parse? d.render = some (ofMillis d.millis)) ∧
    (∀ v d, parse? v = some d → parse? d.render = some d) ∧
    ∀ v l, parseLimit? v = some l → parseLimit? (Config.limitText l) = some l := by
  have hmax : ∀ n, n ≤ maxAmount ↔ n < 2 ^ 64 := fun n => Nat.lt_succ_iff.symm
  refine ⟨fun v => ⟨fun h => ?_, fun h => ?_⟩, fun v n unit scale hunit hn hminutes hspells => ?_,
    fun d hd => parse?_render ((hmax _).2 hd), fun v d h => (whole_of_parse? h).parse?_render,
    fun v l h => parseLimit?_limitText h⟩
  · obtain ⟨d, hd⟩ := Option.isSome_iff_exists.1 h
    obtain ⟨n, unit, hspells, hn, hunit⟩ := parse?_eq_some_iff.1 hd
    obtain ⟨scale, hscale⟩ := ofUnit?_isSome_iff.1 (Option.isSome_iff_exists.2 ⟨d, hunit⟩)
    exact ⟨n, unit, scale, hscale, (hmax n).1 hn, hspells⟩
  · obtain ⟨n, unit, scale, hscale, hn, hspells⟩ := h
    obtain ⟨d, hunit⟩ := Option.isSome_iff_exists.1 (ofUnit?_isSome_iff.2 ⟨scale, hscale⟩)
    exact Option.isSome_iff_exists.2
      ⟨d, parse?_eq_some_iff.2 ⟨n, unit, hspells, (hmax n).2 hn, hunit⟩⟩
  · have hn' := (hmax n).2 hn
    exact parse?_eq_some_iff.2 ⟨n, unit, hspells, hn', ofUnit?_eq hunit hn' hminutes⟩

/-- Minutes with white space around them, and a duration that is not whole milliseconds. -/
theorem ninety_minutes_exact :
    Spells "\t090m " 90 "m" ∧ parse? "\t090m " = some ⟨5400000000000⟩ ∧
      parse? (render ⟨1500999999⟩) = some (ofMillis 1500) := by
  have hspells : Spells "\t090m " 90 "m" :=
    ⟨['0', '9', '0'], by decide, List.all_eq_true.1 rfl, by decide, ['\t'], [' '], by decide,
      List.all_eq_true.1 rfl, List.all_eq_true.1 rfl⟩
  obtain ⟨-, hread, hback, -⟩ := durations_exact
  refine ⟨hspells, hread _ 90 "m" 60000000000 (by decide) (by omega) (fun _ => by omega) hspells,
    ?_⟩
  exact hback ⟨1500999999⟩ (by decide)

end Duration

end PodAttach
