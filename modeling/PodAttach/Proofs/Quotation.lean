import Mathlib.Algebra.Ring.Parity
import PodAttach.Proofs.Lists
import PodAttach.Switch.Vsctl

/-!
# Identifiers between quotes

An identifier of a port is set by an argument in which its key and its value
stand between quotes, with a backslash before quotes and backslashes.  What
was opened by a quote is closed by the next quote before which there is not an
odd number of backslashes (`Closes`), and each backslash is undone with the
character after it (`undo`).

* `readBody?_eq_some_iff`: a reader that goes from left to right stops where the
  backslashes before a quote say so.  The lemmas on `Closes` are its cases.
* `flatMap_quoteChar`: quoting all at once comes to quoting in two passes.
* `quotes_quote`: what was put between quotes stands there, whatever follows.
* `readId?_eq_some_iff`: an argument sets one identifier at most (`Sets`).
* `externalIdArgs_unambiguous`: the arguments for some identifiers set these.
-/

namespace PodAttach.Switch.Vsctl

/-! ## What is closed -/

/-- How many backslashes a text ends with. -/
def trailingBackslashes (cs : List Char) : Nat :=
  (cs.reverse.takeWhile (· == '\\')).length

/-- A quote after a text closes it: the backslashes before that quote are not an odd number, and
those before each quote in the text are. -/
structure Closes (body : List Char) : Prop where
  last : ¬ Odd (trailingBackslashes body)
  earlier : ∀ l r, body = l ++ '"' :: r → Odd (trailingBackslashes l)

/-- A text without the backslashes that stand before a character. -/
def undo : List Char → List Char
  | '\\' :: c :: rest => c :: undo rest
  | c :: rest => c :: undo rest
  | [] => []

/-- A text starts with one between quotes that denotes `value`, and `rest` follows. -/
def Quotes (cs value rest : List Char) : Prop :=
  ∃ body, cs = '"' :: body ++ '"' :: rest ∧ Closes body ∧ undo body = value

theorem trailingBackslashes_cons (c : Char) (cs : List Char) :
    trailingBackslashes (c :: cs) =
      if trailingBackslashes cs = cs.length ∧ c = '\\' then cs.length + 1
      else trailingBackslashes cs := by
  unfold trailingBackslashes
  rw [List.reverse_cons, List.takeWhile_append, List.length_reverse]
  by_cases hall : (cs.reverse.takeWhile (· == '\\')).length = cs.length
  · by_cases hc : c = '\\' <;> simp [hall, hc]
  · simp [hall]

theorem trailingBackslashes_cons_of_ne {c : Char} (hc : c ≠ '\\') (cs : List Char) :
    trailingBackslashes (c :: cs) = trailingBackslashes cs := by
  rw [trailingBackslashes_cons, if_neg fun h => hc h.2]

/-- A backslash and the character after it do not count for what follows. -/
theorem odd_trailingBackslashes_pair (c : Char) (cs : List Char) :
    Odd (trailingBackslashes ('\\' :: c :: cs)) ↔ Odd (trailingBackslashes cs) := by
  rw [trailingBackslashes_cons, trailingBackslashes_cons, List.length_cons]
  by_cases hall : trailingBackslashes cs = cs.length ∧ c = '\\'
  · rw [if_pos hall, if_pos ⟨rfl, rfl⟩, hall.1, Nat.odd_add_one, Nat.odd_add_one, not_not]
  · have hle : trailingBackslashes cs ≤ cs.length := by
      unfold trailingBackslashes
      simpa using (List.takeWhile_sublist (· == '\\') (l := cs.reverse)).length_le
    rw [if_neg hall, if_neg fun h => by omega]

theorem undo_cons_of_ne {c : Char} (hc : c ≠ '\\') (cs : List Char) :
    undo (c :: cs) = c :: undo cs := by
  rw [undo]
  intro d rest hslash
  exact absurd hslash hc

theorem closes_nil : Closes [] where
  last := by decide
  earlier l r h := by simp at h

/-- A character that is neither a quote nor a backslash. -/
theorem closes_cons_iff {c : Char} {body : List Char} (hslash : c ≠ '\\') (hquote : c ≠ '"') :
    Closes (c :: body) ↔ Closes body := by
  constructor
  · intro h
    refine ⟨?_, fun l r hbody => ?_⟩
    · rw [← trailingBackslashes_cons_of_ne hslash]
      exact h.last
    · rw [← trailingBackslashes_cons_of_ne hslash]
      exact h.earlier (c :: l) r (by rw [hbody, List.cons_append])
  · intro h
    refine ⟨?_, fun l r hbody => ?_⟩
    · rw [trailingBackslashes_cons_of_ne hslash]
      exact h.last
    · cases l with
      | nil => exact absurd (List.cons.inj hbody).1 hquote
      | cons d l =>
        obtain ⟨rfl, hrest⟩ := List.cons.inj hbody
        rw [trailingBackslashes_cons_of_ne hslash]
        exact h.earlier l r hrest

/-- A backslash and the character after it, which may be a quote. -/
theorem closes_pair_iff {c : Char} {body : List Char} :
    Closes ('\\' :: c :: body) ↔ Closes body := by
  constructor
  · intro h
    refine ⟨?_, fun l r hbody => ?_⟩
    · rw [← odd_trailingBackslashes_pair c]
      exact h.last
    · rw [← odd_trailingBackslashes_pair c]
      exact h.earlier ('\\' :: c :: l) r (by rw [hbody, List.cons_append, List.cons_append])
  · intro h
    refine ⟨?_, fun l r hbody => ?_⟩
    · rw [odd_trailingBackslashes_pair]
      exact h.last
    · match l with
      | [] => exact absurd (List.cons.inj hbody).1 (by decide)
      | [d] =>
        obtain ⟨rfl, -⟩ := List.cons.inj hbody
        decide
      | d :: e :: l =>
        obtain ⟨rfl, htail⟩ := List.cons.inj hbody
        obtain ⟨rfl, hrest⟩ := List.cons.inj htail
        rw [odd_trailingBackslashes_pair]
        exact h.earlier l r hrest

theorem not_closes_quote (body : List Char) : ¬ Closes ('"' :: body) := by
  intro h
  exact absurd (h.earlier [] body rfl) (by decide)

theorem not_closes_backslash : ¬ Closes ['\\'] := by
  intro h
  exact h.last (by decide)

/-! ## Reading -/

/-- Reads what a quote opened, up to the quote that closes it. -/
def readBody? : List Char → Option (List Char × List Char)
  | '"' :: rest => some ([], rest)
  | '\\' :: c :: rest => (readBody? rest).map fun p => (c :: p.1, p.2)
  | c :: rest => (readBody? rest).map fun p => (c :: p.1, p.2)
  | [] => none

/-- Reads a text between quotes. -/
def readQuoted? : List Char → Option (List Char × List Char)
  | '"' :: rest => readBody? rest
  | _ => none

/-- The reader stops at the quote that closes. -/
theorem readBody?_eq_some_iff {cs value rest : List Char} :
    readBody? cs = some (value, rest) ↔
      ∃ body, cs = body ++ '"' :: rest ∧ Closes body ∧ undo body = value := by
  fun_induction readBody? cs generalizing value with
  | case1 rest' =>
    constructor
    · intro h
      cases h
      exact ⟨[], rfl, closes_nil, rfl⟩
    · intro h
      obtain ⟨body, hcs, hcloses, rfl⟩ := h
      cases body with
      | nil =>
        obtain ⟨-, rfl⟩ := List.cons.inj hcs
        rfl
      | cons c body =>
        obtain ⟨rfl, -⟩ := List.cons.inj hcs
        exact absurd hcloses (not_closes_quote body)
  | case2 c rest' ih =>
    constructor
    · intro h
      obtain ⟨p, hread, hp⟩ := Option.map_eq_some_iff.1 h
      obtain ⟨rfl, rfl⟩ := Prod.mk.inj hp
      obtain ⟨body, rfl, hcloses, hundo⟩ := ih.1 hread
      exact ⟨'\\' :: c :: body, rfl, closes_pair_iff.2 hcloses, congrArg (c :: ·) hundo⟩
    · intro h
      obtain ⟨body, hcs, hcloses, rfl⟩ := h
      match body with
      | [] => exact absurd (List.cons.inj hcs).1 (by decide)
      | [d] =>
        obtain ⟨rfl, -⟩ := List.cons.inj hcs
        exact absurd hcloses not_closes_backslash
      | d :: e :: body =>
        obtain ⟨hslash, htail⟩ := List.cons.inj hcs
        obtain ⟨rfl, hrest⟩ := List.cons.inj htail
        rw [← hslash] at hcloses ⊢
        rw [ih.2 ⟨body, hrest, closes_pair_iff.1 hcloses, rfl⟩]
        rfl
  | case3 c rest' hquote hpair ih =>
    -- the text goes on, so that a backslash would be one of a pair
    have hslash : ∀ {body}, rest' = body ++ '"' :: rest → c ≠ '\\' := by
      intro body hrest hc
      obtain ⟨d, ds, hds⟩ := List.exists_cons_of_ne_nil (l := rest') (by simp [hrest])
      exact hpair d ds hc hds
    constructor
    · intro h
      obtain ⟨p, hread, hp⟩ := Option.map_eq_some_iff.1 h
      obtain ⟨rfl, rfl⟩ := Prod.mk.inj hp
      obtain ⟨body, hrest, hcloses, hundo⟩ := ih.1 hread
      refine ⟨c :: body, congrArg (c :: ·) hrest,
        (closes_cons_iff (hslash hrest) hquote).2 hcloses, ?_⟩
      rw [undo_cons_of_ne (hslash hrest), hundo]
    · intro h
      obtain ⟨body, hcs, hcloses, rfl⟩ := h
      cases body with
      | nil => exact absurd (List.cons.inj hcs).1 hquote
      | cons d body =>
        obtain ⟨rfl, hrest⟩ := List.cons.inj hcs
        rw [ih.2 ⟨body, hrest, (closes_cons_iff (hslash hrest) hquote).1 hcloses, rfl⟩,
          undo_cons_of_ne (hslash hrest)]
        rfl
  | case4 => simp

theorem readQuoted?_eq_some_iff {cs value rest : List Char} :
    readQuoted? cs = some (value, rest) ↔ Quotes cs value rest := by
  unfold Quotes
  constructor
  · intro h
    unfold readQuoted? at h
    split at h
    · next cs =>
      obtain ⟨body, rfl, hcloses, hundo⟩ := readBody?_eq_some_iff.1 h
      exact ⟨body, rfl, hcloses, hundo⟩
    · cases h
  · intro h
    obtain ⟨body, rfl, hcloses, hundo⟩ := h
    exact readBody?_eq_some_iff.2 ⟨body, rfl, hcloses, hundo⟩

/-! ## Writing -/

/-- Quoting can be done in two passes, first for backslashes and then for quotes: the first pass
leaves quotes alone. -/
theorem flatMap_quoteChar (cs : List Char) :
    cs.flatMap quoteChar =
      (cs.flatMap fun c => if c = '\\' then ['\\', '\\'] else [c]).flatMap
        fun c => if c = '"' then ['\\', '"'] else [c] := by
  rw [List.flatMap_assoc]
  refine congrArg (cs.flatMap ·) (funext fun c => ?_)
  by_cases hslash : c = '\\'
  · rw [hslash]
    rfl
  · by_cases hquote : c = '"'
    · rw [hquote]
      rfl
    · simp [quoteChar, hslash, hquote]

/-- What is written between quotes is read back. -/
theorem readBody?_flatMap_quoteChar (cs rest : List Char) :
    readBody? (cs.flatMap quoteChar ++ '"' :: rest) = some (cs, rest) := by
  induction cs with
  | nil => rfl
  | cons c cs ih =>
    rw [List.flatMap_cons, List.append_assoc]
    by_cases hslash : c = '\\'
    · subst hslash
      show (readBody? (cs.flatMap quoteChar ++ '"' :: rest)).map _ = _
      rw [ih]
      rfl
    · by_cases hquote : c = '"'
      · subst hquote
        show (readBody? (cs.flatMap quoteChar ++ '"' :: rest)).map _ = _
        rw [ih]
        rfl
      · have hplain : quoteChar c = [c] := by simp [quoteChar, hslash, hquote]
        rw [hplain, List.singleton_append, readBody?, ih]
        · rfl
        · exact hquote
        · exact fun d ds h => absurd h hslash

/-- A text between quotes is closed by the last of its quotes and by no earlier one. -/
theorem quotes_quote (s : String) (rest : List Char) :
    Quotes ((quote s).toList ++ rest) s.toList rest := by
  rw [← readQuoted?_eq_some_iff, quote, String.toList_ofList, List.append_assoc]
  exact readBody?_flatMap_quoteChar s.toList rest

/-! ## Arguments -/

/-- What the arguments start with that set identifiers. -/
def idStart : List Char := "external_ids:".toList

/-- An argument sets an identifier: its key and its value stand between quotes, with an equals sign
between them and nothing behind. -/
def Sets (arg key value : String) : Prop :=
  ∃ cs rest, arg.toList = idStart ++ cs ∧ Quotes cs key.toList ('=' :: rest) ∧
    Quotes rest value.toList []

/-- Reads the identifier that an argument sets. -/
def readId? (arg : String) : Option (String × String) := do
  let cs ← arg.toList.dropPrefix? idStart
  match readQuoted? cs with
  | some (key, '=' :: rest) => match readQuoted? rest with
    | some (value, []) => some (String.ofList key, String.ofList value)
    | _ => none
  | _ => none

theorem readId?_eq_some_iff {arg key value : String} :
    readId? arg = some (key, value) ↔ Sets arg key value := by
  unfold readId? Sets
  simp only [← readQuoted?_eq_some_iff, Option.bind_eq_bind, Option.bind_eq_some_iff,
    List.dropPrefix?_eq_some_iff, beq_iff_eq]
  constructor
  · intro h
    obtain ⟨cs, ⟨start, harg, rfl⟩, hread⟩ := h
    split at hread
    · next key' rest hkey =>
      split at hread
      · next value' hvalue =>
        obtain ⟨rfl, rfl⟩ := Prod.mk.inj (Option.some.inj hread)
        rw [String.toList_ofList, String.toList_ofList]
        exact ⟨cs, rest, harg, hkey, hvalue⟩
      · cases hread
    · cases hread
  · intro h
    obtain ⟨cs, rest, harg, hkey, hvalue⟩ := h
    refine ⟨cs, ⟨idStart, harg, rfl⟩, ?_⟩
    simp only [hkey, hvalue, String.ofList_toList]

/-- The argument for an identifier sets it. -/
theorem sets_externalId (key value : String) :
    Sets ("external_ids:" ++ quote key ++ "=" ++ quote value) key value := by
  have harg : ("external_ids:" ++ quote key ++ "=" ++ quote value).toList =
      idStart ++ ((quote key).toList ++ '=' :: (quote value).toList) := by
    have hequals : "=".toList = ['='] := rfl
    rw [String.toList_append, String.toList_append, String.toList_append, hequals,
      List.append_assoc, List.append_assoc, List.singleton_append]
    rfl
  have hvalue := quotes_quote value []
  rw [List.append_nil] at hvalue
  exact ⟨_, _, harg, quotes_quote key _, hvalue⟩

/-- The arguments for the identifiers of a port set these and no others, one each, in the order of
their keys, and the identifiers can be read back from them. -/
theorem externalIdArgs_unambiguous (ids : Table String) :
    List.Forall₂ (fun arg e => ∀ key value, Sets arg key value ↔ (key, value) = e)
      (externalIdArgs ids) ids.entries ∧
    ids.entries.Pairwise (fun e f => Text.Before e.1 f.1) ∧
    (externalIdArgs ids).mapM readId? = some ids.entries := by
  have hread : List.Forall₂ (fun arg e => readId? arg = some e) (externalIdArgs ids)
      ids.entries :=
    List.forall₂_map_left_iff.2 (List.forall₂_same.2 fun e _ =>
      readId?_eq_some_iff.2 (sets_externalId e.1 e.2))
  refine ⟨hread.imp fun arg e he key value => ?_, ids.sorted, mapM_eq_some_iff.2 hread⟩
  rw [← readId?_eq_some_iff, he, Option.some.injEq, eq_comm]

/-- A quote and a backslash in a value. -/
example : externalIdArgs (Table.empty.insert "k" "\"\\") = ["external_ids:\"k\"=\"\\\"\\\\\""] := by
  decide +kernel

end PodAttach.Switch.Vsctl
