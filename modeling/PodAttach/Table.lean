import PodAttach.Text.Order

/-!
# Finite maps from texts

A table holds at most one entry for a key, and its entries are in the order
of their keys.  `get?_insert` and `get?_erase` say what a look-up finds
after a change, and `ext` that a table is known by what look-ups find.
-/

namespace PodAttach

/-- A finite map from texts. -/
structure Table (α : Type) where
  entries : List (String × α)
  sorted : entries.Pairwise fun a b => Text.Before a.1 b.1
  deriving Repr, DecidableEq

namespace Table

variable {α : Type}

/-! ## Entry lists -/

/-- Puts an entry in its place; an entry of the same key is replaced. -/
def put (key : String) (v : α) : List (String × α) → List (String × α)
  | [] => [(key, v)]
  | e :: rest =>
    if Text.Before key e.1 then (key, v) :: e :: rest
    else if key = e.1 then (key, v) :: rest
    else e :: put key v rest

/-- Takes the entry of a key out. -/
def remove (key : String) (entries : List (String × α)) : List (String × α) :=
  entries.filter fun e => e.1 != key

theorem mem_put {key : String} {v : α} {e : String × α} {l : List (String × α)}
    (h : e ∈ put key v l) : e = (key, v) ∨ e ∈ l := by
  induction l with
  | nil => simpa [put] using h
  | cons d rest ih =>
    rw [put] at h
    split at h
    · simpa using h
    · split at h <;> grind

theorem sorted_put {key : String} {v : α} {l : List (String × α)}
    (h : l.Pairwise fun a b => Text.Before a.1 b.1) :
    (put key v l).Pairwise fun a b => Text.Before a.1 b.1 := by
  induction l with
  | nil => simp [put]
  | cons d rest ih =>
    obtain ⟨hd, hr⟩ := List.pairwise_cons.1 h
    rw [put]
    split
    · next hlt =>
      refine List.pairwise_cons.2 ⟨fun e he => ?_, h⟩
      rcases List.mem_cons.1 he with rfl | he
      · exact hlt
      · exact hlt.trans (hd e he)
    · next hge =>
      split
      · next heq =>
        exact List.pairwise_cons.2 ⟨fun e he => heq ▸ hd e he, hr⟩
      · next hne =>
        refine List.pairwise_cons.2 ⟨fun e he => ?_, ih hr⟩
        rcases mem_put he with rfl | he
        · exact ((Text.before_trichotomy key d.1).resolve_left hge).resolve_left hne
        · exact hd e he

/-- A look-up compares with the first key first. -/
theorem lookup_cons (k : String) (d : String × α) (l : List (String × α)) :
    (d :: l).lookup k = if k = d.1 then some d.2 else l.lookup k := by
  obtain ⟨key, v⟩ := d
  by_cases h : k = key
  · simp [h]
  · rw [List.lookup_cons, beq_eq_false_iff_ne.2 h, if_neg h]

theorem lookup_put (key k : String) (v : α) (l : List (String × α)) :
    (put key v l).lookup k = if k = key then some v else l.lookup k := by
  induction l with
  | nil => simp [put, lookup_cons]
  | cons d rest ih =>
    rw [put]
    split
    · simp [lookup_cons]
    · split
      · next heq => grind [lookup_cons]
      · next hne => grind [lookup_cons]

theorem lookup_remove (key k : String) (l : List (String × α)) :
    (remove key l).lookup k = if k = key then none else l.lookup k := by
  induction l with
  | nil => simp [remove]
  | cons d rest ih =>
    unfold remove at ih ⊢
    by_cases hd : d.1 = key
    · rw [List.filter_cons_of_neg (by simp [hd]), ih]
      grind [lookup_cons]
    · rw [List.filter_cons_of_pos (by simp [hd])]
      grind [lookup_cons]

/-- A key below all others is not found among them. -/
theorem lookup_eq_none_of_before {k : String} {l : List (String × α)}
    (h : ∀ e ∈ l, Text.Before k e.1) :
    l.lookup k = none := by
  induction l with
  | nil => rfl
  | cons d rest ih =>
    rw [lookup_cons, if_neg (h d (by simp)).ne]
    exact ih fun e he => h e (by simp [he])

theorem eq_of_lookup_eq {l m : List (String × α)} (hl : l.Pairwise fun a b => Text.Before a.1 b.1)
    (hm : m.Pairwise fun a b => Text.Before a.1 b.1) (h : ∀ k, l.lookup k = m.lookup k) :
    l = m := by
  induction l generalizing m with
  | nil =>
    cases m with
    | nil => rfl
    | cons e m => simpa [lookup_cons] using h e.1
  | cons d l ih =>
    obtain ⟨hd, hl⟩ := List.pairwise_cons.1 hl
    cases m with
    | nil => simpa [lookup_cons] using h d.1
    | cons e m =>
      obtain ⟨he, hm'⟩ := List.pairwise_cons.1 hm
      have key : d.1 = e.1 := by
        have hde := h d.1
        have hed := h e.1
        by_cases hlt : Text.Before d.1 e.1
        · rw [lookup_eq_none_of_before (l := e :: m)
            (by simpa using ⟨hlt, fun a b hab => hlt.trans (he _ hab)⟩)] at hde
          simp [lookup_cons] at hde
        · by_cases hgt : Text.Before e.1 d.1
          · rw [lookup_eq_none_of_before (l := d :: l)
              (by simpa using ⟨hgt, fun a b hab => hgt.trans (hd _ hab)⟩)] at hed
            simp [lookup_cons] at hed
          · exact ((Text.before_trichotomy d.1 e.1).resolve_left hlt).resolve_right hgt
      have value : d.2 = e.2 := by
        have := h d.1
        simpa [lookup_cons, key] using this
      have tails : l = m := by
        refine ih hl hm' fun k => ?_
        by_cases hk : k = d.1
        · rw [lookup_eq_none_of_before (l := l) (hk ▸ hd),
            lookup_eq_none_of_before (l := m) (hk ▸ key ▸ he)]
        · have := h k
          simpa [lookup_cons, hk, ← key] using this
      rw [tails, show d = e from Prod.ext key value]

/-! ## Tables -/

/-- The table without entries. -/
def empty : Table α := ⟨[], .nil⟩

instance : Inhabited (Table α) := ⟨empty⟩

instance : EmptyCollection (Table α) := ⟨empty⟩

/-- What is held for a key. -/
def get? (t : Table α) (key : String) : Option α :=
  t.entries.lookup key

/-- Whether something is held for a key. -/
def contains (t : Table α) (key : String) : Bool :=
  (t.get? key).isSome

/-- Holds a value for a key, in the place of what was held for it. -/
def insert (t : Table α) (key : String) (v : α) : Table α :=
  ⟨put key v t.entries, sorted_put t.sorted⟩

/-- Holds nothing for a key. -/
def erase (t : Table α) (key : String) : Table α :=
  ⟨remove key t.entries, List.Pairwise.filter _ t.sorted⟩

/-- Keeps the entries that pass a test. -/
def filter (t : Table α) (keep : String → α → Bool) : Table α :=
  ⟨t.entries.filter fun e => keep e.1 e.2, List.Pairwise.filter _ t.sorted⟩

/-- The table of a list of entries; the last of equal keys counts. -/
def ofList (l : List (String × α)) : Table α :=
  l.foldl (fun t e => t.insert e.1 e.2) empty

/-- The keys, in order. -/
def keys (t : Table α) : List String :=
  t.entries.map Prod.fst

/-- The values, in the order of their keys. -/
def values (t : Table α) : List α :=
  t.entries.map Prod.snd

/-- The number of entries. -/
def size (t : Table α) : Nat :=
  t.entries.length

@[simp, grind =]
theorem get?_empty (key : String) : (empty : Table α).get? key = none := rfl

@[simp, grind =]
theorem get?_insert (t : Table α) (key k : String) (v : α) :
    (t.insert key v).get? k = if k = key then some v else t.get? k :=
  lookup_put key k v t.entries

@[simp, grind =]
theorem get?_erase (t : Table α) (key k : String) :
    (t.erase key).get? k = if k = key then none else t.get? k :=
  lookup_remove key k t.entries

theorem lookup_filter {keep : String → α → Bool} {l : List (String × α)}
    (hl : l.Pairwise fun a b => Text.Before a.1 b.1) (k : String) :
    (l.filter fun e => keep e.1 e.2).lookup k = (l.lookup k).filter (keep k) := by
  induction l with
  | nil => rfl
  | cons d rest ih =>
    obtain ⟨hd, hr⟩ := List.pairwise_cons.1 hl
    by_cases hk : k = d.1
    · subst hk
      have hrest : rest.lookup d.1 = none := lookup_eq_none_of_before hd
      have hfiltered := (ih hr).trans (congrArg (Option.filter (keep d.1)) hrest)
      by_cases hkeep : keep d.1 d.2 = true
      · simp [lookup_cons, hkeep, Option.filter]
      · rw [List.filter_cons_of_neg (by simpa using hkeep), hfiltered]
        simp [lookup_cons, hkeep, Option.filter]
    · rw [lookup_cons, if_neg hk, ← ih hr]
      by_cases hkeep : keep d.1 d.2 = true
      · rw [List.filter_cons_of_pos (by simpa using hkeep), lookup_cons, if_neg hk]
      · rw [List.filter_cons_of_neg (by simpa using hkeep)]

@[simp, grind =]
theorem get?_filter (t : Table α) (keep : String → α → Bool) (k : String) :
    (t.filter keep).get? k = (t.get? k).filter (keep k) :=
  lookup_filter t.sorted k

/-- A table is known by what look-ups find. -/
@[ext]
theorem ext {t u : Table α} (h : ∀ k, t.get? k = u.get? k) : t = u := by
  cases t with
  | mk l hl =>
    cases u with
    | mk m hm => simpa using eq_of_lookup_eq hl hm h

end Table

end PodAttach
