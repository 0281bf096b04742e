import PodAttach.Table

/-!
# The entries of a table

`get?` is how a table is looked at.  Its entries and values are listed too,
and here the two views are tied together.

* `mem_entries` and `mem_values`: what is listed is what look-ups find.
* `nodup_map_values`: what tells the keys apart is listed once.
* `get?_filterMap` and `values_filterMap`: a table made from the entries of another one.
-/

namespace PodAttach.Table

variable {α β : Type}

/-- Where no key stands twice, a look-up finds what is listed. -/
theorem lookup_eq_some_iff {l : List (String × α)} (hl : (l.map Prod.fst).Nodup) {key : String}
    {v : α} : l.lookup key = some v ↔ (key, v) ∈ l := by
  induction l with
  | nil => simp
  | cons d rest ih =>
    obtain ⟨hd, hrest⟩ := List.nodup_cons.1 hl
    rw [lookup_cons, List.mem_cons]
    by_cases hkey : key = d.1
    · subst hkey
      have hnot : (d.1, v) ∉ rest := fun hmem => hd (List.mem_map.2 ⟨_, hmem, rfl⟩)
      simp only [if_true, Option.some.injEq, hnot, or_false]
      constructor
      · rintro rfl
        rfl
      · intro heq
        rw [← heq]
    · have hne : (key, v) ≠ d := fun heq => hkey (heq ▸ rfl)
      rw [if_neg hkey, ih hrest]
      simp [hne]

theorem mem_entries {t : Table α} {key : String} {v : α} :
    (key, v) ∈ t.entries ↔ t.get? key = some v :=
  (lookup_eq_some_iff (List.pairwise_map.2 (t.sorted.imp Text.Before.ne))).symm

theorem mem_values {t : Table α} {v : α} : v ∈ t.values ↔ ∃ key, t.get? key = some v := by
  constructor
  · intro hv
    obtain ⟨⟨key, v'⟩, hmem, rfl⟩ := List.mem_map.1 hv
    exact ⟨key, mem_entries.1 hmem⟩
  · rintro ⟨key, hkey⟩
    exact List.mem_map.2 ⟨(key, v), mem_entries.2 hkey, rfl⟩

/-- What tells the keys of values apart is listed once. -/
theorem nodup_map_values {t : Table α} {f : α → β}
    (h : ∀ {k k' v v'}, t.get? k = some v → t.get? k' = some v' → f v = f v' → k = k') :
    (t.values.map f).Nodup := by
  unfold values
  rw [List.map_map]
  refine List.pairwise_map.2 (t.sorted.imp_of_mem ?_)
  intro d e hd he hde heq
  exact hde.ne (h (mem_entries.1 hd) (mem_entries.1 he) heq)

/-! ## Another table of the same keys -/

/-- Makes new values of some entries, and leaves out the others. -/
def filterMap (t : Table α) (f : α → Option β) : Table β where
  entries := t.entries.filterMap fun e => (f e.2).map fun v => (e.1, v)
  sorted := by
    refine List.pairwise_filterMap.2 (t.sorted.imp ?_)
    intro d e hde d' hd' e' he'
    obtain ⟨v, -, rfl⟩ := Option.map_eq_some_iff.1 hd'
    obtain ⟨v', -, rfl⟩ := Option.map_eq_some_iff.1 he'
    exact hde

theorem get?_filterMap (t : Table α) (f : α → Option β) (key : String) :
    (t.filterMap f).get? key = (t.get? key).bind f := by
  ext v
  rw [← mem_entries, Option.bind_eq_some_iff]
  constructor
  · intro hmem
    obtain ⟨⟨key', u⟩, he, heq⟩ := List.mem_filterMap.1 hmem
    obtain ⟨v', hv', hkey⟩ := Option.map_eq_some_iff.1 heq
    obtain ⟨rfl, rfl⟩ := Prod.mk.inj hkey
    exact ⟨u, mem_entries.1 he, hv'⟩
  · rintro ⟨u, hu, hv⟩
    refine List.mem_filterMap.2 ⟨(key, u), mem_entries.2 hu, ?_⟩
    rw [hv]
    rfl

theorem values_filterMap (t : Table α) (f : α → Option β) :
    (t.filterMap f).values = t.values.filterMap f := by
  unfold values filterMap
  rw [List.map_filterMap, List.filterMap_map]
  congr 1
  funext e
  simp [Option.map_map, Function.comp_def]

end PodAttach.Table
