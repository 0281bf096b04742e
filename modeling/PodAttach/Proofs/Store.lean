import PodAttach.Attachment.Store
import PodAttach.Proofs.Tables

/-!
# The two indexes of the store

The store finds an attachment by the name of its interface and by its
container.  `Coherent` says that the two indexes speak of the same
attachments: each is filed under its own name, and a container leads to a
name exactly if the attachment filed there is the container's.

* `coherent_empty`, `Coherent.add` and `Coherent.erase`: every store that the
  agent can make is coherent.
* `find?_eq_some_iff`: the second index finds what the first one holds, so a
  coherent store is known by its first index (`Coherent.eq_of_get?_eq`).
* `mem_list_iff` and `list_ordered`: the list of a store is what it holds, in the order of the
  names.
* `get?_add` and `get?_erase`: what a change does to the attachment of each
  interface.
* `Reached`: the stores that can come about, also from the ports of the switch.
-/

namespace PodAttach.Store

/-- Both indexes speak of the same attachments. -/
structure Coherent (s : Store) : Prop where
  /-- An attachment is filed under its own name. -/
  name : ∀ {n a}, s.get? n = some a → a.interfaceName = n
  /-- A container leads to the interface that is its own. -/
  container : ∀ {c n}, s.byContainer.get? c = some n ↔ ∃ a, s.get? n = some a ∧ a.containerId = c

theorem coherent_empty : empty.Coherent where
  name := by simp [empty, get?]
  container := by simp [empty, get?]

/-! ## Looking up -/

/-- The attachment of a container is the one under its own name that names the container. -/
theorem find?_eq_some_iff {s : Store} (h : s.Coherent) {c : String} {a : Attachment} :
    s.find? c = some a ↔ s.get? a.interfaceName = some a ∧ a.containerId = c := by
  constructor
  · intro hfind
    unfold find? at hfind
    split at hfind
    · simp at hfind
    · next n hn =>
      obtain ⟨ha, hc⟩ := Option.filter_eq_some_iff.1 hfind
      rw [h.name ha]
      exact ⟨ha, by simpa using hc⟩
  · rintro ⟨ha, hc⟩
    have hn : s.byContainer.get? c = some a.interfaceName := h.container.2 ⟨a, ha, hc⟩
    unfold find?
    rw [hn]
    exact Option.filter_eq_some_iff.2 ⟨ha, by simpa using hc⟩

/-- A container has no attachment exactly if no attachment names it. -/
theorem find?_eq_none_iff {s : Store} (h : s.Coherent) {c : String} :
    s.find? c = none ↔ ∀ n a, s.get? n = some a → a.containerId ≠ c := by
  rw [Option.eq_none_iff_forall_ne_some]
  constructor
  · intro hnone n a ha hc
    exact hnone a ((find?_eq_some_iff h).2 ⟨(h.name ha).symm ▸ ha, hc⟩)
  · intro hall a ha
    obtain ⟨hget, hc⟩ := (find?_eq_some_iff h).1 ha
    exact hall _ a hget hc

/-- A container has one interface. -/
theorem Coherent.name_unique {s : Store} (h : s.Coherent) {n m : String} {a b : Attachment}
    (ha : s.get? n = some a) (hb : s.get? m = some b) (hc : a.containerId = b.containerId) :
    n = m := by
  have hn := h.container.2 ⟨a, ha, rfl⟩
  have hm := h.container.2 ⟨b, hb, hc.symm⟩
  exact Option.some.inj (hn.symm.trans hm)

/-- A coherent store is known by the attachments of its interfaces. -/
theorem Coherent.eq_of_get?_eq {s t : Store} (hs : s.Coherent) (ht : t.Coherent)
    (h : ∀ n, s.get? n = t.get? n) : s = t := by
  have hname : s.byName = t.byName := Table.ext h
  have hcontainer : s.byContainer = t.byContainer := by
    ext c n
    rw [hs.container, ht.container, h n]
  cases s
  cases t
  simp_all

/-! ## Listing -/

/-- What is listed is what is found under its own name. -/
theorem mem_list_iff {s : Store} (h : s.Coherent) {a : Attachment} :
    a ∈ s.list ↔ s.get? a.interfaceName = some a := by
  unfold list
  rw [Table.mem_values]
  constructor
  · intro ⟨n, hn⟩
    rw [h.name hn]
    exact hn
  · intro ha
    exact ⟨_, ha⟩

/-- Attachments are listed in the order of their names. -/
theorem list_ordered {s : Store} (h : s.Coherent) :
    (s.list.map Attachment.interfaceName).Pairwise Text.Before := by
  have hnames : s.list.map Attachment.interfaceName = s.byName.entries.map Prod.fst := by
    unfold list Table.values
    rw [List.map_map]
    refine List.map_congr_left fun entry hentry => ?_
    exact h.name (Table.mem_entries.1 hentry)
  rw [hnames]
  exact List.pairwise_map.2 s.byName.sorted

/-! ## Recording -/

/-- Giving way to another container does not touch the entry of that container. -/
theorem forgetReplaced_get? (s : Store) (a : Attachment) (c : String) :
    (s.forgetReplaced a).get? c =
      if c ≠ a.containerId ∧ ((s.get? a.interfaceName).map Attachment.containerId) = some c
      then none else s.byContainer.get? c := by
  unfold forgetReplaced get?
  split <;> grind

/-- Recording an attachment files it under its name, and takes another one of its container
away. -/
theorem get?_add (s : Store) (a : Attachment) (n : String) :
    (s.add a).get? n =
      if n = a.interfaceName then some a
      else if s.byContainer.get? a.containerId = some n then none else s.get? n := by
  have hself : (s.forgetReplaced a).get? a.containerId = s.byContainer.get? a.containerId := by
    rw [forgetReplaced_get?, if_neg (by simp)]
  unfold add get?
  simp only [hself, Table.get?_insert]
  split
  · rfl
  · split <;> grind

theorem byContainer_add (s : Store) (a : Attachment) (c : String) :
    (s.add a).byContainer.get? c =
      if c = a.containerId then some a.interfaceName
      else if (s.get? a.interfaceName).map Attachment.containerId = some c then none
      else s.byContainer.get? c := by
  unfold add
  simp only [Table.get?_insert, forgetReplaced_get?]
  grind

/-- In a coherent store the one that is taken away is the one that names the container. -/
theorem Coherent.get?_add_filter {s : Store} (h : s.Coherent) (a : Attachment) (n : String) :
    (s.add a).get? n =
      if n = a.interfaceName then some a
      else (s.get? n).filter fun b => b.containerId != a.containerId := by
  rw [get?_add]
  have hown := h.container (c := a.containerId) (n := n)
  cases hget : s.get? n with
  | none => simp
  | some b =>
    have howner : s.byContainer.get? a.containerId = some n ↔ b.containerId = a.containerId := by
      rw [hown, hget]
      simp
    simp only [howner]
    by_cases hb : b.containerId = a.containerId <;> simp [hb, Option.filter]

/-- A container that was just given an attachment has it, whatever was recorded before. -/
theorem find?_add_self (s : Store) (a : Attachment) : (s.add a).find? a.containerId = some a := by
  have hget := get?_add s a a.interfaceName
  simp only [if_true, get?] at hget
  simp [find?, byContainer_add, hget]

theorem Coherent.add {s : Store} (h : s.Coherent) (a : Attachment) : (s.add a).Coherent where
  name {n b} hb := by
    rw [get?_add] at hb
    grind [h.name (n := n) (a := b)]
  container {c n} := by
    rw [byContainer_add, get?_add]
    have hc := h.container (c := c) (n := n)
    have hself := h.container (c := a.containerId) (n := n)
    by_cases hca : c = a.containerId
    · -- the container that is recorded leads to the new name and to no other
      subst hca
      rw [if_pos rfl]
      constructor
      · intro hn
        exact ⟨a, by simp_all⟩
      · rintro ⟨b, hb, hba⟩
        grind
    · -- any other container keeps its entry unless its attachment gave way
      have hgave : (s.get? a.interfaceName).map Attachment.containerId = some c ↔
          s.byContainer.get? c = some a.interfaceName := by
        rw [h.container, Option.map_eq_some_iff]
      simp only [if_neg hca, hgave]
      constructor
      · intro hn
        grind
      · rintro ⟨b, hb, hba⟩
        grind

/-! ## Forgetting -/

theorem get?_erase (s : Store) (name n : String) :
    (s.erase name).get? n = if n = name then none else s.get? n := by
  unfold erase get?
  split <;> grind

theorem Coherent.erase {s : Store} (h : s.Coherent) (name : String) : (s.erase name).Coherent where
  name {n b} hb := by
    rw [get?_erase] at hb
    grind [h.name (n := n) (a := b)]
  container {c n} := by
    rw [get?_erase]
    have hc := h.container (c := c) (n := n)
    have hname := h.container (c := c) (n := name)
    unfold Store.erase
    split
    · next hnone => grind [get?]
    · next a ha => grind [get?]

/-! ## What can come about -/

/-- A store that comes about by recording and forgetting. -/
inductive Reached : Store → Prop
  | empty : Reached .empty
  | add {s : Store} (h : Reached s) (a : Attachment) : Reached (s.add a)
  | erase {s : Store} (h : Reached s) (name : String) : Reached (s.erase name)

theorem Reached.coherent {s : Store} (h : s.Reached) : s.Coherent := by
  induction h with
  | empty => exact coherent_empty
  | add h a ih => exact ih.add a
  | erase h name ih => exact ih.erase name

theorem reached_ofPorts (ports : List Switch.Port) : (ofPorts ports).Reached := by
  have hfold : ∀ (as : List Attachment) (s : Store), s.Reached → (as.foldl add s).Reached := by
    intro as
    induction as with
    | nil => exact fun _ h => h
    | cons a as ih => exact fun s h => ih _ (h.add a)
  exact hfold _ _ .empty

end PodAttach.Store
