import Mathlib.Data.Finset.Card
import PodAttach.Proofs.Identifiers

/-!
# The store as a set of attachments

The two indexes of the store hold one thing: a set of attachments in which no
interface and no container comes twice.  This module compares the store with
such a set.

* `Change` is a call that changes a store, and `Change.onSet` says what it
  does to a set: what is recorded takes the place of all that clashes with it.
* `Holds` is what ties a store to a set, and `Holds.change` carries it over
  one call.  `Mirrors` lists what follows from it: all that a store can be
  asked is answered from the set.
* `mem_foldl_add` says which of a list of attachments are left after all were
  recorded: those that nothing later clashes with.
* `store_mirrors_set` puts it together, for every sequence of calls and for
  the store that is made from the ports of the switch.
-/

namespace PodAttach

/-- Attachments that are not recorded together, since an interface has one container, and a
container one interface. -/
def Attachment.Clashes (a b : Attachment) : Prop :=
  a.interfaceName = b.interfaceName ∨ a.containerId = b.containerId

instance (a b : Attachment) : Decidable (a.Clashes b) :=
  inferInstanceAs (Decidable (_ ∨ _))

namespace Store

/-- A call that changes the store. -/
inductive Change where
  /-- An attachment is recorded. -/
  | add (a : Attachment)
  /-- The attachment of an interface is taken out. -/
  | take (name : String)
  deriving DecidableEq, Repr

namespace Change

/-- The store after a call. -/
def onStore (s : Store) : Change → Store
  | .add a => s.add a
  | .take name => (s.take name).2

/-- The set after a call. -/
def onSet (held : Finset Attachment) : Change → Finset Attachment
  | .add a => insert a (held.filter fun b => ¬ b.Clashes a)
  | .take name => held.filter fun b => b.interfaceName ≠ name

end Change

/-! ## One call -/

variable {s : Store} {held : Finset Attachment}

/-- A store holds the attachments of a set. -/
structure Holds (s : Store) (held : Finset Attachment) : Prop where
  coherent : s.Coherent
  get?_iff : ∀ {n a}, s.get? n = some a ↔ a ∈ held ∧ a.interfaceName = n

theorem holds_empty : Holds .empty ∅ where
  coherent := coherent_empty
  get?_iff := by simp [empty, get?]

theorem Holds.add (h : Holds s held) (a : Attachment) :
    Holds (s.add a) (Change.onSet held (.add a)) where
  coherent := h.coherent.add a
  get?_iff {n b} := by
    rw [h.coherent.get?_add_filter]
    simp only [Change.onSet, Finset.mem_insert, Finset.mem_filter, Attachment.Clashes, not_or]
    by_cases hn : n = a.interfaceName
    · -- whatever was filed under this name clashes with what is recorded
      rw [if_pos hn, Option.some.injEq]
      constructor
      · intro hab
        subst hab
        exact ⟨.inl rfl, hn.symm⟩
      · rintro ⟨rfl | ⟨-, hne, -⟩, hb⟩
        · rfl
        · exact absurd (hb.trans hn) hne
    · rw [if_neg hn, Option.filter_eq_some_iff, h.get?_iff, bne_iff_ne]
      constructor
      · rintro ⟨⟨hmem, rfl⟩, hne⟩
        exact ⟨.inr ⟨hmem, hn, hne⟩, rfl⟩
      · rintro ⟨rfl | ⟨hmem, -, hne⟩, rfl⟩
        · exact absurd rfl hn
        · exact ⟨⟨hmem, rfl⟩, hne⟩

theorem Holds.take (h : Holds s held) (name : String) :
    Holds (s.take name).2 (Change.onSet held (.take name)) where
  coherent := h.coherent.erase name
  get?_iff {n b} := by
    show (s.erase name).get? n = some b ↔ _
    rw [get?_erase, Change.onSet, Finset.mem_filter]
    by_cases hn : n = name
    · rw [if_pos hn]
      constructor
      · intro hnone
        cases hnone
      · rintro ⟨⟨-, hne⟩, hb⟩
        exact absurd (hb.trans hn) hne
    · rw [if_neg hn, h.get?_iff]
      constructor
      · rintro ⟨hmem, rfl⟩
        exact ⟨⟨hmem, hn⟩, rfl⟩
      · rintro ⟨⟨hmem, -⟩, hb⟩
        exact ⟨hmem, hb⟩

/-- A store goes on holding its set through every call. -/
theorem Holds.change (h : Holds s held) (c : Change) : Holds (c.onStore s) (c.onSet held) := by
  cases c with
  | add a => exact h.add a
  | take name => exact h.take name

theorem Holds.changes (h : Holds s held) (cs : List Change) :
    Holds (cs.foldl Change.onStore s) (cs.foldl Change.onSet held) := by
  induction cs generalizing s held with
  | nil => exact h
  | cons c cs ih => exact ih (h.change c)

/-! ## All that a store is asked -/

theorem Holds.mem_list_iff (h : Holds s held) {a : Attachment} : a ∈ s.list ↔ a ∈ held := by
  rw [Store.mem_list_iff h.coherent, h.get?_iff]
  simp

/-- All that a store can be asked is answered from a set of attachments. -/
structure Mirrors (s : Store) (held : Finset Attachment) : Prop where
  /-- The indexes are inverse to each other, and an attachment is filed under its own name. -/
  indexes : s.Coherent
  /-- An interface leads to the attachment of its name. -/
  get?_iff : ∀ n a, s.get? n = some a ↔ a ∈ held ∧ a.interfaceName = n
  /-- A container leads to its attachment. -/
  find?_iff : ∀ c a, s.find? c = some a ↔ a ∈ held ∧ a.containerId = c
  /-- What is taken out is the attachment of the name. -/
  take_iff : ∀ n a, (s.take n).1 = some a ↔ a ∈ held ∧ a.interfaceName = n
  mem_list_iff : ∀ a, a ∈ s.list ↔ a ∈ held
  list_ordered : (s.list.map Attachment.interfaceName).Pairwise Text.Before
  length_list : s.list.length = s.size
  size_eq : s.size = held.card

theorem Holds.mirrors (h : Holds s held) : Mirrors s held where
  indexes := h.coherent
  get?_iff _ _ := h.get?_iff
  find?_iff c a := by
    rw [find?_eq_some_iff h.coherent, h.get?_iff]
    simp
  take_iff _ _ := h.get?_iff
  mem_list_iff _ := h.mem_list_iff
  list_ordered := Store.list_ordered h.coherent
  length_list := List.length_map ..
  size_eq := by
    have hnames : (s.list.map Attachment.interfaceName).Nodup :=
      (Store.list_ordered h.coherent).imp Text.Before.ne
    have hset : s.list.toFinset = held := by
      ext a
      rw [List.mem_toFinset, h.mem_list_iff]
    rw [← hset, List.toFinset_card_of_nodup hnames.of_map]
    exact (List.length_map ..).symm

/-! ## Many recordings -/

/-- What is left of a set, and of the attachments that are recorded one after the other, is what
nothing later clashes with. -/
theorem mem_foldl_add {as : List Attachment} {a : Attachment} :
    a ∈ (as.map Change.add).foldl Change.onSet held ↔
      (a ∈ held ∧ ∀ b ∈ as, ¬ b.Clashes a) ∨
        ∃ earlier later, as = earlier ++ a :: later ∧ ∀ b ∈ later, ¬ b.Clashes a := by
  induction as generalizing held with
  | nil => simp
  | cons b as ih =>
    have hsymm : a.Clashes b ↔ b.Clashes a := by
      simp only [Attachment.Clashes, eq_comm]
    have hmem : a ∈ Change.onSet held (.add b) ↔ a = b ∨ a ∈ held ∧ ¬ b.Clashes a := by
      simp only [Change.onSet, Finset.mem_insert, Finset.mem_filter, hsymm]
    rw [List.map_cons, List.foldl_cons, ih, hmem]
    constructor
    · rintro (⟨rfl | ⟨hheld, hb⟩, hlater⟩ | ⟨earlier, later, rfl, hlater⟩)
      · exact .inr ⟨[], as, rfl, hlater⟩
      · exact .inl ⟨hheld, List.forall_mem_cons.2 ⟨hb, hlater⟩⟩
      · exact .inr ⟨b :: earlier, later, rfl, hlater⟩
    · rintro (⟨hheld, hall⟩ | ⟨earlier, later, heq, hlater⟩)
      · obtain ⟨hb, hlater⟩ := List.forall_mem_cons.1 hall
        exact .inl ⟨.inr ⟨hheld, hb⟩, hlater⟩
      · cases earlier with
        | nil =>
          obtain ⟨rfl, rfl⟩ := List.cons.inj heq
          exact .inl ⟨.inl rfl, hlater⟩
        | cons c earlier =>
          obtain ⟨-, rfl⟩ := List.cons.inj heq
          exact .inr ⟨earlier, later, rfl, hlater⟩

/-! ## The ports of the switch -/

/-- The store that is made of ports holds what is left of their attachments. -/
theorem mem_list_ofPorts {ports : List Switch.Port} {a : Attachment} :
    a ∈ (ofPorts ports).list ↔
      a ∈ ((ports.filterMap Attachment.ofPort?).map Change.add).foldl Change.onSet ∅ := by
  have hstore : ofPorts ports =
      ((ports.filterMap Attachment.ofPort?).map Change.add).foldl Change.onStore .empty := by
    rw [List.foldl_map]
    rfl
  rw [hstore]
  exact (holds_empty.changes _).mem_list_iff

/-- No port of a list has the interface or the container of an attachment. -/
def Spared (a : Attachment) (ports : List Switch.Port) : Prop :=
  ∀ p ∈ ports, ∀ b, Attachment.ofPort? p = some b →
    p.name ≠ a.interfaceName ∧ b.containerId ≠ a.containerId

theorem spared_iff {a : Attachment} {ports : List Switch.Port} :
    Spared a ports ↔ ∀ b ∈ ports.filterMap Attachment.ofPort?, ¬ b.Clashes a := by
  constructor
  · intro h b hb hclash
    obtain ⟨p, hp, hpb⟩ := List.mem_filterMap.1 hb
    obtain ⟨hname, hcontainer⟩ := h p hp b hpb
    rw [← Attachment.interfaceName_of_ofPort? hpb] at hname
    exact hclash.elim hname hcontainer
  · intro h p hp b hpb
    obtain ⟨hname, hcontainer⟩ := not_or.1 (h b (List.mem_filterMap.2 ⟨p, hp, hpb⟩))
    rw [Attachment.interfaceName_of_ofPort? hpb] at hname
    exact ⟨hname, hcontainer⟩

/-- Every sequence of calls leaves a store that mirrors the set that the same calls leave.  Of the
ports of the switch those count that no later port has the interface or the container of. -/
theorem store_mirrors_set :
    (∀ cs : List Change, Mirrors (cs.foldl Change.onStore .empty) (cs.foldl Change.onSet ∅)) ∧
      (∀ ports a, a ∈ (ofPorts ports).list ↔
        ∃ earlier p later, ports = earlier ++ p :: later ∧ Attachment.ofPort? p = some a ∧
          Spared a later) ∧
      ∀ earlier p later a, Attachment.ofPort? p = some a →
        (a ∈ (ofPorts (earlier ++ p :: later)).list ∧ a ∉ later.filterMap Attachment.ofPort? ↔
          Spared a later) := by
  refine ⟨fun cs => (holds_empty.changes cs).mirrors, fun ports a => ?_,
    fun earlier p later a hp => ?_⟩
  · rw [mem_list_ofPorts, mem_foldl_add]
    constructor
    · rintro (⟨hmem, -⟩ | ⟨as, bs, hsplit, hlater⟩)
      · cases hmem
      · obtain ⟨earlier, rest, rfl, -, hrest⟩ := List.filterMap_eq_append_iff.1 hsplit
        obtain ⟨skipped, p, later, rfl, -, hp, rfl⟩ := List.filterMap_eq_cons_iff.1 hrest
        exact ⟨earlier ++ skipped, p, later, by simp, hp, spared_iff.2 hlater⟩
    · rintro ⟨earlier, p, later, rfl, hp, hspared⟩
      refine .inr ⟨earlier.filterMap Attachment.ofPort?, later.filterMap Attachment.ofPort?, ?_,
        spared_iff.1 hspared⟩
      rw [List.filterMap_append, List.filterMap_cons_some hp]
  · rw [mem_list_ofPorts, List.filterMap_append, List.filterMap_cons_some hp, List.map_append,
      List.map_cons, List.foldl_append, List.foldl_cons, mem_foldl_add, spared_iff]
    constructor
    · rintro ⟨⟨-, hlater⟩ | ⟨as, bs, hsplit, -⟩, hnot⟩
      · exact hlater
      · rw [hsplit] at hnot
        exact absurd (by simp) hnot
    · intro hlater
      refine ⟨.inl ⟨Finset.mem_insert_self .., hlater⟩, fun hmem => ?_⟩
      exact hlater a hmem (.inl rfl)

/-- The port of an interface, with the identifier of its container alone. -/
def Sample.port (name container : String) : Switch.Port where
  uuid := "uuid-" ++ name
  name := name
  ofport := none
  externalIds := .ofList [(Switch.idContainer, container)]

/-- What is read from such a port. -/
def Sample.attachment (name container : String) : Attachment where
  interfaceName := name
  containerId := container
  podName := ""
  podNamespace := ""
  vifId := ""
  mac := ""
  ips := []
  port := some ⟨"uuid-" ++ name, none⟩

theorem Sample.ofPort?_port (name container : String) :
    Attachment.ofPort? (port name container) = some (attachment name container) := rfl

/-- The ports of a container that took over the interface of another one, and then moved. -/
def Sample.moved : List Switch.Port :=
  [port "tap0" "c1", port "tap0" "c2", port "tap1" "c2"]

/-- Only the last port counts. -/
theorem moved_container_has_last_port :
    Sample.attachment "tap1" "c2" ∈ (ofPorts Sample.moved).list ∧
      Sample.attachment "tap0" "c1" ∉ (ofPorts Sample.moved).list ∧
      Sample.attachment "tap0" "c2" ∉ (ofPorts Sample.moved).list := by
  have hkept := store_mirrors_set.2.2
  have hlast := hkept [Sample.port "tap0" "c1", Sample.port "tap0" "c2"] _ [] _
    (Sample.ofPort?_port "tap1" "c2")
  have hfirst := hkept [] _ [Sample.port "tap0" "c2", Sample.port "tap1" "c2"] _
    (Sample.ofPort?_port "tap0" "c1")
  have hsecond := hkept [Sample.port "tap0" "c1"] _ [Sample.port "tap1" "c2"] _
    (Sample.ofPort?_port "tap0" "c2")
  refine ⟨(hlast.2 nofun).1, fun hmem => ?_, fun hmem => ?_⟩
  · have hspared := hfirst.1 ⟨hmem, by simp [Sample.ofPort?_port, Sample.attachment]⟩
    exact (hspared _ (by simp) _ (Sample.ofPort?_port "tap0" "c2")).1 rfl
  · have hspared := hsecond.1 ⟨hmem, by simp [Sample.ofPort?_port, Sample.attachment]⟩
    exact (hspared _ (by simp) _ (Sample.ofPort?_port "tap1" "c2")).2 rfl

end Store

end PodAttach
