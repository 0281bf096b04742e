import Mathlib.Logic.Relator
import PodAttach.Proofs.Locality

/-!
# Which numbers are handed out

The switch hands out a UUID and an OpenFlow number for every port.  Which ones
depends on what happened before, so two runs can only be compared up to them.
A `Renaming` says which of them stand for each other, and two worlds that are
`World.Renamed` are the same but for these, place by place.

That is too weak to be kept by the steps of a request, since a port is removed
by its UUID and a Check compares numbers.  `World.Twin` adds that the records
of some containers refer to their ports in the same way in both worlds: a
recorded UUID is that of the port in both, or in none (`Matched`).  The
containers are those whose requests are compared.  For others a record may be
stale in one world and not in the other.

There is one lemma for each question that changes something.  Those for
`createPort`, `installFlows` and `record` ask for numbers that stand for each
other, and those for `createPort`, `deletePort` and `record` for what keeps
ports and records matched.
-/

namespace PodAttach.Agent

/-! ## Up to numbers -/

/-- A port without the UUID and the number that it got. -/
def blankPort (p : Switch.Port) : Switch.Port :=
  { p with uuid := "", ofport := p.ofport.map fun _ => 0 }

/-- An attachment without the UUID and the number of its port. -/
def blankAttachment (a : Attachment) : Attachment :=
  { a with port := a.port.map fun q => ⟨"", q.ofport.map fun _ => 0⟩ }

/-- Of two values that correspond both are there, or none is. -/
theorem rel_cases {α β : Type} {r : α → β → Prop} {x : Option α} {y : Option β}
    (h : Option.Rel r x y) :
    x = none ∧ y = none ∨ ∃ a b, x = some a ∧ y = some b ∧ r a b := by
  cases h with
  | none => exact .inl ⟨rfl, rfl⟩
  | some h => exact .inr ⟨_, _, rfl, rfl, h⟩

/-- Which UUIDs and OpenFlow numbers of two worlds stand for each other. -/
structure Renaming where
  uuid : String → String → Prop
  ofport : Nat → Nat → Prop

namespace Renaming

/-- No UUID or number stands for two others. -/
structure OneToOne (ρ : Renaming) : Prop where
  uuid : Relator.BiUnique ρ.uuid
  ofport : Relator.BiUnique ρ.ofport

/-- What is recorded of a port, up to the numbers. -/
structure Attached (ρ : Renaming) (q q' : AttachedPort) : Prop where
  uuid : ρ.uuid q.uuid q'.uuid
  ofport : Option.Rel ρ.ofport q.ofport q'.ofport

/-- A record, up to the numbers of its port. -/
structure Recorded (ρ : Renaming) (a a' : Attachment) : Prop where
  blank : blankAttachment a = blankAttachment a'
  port : Option.Rel ρ.Attached a.port a'.port

/-- A port, up to its numbers. -/
structure Port (ρ : Renaming) (p p' : Switch.Port) : Prop where
  blank : blankPort p = blankPort p'
  uuid : ρ.uuid p.uuid p'.uuid
  ofport : Option.Rel ρ.ofport p.ofport p'.ofport

end Renaming

/-- All that there is of an interface, up to the numbers: each that stands somewhere in the one
world has one in its place in the other world that it stands for. -/
structure Slot.Renamed (ρ : Renaming) (s s' : Slot) : Prop where
  record : Option.Rel ρ.Recorded s.record s'.record
  link : s.link = s'.link
  port : Option.Rel ρ.Port s.port s'.port
  flows : Option.Rel ρ.ofport s.flows s'.flows

/-- Two worlds are the same up to the UUIDs and OpenFlow numbers in them. -/
def World.Renamed (ρ : Renaming) (w w' : World) : Prop :=
  ∀ name, (w.slot name).Renamed ρ (w'.slot name)

/-- A UUID is in a world: as that of a port, or as a recorded one. -/
def World.HasUuid (w : World) (uuid : String) : Prop :=
  ∃ name, (∃ p, (w.slot name).port = some p ∧ p.uuid = uuid) ∨
    ∃ a q, (w.slot name).record = some a ∧ a.port = some q ∧ q.uuid = uuid

/-- An OpenFlow number is in a world: as that of a port, as a recorded one or in flows. -/
def World.HasOfport (w : World) (ofport : Nat) : Prop :=
  ∃ name, (∃ p, (w.slot name).port = some p ∧ p.ofport = some ofport) ∨
    (∃ a q, (w.slot name).record = some a ∧ a.port = some q ∧ q.ofport = some ofport) ∨
    (w.slot name).flows = some ofport

/-- What is there, or what is not, corresponds to itself if the values that are there do. -/
theorem rel_self {α : Type} {r : α → α → Prop} {x : Option α} (h : ∀ a, x = some a → r a a) :
    Option.Rel r x x := by
  cases x with
  | none => exact .none
  | some a => exact .some (h a rfl)

/-- A world is the same as itself where all that is in it stands for itself. -/
theorem World.renamed_self {ρ : Renaming} {w : World} (huuid : ∀ u, w.HasUuid u → ρ.uuid u u)
    (hofport : ∀ n, w.HasOfport n → ρ.ofport n n) : w.Renamed ρ w := by
  intro name
  refine ⟨rel_self fun a ha => ⟨rfl, rel_self fun q hq => ⟨?_, rel_self fun n hn => ?_⟩⟩, rfl,
    rel_self fun p hp => ⟨rfl, ?_, rel_self fun n hn => ?_⟩, rel_self fun n hn => ?_⟩
  · exact huuid _ ⟨name, .inr ⟨a, q, ha, hq, rfl⟩⟩
  · exact hofport n ⟨name, .inr (.inl ⟨a, q, ha, hq, hn⟩)⟩
  · exact huuid _ ⟨name, .inl ⟨p, hp, rfl⟩⟩
  · exact hofport n ⟨name, .inl ⟨p, hp, hn⟩⟩
  · exact hofport n ⟨name, .inr (.inr hn)⟩

/-- Two runs are served under the same conditions, but other UUIDs and numbers are handed out. -/
structure Conditions.Alike (k k' : Conditions) : Prop where
  ready : k'.ready = k.ready
  descriptor : k'.descriptor = k.descriptor
  pods : k'.pods = k.pods
  hostMac : k'.hostMac = k.hostMac
  mishap : k'.mishap = k.mishap

/-- What a request is handed out in one run stands for what it is handed out in the other one. -/
structure Renaming.Hands (ρ : Renaming) (k k' : Conditions) : Prop where
  uuid : ∀ name, ρ.uuid (k.uuid name) (k'.uuid name)
  ofport : ρ.ofport k.ofport k'.ofport

/-! ## Twins -/

/-- What is recorded of a port and the port itself are to each other as in another world. -/
structure Matched (q q' : AttachedPort) (p p' : Switch.Port) : Prop where
  uuid : p.uuid = q.uuid ↔ p'.uuid = q'.uuid
  ofport : q.ofport = q'.ofport ∧ p.ofport = p'.ofport ∨ q.ofport = none ∧ q'.ofport = none ∨
    q.ofport = p.ofport ∧ q'.ofport = p'.ofport

/-- The slots of an interface in two worlds with different numbers.  The records of some
containers refer to the port in the same way. -/
structure Slot.Twin (ρ : Renaming) (P : String → Prop) (s s' : Slot) : Prop
    extends s.Renamed ρ s' where
  matched : ∀ a a' q q' p p', s.record = some a → s'.record = some a' → P a.containerId →
    a.port = some q → a'.port = some q' → s.port = some p → s'.port = some p' →
    Matched q q' p p'

/-- Two worlds with different numbers. -/
structure World.Twin (ρ : Renaming) (P : String → Prop) (nameOf nameOf' : String → String)
    (v v' : World) : Prop where
  sound : v.Sound nameOf
  sound' : v'.Sound nameOf'
  slot : ∀ name, (v.slot name).Twin ρ P (v'.slot name)

namespace Slot.Twin

variable {ρ : Renaming} {P : String → Prop} {s s' : Slot}

/-- A slot that is the same in both worlds, where its numbers stand for themselves. -/
theorem refl (P : String → Prop) (h : s.Renamed ρ s) : s.Twin ρ P s where
  toRenamed := h
  matched a a' q q' p p' ha ha' _ hq hq' hp hp' := by
    obtain rfl : a = a' := Option.some.inj (ha.symm.trans ha')
    obtain rfl : q = q' := Option.some.inj (hq.symm.trans hq')
    obtain rfl : p = p' := Option.some.inj (hp.symm.trans hp')
    exact ⟨Iff.rfl, .inl ⟨rfl, rfl⟩⟩

theorem setLink (h : s.Twin ρ P s') (link : Option Unit) :
    ({ s with link } : Slot).Twin ρ P { s' with link } :=
  { h with link := rfl }

theorem setFlows (h : s.Twin ρ P s') {flows flows' : Option Nat}
    (hflows : Option.Rel ρ.ofport flows flows') :
    ({ s with flows } : Slot).Twin ρ P { s' with flows := flows' } :=
  { h with flows := hflows }

theorem dropRecord (h : s.Twin ρ P s') :
    ({ s with record := none } : Slot).Twin ρ P { s' with record := none } :=
  { h with record := .none, matched := nofun }

theorem dropPort (h : s.Twin ρ P s') :
    ({ s with port := none } : Slot).Twin ρ P { s' with port := none } :=
  { h with port := .none, matched := nofun }

theorem ite {c : Prop} [Decidable c] {s₁ s₂ s₁' s₂' : Slot} (h₁ : s₁.Twin ρ P s₁')
    (h₂ : s₂.Twin ρ P s₂') : (if c then s₁ else s₂).Twin ρ P (if c then s₁' else s₂') := by
  split
  · exact h₁
  · exact h₂

/-- A port is made where the containers have no record. -/
theorem newPort (h : s.Twin ρ P s') {p p' : Switch.Port} (hport : ρ.Port p p')
    (hfree : ∀ a, s.record = some a → ¬ P a.containerId) :
    ({ s with port := some p } : Slot).Twin ρ P { s' with port := some p' } :=
  { h with
    port := .some hport
    matched := fun a _ _ _ _ _ ha _ hP => absurd hP (hfree a ha) }

/-- Both have a port, or none has. -/
theorem port_cases (h : s.Twin ρ P s') : s.port = none ∧ s'.port = none ∨
    ∃ p p', s.port = some p ∧ s'.port = some p' ∧ blankPort p = blankPort p' := by
  rcases rel_cases h.port with hnone | ⟨p, p', hp, hp', hport⟩
  · exact .inl hnone
  · exact .inr ⟨p, p', hp, hp', hport.blank⟩

/-- Both have a record, or none has. -/
theorem record_cases (h : s.Twin ρ P s') : s.record = none ∧ s'.record = none ∨
    ∃ a a', s.record = some a ∧ s'.record = some a' ∧ blankAttachment a = blankAttachment a' := by
  rcases rel_cases h.record with hnone | ⟨a, a', ha, ha', hrecord⟩
  · exact .inl hnone
  · exact .inr ⟨a, a', ha, ha', hrecord.blank⟩

/-- A port is removed from both, or from none. -/
theorem filterPort (h : s.Twin ρ P s') {uuid uuid' : String}
    (huuid : ∀ p p', s.port = some p → s'.port = some p' → (p.uuid = uuid ↔ p'.uuid = uuid')) :
    ({ s with port := s.port.filter fun p => p.uuid != uuid } : Slot).Twin ρ P
      { s' with port := s'.port.filter fun p => p.uuid != uuid' } := by
  rcases h.port_cases with ⟨hp, hp'⟩ | ⟨p, p', hp, hp', -⟩
  · rw [hp, hp']
    exact h.dropPort
  · have hsame := huuid p p' hp hp'
    rw [hp, hp', Option.filter_some, Option.filter_some]
    by_cases hu : p.uuid = uuid
    · rw [if_neg (by simp [hu]), if_neg (by simp [hsame.1 hu])]
      exact h.dropPort
    · rw [if_pos (by simp [hu]), if_pos (by simp [mt hsame.2 hu]), ← hp, ← hp']
      exact h

/-- A record is written that refers to the port in the same way. -/
theorem newRecord (h : s.Twin ρ P s') {a a' : Attachment} (hrecord : ρ.Recorded a a')
    (hmatched : ∀ q q' p p', a.port = some q → a'.port = some q' → s.port = some p →
      s'.port = some p' → Matched q q' p p') :
    ({ s with record := some a } : Slot).Twin ρ P { s' with record := some a' } :=
  { h with
    record := .some hrecord
    matched := by
      rintro b b' q q' p p' ⟨⟩ ⟨⟩ - hq hq' hp hp'
      exact hmatched q q' p p' hq hq' hp hp' }

theorem containerId_eq {a a' : Attachment} (h : blankAttachment a = blankAttachment a') :
    a.containerId = a'.containerId := by
  show (blankAttachment a).containerId = (blankAttachment a').containerId
  rw [h]

theorem interfaceName_eq {a a' : Attachment} (h : blankAttachment a = blankAttachment a') :
    a.interfaceName = a'.interfaceName := by
  show (blankAttachment a).interfaceName = (blankAttachment a').interfaceName
  rw [h]

theorem mac_eq {a a' : Attachment} (h : blankAttachment a = blankAttachment a') :
    a.mac = a'.mac := by
  show (blankAttachment a).mac = (blankAttachment a').mac
  rw [h]

/-- The record of a container is dropped from both, or from none. -/
theorem filterRecord (h : s.Twin ρ P s') (containerId : String) :
    ({ s with record := s.record.filter fun b => b.containerId != containerId } : Slot).Twin ρ P
      { s' with record := s'.record.filter fun b => b.containerId != containerId } := by
  rcases h.record_cases with ⟨ha, ha'⟩ | ⟨a, a', ha, ha', hblank⟩
  · rw [ha, ha']
    exact h.dropRecord
  · rw [ha, ha', Option.filter_some, Option.filter_some, containerId_eq hblank]
    by_cases hc : a'.containerId = containerId
    · rw [if_neg (by simp [hc]), if_neg (by simp [hc])]
      exact h.dropRecord
    · rw [if_pos (by simp [hc]), if_pos (by simp [hc]), ← ha, ← ha']
      exact h

end Slot.Twin

/-! ## Steps of twins -/

/-- A territory without borders. -/
def anywhere (container : String) (nameOf : String → String) : Territory :=
  ⟨container, fun _ => True, nameOf⟩

namespace World.Twin

variable {ρ : Renaming} {P : String → Prop} {nameOf nameOf' : String → String} {v v' : World}
  {k k' : Conditions}

theorem refl {w : World} (hsound : w.Sound nameOf) (hsound' : w.Sound nameOf')
    (hsame : w.Renamed ρ w) : w.Twin ρ P nameOf nameOf' w where
  sound := hsound
  sound' := hsound'
  slot name := .refl P (hsame name)

theorem renamed (h : v.Twin ρ P nameOf nameOf' v') : v.Renamed ρ v' :=
  fun name => (h.slot name).toRenamed

variable (huuid : ∀ n, nameOf (k.uuid n) = n) (huuid' : ∀ n, nameOf' (k'.uuid n) = n)

include huuid huuid'

theorem meet (h : v.Twin ρ P nameOf nameOf' v') (container : String) {q q' : Ask}
    {m : Option Mishap} (hq : (anywhere container nameOf).Allows q)
    (hq' : (anywhere container nameOf').Allows q')
    (hslot : ∀ name, ((v.slot name).meet k name m q).Twin ρ P ((v'.slot name).meet k' name m q')) :
    (v.meet k m q).2.Twin ρ P nameOf nameOf' (v'.meet k' m q').2 where
  sound := Territory.sound_meet (T := anywhere container nameOf) huuid hq m h.sound
  sound' := Territory.sound_meet (T := anywhere container nameOf') huuid' hq' m h.sound'
  slot name := by
    rw [World.slot_meet k h.sound.coherent, World.slot_meet k' h.sound'.coherent]
    exact hslot name

theorem build (h : v.Twin ρ P nameOf nameOf' v') (spec : Link.PairSpec) (m : Option Mishap) :
    (v.meet k m (.link (.build spec))).2.Twin ρ P nameOf nameOf'
      (v'.meet k' m (.link (.build spec))).2 := by
  refine h.meet huuid huuid' "" trivial trivial fun name => ?_
  cases m with
  | some m => exact h.slot name
  | none => exact .ite ((h.slot name).setLink _) (h.slot name)

theorem teardown (h : v.Twin ρ P nameOf nameOf' v') (containerId name : String)
    (m : Option Mishap) :
    (v.meet k m (.link (.teardown containerId name))).2.Twin ρ P nameOf nameOf'
      (v'.meet k' m (.link (.teardown containerId name))).2 := by
  refine h.meet huuid huuid' "" trivial trivial fun n => ?_
  cases m with
  | some m => exact h.slot n
  | none => exact .ite ((h.slot n).setLink _) (h.slot n)

theorem createPort (h : v.Twin ρ P nameOf nameOf' v') (hhands : ρ.Hands k k') {name : String}
    (ids : Table String) (hfree : ∀ a, (v.slot name).record = some a → ¬ P a.containerId)
    (m : Option Mishap) :
    (v.meet k m (.switch (.createPort name ids))).2.Twin ρ P nameOf nameOf'
      (v'.meet k' m (.switch (.createPort name ids))).2 := by
  refine h.meet huuid huuid' "" trivial trivial fun n => ?_
  cases m with
  | some m => exact h.slot n
  | none =>
    by_cases hn : n = name
    · subst hn
      simp only [Slot.meet, Slot.perform, if_true]
      exact (h.slot n).newPort ⟨rfl, hhands.uuid n, .some hhands.ofport⟩ hfree
    · simp only [Slot.meet, Slot.perform, if_neg hn]
      exact h.slot n

/-- A port is removed where the UUIDs are those of both ports, or of none. -/
theorem deletePort (h : v.Twin ρ P nameOf nameOf' v') {uuid uuid' name : String}
    (hname : nameOf uuid = name) (hname' : nameOf' uuid' = name)
    (hmatched : ∀ p p', (v.slot name).port = some p → (v'.slot name).port = some p' →
      (p.uuid = uuid ↔ p'.uuid = uuid')) (m : Option Mishap) :
    (v.meet k m (.switch (.deletePort uuid))).2.Twin ρ P nameOf nameOf'
      (v'.meet k' m (.switch (.deletePort uuid'))).2 := by
  refine h.meet huuid huuid' "" trivial trivial fun n => ?_
  cases m with
  | some m => exact h.slot n
  | none =>
    refine (h.slot n).filterPort fun p p' hp hp' => ?_
    by_cases hn : n = name
    · subst hn
      exact hmatched p p' hp hp'
    · -- UUIDs of another interface are not found here
      have hport := (h.sound.slot n).port p hp
      have hport' := (h.sound'.slot n).port p' hp'
      refine iff_of_false ?_ ?_
      · rintro rfl
        exact hn (hport.symm.trans hname)
      · rintro rfl
        exact hn (hport'.symm.trans hname')

theorem installFlows (h : v.Twin ρ P nameOf nameOf' v') (name mac : String) (ips : List Net.Ip)
    {ofport ofport' : Nat} (hofport : ρ.ofport ofport ofport') (m : Option Mishap) :
    (v.meet k m (.switch (.installFlows name ips mac ofport))).2.Twin ρ P nameOf nameOf'
      (v'.meet k' m (.switch (.installFlows name ips mac ofport'))).2 := by
  refine h.meet huuid huuid' "" trivial trivial fun n => ?_
  cases m with
  | some m => exact .ite ((h.slot n).setFlows (.some hofport)) (h.slot n)
  | none => exact .ite ((h.slot n).setFlows (.some hofport)) (h.slot n)

theorem uninstallFlows (h : v.Twin ρ P nameOf nameOf' v') (name : String) (m : Option Mishap) :
    (v.meet k m (.switch (.uninstallFlows name))).2.Twin ρ P nameOf nameOf'
      (v'.meet k' m (.switch (.uninstallFlows name))).2 := by
  refine h.meet huuid huuid' "" trivial trivial fun n => ?_
  cases m with
  | some m => exact h.slot n
  | none => exact .ite ((h.slot n).setFlows .none) (h.slot n)

/-- A record is written that refers to the port in the same way. -/
theorem record (h : v.Twin ρ P nameOf nameOf' v') {a a' : Attachment}
    (hrecord : ρ.Recorded a a') (hsound : ∀ q, a.port = some q → nameOf q.uuid = a.interfaceName)
    (hsound' : ∀ q, a'.port = some q → nameOf' q.uuid = a'.interfaceName)
    (hmatched : ∀ q q' p p', a.port = some q → a'.port = some q' →
      (v.slot a.interfaceName).port = some p → (v'.slot a.interfaceName).port = some p' →
      Matched q q' p p') (m : Option Mishap) :
    (v.meet k m (.record a)).2.Twin ρ P nameOf nameOf' (v'.meet k' m (.record a')).2 := by
  have hname := Slot.Twin.interfaceName_eq hrecord.blank
  have hcontainer := Slot.Twin.containerId_eq hrecord.blank
  refine h.meet huuid huuid' a.containerId ⟨rfl, trivial, hsound⟩
    ⟨hcontainer.symm, trivial, hsound'⟩ fun n => ?_
  have hperform : ((v.slot n).perform k n (.record a)).Twin ρ P
      ((v'.slot n).perform k' n (.record a')) := by
    simp only [Slot.perform, ← hname, ← hcontainer]
    by_cases hn : n = a.interfaceName
    · subst hn
      rw [if_pos rfl, if_pos rfl]
      exact (h.slot _).newRecord hrecord hmatched
    · rw [if_neg hn, if_neg hn]
      exact (h.slot n).filterRecord _
  cases m <;> exact hperform

theorem forget (h : v.Twin ρ P nameOf nameOf' v') (name : String) (m : Option Mishap) :
    (v.meet k m (.forget name)).2.Twin ρ P nameOf nameOf' (v'.meet k' m (.forget name)).2 := by
  refine h.meet huuid huuid' "" trivial trivial fun n => ?_
  have hperform : ((v.slot n).perform k n (.forget name)).Twin ρ P
      ((v'.slot n).perform k' n (.forget name)) := .ite (h.slot n).dropRecord (h.slot n)
  cases m <;> exact hperform

omit huuid huuid'

/-- A container has an attachment in both worlds, or in none. -/
theorem find?_cases (h : v.Twin ρ P nameOf nameOf' v') (containerId : String) :
    v.store.find? containerId = none ∧ v'.store.find? containerId = none ∨
      ∃ a a', v.store.find? containerId = some a ∧ v'.store.find? containerId = some a' ∧
        blankAttachment a = blankAttachment a' := by
  cases ha : v.store.find? containerId with
  | some a =>
    obtain ⟨hrecord, hc⟩ := (World.find?_eq_some_iff h.sound.coherent).1 ha
    rcases (h.slot a.interfaceName).record_cases with ⟨hnone, -⟩ | ⟨b, a', hb, ha', hblank⟩
    · cases hrecord.symm.trans hnone
    · obtain rfl : a = b := Option.some.inj (hrecord.symm.trans hb)
      refine .inr ⟨a, a', rfl, (World.find?_eq_some_iff h.sound'.coherent).2 ⟨?_, ?_⟩, hblank⟩
      · rw [← Slot.Twin.interfaceName_eq hblank]
        exact ha'
      · rw [← Slot.Twin.containerId_eq hblank]
        exact hc
  | none =>
    refine .inl ⟨rfl, Option.eq_none_iff_forall_ne_some.2 fun a' ha' => ?_⟩
    obtain ⟨hrecord, hc⟩ := (World.find?_eq_some_iff h.sound'.coherent).1 ha'
    rcases (h.slot a'.interfaceName).record_cases with ⟨-, hnone⟩ | ⟨a, b, hb, hb', hblank⟩
    · cases hrecord.symm.trans hnone
    · obtain rfl : a' = b := Option.some.inj (hrecord.symm.trans hb')
      have hfound : v.store.find? containerId = some a := by
        refine (World.find?_eq_some_iff h.sound.coherent).2 ⟨?_, ?_⟩
        · rw [Slot.Twin.interfaceName_eq hblank]
          exact hb
        · rw [Slot.Twin.containerId_eq hblank]
          exact hc
      cases ha.symm.trans hfound

end World.Twin

end PodAttach.Agent
