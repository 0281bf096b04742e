import PodAttach.Proofs.Territory
import PodAttach.Proofs.World

/-!
# Territories in the world

What a request asks for in its territory depends on the slots of the
territory alone, and changes no other slot.

* `World.Sound` holds in every world that the agent makes: the indexes of the
  store agree, and a UUID belongs to the interface that it was handed out
  for.  `sound_meet` says that each step keeps it.
* `Covers`: a sound world in which all records of the container are in the
  territory.  It is kept by the steps of the container itself (`Covers.meet`)
  and by those of others (`Covers.meet_other`).
* `Covers.slot_meet_of_not_owns`: what is outside stays as it is.
* `Agrees.reply_eq` and `Agrees.meet`: in worlds that are alike in a territory
  the same step gets the same answer, and they stay alike.

`Covers.step` puts this together for the rules of a territory, so later
modules need not look at single questions.
-/

namespace PodAttach.Agent

/-- The UUIDs in the slot of a name were handed out for it. -/
structure Slot.Sound (nameOf : String → String) (name : String) (s : Slot) : Prop where
  port : ∀ q, s.port = some q → nameOf q.uuid = name
  record : ∀ a q, s.record = some a → a.port = some q → nameOf q.uuid = name

theorem Slot.Sound.ite {nameOf : String → String} {name : String} {c : Prop} [Decidable c]
    {s s' : Slot} (h : s.Sound nameOf name) (h' : s'.Sound nameOf name) :
    (if c then s else s').Sound nameOf name := by
  split
  · exact h
  · exact h'

/-- What holds in every world that the agent makes: the indexes of the store agree, and a UUID
belongs to the interface that it was handed out for. -/
structure World.Sound (nameOf : String → String) (w : World) : Prop where
  coherent : w.store.Coherent
  slot : ∀ n, (w.slot n).Sound nameOf n

theorem World.sound_empty (nameOf : String → String) : World.Sound nameOf {} where
  coherent := Store.coherent_empty
  slot _ := ⟨nofun, nofun⟩

/-- The records of the territory's container are in the territory. -/
structure Territory.Covers (T : Territory) (w : World) : Prop extends w.Sound T.nameOf where
  owns : ∀ {n a}, (w.slot n).record = some a → a.containerId = T.container → T.owns n

namespace Territory

variable {T : Territory} {k : Conditions} {w v : World}

/-- An attachment that is found for the container is one of the territory. -/
theorem Covers.holds (h : T.Covers w) {a : Attachment}
    (ha : w.store.find? T.container = some a) : T.Holds a := by
  obtain ⟨hslot, hc⟩ := (World.find?_eq_some_iff h.coherent).1 ha
  exact ⟨hc, h.owns hslot hc, fun q hq => (h.slot _).record a q hslot hq⟩

/-- The answers that the world gives are those that are expected in the territory. -/
theorem Covers.admits (h : T.Covers w) (huuid : ∀ n, T.nameOf (k.uuid n) = n) {q : Ask}
    (hq : T.Allows q) (m : Option Mishap) : T.Admits k.descriptor q (w.meet k m q).1 := by
  cases q with
  | switch c =>
    cases m with
    | some m =>
      have herror : ∀ e : Switch.Error,
          (Except.error m.onSwitch.val : Except Switch.Error c.Value) = .error e →
            leftPort? e = none := by
        rintro e ⟨⟩
        exact m.onSwitch.property
      cases c with
      | createPort n ids => exact ⟨nofun, herror⟩
      | _ => exact herror
    | none =>
      cases c with
      | createPort n ids =>
        refine ⟨?_, nofun⟩
        rintro uuid ⟨⟩
        exact huuid n
      | getOfport n =>
        show ∀ e, (w.perform k (.switch (.getOfport n))).1 = .error e → leftPort? e = none
        rw [World.perform_getOfport]
        split
        · nofun
        · rintro e ⟨⟩
          rfl
      | _ => nofun
  | descriptor podNamespace name => cases m <;> rfl
  | attachmentOf c =>
    obtain rfl : c = T.container := hq
    cases m <;> exact fun a ha => h.holds ha
  | _ => trivial

theorem sound_slot_perform (huuid : ∀ n, T.nameOf (k.uuid n) = n) {q : Ask} (hq : T.Allows q)
    {name : String} {s : Slot} (hs : s.Sound T.nameOf name) :
    (s.perform k name q).Sound T.nameOf name := by
  cases q with
  | switch c =>
    cases c with
    | createPort n ids =>
      by_cases hn : name = n
      · subst hn
        simp only [Slot.perform, if_true]
        refine ⟨?_, hs.record⟩
        rintro q ⟨⟩
        exact huuid name
      · simpa only [Slot.perform, if_neg hn] using hs
    | deletePort uuid =>
      refine ⟨fun q hport => hs.port q ?_, hs.record⟩
      exact (Option.filter_eq_some_iff.1 hport).1
    | getOfport n => exact hs
    | installFlows n ips mac ofport => exact .ite ⟨hs.port, hs.record⟩ hs
    | uninstallFlows n => exact .ite ⟨hs.port, hs.record⟩ hs
  | link c =>
    cases c with
    | build spec => exact .ite ⟨hs.port, hs.record⟩ hs
    | teardown containerId n => exact .ite ⟨hs.port, hs.record⟩ hs
    | check n netns containerIfname mac => exact hs
  | record a =>
    have ha : T.Holds a := hq
    by_cases hn : name = a.interfaceName
    · simp only [Slot.perform, if_pos hn]
      refine ⟨hs.port, ?_⟩
      rintro b q ⟨⟩ hport
      rw [hn]
      exact ha.uuid q hport
    · simp only [Slot.perform, if_neg hn]
      refine ⟨hs.port, fun b q hrecord hport => hs.record b q ?_ hport⟩
      exact (Option.filter_eq_some_iff.1 hrecord).1
  | forget n =>
    refine .ite ⟨hs.port, fun b q hrecord _ => ?_⟩ hs
    cases hrecord
  | _ => exact hs

/-- A step in the territory leaves every slot sound. -/
theorem sound_slot_meet (huuid : ∀ n, T.nameOf (k.uuid n) = n) {q : Ask} (hq : T.Allows q)
    (m : Option Mishap) {name : String} {s : Slot} (hs : s.Sound T.nameOf name) :
    (s.meet k name m q).Sound T.nameOf name := by
  cases m with
  | none => exact sound_slot_perform huuid hq hs
  | some m =>
    cases q with
    | switch c =>
      cases c with
      | installFlows n ips mac ofport => exact .ite ⟨hs.port, hs.record⟩ hs
      | _ => exact hs
    | link c => exact hs
    | _ => exact sound_slot_perform huuid hq hs

/-- Steps in the territory leave a sound world sound. -/
theorem sound_meet (huuid : ∀ n, T.nameOf (k.uuid n) = n) {q : Ask} (hq : T.Allows q)
    (m : Option Mishap) (h : w.Sound T.nameOf) : (w.meet k m q).2.Sound T.nameOf where
  coherent := World.coherent_meet k h.coherent m q
  slot n := by
    rw [World.slot_meet k h.coherent]
    exact sound_slot_meet huuid hq m (h.slot n)

/-- The records of a slot's container after a step: one of before, or the one that is written. -/
theorem record_meet {q : Ask} {m : Option Mishap} {name : String} {s : Slot} {a : Attachment}
    (ha : (s.meet k name m q).record = some a) :
    s.record = some a ∨ q = .record a ∧ name = a.interfaceName := by
  have hperform : (s.perform k name q).record = some a →
      s.record = some a ∨ q = .record a ∧ name = a.interfaceName := by
    intro ha
    unfold Slot.perform at ha
    split at ha <;> first | exact .inl ha | (split at ha <;> first | exact .inl ha | skip)
    · next hn =>
      cases ha
      exact .inr ⟨rfl, hn⟩
    · exact .inl (Option.filter_eq_some_iff.1 ha).1
    · cases ha
  cases m with
  | none => exact hperform ha
  | some m =>
    cases q with
    | switch c =>
      simp only [Slot.meet] at ha
      unfold Slot.afterFailed at ha
      split at ha
      · split at ha <;> exact .inl ha
      · exact .inl ha
    | link c => exact .inl ha
    | _ => exact hperform ha

/-- A territory covers its records after its own steps. -/
theorem Covers.meet (h : T.Covers w) (huuid : ∀ n, T.nameOf (k.uuid n) = n) {q : Ask}
    (hq : T.Allows q) (m : Option Mishap) : T.Covers (w.meet k m q).2 where
  toSound := sound_meet huuid hq m h.toSound
  owns {n a} ha hc := by
    rw [World.slot_meet k h.coherent] at ha
    rcases record_meet ha with hbefore | ⟨rfl, rfl⟩
    · exact h.owns hbefore hc
    · exact Holds.name hq

/-- A territory covers its records after steps in the territory of another container. -/
theorem Covers.meet_other {T' : Territory} (h : T.Covers w)
    (hcontainer : T'.container ≠ T.container) (hname : T'.nameOf = T.nameOf)
    (huuid : ∀ n, T'.nameOf (k.uuid n) = n) {q : Ask} (hq : T'.Allows q) (m : Option Mishap) :
    T.Covers (w.meet k m q).2 where
  toSound := by
    have hsound : w.Sound T'.nameOf := hname ▸ h.toSound
    exact hname ▸ sound_meet huuid hq m hsound
  owns {n a} ha hc := by
    rw [World.slot_meet k h.coherent] at ha
    rcases record_meet ha with hbefore | ⟨rfl, rfl⟩
    · exact h.owns hbefore hc
    · exact absurd ((Holds.container hq).symm.trans hc) hcontainer

/-! ## What is outside stays -/

/-- A step in the territory leaves the slots outside as they are. -/
theorem Covers.slot_meet_of_not_owns (h : T.Covers w) {q : Ask} (hq : T.Allows q)
    (m : Option Mishap) {name : String} (hname : ¬ T.owns name) :
    (w.meet k m q).2.slot name = w.slot name := by
  have hne : ∀ n, T.owns n → name ≠ n := by
    rintro n hn rfl
    exact hname hn
  rw [World.slot_meet k h.coherent]
  have hperform : (w.slot name).perform k name q = w.slot name := by
    cases q with
    | switch c =>
      cases c with
      | createPort n ids => exact if_neg (hne n hq)
      | deletePort uuid =>
        have hport : (w.slot name).port.filter (fun p => p.uuid != uuid) = (w.slot name).port := by
          cases hp : (w.slot name).port with
          | none => rfl
          | some p =>
            have hother : p.uuid ≠ uuid := by
              rintro rfl
              exact hname ((h.slot name).port p hp ▸ hq)
            simp [Option.filter, hother]
        simp only [Slot.perform, hport]
      | getOfport n => rfl
      | installFlows n ips mac ofport => exact if_neg (hne n hq)
      | uninstallFlows n => exact if_neg (hne n hq)
    | link c =>
      cases c with
      | build spec => exact if_neg (hne _ hq)
      | teardown containerId n => exact if_neg (hne n hq)
      | check n netns containerIfname mac => rfl
    | record a =>
      have ha : T.Holds a := hq
      have hrecord : (w.slot name).record.filter (fun b => b.containerId != a.containerId) =
          (w.slot name).record := by
        cases hb : (w.slot name).record with
        | none => rfl
        | some b =>
          have hother : b.containerId ≠ a.containerId := by
            intro heq
            exact hname (h.owns hb (heq.trans ha.container))
          simp [Option.filter, hother]
      simp only [Slot.perform, if_neg (hne _ ha.name), hrecord]
    | forget n => exact if_neg (hne n hq)
    | _ => rfl
  cases m with
  | none => exact hperform
  | some m =>
    cases q with
    | switch c =>
      cases c with
      | installFlows n ips mac ofport => exact if_neg fun hn => hne n hq hn.1
      | _ => rfl
    | link c => rfl
    | _ => exact hperform

/-! ## What is inside decides -/

/-- Two worlds are alike in a territory. -/
def Agrees (T : Territory) (w v : World) : Prop :=
  ∀ n, T.owns n → w.slot n = v.slot n

/-- Worlds that are alike in a territory have the same attachment of its container. -/
theorem Agrees.find?_eq (hagrees : T.Agrees w v) (hw : T.Covers w) (hv : T.Covers v) :
    w.store.find? T.container = v.store.find? T.container := by
  ext a
  rw [World.find?_eq_some_iff hw.coherent, World.find?_eq_some_iff hv.coherent]
  constructor
  · rintro ⟨ha, hc⟩
    rw [hagrees _ (hw.owns ha hc)] at ha
    exact ⟨ha, hc⟩
  · rintro ⟨ha, hc⟩
    rw [← hagrees _ (hv.owns ha hc)] at ha
    exact ⟨ha, hc⟩

/-- In worlds that are alike in a territory, a step there gets the same answer. -/
theorem Agrees.reply_eq (hagrees : T.Agrees w v) (hw : T.Covers w) (hv : T.Covers v) {q : Ask}
    (hq : T.Allows q) (m : Option Mishap) : (w.meet k m q).1 = (v.meet k m q).1 := by
  have hperform : (w.perform k q).1 = (v.perform k q).1 := by
    cases q with
    | switch c =>
      cases c with
      | getOfport n => rw [World.perform_getOfport, World.perform_getOfport, hagrees n hq]
      | _ => rfl
    | link c =>
      cases c with
      | check n netns containerIfname mac =>
        have hlink : w.pairs.get? n = v.pairs.get? n := congrArg Slot.link (hagrees n hq)
        have hthere : w.pairs.contains n = v.pairs.contains n := congrArg Option.isSome hlink
        show (if w.pairs.contains n then _ else _) = (if v.pairs.contains n then _ else _)
        rw [hthere]
      | _ => rfl
    | attachmentOf c =>
      obtain rfl : c = T.container := hq
      exact hagrees.find?_eq hw hv
    | descriptor podNamespace name => rfl
    | record a => rfl
    | forget n => rfl
    | _ => exact hq.elim
  cases m with
  | none => exact hperform
  | some m => cases q <;> first | rfl | exact hperform

/-- Worlds that are alike in a territory stay alike when both take a step there. -/
theorem Agrees.meet (hagrees : T.Agrees w v) (hw : T.Covers w) (hv : T.Covers v) (q : Ask)
    (m : Option Mishap) : T.Agrees (w.meet k m q).2 (v.meet k m q).2 := by
  intro n hn
  rw [World.slot_meet k hw.coherent, World.slot_meet k hv.coherent, hagrees n hn]

/-- A step that the rules of a territory let happen is a step in the territory, or it changes
nothing at all. -/
theorem allows_or_idle {limit : Option Duration} {d : Except DescriptorError Descriptor} {q : Ask}
    {s : LockStage} (hasks : (T.rules limit d).asks q s) :
    T.Allows q ∨ ∀ (k : Conditions) (w : World) (m : Option Mishap), (w.meet k m q).2 = w := by
  cases q with
  | acquire key l => exact .inr fun k w m => by cases m <;> rfl
  | release key => exact .inr fun k w m => by cases m <;> rfl
  | awaitReady l => exact .inr fun k w m => by cases m <;> rfl
  | _ => exact .inl hasks.2

/-- The world's answer to a step that the rules let happen is one that the rules expect, the
territory covers its records after it, and what is outside stays. -/
theorem Covers.step {limit : Option Duration} {q : Ask} {s : LockStage} (h : T.Covers w)
    (huuid : ∀ n, T.nameOf (k.uuid n) = n) (hasks : (T.rules limit k.descriptor).asks q s)
    (m : Option Mishap) :
    (T.rules limit k.descriptor).answers q s (w.meet k m q).1 (s.after q (w.meet k m q).1) ∧
      T.Covers (w.meet k m q).2 ∧
        ∀ n, ¬ T.owns n → (w.meet k m q).2.slot n = w.slot n := by
  rcases allows_or_idle hasks with hq | hidle
  · exact ⟨⟨h.admits huuid hq m, rfl⟩, h.meet huuid hq m,
      fun n hn => h.slot_meet_of_not_owns hq m hn⟩
  · refine ⟨⟨?_, rfl⟩, ?_, fun n _ => ?_⟩
    · cases q with
      | acquire key l => trivial
      | release key => trivial
      | awaitReady l => trivial
      | _ => exact h.admits huuid hasks.2 m
    · rw [hidle]
      exact h
    · rw [hidle]

/-- A territory covers its records after a step that the rules of the territory of another
container let happen. -/
theorem Covers.step_other {T' : Territory} {limit : Option Duration} {q : Ask} {s : LockStage}
    (h : T.Covers w) (hcontainer : T'.container ≠ T.container) (hname : T'.nameOf = T.nameOf)
    (huuid : ∀ n, T'.nameOf (k.uuid n) = n) (hasks : (T'.rules limit k.descriptor).asks q s)
    (m : Option Mishap) : T.Covers (w.meet k m q).2 := by
  rcases allows_or_idle hasks with hq | hidle
  · exact h.meet_other hcontainer hname huuid hq m
  · rw [hidle]
    exact h

end Territory

end PodAttach.Agent
