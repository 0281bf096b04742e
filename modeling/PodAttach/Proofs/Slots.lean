import PodAttach.Proofs.Effects

/-!
# What the endings leave of an interface

`Effects` lists how connecting, removing, restoring and attaching can end.
This module reads off what each ending leaves in the slots: in that of the
interface that is worked on, and in those of the others, which stay as they
are as long as UUIDs are those of their interfaces (`World.Sound`).

* `Removes.slot_self`, `Replays.slot_self`, `Attempts.slot_self`: the interface itself.
* `Removes.slot_of_ne`, `Replays.slot_of_ne`, `Attempts.slot_of_ne`: the others.
* `Removes.sound`, `Replays.sound`, `Attempts.sound`: the world stays sound.
-/

namespace PodAttach

/-- Whether a port is the one that an attachment names. -/
def Attachment.hasPort (a : Attachment) (p : Switch.Port) : Bool :=
  match a.port with
  | none => false
  | some q => p.uuid == q.uuid

/-- An attachment without a port names none. -/
theorem Attachment.filter_hasPort_of_none {a : Attachment} (h : a.port = none)
    (port : Option Switch.Port) : (port.filter fun p => !a.hasPort p) = port := by
  cases port <;> simp [hasPort, h]

namespace Agent

variable {k : Conditions} {nameOf : String → String} {w w' : World}

/-! ## Sound slots -/

/-- No link, port or flows are there that were not there before. -/
structure Slot.NothingNew (s' s : Slot) : Prop where
  link : s'.link = none ∨ s'.link = s.link
  port : s'.port = none ∨ s'.port = s.port
  flows : s'.flows = none ∨ s'.flows = s.flows

/-- Nothing at all is there that was not there before. -/
structure Slot.Within (s' s : Slot) : Prop extends Slot.NothingNew s' s where
  record : s'.record = none ∨ s'.record = s.record

theorem Slot.Within.refl (s : Slot) : s.Within s :=
  ⟨⟨.inr rfl, .inr rfl, .inr rfl⟩, .inr rfl⟩

theorem filter_none_or {α : Type} (o : Option α) (keep : α → Bool) :
    o.filter keep = none ∨ o.filter keep = o := by
  cases o with
  | none => exact .inl rfl
  | some v => cases hv : keep v <;> simp [hv]

theorem Slot.Within.trans {s₁ s₂ s₃ : Slot} (h : s₁.Within s₂) (h' : s₂.Within s₃) :
    s₁.Within s₃ where
  link := h.link.elim .inl fun hlink => hlink ▸ h'.link
  port := h.port.elim .inl fun hport => hport ▸ h'.port
  flows := h.flows.elim .inl fun hflows => hflows ▸ h'.flows
  record := h.record.elim .inl fun hrecord => hrecord ▸ h'.record

namespace Slot.Sound

variable {n : String} {s s' : Slot}

theorem within (h : s.Sound nameOf n) (hwithin : s'.Within s) : s'.Sound nameOf n where
  port q hq := by
    rcases hwithin.port with hnone | hsame
    · cases hnone.symm.trans hq
    · exact h.port q (hsame.symm.trans hq)
  record a q ha hq := by
    rcases hwithin.record with hnone | hsame
    · cases hnone.symm.trans ha
    · exact h.record a q (hsame.symm.trans ha) hq

/-- The UUID of another interface is not found in a slot. -/
theorem filter_port (h : s.Sound nameOf n) {uuid : String} (huuid : n ≠ nameOf uuid) :
    (s.port.filter fun p => p.uuid != uuid) = s.port := by
  cases hp : s.port with
  | none => rfl
  | some p =>
    have hne : p.uuid ≠ uuid := by
      rintro rfl
      exact huuid (h.port p hp).symm
    rw [Option.filter_some, if_pos (by simpa using hne)]

end Slot.Sound

/-! ## Removing -/

theorem World.slot_dropPortOf (w : World) (a : Attachment) (n : String) :
    (w.dropPortOf a).slot n =
      { w.slot n with port := (w.slot n).port.filter fun p => !a.hasPort p } := by
  unfold dropPortOf
  split
  · next hport => rw [Attachment.filter_hasPort_of_none hport]
  · next q hport =>
    simp only [Attachment.hasPort, hport]
    exact slot_dropPort w q.uuid n

/-- How the removal of an interface can leave its slot. -/
inductive Slot.Removes (a : Attachment) (s : Slot) : Except Failure Unit → Slot → Prop
  | kept {f : Failure} : Removes a s (.error f) s
  | flowless {f : Failure} : Removes a s (.error f) { s with flows := none }
  | portless {f : Failure} : Removes a s (.error f) { s with
      flows := none, port := s.port.filter fun p => !a.hasPort p }
  | gone : Removes a s (.ok ()) ⟨none, none,
      s.port.filter fun p => !a.hasPort p, none⟩

/-- A removal only takes away. -/
theorem Slot.Removes.within {a : Attachment} {s s' : Slot} {r : Except Failure Unit}
    (h : Slot.Removes a s r s') : s'.Within s := by
  cases h with
  | kept => exact .refl _
  | flowless => exact ⟨⟨.inr rfl, .inr rfl, .inl rfl⟩, .inr rfl⟩
  | portless => exact ⟨⟨.inr rfl, filter_none_or _ _, .inl rfl⟩, .inr rfl⟩
  | gone => exact ⟨⟨.inl rfl, filter_none_or _ _, .inl rfl⟩, .inl rfl⟩

namespace Removes

variable {a : Attachment} {r : Except Failure Unit}

theorem slot_self (h : Removes a w r w') :
    Slot.Removes a (w.slot a.interfaceName) r (w'.slot a.interfaceName) := by
  cases h with
  | kept => exact .kept
  | flowless =>
    rw [World.slot_dropFlows, if_pos rfl]
    exact .flowless
  | portless =>
    rw [World.slot_dropPortOf, World.slot_dropFlows, if_pos rfl]
    exact .portless
  | gone =>
    rw [World.slot_dropRecord, if_pos rfl, World.slot_dropLink, if_pos rfl,
      World.slot_dropPortOf, World.slot_dropFlows, if_pos rfl]
    exact .gone

/-- The slot of another interface can only lose a port with the recorded UUID. -/
theorem slot_of_ne_filter (h : Removes a w r w') {n : String} (hn : n ≠ a.interfaceName) :
    w'.slot n = w.slot n ∨ w'.slot n = { w.slot n with
      port := (w.slot n).port.filter fun p => !a.hasPort p } := by
  cases h with
  | kept => exact .inl rfl
  | flowless => exact .inl (by rw [World.slot_dropFlows, if_neg hn])
  | portless => exact .inr (by rw [World.slot_dropPortOf, World.slot_dropFlows, if_neg hn])
  | gone =>
    refine .inr ?_
    rw [World.slot_dropRecord, if_neg hn, World.slot_dropLink, if_neg hn, World.slot_dropPortOf,
      World.slot_dropFlows, if_neg hn]

theorem slot_of_ne (h : Removes a w r w')
    (huuid : ∀ q, a.port = some q → nameOf q.uuid = a.interfaceName) {n : String}
    (hsound : (w.slot n).Sound nameOf n) (hn : n ≠ a.interfaceName) : w'.slot n = w.slot n := by
  rcases h.slot_of_ne_filter hn with hsame | hfilter
  · exact hsame
  · rw [hfilter]
    cases hq : a.port with
    | none => rw [Attachment.filter_hasPort_of_none hq]
    | some q =>
      have hport := hsound.filter_port (huuid q hq ▸ hn)
      simp only [Attachment.hasPort, hq]
      exact congrArg (fun port => { w.slot n with port }) hport

theorem within (h : Removes a w r w') (n : String) : (w'.slot n).Within (w.slot n) := by
  by_cases hn : n = a.interfaceName
  · subst hn
    exact h.slot_self.within
  · rcases h.slot_of_ne_filter hn with hsame | hfilter
    · exact hsame ▸ .refl _
    · rw [hfilter]
      exact ⟨⟨.inr rfl, filter_none_or _ _, .inr rfl⟩, .inr rfl⟩

theorem coherent (h : Removes a w r w') (hcoherent : w.store.Coherent) : w'.store.Coherent := by
  cases h with
  | kept => exact hcoherent
  | flowless => exact hcoherent
  | portless => rw [World.store_dropPortOf]; exact hcoherent
  | gone =>
    show (Store.erase _ _).Coherent
    exact Store.Coherent.erase (by rw [World.dropLink, World.store_dropPortOf]; exact hcoherent) _

theorem sound (h : Removes a w r w') (hsound : w.Sound nameOf) : w'.Sound nameOf where
  coherent := h.coherent hsound.coherent
  slot n := (hsound.slot n).within (h.within n)

end Removes

/-! ## Restoring -/

namespace Replays

variable {a : Attachment} {r : Except Failure Unit}

theorem store_eq (h : Replays a w r w') : w'.store = w.store := by
  cases h <;> rfl

/-- The slot of the interface gets flows at most. -/
theorem slot_self (h : Replays a w r w') : w'.slot a.interfaceName = w.slot a.interfaceName ∨
    ∃ q m, a.port = some q ∧ (q.ofport = some m ∨ q.ofport = none ∧
        (w.slot a.interfaceName).port.bind Switch.Port.ofport = some m) ∧
      w'.slot a.interfaceName = { w.slot a.interfaceName with flows := some m } := by
  cases h with
  | refused => exact .inl rfl
  | installed hport hofport =>
    refine .inr ⟨_, _, hport, hofport, ?_⟩
    rw [World.slot_putFlows, if_pos rfl]

theorem slot_of_ne (h : Replays a w r w') {n : String} (hn : n ≠ a.interfaceName) :
    w'.slot n = w.slot n := by
  cases h with
  | refused => rfl
  | installed => rw [World.slot_putFlows, if_neg hn]

/-- Records, links and ports stay. -/
theorem slot_flows (h : Replays a w r w') (n : String) :
    ∃ flows, w'.slot n = { w.slot n with flows } := by
  by_cases hn : n = a.interfaceName
  · subst hn
    rcases h.slot_self with hsame | ⟨q, m, -, -, hflows⟩
    · exact ⟨_, hsame⟩
    · exact ⟨_, hflows⟩
  · exact ⟨_, h.slot_of_ne hn⟩

theorem sound (h : Replays a w r w') (hsound : w.Sound nameOf) : w'.Sound nameOf where
  coherent := h.store_eq ▸ hsound.coherent
  slot n := by
    obtain ⟨flows, hslot⟩ := h.slot_flows n
    rw [hslot]
    exact ⟨(hsound.slot n).port, (hsound.slot n).record⟩

end Replays

/-! ## Connecting -/

/-- How connecting an interface can leave its slot. -/
inductive Slot.Connects (k : Conditions) (name : String) (ids : Table String) (s : Slot) :
    Bool → Except Switch.Error Switch.Connected → Slot → Prop
  | refused {x : Switch.Error} (hx : leftPort? x = none) : Connects k name ids s false (.error x) s
  | withdrawn {x : Switch.Error} {flows : Option Nat} (hx : leftPort? x = none)
      (hflows : flows = s.flows ∨ flows = none) :
      Connects k name ids s true (.error x) { s with port := none, flows }
  | left {x : Switch.Error} {ofport flows : Option Nat}
      (hx : leftPort? x = some ⟨k.uuid name, ofport⟩)
      (hofport : ofport = none ∨ ofport = some k.ofport)
      (hflows : flows = s.flows ∨ flows = none ∨ flows = some k.ofport) :
      Connects k name ids s true (.error x) { s with port := some (portFor k name ids), flows }
  | made : Connects k name ids s true (.ok ⟨k.uuid name, k.ofport⟩)
      { s with port := some (portFor k name ids), flows := some k.ofport }

namespace Connects

variable {name : String} {ids : Table String} {made : Bool}
  {r : Except Switch.Error Switch.Connected}

theorem slot_self (h : Connects k name ids w made r w') :
    Slot.Connects k name ids (w.slot name) made r (w'.slot name) := by
  have hput : (w.putPort (portFor k name ids)).slot name =
      { w.slot name with port := some (portFor k name ids) } := by
    rw [World.slot_putPort, portFor, if_pos rfl]
  cases h with
  | refused hx => exact .refused hx
  | withdrawn hx hw =>
    rcases hw with rfl | rfl
    · rw [World.slot_dropPort, hput]
      simp only [portFor, Option.filter_some, bne_self_eq_false, Bool.false_eq_true, if_false]
      exact .withdrawn hx (.inl rfl)
    · rw [World.slot_dropPort, World.slot_dropFlows, if_pos rfl, hput]
      simp only [portFor, Option.filter_some, bne_self_eq_false, Bool.false_eq_true, if_false]
      exact .withdrawn hx (.inr rfl)
  | left hx hofport hw =>
    rcases hw with rfl | rfl | rfl
    · rw [hput]
      exact .left hx hofport (.inl rfl)
    · rw [World.slot_dropFlows, if_pos rfl, hput]
      exact .left hx hofport (.inr (.inl rfl))
    · rw [World.slot_putFlows, if_pos rfl, hput]
      exact .left hx hofport (.inr (.inr rfl))
  | made =>
    rw [World.slot_putFlows, if_pos rfl, hput]
    exact .made

/-- The slot of another interface can only lose a port with the UUID that was handed out. -/
theorem slot_of_ne_filter (h : Connects k name ids w made r w') {n : String} (hn : n ≠ name) :
    w'.slot n = w.slot n ∨ w'.slot n =
      { w.slot n with port := (w.slot n).port.filter fun p => p.uuid != k.uuid name } := by
  have hput : (w.putPort (portFor k name ids)).slot n = w.slot n := by
    rw [World.slot_putPort, portFor, if_neg hn]
  cases h with
  | refused => exact .inl rfl
  | withdrawn hx hw =>
    rcases hw with rfl | rfl
    · exact .inr (by rw [World.slot_dropPort, hput])
    · exact .inr (by rw [World.slot_dropPort, World.slot_dropFlows, if_neg hn, hput])
  | left hx hofport hw =>
    rcases hw with rfl | rfl | rfl
    · exact .inl hput
    · exact .inl (by rw [World.slot_dropFlows, if_neg hn, hput])
    · exact .inl (by rw [World.slot_putFlows, if_neg hn, hput])
  | made => exact .inl (by rw [World.slot_putFlows, if_neg hn, hput])

theorem within_of_ne (h : Connects k name ids w made r w') {n : String} (hn : n ≠ name) :
    (w'.slot n).Within (w.slot n) := by
  rcases h.slot_of_ne_filter hn with hsame | hfilter
  · exact hsame ▸ .refl _
  · rw [hfilter]
    exact ⟨⟨.inr rfl, filter_none_or _ _, .inr rfl⟩, .inr rfl⟩

theorem slot_of_ne (h : Connects k name ids w made r w') (huuid : nameOf (k.uuid name) = name)
    {n : String} (hsound : (w.slot n).Sound nameOf n) (hn : n ≠ name) : w'.slot n = w.slot n := by
  rcases h.slot_of_ne_filter hn with hsame | hfilter
  · exact hsame
  · rw [hfilter, hsound.filter_port (huuid.symm ▸ hn)]

end Connects

/-! ## Attaching -/

/-- How attaching a container can leave the slot of the planned interface. -/
inductive Slot.Attempts (k : Conditions) (c : Cni.Call) (p : Plan) (s : Slot) :
    (made torn : Bool) → Except Cni.CallError Bytes → Slot → Prop
  | unbuilt {f : Failure} : Attempts k c p s false false (.error f.whileConfiguring) s
  | refused {torn : Bool} {f : Failure} : Attempts k c p s false torn (.error f.whileConfiguring)
      { s with link := if torn then some () else none }
  | withdrawn {torn : Bool} {f : Failure} {flows : Option Nat}
      (hflows : flows = s.flows ∨ flows = none) :
      Attempts k c p s true torn (.error f.whileConfiguring)
        { s with link := if torn then some () else none, port := none, flows }
  | recorded {torn : Bool} {f : Failure} {ofport flows : Option Nat} {r : Except Failure Unit}
      {s' : Slot} (hofport : ofport = none ∨ ofport = some k.ofport)
      (hflows : flows = s.flows ∨ flows = none ∨ flows = some k.ofport)
      (hremove : Slot.Removes (p.recorded c ⟨k.uuid p.hostIfname, ofport⟩)
        ⟨some (p.recorded c ⟨k.uuid p.hostIfname, ofport⟩), some (),
          some (portFor k p.hostIfname (p.attachment c).externalIds), flows⟩ r s')
      (htorn : r = .ok () → torn = false) :
      Attempts k c p s true torn (.error f.whileConfiguring) s'
  | attached {bytes : Bytes} : Attempts k c p s true false (.ok bytes)
      ⟨some (p.recorded c ⟨k.uuid p.hostIfname, some k.ofport⟩), some (),
        some (portFor k p.hostIfname (p.attachment c).externalIds), some k.ofport⟩

theorem Slot.Attempts.sound {c : Cni.Call} {p : Plan} {made torn : Bool}
    {x : Except Cni.CallError Bytes} {s s' : Slot} (h : Slot.Attempts k c p s made torn x s')
    (huuid : nameOf (k.uuid p.hostIfname) = p.hostIfname) (hs : s.Sound nameOf p.hostIfname) :
    s'.Sound nameOf p.hostIfname := by
  -- a port that was made, and its record, have the UUID that was handed out
  have hmade : ∀ link ofport flows, Slot.Sound nameOf p.hostIfname
      ⟨some (p.recorded c ⟨k.uuid p.hostIfname, ofport⟩), link,
        some (portFor k p.hostIfname (p.attachment c).externalIds), flows⟩ := by
    intro link ofport flows
    constructor
    · rintro q ⟨⟩
      exact huuid
    · rintro a q ⟨⟩ ⟨⟩
      exact huuid
  cases h with
  | unbuilt => exact hs
  | refused => exact ⟨hs.port, hs.record⟩
  | withdrawn => exact ⟨nofun, hs.record⟩
  | recorded hofport hflows hremove htorn => exact (hmade _ _ _).within hremove.within
  | attached => exact hmade _ _ _

namespace Attempts

variable {c : Cni.Call} {p : Plan} {made torn : Bool} {x : Except Cni.CallError Bytes}

theorem slot_self (h : Attempts k c p w made torn x w') (hcoherent : w.store.Coherent) :
    Slot.Attempts k c p (w.slot p.hostIfname) made torn x (w'.slot p.hostIfname) := by
  have hlink : (w.putLink p.hostIfname).slot p.hostIfname =
      { w.slot p.hostIfname with link := some () } := by rw [World.slot_putLink, if_pos rfl]
  have hrecord : ∀ (w₁ : World) (q : AttachedPort), w₁.store = w.store →
      (w₁.putRecord (p.recorded c q)).slot p.hostIfname =
        { w₁.slot p.hostIfname with record := some (p.recorded c q) } := by
    intro w₁ q hstore
    have hcoherent₁ : w₁.store.Coherent := hstore ▸ hcoherent
    rw [World.slot_putRecord hcoherent₁]
    exact if_pos rfl
  cases h with
  | unbuilt => exact .unbuilt
  | @undone _ _ w₁ hx hconnect =>
    have hself := hconnect.slot_self
    rw [World.slot_dropLink, if_pos rfl]
    generalize w₁.slot p.hostIfname = s₁ at hself ⊢
    rw [hlink] at hself
    cases hself with
    | refused => exact @Slot.Attempts.refused _ _ _ _ false _
    | withdrawn _ hflows => exact @Slot.Attempts.withdrawn _ _ _ _ false _ _ hflows
    | left hx' => cases hx.symm.trans hx'
  | linked hx hconnect =>
    have hself := hconnect.slot_self
    generalize w'.slot p.hostIfname = s₁ at hself ⊢
    rw [hlink] at hself
    cases hself with
    | refused => exact @Slot.Attempts.refused _ _ _ _ true _
    | withdrawn _ hflows => exact @Slot.Attempts.withdrawn _ _ _ _ true _ _ hflows
    | left hx' => cases hx.symm.trans hx'
  | @recorded _ _ q w₁ _ _ hx hconnect hremove htorn =>
    have hself := hconnect.slot_self
    have hremoved := hremove.slot_self
    have hput : (w₁.putRecord (p.recorded c q)).slot p.hostIfname =
        { w₁.slot p.hostIfname with record := some (p.recorded c q) } :=
      hrecord w₁ q hconnect.store_eq
    rw [show (p.recorded c q).interfaceName = p.hostIfname from rfl, hput] at hremoved
    generalize w₁.slot p.hostIfname = s₁ at hself hremoved
    rw [hlink] at hself
    cases hself with
    | withdrawn hx' => cases hx.symm.trans hx'
    | left hx' hofport hflows =>
      obtain rfl := Option.some.inj (hx.symm.trans hx')
      exact .recorded hofport hflows hremoved htorn
  | @attached _ w₁ hconnect =>
    have hself := hconnect.slot_self
    rw [hrecord w₁ _ hconnect.store_eq]
    generalize w₁.slot p.hostIfname = s₁ at hself ⊢
    rw [hlink] at hself
    cases hself with
    | made => exact .attached

/-- In the slots of other interfaces nothing is new. -/
theorem within_of_ne (h : Attempts k c p w made torn x w') (hcoherent : w.store.Coherent)
    {n : String} (hn : n ≠ p.hostIfname) : (w'.slot n).Within (w.slot n) := by
  have hlink : (w.putLink p.hostIfname).slot n = w.slot n := by rw [World.slot_putLink, if_neg hn]
  have hconnects : ∀ {made r w₁}, Connects k p.hostIfname (p.attachment c).externalIds
      (w.putLink p.hostIfname) made r w₁ → (w₁.slot n).Within (w.slot n) :=
    fun h => hlink ▸ h.within_of_ne hn
  have hrecord : ∀ (w₁ : World) (q : AttachedPort), w₁.store = w.store →
      ((w₁.putRecord (p.recorded c q)).slot n).Within (w₁.slot n) := by
    intro w₁ q hstore
    have hcoherent₁ : w₁.store.Coherent := hstore ▸ hcoherent
    rw [World.slot_putRecord hcoherent₁,
      if_neg (show n ≠ (p.recorded c q).interfaceName from hn)]
    exact ⟨⟨.inr rfl, .inr rfl, .inr rfl⟩, filter_none_or _ _⟩
  cases h with
  | unbuilt => exact .refl _
  | undone hx hconnect =>
    rw [World.slot_dropLink, if_neg hn]
    exact hconnects hconnect
  | linked hx hconnect => exact hconnects hconnect
  | recorded hx hconnect hremove htorn =>
    exact ((hremove.within n).trans (hrecord _ _ hconnect.store_eq)).trans (hconnects hconnect)
  | attached hconnect =>
    exact (hrecord _ _ hconnect.store_eq).trans (hconnects hconnect)

/-- No record gives way to that of a container that had none. -/
theorem filter_record (hcoherent : w.store.Coherent) {containerId : String}
    (hnone : w.store.find? containerId = none) (n : String) :
    ((w.slot n).record.filter fun b => b.containerId != containerId) = (w.slot n).record := by
  cases hb : (w.slot n).record with
  | none => rfl
  | some b =>
    have hne := (Store.find?_eq_none_iff hcoherent).1 hnone n b hb
    rw [Option.filter_some, if_pos (by simpa using hne)]

/-- The records of other interfaces stay. -/
theorem record_of_ne (h : Attempts k c p w made torn x w') (hcoherent : w.store.Coherent)
    (hnone : w.store.find? c.containerId = none) {n : String} (hn : n ≠ p.hostIfname) :
    (w'.slot n).record = (w.slot n).record := by
  have hput : ∀ (w₁ : World) (q : AttachedPort), w₁.store = w.store →
      ((w₁.putRecord (p.recorded c q)).slot n).record = (w.slot n).record := by
    intro w₁ q hstore
    have hsame : (w₁.slot n).record = (w.slot n).record := congrArg (Store.get? · n) hstore
    have hcoherent₁ : w₁.store.Coherent := hstore ▸ hcoherent
    rw [World.slot_putRecord hcoherent₁,
      if_neg (show n ≠ (p.recorded c q).interfaceName from hn)]
    show (w₁.slot n).record.filter (fun b => b.containerId != c.containerId) = _
    rw [hsame]
    exact filter_record hcoherent hnone n
  cases h with
  | unbuilt => rfl
  | undone hx hconnect => exact congrArg (Store.get? · n) hconnect.store_eq
  | linked hx hconnect => exact congrArg (Store.get? · n) hconnect.store_eq
  | recorded hx hconnect hremove htorn =>
    rw [← hput _ _ hconnect.store_eq]
    rcases hremove.slot_of_ne_filter (n := n) hn with hsame | hfilter
    · rw [hsame]
    · rw [hfilter]
  | attached hconnect => exact hput _ _ hconnect.store_eq

theorem coherent (h : Attempts k c p w made torn x w') (hcoherent : w.store.Coherent) :
    w'.store.Coherent := by
  have hconnects : ∀ {made r w₁}, Connects k p.hostIfname (p.attachment c).externalIds
      (w.putLink p.hostIfname) made r w₁ → w₁.store.Coherent :=
    fun h => h.store_eq ▸ hcoherent
  cases h with
  | unbuilt => exact hcoherent
  | undone hx hconnect =>
    have hstore := hconnects hconnect
    exact hstore
  | linked hx hconnect => exact hconnects hconnect
  | recorded hx hconnect hremove htorn => exact hremove.coherent ((hconnects hconnect).add _)
  | attached hconnect => exact (hconnects hconnect).add _

theorem sound (h : Attempts k c p w made torn x w')
    (huuid : nameOf (k.uuid p.hostIfname) = p.hostIfname) (hsound : w.Sound nameOf) :
    w'.Sound nameOf where
  coherent := h.coherent hsound.coherent
  slot n := by
    by_cases hn : n = p.hostIfname
    · subst hn
      exact (h.slot_self hsound.coherent).sound huuid (hsound.slot _)
    · exact (hsound.slot n).within (h.within_of_ne hsound.coherent hn)

/-- The slots of other interfaces are as they were: their ports have other UUIDs, and no record is
one of the container that had none. -/
theorem slot_of_ne (h : Attempts k c p w made torn x w')
    (huuid : nameOf (k.uuid p.hostIfname) = p.hostIfname) (hsound : w.Sound nameOf)
    (hnone : w.store.find? c.containerId = none) {n : String} (hn : n ≠ p.hostIfname) :
    w'.slot n = w.slot n := by
  have hlink : (w.putLink p.hostIfname).slot n = w.slot n := by rw [World.slot_putLink, if_neg hn]
  have hconnects : ∀ {made r w₁}, Connects k p.hostIfname (p.attachment c).externalIds
      (w.putLink p.hostIfname) made r w₁ → w₁.slot n = w.slot n := by
    intro made r w₁ h
    rw [h.slot_of_ne huuid (hlink ▸ hsound.slot n) hn, hlink]
  have hrecord : ∀ (w₁ : World) (q : AttachedPort), w₁.store = w.store → w₁.slot n = w.slot n →
      (w₁.putRecord (p.recorded c q)).slot n = w.slot n := by
    intro w₁ q hstore hslot
    have hcoherent₁ : w₁.store.Coherent := hstore ▸ hsound.coherent
    rw [World.slot_putRecord hcoherent₁,
      if_neg (show n ≠ (p.recorded c q).interfaceName from hn), hslot]
    exact congrArg (fun record => { w.slot n with record }) (filter_record hsound.coherent hnone n)
  cases h with
  | unbuilt => rfl
  | undone hx hconnect =>
    rw [World.slot_dropLink, if_neg hn]
    exact hconnects hconnect
  | linked hx hconnect => exact hconnects hconnect
  | @recorded _ _ q w₁ _ _ hx hconnect hremove htorn =>
    have hput := hrecord w₁ q hconnect.store_eq (hconnects hconnect)
    have hport : ∀ q', (p.recorded c q).port = some q' → nameOf q'.uuid = p.hostIfname := by
      rintro q' ⟨⟩
      rw [hconnect.uuid_of_left hx, huuid]
    rw [hremove.slot_of_ne hport (hput ▸ hsound.slot n) hn, hput]
  | attached hconnect => exact hrecord _ _ hconnect.store_eq (hconnects hconnect)

end Attempts

end Agent

end PodAttach
