import PodAttach.Proofs.History
import PodAttach.Proofs.Trace

/-!
# A late Del

Two sandboxes of one pod have the same interface name but different locks, so
a Del for the old one and an Add for the new one work on the same interface
at the same time.  The Del reads its record first and removes by name, so it
may remove what the Add made since.

`Event.Undoes` relates a step that removes something to the step that made
it.  An interface has four parts: `there_or_gone` says of each that it stays
there, unless a step undoes the one that made it.  `Attaching.attached_iff`
puts the parts together: the Add ends attached exactly if no step of the Del
undid one of its steps.

An Add that finds a record of its container makes nothing.  `Finding` is the
invariant of that case: the Del keeps to the territory of its own container,
so it leaves the recorded interface as it is.
-/

namespace PodAttach.Agent

/-- One step takes away what another step made. -/
def Event.Undoes : Event → Event → Prop
  | ⟨.link (.teardown _ n), .ok _⟩, ⟨.link (.build spec), .ok _⟩ => spec.hostIfname = n
  | ⟨.switch (.uninstallFlows n), .ok _⟩, ⟨.switch (.installFlows m _ _ _), .ok _⟩ => m = n
  | ⟨.switch (.deletePort uuid), .ok _⟩, ⟨.switch (.createPort ..), .ok made⟩ => made = uuid
  | ⟨.forget n, _⟩, ⟨.record a, _⟩ => a.interfaceName = n
  | _, _ => False

theorem event_eq {ev : Event} {reply : ev.asked.Reply} (h : ev.reply = reply) :
    ev = ⟨ev.asked, reply⟩ := by
  rw [← h]

/-- What is undone was made. -/
theorem Event.Undoes.makes {later earlier : Event} (h : later.Undoes earlier) :
    ∃ part : Part, part.makes earlier.asked = true := by
  unfold Event.Undoes at h
  split at h
  · exact ⟨.link, rfl⟩
  · exact ⟨.flows, rfl⟩
  · exact ⟨.port, rfl⟩
  · exact ⟨.record, rfl⟩
  · exact h.elim

namespace Part

/-- The steps that take a part away. -/
def takes : Part → Ask → Bool
  | .link, .link (.teardown ..) => true
  | .port, .switch (.deletePort _) => true
  | .flows, .switch (.uninstallFlows _) => true
  | .record, .forget _ => true
  | _, _ => false

/-- Two slots have the same part. -/
def Same : Part → Slot → Slot → Prop
  | .link, s, s' => s'.link = s.link
  | .port, s, s' => s'.port = s.port
  | .flows, s, s' => s'.flows = s.flows
  | .record, s, s' => s'.record = s.record

variable {part : Part} {q : Ask} {s : Slot}

theorem same_ite {c : Prop} [Decidable c] {s₁ s₂ : Slot} (h₁ : part.Same s s₁)
    (h₂ : part.Same s s₂) : part.Same s (if c then s₁ else s₂) := by
  split
  · exact h₁
  · exact h₂

theorem same_perform (hmakes : part.makes q = false) (htakes : part.takes q = false)
    (k : Conditions) (name : String) (s : Slot) : part.Same s (s.perform k name q) := by
  cases q with
  | switch c =>
    cases c <;> cases part <;>
      first | exact rfl | exact same_ite rfl rfl | (cases hmakes; done) | cases htakes
  | link c =>
    cases c <;> cases part <;>
      first | exact rfl | exact same_ite rfl rfl | (cases hmakes; done) | cases htakes
  | record a => cases part <;> first | exact same_ite rfl rfl | cases hmakes
  | forget n => cases part <;> first | exact same_ite rfl rfl | cases htakes
  | _ => cases part <;> exact rfl

/-- Only the steps that make or take a part change it. -/
theorem same_meet (hmakes : part.makes q = false) (htakes : part.takes q = false)
    (k : Conditions) (name : String) (m : Option Mishap) (s : Slot) :
    part.Same s (s.meet k name m q) := by
  have hperform := same_perform hmakes htakes k name s
  cases m with
  | none => exact hperform
  | some m =>
    cases q with
    | switch c =>
      cases c <;> cases part <;> first | exact rfl | exact same_ite rfl rfl | cases hmakes
    | link c => cases part <;> exact rfl
    | _ => exact hperform

end Part

namespace Made

variable {x : Made} {k : Nat → Conditions} {number : Nat} {part : Part}

/-- A part is there, as the Add made it. -/
def There (x : Made) (number : Nat) : Part → Slot → Prop
  | .link, s => s.link = some ()
  | .port, s => s.port = some ⟨x.uuid, x.plan.hostIfname, some number,
      (x.plan.attachment x.call).externalIds⟩
  | .flows, s => s.flows = some x.ofport
  | .record, s => s.record = some x.attachment

/-- A part is not there. -/
def Gone : Part → Slot → Prop
  | .link, s => s.link = none
  | .port, s => s.port = none
  | .flows, s => s.flows = none
  | .record, s => s.record = none

/-- After the step that makes it, a part is there. -/
theorem there_of_step {n : Note} {v : World} {s : Slot} (hevent : n.event = x.step part)
    (hreply : n.event.reply = (v.meet (k n.task) n.mishap n.event.asked).1) :
    x.There (k n.task).ofport part
      (s.meet (k n.task) x.plan.hostIfname n.mishap n.event.asked) := by
  obtain ⟨i, m, ev⟩ := n
  obtain rfl : ev = x.step part := hevent
  cases part with
  | link =>
    cases m with
    | some m => cases hreply
    | none => exact congrArg Slot.link (if_pos rfl)
  | port =>
    cases m with
    | some m => cases hreply
    | none =>
      have huuid : x.uuid = (k i).uuid x.plan.hostIfname := Except.ok.inj hreply
      show _ = _
      rw [huuid]
      exact congrArg Slot.port (if_pos rfl)
  | flows =>
    cases m with
    | some m => cases hreply
    | none => exact congrArg Slot.flows (if_pos rfl)
  | record => cases m <;> exact congrArg Slot.record (if_pos rfl)

theorem There.of_same {s s' : Slot} (h : x.There number part s) (hsame : part.Same s s') :
    x.There number part s' := by
  cases part <;> exact hsame.trans h

theorem Gone.of_same {s s' : Slot} (h : Gone part s) (hsame : part.Same s s') : Gone part s' := by
  cases part <;> exact hsame.trans h

theorem gone_ite {c : Prop} [Decidable c] {p : Part} {s₁ s₂ : Slot} (h₁ : Gone p s₁)
    (h₂ : Gone p s₂) : Gone p (if c then s₁ else s₂) := by
  split
  · exact h₁
  · exact h₂

/-- What undoes the step that makes a part takes the part away. -/
theorem takes_of_undoes {ev : Event} (h : ev.Undoes (x.step part)) :
    part.takes ev.asked = true := by
  unfold Event.Undoes at h
  split at h
  · next hearlier => cases part <;> first | rfl | cases hearlier
  · next hearlier => cases part <;> first | rfl | cases hearlier
  · next hearlier => cases part <;> first | rfl | cases hearlier
  · next hearlier => cases part <;> first | rfl | cases hearlier
  · exact h.elim

/-- A step that does not make a part leaves it there, or undoes what made it. -/
theorem there_or_gone {q : Ask} (hmakes : part.makes q = false) {k : Conditions}
    {m : Option Mishap} (v : World) {s : Slot} (hs : x.There number part s) :
    x.There number part (s.meet k x.plan.hostIfname m q) ∧
        ¬ Event.Undoes ⟨q, (v.meet k m q).1⟩ (x.step part) ∨
      Gone part (s.meet k x.plan.hostIfname m q) ∧
        Event.Undoes ⟨q, (v.meet k m q).1⟩ (x.step part) := by
  cases htakes : part.takes q with
  | false =>
    refine .inl ⟨hs.of_same (Part.same_meet hmakes htakes k _ m s), fun hundoes => ?_⟩
    have htaken : part.takes q = true := takes_of_undoes hundoes
    simp [htakes] at htaken
  | true =>
    unfold Part.takes at htakes
    split at htakes
    · next n =>
      cases m with
      | some m => exact .inl ⟨hs, nofun⟩
      | none =>
        by_cases hn : x.plan.hostIfname = n
        · exact .inr ⟨congrArg Slot.link (if_pos hn), hn⟩
        · exact .inl ⟨(congrArg Slot.link (if_neg hn)).trans hs, hn⟩
    · next uuid =>
      cases m with
      | some m => exact .inl ⟨hs, nofun⟩
      | none =>
        have hport : (s.meet k x.plan.hostIfname none (.switch (.deletePort uuid))).port =
            s.port.filter fun p => p.uuid != uuid := rfl
        by_cases huuid : x.uuid = uuid
        · refine .inr ⟨hport.trans ?_, huuid⟩
          rw [hs, Option.filter_some, if_neg (by simp [huuid])]
        · refine .inl ⟨hport.trans ?_, huuid⟩
          rw [hs, Option.filter_some, if_pos (by simp [huuid])]
    · next n =>
      cases m with
      | some m => exact .inl ⟨hs, nofun⟩
      | none =>
        by_cases hn : x.plan.hostIfname = n
        · exact .inr ⟨congrArg Slot.flows (if_pos hn), hn⟩
        · exact .inl ⟨(congrArg Slot.flows (if_neg hn)).trans hs, hn⟩
    · next n =>
      have hrecord : (s.meet k x.plan.hostIfname m (.forget n)) =
          if x.plan.hostIfname = n then { s with record := none } else s := by cases m <;> rfl
      rw [hrecord]
      by_cases hn : x.plan.hostIfname = n
      · exact .inr ⟨congrArg Slot.record (if_pos hn), hn⟩
      · exact .inl ⟨(congrArg Slot.record (if_neg hn)).trans hs, hn⟩
    · cases htakes

/-- A step that does not make a part leaves it gone. -/
theorem Gone.meet {q : Ask} (hmakes : part.makes q = false) {k : Conditions}
    {m : Option Mishap} {name : String} {s : Slot} (hs : Gone part s) :
    Gone part (s.meet k name m q) := by
  cases htakes : part.takes q with
  | false => exact hs.of_same (Part.same_meet hmakes htakes k name m s)
  | true =>
    unfold Part.takes at htakes
    split at htakes
    · cases m with
      | some m => exact hs
      | none => exact gone_ite (p := .link) rfl hs
    · cases m with
      | some m => exact hs
      | none => exact congrArg (Option.filter _) hs
    · cases m with
      | some m => exact hs
      | none => exact gone_ite (p := .flows) rfl hs
    · cases m <;> exact gone_ite (p := .record) rfl hs
    · cases htakes

theorem not_there_of_gone {s : Slot} (hgone : Gone part s) : ¬ x.There number part s := by
  intro hthere
  cases part <;> cases hthere.symm.trans hgone

/-- What a complete interface with a record has is not gone. -/
theorem not_gone {s : Slot} {a : Attachment} (hrecord : s.record = some a) (hwired : s.Wired)
    (part : Part) : ¬ Gone part s := by
  intro hgone
  obtain ⟨hlink, hflows, hport⟩ := hwired
  cases part with
  | link => cases hlink.symm.trans hgone
  | record => cases hrecord.symm.trans hgone
  | flows =>
    have hnone : s.flows = none := hgone
    rw [hnone] at hflows
    cases hflows
  | port =>
    have hnone : s.port = none := hgone
    rw [← hport, hnone] at hflows
    cases hflows

/-! ## A part over a trace -/

/-- After the step that made it, a part is there as long as no step undoes that one. -/
theorem replay_part {later : List Note}
    (hmakes : ∀ y ∈ later, part.makes y.event.asked = false)
    (hanswered : ∀ y ∈ later, ∃ v : World,
      y.event.reply = (v.meet (k y.task) y.mishap y.event.asked).1)
    {s : Slot} (hs : x.There number part s) :
    x.There number part (replay k x.plan.hostIfname later s) ∧
        (∀ y ∈ later, ¬ y.event.Undoes (x.step part)) ∨
      Gone part (replay k x.plan.hostIfname later s) ∧
        ∃ y ∈ later, y.event.Undoes (x.step part) := by
  induction later with
  | nil => exact .inl ⟨hs, fun y hy => absurd hy List.not_mem_nil⟩
  | cons y later ih =>
    obtain ⟨v, hreply⟩ := hanswered y (by simp)
    have hy := hmakes y (by simp)
    have hrest := ih (fun z hz => hmakes z (by simp [hz])) (fun z hz => hanswered z (by simp [hz]))
    rw [replay_cons]
    rcases hrest with ⟨hthere, hkept⟩ | ⟨hgone, z, hz, hundoes⟩
    · rcases there_or_gone hy v hthere with ⟨hstill, hnot⟩ | ⟨hgone, hundoes⟩
      · refine .inl ⟨hstill, fun z hz => ?_⟩
        rcases List.mem_cons.1 hz with rfl | hz
        · rwa [event_eq hreply]
        · exact hkept z hz
      · exact .inr ⟨hgone, y, by simp, by rwa [event_eq hreply]⟩
    · exact .inr ⟨hgone.meet hy, z, by simp [hz], hundoes⟩

/-- The same from the start of the trace on. -/
theorem replay_split {later earlier : List Note} {n : Note} (hevent : n.event = x.step part)
    (hmakes : ∀ y ∈ later, part.makes y.event.asked = false)
    (hanswered : ∀ y ∈ later ++ n :: earlier, ∃ v : World,
      y.event.reply = (v.meet (k y.task) y.mishap y.event.asked).1) (s : Slot) :
    x.There (k n.task).ofport part (replay k x.plan.hostIfname (later ++ n :: earlier) s) ∧
        (∀ y ∈ later, ¬ y.event.Undoes (x.step part)) ∨
      Gone part (replay k x.plan.hostIfname (later ++ n :: earlier) s) ∧
        ∃ y ∈ later, y.event.Undoes (x.step part) := by
  obtain ⟨v, hreply⟩ := hanswered n (by simp)
  rw [replay_append, replay_cons]
  exact replay_part hmakes (fun y hy => hanswered y (by simp [hy])) (there_of_step hevent hreply)

end Made

/-! ## An Add that is disturbed -/

/-- What removes does not make. -/
theorem makes_of_removes {q : Ask} (hq : q.removes = true) (part : Part) :
    part.makes q = false := by
  unfold Ask.removes at hq
  split at hq <;> first | (cases part <;> rfl) | cases hq

/-- Each part is made once. -/
theorem Made.countP_makes (x : Made) (o : Options) (d : Except DescriptorError Descriptor)
    (part : Part) : (x.log o d).countP (fun ev => part.makes ev.asked) = 1 := by
  cases part <;> rfl

/-- No part is taken away again. -/
theorem Made.takes_of_mem_log {x : Made} {o : Options} {d : Except DescriptorError Descriptor}
    {ev : Event} (hev : ev ∈ x.log o d) (part : Part) : part.takes ev.asked = false := by
  simp only [Made.log, Made.steps, List.mem_cons, List.mem_append, List.not_mem_nil,
    or_false] at hev
  rcases hev with (rfl | rfl | rfl | rfl | rfl | rfl | rfl | rfl) | rfl | rfl <;>
    cases part <;> rfl

theorem Made.step_mem_log (x : Made) (o : Options) (d : Except DescriptorError Descriptor)
    (part : Part) : x.step part ∈ x.log o d := by
  cases part <;> simp [Made.log, Made.steps]

theorem Made.record_of_mem_log {x : Made} {o : Options} {d : Except DescriptorError Descriptor}
    {ev : Event} {a : Attachment} (hev : ev ∈ x.log o d) (ha : ev.asked = .record a) :
    a = x.attachment := by
  simp only [Made.log, Made.steps, List.mem_cons, List.mem_append, List.not_mem_nil,
    or_false] at hev
  rcases hev with (rfl | rfl | rfl | rfl | rfl | rfl | rfl | rfl) | rfl | rfl <;> cases ha
  rfl

theorem Made.eq_step_of_mem_log {x : Made} {o : Options} {d : Except DescriptorError Descriptor}
    {ev : Event} (hev : ev ∈ x.log o d) {part : Part} (hmakes : part.makes ev.asked = true) :
    ev = x.step part := by
  simp only [Made.log, Made.steps, List.mem_cons, List.mem_append, List.not_mem_nil,
    or_false] at hev
  rcases hev with (rfl | rfl | rfl | rfl | rfl | rfl | rfl | rfl) | rfl | rfl <;>
    cases part <;> first | rfl | cases hmakes

/-- The switch gives the number of a port that is there. -/
theorem ofport_of_getOfport {k : Conditions} {n : Note} {v : World} {name : String} {ofport : Nat}
    (hevent : n.event = ⟨.switch (.getOfport name), .ok ofport⟩)
    (hreply : n.event.reply = (v.meet k n.mishap n.event.asked).1) :
    (v.slot name).port.bind Switch.Port.ofport = some ofport := by
  obtain ⟨i, m, ev⟩ := n
  obtain rfl : ev = _ := hevent
  cases m with
  | some m => cases hreply
  | none =>
    have hperform : Except.ok ofport = (v.perform k (.switch (.getOfport name))).1 := hreply
    rw [World.perform_getOfport] at hperform
    split at hperform
    · next hport => rw [hport, Except.ok.inj hperform]
    · cases hperform

/-- No step of one task undid an earlier step of another one. -/
def Together.Spares (s : Together) (i j : Nat) : Prop :=
  s.trace.Pairwise fun later earlier =>
    later.task = i → earlier.task = j → ¬ later.event.Undoes earlier.event

/-- What holds of every element and those before it holds pairwise. -/
theorem pairwise_of_splits {α : Type} {R : α → α → Prop} {l : List α}
    (h : ∀ later a earlier, l = later ++ a :: earlier → ∀ b ∈ later, R b a) : l.Pairwise R := by
  rw [List.pairwise_iff_getElem]
  intro i j hi hj hij
  refine h (l.take j) l[j] (l.drop (j + 1)) ?_ _ ?_
  · rw [← List.drop_eq_getElem_cons hj, List.take_append_drop]
  · exact List.mem_take_iff_getElem.2 ⟨i, by omega, rfl⟩

/-- An attachment that was found of a container is in its slot. -/
theorem attachment_of_attachmentOf {k : Conditions} {n : Note} {v : World} {containerId : String}
    {a : Attachment} (hv : v.store.Coherent)
    (hevent : n.event = ⟨.attachmentOf containerId, some a⟩)
    (hreply : n.event.reply = (v.meet k n.mishap n.event.asked).1) :
    (v.slot a.interfaceName).record = some a ∧ a.containerId = containerId := by
  obtain ⟨i, m, ev⟩ := n
  obtain rfl : ev = _ := hevent
  refine (World.find?_eq_some_iff hv).1 ?_
  cases m <;> exact hreply.symm

/-- A task attached a container that had no record, and the other tasks only took away. -/
structure Attaching (o : Options) (k : Nat → Conditions) (w : World) (s : Together) (i : Nat)
    (x : Made) : Prop where
  traced : Traced k w s
  log : ∃ d, eventsOf i s.trace = x.log o d
  others : ∀ y ∈ s.trace, y.task ≠ i → y.event.asked.removes = true
  fresh : ∀ name a, (w.slot name).record = some a → a.containerId ≠ x.call.containerId

namespace Attaching

variable {o : Options} {k : Nat → Conditions} {w : World} {s : Together} {i : Nat} {x : Made}

/-- At any time after the step that made it, a part is there as long as no step undid that one. -/
theorem part_of_suffix (h : Attaching o k w s i x) (part : Part) {later earlier : List Note}
    {n : Note} (hsuffix : later ++ n :: earlier <:+ s.trace) (htask : n.task = i)
    (hevent : n.event = x.step part) :
    x.There (k i).ofport part
          (replay k x.plan.hostIfname (later ++ n :: earlier) (w.slot x.plan.hostIfname)) ∧
        (∀ y ∈ later, ¬ y.event.Undoes (x.step part)) ∨
      Made.Gone part
          (replay k x.plan.hostIfname (later ++ n :: earlier) (w.slot x.plan.hostIfname)) ∧
        ∃ y ∈ later, y.event.Undoes (x.step part) := by
  subst htask
  refine Made.replay_split hevent (fun y hy => ?_)
    (fun y hy => h.traced.answered (hsuffix.subset hy)) _
  by_cases htask : y.task = n.task
  · -- the log has one step only that makes the part
    obtain ⟨d, hlog⟩ := h.log
    obtain ⟨front, htrace⟩ := hsuffix
    have hcount := x.countP_makes o d part
    have hself : part.makes n.event.asked = true := by rw [hevent]; cases part <;> rfl
    rw [← hlog, ← htrace, eventsOf_append, eventsOf_append, eventsOf_cons_of_eq rfl,
      List.countP_append, List.countP_append,
      List.countP_cons_of_pos (p := fun ev : Event => part.makes ev.asked) hself] at hcount
    have hzero : (eventsOf n.task later).countP (fun ev => part.makes ev.asked) = 0 := by omega
    rw [List.countP_eq_zero] at hzero
    simpa using hzero y.event (mem_eventsOf hy htask)
  · exact makes_of_removes (h.others y (hsuffix.subset (by simp [hy])) htask) part

/-- Every part was made at some time. -/
theorem exists_split (h : Attaching o k w s i x) (part : Part) :
    ∃ later n earlier, s.trace = later ++ n :: earlier ∧ n.task = i ∧
      n.event = x.step part := by
  obtain ⟨d, hlog⟩ := h.log
  obtain ⟨A, B, hAB⟩ := List.append_of_mem (x.step_mem_log o d part)
  obtain ⟨later, n, earlier, htrace, htask, hevent, -⟩ := split_of_eventsOf (hlog.trans hAB)
  exact ⟨later, n, earlier, htrace, htask, hevent⟩

/-- The number in the flows is the one of the port. -/
theorem ofport_eq (h : Attaching o k w s i x) : x.ofport = (k i).ofport := by
  obtain ⟨d, hlog⟩ := h.log
  obtain ⟨later, n, earlier, htrace, htask, hevent, -, hearlier⟩ :=
    split_of_eventsOf (A := [_, _, _]) (hlog.trans (by rfl))
  obtain ⟨later', n', earlier', rfl, htask', hevent', -⟩ :=
    split_of_eventsOf (A := []) hearlier
  obtain ⟨v, -, hv, hreply⟩ := h.traced.faithful later n _ htrace
  have hsuffix : later' ++ n' :: earlier' <:+ s.trace := by
    rw [htrace]
    exact (List.suffix_cons n _).trans (List.suffix_append later _)
  have hport := h.part_of_suffix .port hsuffix htask' hevent'
  rw [← hv] at hport
  -- the switch gave a number, so the port was there
  have hgave := ofport_of_getOfport hevent hreply
  rcases hport with ⟨hthere, -⟩ | ⟨hgone, -⟩
  · have hsome : (v.slot x.plan.hostIfname).port = some _ := hthere
    rw [hsome] at hgave
    exact (Option.some.inj hgave).symm
  · have hnone : (v.slot x.plan.hostIfname).port = none := hgone
    rw [hnone] at hgave
    cases hgave

/-- The container has a record of its interface only. -/
theorem name_eq (h : Attaching o k w s i x) {name : String} {a : Attachment}
    (ha : (s.world.slot name).record = some a) (hc : a.containerId = x.call.containerId) :
    name = x.plan.hostIfname := by
  rw [h.traced.slot] at ha
  rcases replay_record ha with hbefore | ⟨y, hy, hrecord, hname⟩
  · exact absurd hc (h.fresh name a hbefore)
  · by_cases htask : y.task = i
    · obtain ⟨d, hlog⟩ := h.log
      have hmem : y.event ∈ x.log o d := hlog ▸ mem_eventsOf hy htask
      rw [hname, Made.record_of_mem_log hmem hrecord]
      rfl
    · have hremoves := h.others y hy htask
      rw [hrecord] at hremoves
      cases hremoves

/-- At the end, a part is there as long as no step undid the one that made it. -/
theorem part_of_split (h : Attaching o k w s i x) (part : Part) {later earlier : List Note}
    {n : Note} (htrace : s.trace = later ++ n :: earlier) (htask : n.task = i)
    (hevent : n.event = x.step part) :
    x.There (k i).ofport part (s.world.slot x.plan.hostIfname) ∧
        (∀ y ∈ later, ¬ y.event.Undoes (x.step part)) ∨
      Made.Gone part (s.world.slot x.plan.hostIfname) ∧
        ∃ y ∈ later, y.event.Undoes (x.step part) := by
  have hpart := h.part_of_suffix part ⟨[], htrace.symm⟩ htask hevent
  rwa [← htrace, ← h.traced.slot] at hpart

/-- Each part is there, or it is gone, at the end. -/
theorem part (h : Attaching o k w s i x) (part : Part) :
    x.There (k i).ofport part (s.world.slot x.plan.hostIfname) ∨
      Made.Gone part (s.world.slot x.plan.hostIfname) := by
  obtain ⟨later, n, earlier, htrace, htask, hevent⟩ := h.exists_split part
  exact (h.part_of_split part htrace htask hevent).imp And.left And.left

/-- The container is attached if all that was made is there. -/
theorem attached_iff (h : Attaching o k w s i x) :
    s.world.Attached x.call.containerId ↔
      ∀ part, x.There (k i).ofport part (s.world.slot x.plan.hostIfname) := by
  constructor
  · rintro ⟨a, hfound, hlink, hflows, hport⟩ part
    obtain ⟨hslot, hc⟩ := (World.find?_eq_some_iff h.traced.coherent).1 hfound
    have hname := h.name_eq hslot hc
    rw [hname] at hslot hlink hflows hport
    exact (h.part part).resolve_right (Made.not_gone hslot ⟨hlink, hflows, hport⟩ part)
  · intro hall
    have hrecord : (s.world.slot x.attachment.interfaceName).record = some x.attachment :=
      hall .record
    have hport : (s.world.slot x.plan.hostIfname).port = some _ := hall .port
    have hflows : (s.world.slot x.plan.hostIfname).flows = some x.ofport := hall .flows
    refine ⟨x.attachment, (World.find?_eq_some_iff h.traced.coherent).2 ⟨hrecord, rfl⟩,
      hall .link, ?_, ?_⟩
    · show (s.world.slot x.plan.hostIfname).flows.isSome = true
      rw [hflows]
      rfl
    · show (s.world.slot x.plan.hostIfname).port.bind Switch.Port.ofport =
        (s.world.slot x.plan.hostIfname).flows
      rw [hflows, hport, h.ofport_eq]
      rfl

/-- All that was made is there if the other task undid nothing of it. -/
theorem spares_iff (h : Attaching o k w s i x) {j : Nat}
    (hothers : ∀ y ∈ s.trace, y.task ≠ i → y.task = j) :
    s.Spares j i ↔ ∀ part, x.There (k i).ofport part (s.world.slot x.plan.hostIfname) := by
  constructor
  · intro hspares part
    obtain ⟨later, n, earlier, htrace, htask, hevent⟩ := h.exists_split part
    rcases h.part_of_split part htrace htask hevent with ⟨hthere, -⟩ | ⟨-, y, hy, hundoes⟩
    · exact hthere
    · -- the step that undid it is one of the other task
      exfalso
      have hmem : y ∈ s.trace := by simp [htrace, hy]
      have hother : y.task ≠ i := by
        intro htask
        obtain ⟨d, hlog⟩ := h.log
        have hkept := Made.takes_of_mem_log (hlog ▸ mem_eventsOf hmem htask) part
        simp [Made.takes_of_undoes hundoes] at hkept
      unfold Together.Spares at hspares
      rw [htrace] at hspares
      have hpairs := (List.pairwise_append.1 hspares).2.2 y hy n (by simp)
      exact hpairs (hothers y hmem hother) htask (hevent ▸ hundoes)
  · intro hall
    refine pairwise_of_splits fun later n earlier htrace y hy htask' htask hundoes => ?_
    obtain ⟨d, hlog⟩ := h.log
    obtain ⟨part, hmakes⟩ := hundoes.makes
    have hmem : n ∈ s.trace := by simp [htrace]
    have hevent := Made.eq_step_of_mem_log (hlog ▸ mem_eventsOf hmem htask) hmakes
    rcases h.part_of_split part htrace htask hevent with ⟨-, hkept⟩ | ⟨hgone, -⟩
    · exact hkept y hy (hevent ▸ hundoes)
    · exact Made.not_there_of_gone hgone (hall part)

end Attaching

/-! ## An Add that finds a record -/

/-- The steps of one who only looks. -/
def Ask.looks : Ask → Bool
  | .awaitReady _ => true
  | .acquire .. => true
  | .release _ => true
  | .descriptor .. => true
  | .attachmentOf _ => true
  | _ => false

theorem meet_of_looks {q : Ask} (hq : q.looks = true) (k : Conditions) (w : World)
    (m : Option Mishap) : (w.meet k m q).2 = w := by
  unfold Ask.looks at hq
  split at hq <;> first | (cases m <;> rfl) | cases hq

/-- The rules of one who only looks, where a container has an attachment. -/
def finding (containerId : String) (a : Attachment) : Proc.Rules Ask Ask.Reply Unit where
  asks q _ := q.looks = true
  answers q _ reply _ :=
    ∀ found, (⟨q, reply⟩ : Event) = ⟨.attachmentOf containerId, found⟩ → found = some a

/-- An Add for a container that has an attachment only looks. -/
theorem add_finding {o : Options} {r : Cni.Request} {c : Cni.Call} {a : Attachment}
    (hcommand : r.command = .add) (hdecode : decode o r.args = .ok c) (hinfra : c.isInfra = true) :
    (handle o r).Ensures (finding c.containerId a) () fun _ _ => True := by
  have hlocked : (addLocked c).Ensures (finding c.containerId a) () fun _ _ => True := by
    unfold addLocked
    rw [Proc.ensures_bind]
    refine Proc.ensures_question.2 ⟨rfl, fun reply _ _ => ?_⟩
    cases reply with
    | error x => trivial
    | ok v =>
      cases hplan : Plan.resolve c v with
      | error x => simp only [hplan]; trivial
      | ok rp =>
        simp only [hplan, hinfra, if_true]
        rw [Proc.ensures_bind]
        refine Proc.ensures_question.2 ⟨rfl, fun found _ hfound => ?_⟩
        obtain rfl := hfound found rfl
        trivial
  unfold handle serve
  rw [Proc.ensures_map, hcommand]
  simp only [add, hdecode]
  rw [Proc.ensures_bind]
  refine Proc.ensures_question.2 ⟨rfl, fun ready _ _ => ?_⟩
  cases ready with
  | false => trivial
  | true =>
    simp only [if_true, locked]
    rw [Proc.ensures_bind]
    refine Proc.ensures_question.2 ⟨rfl, fun had _ _ => ?_⟩
    cases had with
    | false => trivial
    | true =>
      refine hlocked.bind fun outcome _ _ => ?_
      rw [Proc.ensures_bind]
      exact Proc.ensures_question.2 ⟨rfl, fun _ _ _ => trivial⟩

/-- A task only looks at an attachment that the other tasks have nothing to do with. -/
structure Finding (T : Nat → Territory) (limit : Option Duration) (i : Nat) (containerId : String)
    (a : Attachment) (slot : Slot) (s : Together) : Prop where
  keeps : s.Keeps T limit
  work : ∀ t, s.tasks[i]? = some t → t.work.Ensures (finding containerId a) () fun _ _ => True
  slot : s.world.slot a.interfaceName = slot

theorem Finding.step {T : Nat → Territory} {limit : Option Duration} {i : Nat}
    {containerId : String} {a : Attachment} {slot : Slot} {s : Together}
    (h : Finding T limit i containerId a slot s) (hrecord : slot.record = some a)
    (hcontainer : a.containerId = containerId)
    (hothers : ∀ j, j ≠ i → j < s.tasks.length → ¬ (T j).owns a.interfaceName) (j : Nat) :
    Finding T limit i containerId a slot (s.step j) := by
  have hkeeps := h.keeps.step j
  rcases s.step_cases j with ⟨arbiter, hstep, -⟩ | ⟨t, q, next, ht, hwork, -, hstep⟩
  · rw [hstep] at hkeeps ⊢
    exact ⟨hkeeps, h.work, h.slot⟩
  · rw [hstep] at hkeeps ⊢
    by_cases hij : j = i
    · subst hij
      obtain ⟨hlooks, hnext⟩ := hwork ▸ h.work t ht
      have hworld : (s.world.meet t.conditions (t.conditions.mishap t.log.length) q).2 = s.world :=
        meet_of_looks hlooks _ _ _
      refine ⟨hkeeps, fun t' ht' => ?_, ?_⟩
      · rcases Together.answer_tasks ht' with ⟨-, rfl⟩ | ⟨hne, -⟩
        · refine hnext _ _ fun found hfound => ?_
          obtain ⟨rfl, hreply⟩ := Event.mk.inj hfound
          rw [← eq_of_heq hreply]
          have hfind : s.world.store.find? containerId = some a :=
            (World.find?_eq_some_iff (h.keeps.covers j t ht).coherent).2
              ⟨(congrArg Slot.record h.slot).trans hrecord, hcontainer⟩
          cases t.conditions.mishap t.log.length <;> exact hfind
        · exact absurd rfl hne
      · show (s.world.meet _ _ q).2.slot _ = _
        rw [hworld, h.slot]
    · refine ⟨hkeeps, fun t' ht' => ?_, ?_⟩
      · rcases Together.answer_tasks ht' with ⟨rfl, -⟩ | ⟨-, hold⟩
        · exact absurd rfl hij
        · exact h.work t' hold
      · have hlt : j < s.tasks.length := (List.getElem?_eq_some_iff.1 ht).1
        obtain ⟨-, -, houtside⟩ := (h.keeps.covers j t ht).step (h.keeps.uuid j t ht)
          (h.keeps.asks ht hwork) (t.conditions.mishap t.log.length)
        exact (houtside _ (hothers j hij hlt)).trans h.slot

/-! ## A Del and an Add -/

/-- A request asks what it ensures to ask. -/
theorem asks_run {o : Options} (w : World) {turns : List Turn} {i : Nat} {t : Turn}
    {may : Ask → Prop} {post : Cni.Response → List Event → Prop} (ht : turns[i]? = some t)
    (h : (handle o t.request).Ensures (asking may) [] post) (schedule : List Nat) :
    ((Together.start o w turns).run schedule).Asks i may post := by
  refine Together.run_induction (fun s j hs => hs.step j) (fun t' ht' => ?_) schedule
  obtain ⟨turn, hturn, rfl⟩ := Together.start_task ht'
  obtain rfl : t = turn := Option.some.inj (ht.symm.trans hturn)
  exact ⟨h, fun ev hev => absurd hev List.not_mem_nil⟩

/-- An Add finds no record where none was at the start and no other task writes one. -/
theorem Traced.foundLog_ne {o : Options} {k : Nat → Conditions} {w : World} {s : Together}
    (h : Traced k w s) {i : Nat} {c : Cni.Call} {d : Except DescriptorError Descriptor}
    {a : Attachment}
    (hfresh : ∀ name b, (w.slot name).record = some b → b.containerId ≠ c.containerId)
    (hothers : ∀ y ∈ s.trace, y.task ≠ i → y.event.asked.removes = true) :
    eventsOf i s.trace ≠ foundLog o c d a := by
  intro hfound
  obtain ⟨later, n, earlier, htrace, htask, hevent, -, hearlier⟩ :=
    split_of_eventsOf (A := [_]) hfound
  obtain ⟨v, hv, hslot, hreply⟩ := h.faithful later n earlier htrace
  obtain ⟨hrecord, hc⟩ := attachment_of_attachmentOf hv hevent hreply
  rw [hslot] at hrecord
  rcases replay_record hrecord with hstart | ⟨y, hy, hasked, -⟩
  · exact hfresh _ a hstart hc
  · -- the record was written by a step before
    by_cases htask' : y.task = i
    · have hmem := mem_eventsOf hy htask'
      rw [hearlier] at hmem
      simp only [List.mem_cons, List.not_mem_nil, or_false] at hmem
      rcases hmem with heq | heq | heq <;> rw [heq] at hasked <;> cases hasked
    · have hremoved := hothers y (by simp [htrace, hy]) htask'
      rw [hasked] at hremoved
      cases hremoved

section

variable {o : Options} {w : World} {nameOf : String → String} {del add : Turn}
  {c₁ c₂ : Cni.Call} {schedule : List Nat} {response : Cni.Response}

/-- An Add that succeeds next to a Del attaches its container, if that had no record. -/
theorem attaching_of_answers (hcoherent : w.store.Coherent) (hdel : del.request.command = .del)
    (hadd : add.request.command = .add) (hdecode : decode o add.request.args = .ok c₂)
    (hinfra : c₂.isInfra = true) (hnone : w.store.find? c₂.containerId = none)
    (hanswers : ((Together.start o w [del, add]).run schedule).response? 1 = some response)
    (hok : response.isOk = true) :
    ∃ x : Made, x.call = c₂ ∧
      Attaching o (fun i => if i = 0 then del.conditions else add.conditions) w
        ((Together.start o w [del, add]).run schedule) 1 x ∧
      ∀ y ∈ ((Together.start o w [del, add]).run schedule).trace, y.task ≠ 1 → y.task = 0 := by
  have htraced : Traced (fun i => if i = 0 then del.conditions else add.conditions) w
      ((Together.start o w [del, add]).run schedule) := by
    refine Together.run_induction (fun s j hs => hs.step j) (traced_start hcoherent ?_) schedule
    intro i t ht
    match i, ht with
    | 0, ht => obtain rfl := Option.some.inj ht; rfl
    | 1, ht => obtain rfl := Option.some.inj ht; rfl
  have hlength := Together.length_run o w [del, add] schedule
  have hdelTurn : [del, add][0]? = some del := rfl
  have hremoves := asks_run w hdelTurn (del_removes (o := o) hdel) schedule
  have haddTurn : [del, add][1]? = some add := rfl
  have hsteps := asks_run w haddTurn (add_log hadd hdecode hinfra) schedule
  generalize (Together.start o w [del, add]).run schedule = s at *
  have htasks : ∀ y ∈ s.trace, y.task ≠ 1 → y.task = 0 := by
    intro y hy hne
    have hlt := htraced.task y hy
    rw [hlength, List.length_cons, List.length_singleton] at hlt
    omega
  have hothers : ∀ y ∈ s.trace, y.task ≠ 1 → y.event.asked.removes = true := by
    intro y hy hne
    have hzero := htasks y hy hne
    obtain ⟨t, ht⟩ : ∃ t, s.tasks[0]? = some t :=
      ⟨_, List.getElem?_eq_getElem (by rw [hlength]; simp)⟩
    refine (hremoves t ht).2 y.event ?_
    rw [htraced.log 0 t ht]
    exact mem_eventsOf hy hzero
  have hfresh : ∀ name a, (w.slot name).record = some a → a.containerId ≠ c₂.containerId :=
    (Store.find?_eq_none_iff hcoherent).1 hnone
  obtain ⟨t, ht, hwork⟩ := Together.response?_eq_some_iff.1 hanswers
  have hlog := (hsteps t ht).1
  rw [hwork] at hlog
  rw [htraced.log 1 t ht] at hlog
  obtain ⟨d, ⟨a, hfound⟩ | ⟨v, res, x, -, rfl, -, hlog, -⟩⟩ := hlog hok
  · exact absurd hfound (htraced.foundLog_ne hfresh hothers)
  · exact ⟨x, rfl, ⟨htraced, ⟨d, hlog⟩, hothers, hfresh⟩, htasks⟩

/-- Next to the Del of another sandbox, an Add that finds a record leaves its interface. -/
theorem finding_run (schedule : List Nat) (hsound : w.Sound nameOf)
    (huuid : ∀ t ∈ [del, add], ∀ n, nameOf (t.conditions.uuid n) = n)
    (hdel : del.request.command = .del) (hdecode₁ : decode o del.request.args = .ok c₁)
    (hinfra₁ : c₁.isInfra = true) (hadd : add.request.command = .add)
    (hdecode₂ : decode o add.request.args = .ok c₂) (hinfra₂ : c₂.isInfra = true)
    (hne : c₁.containerId ≠ c₂.containerId) {a : Attachment}
    (ha : w.store.find? c₂.containerId = some a) :
    ((Together.start o w [del, add]).run schedule).world.slot a.interfaceName =
        w.slot a.interfaceName ∧
      ((Together.start o w [del, add]).run schedule).world.store.Coherent := by
  obtain ⟨hrecord, hcontainer⟩ := (World.find?_eq_some_iff hsound.coherent).1 ha
  have howns : ¬ (territoryAt o w [del, add] nameOf 0).owns a.interfaceName := by
    have hsandbox : sandboxOf o del.request = c₁.containerId := by
      simp only [sandboxOf, hdecode₁]
      exact infraContainerId_of_isInfra hdecode₁ hinfra₁
    rw [territoryAt_eq (t := del) rfl, hsandbox]
    rintro (⟨b, hb, hc⟩ | ⟨t, ht, c, res, p, hplans, hc, -⟩)
    · -- the record is the one of the other sandbox
      obtain rfl : a = b := Option.some.inj (hrecord.symm.trans hb)
      exact hne (hc.symm.trans hcontainer)
    · rcases List.mem_cons.1 ht with rfl | ht
      · cases hdel.symm.trans hplans.command
      · obtain rfl : t = add := List.mem_singleton.1 ht
        obtain rfl : c₂ = c := Except.ok.inj (hdecode₂.symm.trans hplans.decoded)
        exact hne hc.symm
  have hstart : Finding (territoryAt o w [del, add] nameOf) o.lockTimeout 1 c₂.containerId a
      (w.slot a.interfaceName) (.start o w [del, add]) := by
    refine ⟨keeps_start hsound huuid, fun t ht => ?_, rfl⟩
    obtain ⟨turn, hturn, rfl⟩ := Together.start_task ht
    obtain rfl : add = turn := Option.some.inj hturn
    exact add_finding hadd hdecode₂ hinfra₂
  obtain ⟨hfinding, hlength⟩ := Together.run_induction
    (P := fun s => Finding (territoryAt o w [del, add] nameOf) o.lockTimeout 1 c₂.containerId a
      (w.slot a.interfaceName) s ∧ s.tasks.length = 2)
    (fun s j hs => ⟨hs.1.step hrecord hcontainer (fun j hj hlt => by
      obtain rfl : j = 0 := by omega
      exact howns) j, (s.length_step j).trans hs.2⟩) ⟨hstart, rfl⟩ schedule
  have hcovers := hfinding.keeps.covers 0 _ (List.getElem?_eq_getElem (by omega))
  exact ⟨hfinding.slot, hcovers.coherent⟩

/-- A Del for one sandbox and an Add for another one take their steps in any order, and the Add
succeeds.  If its container had no record, then it is attached at the end exactly if no step of
the Del undid an earlier step of the Add.  If it had one, then its interface is as it was, and it
is attached exactly if it was. -/
theorem successful_add_attached_iff_spared (hsound : w.Sound nameOf)
    (huuid : ∀ t ∈ [del, add], ∀ n, nameOf (t.conditions.uuid n) = n)
    (hdel : del.request.command = .del) (hdecode₁ : decode o del.request.args = .ok c₁)
    (hinfra₁ : c₁.isInfra = true) (hadd : add.request.command = .add)
    (hdecode₂ : decode o add.request.args = .ok c₂) (hinfra₂ : c₂.isInfra = true)
    (hne : c₁.containerId ≠ c₂.containerId)
    (hanswers : ((Together.start o w [del, add]).run schedule).response? 1 = some response)
    (hok : response.isOk = true) :
    (w.store.find? c₂.containerId = none →
        (((Together.start o w [del, add]).run schedule).world.Attached c₂.containerId ↔
          ((Together.start o w [del, add]).run schedule).Spares 0 1)) ∧
      ∀ a, w.store.find? c₂.containerId = some a →
        ((Together.start o w [del, add]).run schedule).world.slot a.interfaceName =
            w.slot a.interfaceName ∧
          (((Together.start o w [del, add]).run schedule).world.Attached c₂.containerId ↔
            w.Attached c₂.containerId) := by
  refine ⟨fun hnone => ?_, fun a ha => ?_⟩
  · obtain ⟨x, rfl, hattaching, htasks⟩ := attaching_of_answers hsound.coherent hdel hadd hdecode₂
      hinfra₂ hnone hanswers hok
    rw [hattaching.attached_iff, hattaching.spares_iff htasks]
  · obtain ⟨hrecord, hcontainer⟩ := (World.find?_eq_some_iff hsound.coherent).1 ha
    have hfinding := finding_run schedule hsound huuid hdel hdecode₁ hinfra₁ hadd hdecode₂
      hinfra₂ hne ha
    have hfound : ((Together.start o w [del, add]).run schedule).world.store.find?
        c₂.containerId = some a := by
      refine (World.find?_eq_some_iff hfinding.2).2 ⟨?_, hcontainer⟩
      exact (congrArg Slot.record hfinding.1).trans hrecord
    refine ⟨hfinding.1, ?_⟩
    unfold World.Attached
    simp only [hfound, ha, Option.some.injEq, exists_eq_left', hfinding.1]

end

namespace Sample

/-- A node where the sandbox of a pod is attached, but its link has vanished. -/
def vanished : World :=
  { (serveAlone {} (conditions fun _ => none) ⟨.add, args "c1"⟩ {}).2.world with pairs := .empty }

theorem sound_vanished : vanished.Sound nameOf := by
  obtain ⟨-, -, hsound, -⟩ := serveAlone_settled (o := {}) (k := conditions fun _ => none)
    (r := ⟨.add, args "c1"⟩) nameOf_uuidOf (World.sound_empty nameOf)
  exact ⟨hsound.coherent, fun n => ⟨(hsound.slot n).port, (hsound.slot n).record⟩⟩

/-- The sandbox is removed. -/
def lateDel : Turn :=
  ⟨⟨.del, args "c1"⟩, conditions fun _ => none⟩

/-- A new sandbox of the same pod is added. -/
def newAdd : Turn :=
  ⟨⟨.add, args "c2"⟩, conditions fun _ => none⟩

/-- The Del reads the record that it removes, then all of the Add goes on before the Del does. -/
def overtaking : List Nat :=
  [0, 0] ++ List.replicate 10 1 ++ List.replicate 5 0

end Sample

/-- A Del that read the record of its sandbox before the Add of a new one goes on to remove all
that this Add made for the pod. -/
theorem successful_add_undone_by_late_del :
    ∃ response,
      ((Together.start {} Sample.vanished [Sample.lateDel, Sample.newAdd]).run
        Sample.overtaking).response? 1 = some response ∧ response.isOk = true ∧
      ((Together.start {} Sample.vanished [Sample.lateDel, Sample.newAdd]).run
        Sample.overtaking).world.slot Sample.name = .clear ∧
      ¬ ((Together.start {} Sample.vanished [Sample.lateDel, Sample.newAdd]).run
        Sample.overtaking).Spares 0 1 := by
  have hok : (((Together.start {} Sample.vanished [Sample.lateDel, Sample.newAdd]).run
      Sample.overtaking).response? 1).any Cni.Response.isOk = true := by decide +kernel
  have hclear : ((Together.start {} Sample.vanished [Sample.lateDel, Sample.newAdd]).run
      Sample.overtaking).world.slot Sample.name = .clear := by decide +kernel
  have hnot : ¬ ((Together.start {} Sample.vanished [Sample.lateDel, Sample.newAdd]).run
      Sample.overtaking).world.Attached (Sample.call "c2").containerId := by decide +kernel
  obtain ⟨response, hresponse, hisOk⟩ := (Option.any_eq_true ..).1 hok
  refine ⟨response, hresponse, hisOk, hclear, fun hspares => hnot ?_⟩
  have hdecode : ∀ c ∈ ["c1", "c2"], decode {} (Sample.args c) = .ok (Sample.call c) := by
    intro c hc
    refine Sample.eq_ok_getD ?_ default
    simp only [List.mem_cons, List.not_mem_nil, or_false] at hc
    rcases hc with rfl | rfl <;> decide +kernel
  refine ((successful_add_attached_iff_spared Sample.sound_vanished
    (fun t ht n => ?_) rfl (hdecode "c1" (by simp)) (by decide +kernel) rfl
    (hdecode "c2" (by simp)) (by decide +kernel) (by decide +kernel) hresponse hisOk).1
    (by decide +kernel)).2 hspares
  rcases List.mem_cons.1 ht with rfl | ht
  · exact Sample.nameOf_uuidOf n
  · obtain rfl := List.mem_singleton.1 ht
    exact Sample.nameOf_uuidOf n

end PodAttach.Agent
