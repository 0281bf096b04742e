import PodAttach.Agent.Reconcile
import PodAttach.Proofs.Slots

/-!
# A pass over all attachments

A pass of the reconciliation goes over the attachments that were listed when
it began, one after the other.  This module says what it can come to.

* `passAlone` is a pass that no other activity disturbs.
* `Passes` lists what is done for one attachment after the other: a desired one is
  restored, another one is removed.  `foldlM_ends` is the induction over the list.
* `Passes.slot`: each interface is dealt with once, and alone, as `Slot.Passes` says.
* `passAlone_slot` and `passAlone_invariant` put this together for the whole pass.
-/

namespace PodAttach.Agent

open Activity

variable {k : Conditions} {allows : Event → Prop} {e : Episode}

/-- A pass that no other activity disturbs. -/
def passAlone (k : Conditions) (w : World) : Except Failure Report × Episode :=
  reconcile.run (Episode.answer k) ⟨w, []⟩

/-! ## Single steps -/

theorem ensures_pods {post : Except DescriptorError (List PodRef) → Episode → Prop} :
    pods.Ensures (mayAnswer k allows) e post ↔
      (allows ⟨.pods, k.pods⟩ → post k.pods (e.push e.world .pods k.pods)) :=
  ensures_sure fun m _ => by cases m <;> rfl

theorem ensures_attachment {name : String} {post : Option Attachment → Episode → Prop} :
    (attachment name).Ensures (mayAnswer k allows) e post ↔
      (allows ⟨.attachment name, e.world.store.get? name⟩ →
        post (e.world.store.get? name)
          (e.push e.world (.attachment name) (e.world.store.get? name))) :=
  ensures_sure fun m _ => by cases m <;> rfl

theorem ensures_attachments {post : List Attachment → Episode → Prop} :
    attachments.Ensures (mayAnswer k allows) e post ↔
      (allows ⟨.attachments, e.world.store.list⟩ →
        post e.world.store.list (e.push e.world .attachments e.world.store.list)) :=
  ensures_sure fun m _ => by cases m <;> rfl

/-- What is ensured for some answers is ensured for fewer. -/
theorem ensures_of_imp {α : Type} {p : Activity α} {allows' : Event → Prop}
    {post : α → Episode → Prop} (h : p.Ensures (mayAnswer k allows') e post)
    (himp : ∀ ev, allows ev → allows' ev) : p.Ensures (mayAnswer k allows) e post := by
  induction p generalizing e with
  | done a => exact h
  | ask q next ih =>
    refine ⟨trivial, fun reply e' hanswer => ih reply (h.2 reply e' ?_)⟩
    exact ⟨himp _ hanswer.1, hanswer.2⟩

/-! ## One attachment after the other -/

variable {keys : List String} {well : Prop}

/-- What dealing with one attachment can come to.  If it goes `well`, then a removal succeeds. -/
inductive Restores (keys : List String) (well : Prop) (a : Attachment) (w : World) : World → Prop
  | replayed {x : Except Failure Unit} {w' : World} (hkey : keys.contains a.podKey = true)
      (hreplay : Replays a w x w') : Restores keys well a w w'
  | removed {x : Except Failure Unit} {w' : World} (hkey : keys.contains a.podKey = false)
      (hremove : Removes a w x w') (hwell : well → x = .ok ()) : Restores keys well a w w'

theorem restore_ends (hwell : well → ∀ ev, allows ev → ev.UndoesWell) {r : Report}
    {a : Attachment} :
    (restore keys r a).Ensures (mayAnswer k allows) e fun _ e' =>
      Restores keys well a e.world e'.world := by
  unfold restore
  split
  · next hkey =>
    refine reconnect_ends.bind ?_
    intro x e' hreplay
    cases x <;> exact .replayed hkey hreplay
  · next hkey =>
    have hremove : (remove a).Ensures (mayAnswer k allows) e fun x e' =>
        Removes a e.world x e'.world ∧ (well → x = .ok ()) := by
      by_cases h : well
      · refine (ensures_of_imp remove_well (hwell h)).mono ?_
        exact fun x e' hends => ⟨hends.2, fun _ => hends.1⟩
      · exact remove_ends.mono fun x e' hends => ⟨hends.1, fun h' => absurd h' h⟩
    refine hremove.bind ?_
    rintro x e' ⟨hends, hok⟩
    cases x <;> exact .removed (by simpa using hkey) hends hok

/-- What a pass over some attachments can come to. -/
inductive Passes (keys : List String) (well : Prop) : List Attachment → World → World → Prop
  | done {w : World} : Passes keys well [] w w
  /-- The attachment is not the one any more that was listed. -/
  | changed {a : Attachment} {as : List Attachment} {w w' : World}
      (ha : w.store.get? a.interfaceName ≠ some a) (hrest : Passes keys well as w w') :
      Passes keys well (a :: as) w w'
  | restored {a : Attachment} {as : List Attachment} {w w₁ w' : World}
      (ha : w.store.get? a.interfaceName = some a) (hrestore : Restores keys well a w w₁)
      (hrest : Passes keys well as w₁ w') :
      Passes keys well (a :: as) w w'

theorem foldlM_ends (hwell : well → ∀ ev, allows ev → ev.UndoesWell) (as : List Attachment)
    {r : Report} :
    (as.foldlM (reconcileOne keys) r).Ensures (mayAnswer k allows) e fun _ e' =>
      Passes keys well as e.world e'.world := by
  induction as generalizing r e with
  | nil => exact .done
  | cons a as ih =>
    rw [List.foldlM_cons, Proc.ensures_bind, reconcileOne, Proc.ensures_bind, ensures_acquire]
    intro _
    rw [Proc.ensures_bind, ensures_attachment]
    intro _
    split
    · next ha =>
      refine (restore_ends hwell).bind ?_
      intro r' e' hrestore
      rw [Proc.ensures_bind, ensures_release]
      exact fun _ => ih.mono fun _ e'' hrest => .restored ha hrestore hrest
    · next ha =>
      show (release a.containerId >>= fun _ => pure r).Ensures _ _ _
      rw [Proc.ensures_bind, ensures_release]
      exact fun _ => ih.mono fun _ e'' hrest => .changed ha hrest

/-- A pass that cannot list the pods does nothing.  Otherwise it goes over the attachments that
there are when it begins; and if no call fails, then all removals succeed. -/
theorem passAlone_ends (k : Conditions) (w : World) :
    (∃ x, k.pods = .error x) ∧ (passAlone k w).2.world = w ∨
      ∃ ps, k.pods = .ok ps ∧ Passes (desired ps) (∀ place, k.mishap place = none) w.store.list w
        (passAlone k w).2.world := by
  cases hpods : k.pods with
  | error x =>
    refine .inl ⟨⟨x, rfl⟩, ?_⟩
    have hends : reconcile.Ensures (mayAnswer k fun _ => True) ⟨w, []⟩ fun _ e' =>
        e'.world = w := by
      unfold reconcile
      rw [Proc.ensures_bind, ensures_pods, hpods]
      exact fun _ => rfl
    exact run_of_ensures hends fun _ _ => trivial
  | ok ps =>
    refine .inr ⟨ps, rfl, ?_⟩
    -- the answers that may be had: any, or those of calls that meet no mishap
    have hends : ∀ allows : Event → Prop,
        ((∀ place, k.mishap place = none) → ∀ ev, allows ev → ev.UndoesWell) →
        reconcile.Ensures (mayAnswer k allows) ⟨w, []⟩ fun _ e' =>
          Passes (desired ps) (∀ place, k.mishap place = none) w.store.list w e'.world := by
      intro allows hwell
      unfold reconcile
      rw [Proc.ensures_bind, ensures_pods, hpods]
      intro _
      dsimp only
      rw [Proc.ensures_bind, ensures_attachments]
      intro _
      exact (foldlM_ends hwell _).bind fun _ _ hpasses => hpasses
    by_cases hwell : ∀ place, k.mishap place = none
    · exact run_of_ensures (hends Event.UndoesWell fun _ _ h => h)
        (undoesWell_run hwell _ (by simp))
    · exact run_of_ensures (hends (fun _ => True) fun h => absurd h hwell) fun _ _ => trivial

/-! ## Each interface once -/

/-- What a pass can leave of the slot of an interface. -/
inductive Slot.Passes (keys : List String) (well : Prop) (s : Slot) : Slot → Prop
  /-- There is no record, or its flows could not be installed. -/
  | same (hkey : ∀ a, s.record = some a → keys.contains a.podKey = true) : Passes keys well s s
  | replayed {a : Attachment} {q : AttachedPort} {m : Nat} (ha : s.record = some a)
      (hkey : keys.contains a.podKey = true) (hport : a.port = some q)
      (hofport : q.ofport = some m ∨ q.ofport = none ∧ s.port.bind Switch.Port.ofport = some m) :
      Passes keys well s { s with flows := some m }
  | removed {a : Attachment} {x : Except Failure Unit} {s' : Slot} (ha : s.record = some a)
      (hkey : keys.contains a.podKey = false) (hremove : Slot.Removes a s x s')
      (hwell : well → x = .ok ()) : Passes keys well s s'

namespace Restores

variable {nameOf : String → String} {a : Attachment} {w w' : World}

theorem slot_self (h : Restores keys well a w w') (ha : w.store.get? a.interfaceName = some a) :
    Slot.Passes keys well (w.slot a.interfaceName) (w'.slot a.interfaceName) := by
  cases h with
  | replayed hkey hreplay =>
    rcases hreplay.slot_self with hsame | ⟨q, m, hport, hofport, hflows⟩
    · rw [hsame]
      refine .same fun b hb => ?_
      rw [← Option.some.inj (ha.symm.trans hb)]
      exact hkey
    · rw [hflows]
      exact .replayed ha hkey hport hofport
  | removed hkey hremove hwell => exact .removed ha hkey hremove.slot_self hwell

theorem slot_of_ne (h : Restores keys well a w w') (hsound : w.Sound nameOf)
    (ha : w.store.get? a.interfaceName = some a) {n : String} (hn : n ≠ a.interfaceName) :
    w'.slot n = w.slot n := by
  cases h with
  | replayed hkey hreplay => exact hreplay.slot_of_ne hn
  | removed hkey hremove hwell =>
    exact hremove.slot_of_ne (fun q hq => (hsound.slot _).record a q ha hq) (hsound.slot n) hn

theorem sound (h : Restores keys well a w w') (hsound : w.Sound nameOf) : w'.Sound nameOf := by
  cases h with
  | replayed hkey hreplay => exact hreplay.sound hsound
  | removed hkey hremove hwell => exact hremove.sound hsound

end Restores

namespace Passes

variable {nameOf : String → String} {as : List Attachment} {w w' : World}

/-- What one step keeps, a pass keeps. -/
theorem invariant {I : World → Prop} (h : Passes keys well as w w')
    (hstep : ∀ a w w', I w → w.store.get? a.interfaceName = some a → Restores keys well a w w' →
      I w') (hw : I w) : I w' := by
  induction h with
  | done => exact hw
  | changed ha hrest ih => exact ih hw
  | restored ha hrestore hrest ih => exact ih (hstep _ _ _ hw ha hrestore)

/-- Interfaces of other names than the listed ones stay as they are, and each of the listed ones is
dealt with once. -/
theorem slot (h : Passes keys well as w w') (hsound : w.Sound nameOf)
    (hlisted : ∀ a ∈ as, w.store.get? a.interfaceName = some a)
    (hnodup : (as.map Attachment.interfaceName).Nodup) (n : String) :
    (n ∉ as.map Attachment.interfaceName → w'.slot n = w.slot n) ∧
      ∀ a ∈ as, a.interfaceName = n → Slot.Passes keys well (w.slot n) (w'.slot n) := by
  induction h with
  | done => exact ⟨fun _ => rfl, fun a ha => absurd ha List.not_mem_nil⟩
  | changed ha hrest ih => exact absurd (hlisted _ (by simp)) ha
  | @restored a as w w₁ w' ha hrestore hrest ih =>
    obtain ⟨hnot, hnodup'⟩ := List.nodup_cons.1 hnodup
    have hothers : ∀ m, m ≠ a.interfaceName → w₁.slot m = w.slot m :=
      fun m hm => hrestore.slot_of_ne hsound ha hm
    -- the other listed attachments are still there
    have hlisted' : ∀ b ∈ as, w₁.store.get? b.interfaceName = some b := by
      intro b hb
      have hne : b.interfaceName ≠ a.interfaceName := by
        intro heq
        exact hnot (heq ▸ List.mem_map_of_mem hb)
      have hrecord := congrArg Slot.record (hothers _ hne)
      exact hrecord.trans (hlisted b (by simp [hb]))
    obtain ⟨hsame, hdealt⟩ := ih (hrestore.sound hsound) hlisted' hnodup'
    refine ⟨fun hn => ?_, fun b hb hname => ?_⟩
    · rw [List.map_cons, List.mem_cons, not_or] at hn
      rw [hsame hn.2, hothers n hn.1]
    · rcases List.mem_cons.1 hb with rfl | hb
      · -- what comes after does not touch it any more
        subst hname
        rw [hsame hnot]
        exact hrestore.slot_self ha
      · have hne : n ≠ a.interfaceName := by
          rintro rfl
          exact hnot (hname ▸ List.mem_map_of_mem hb)
        have hpasses := hdealt b hb hname
        rw [hothers n hne] at hpasses
        exact hpasses

end Passes

/-! ## The whole pass -/

/-- Every record is listed, under its own name, and no name is listed twice. -/
theorem list_records {s : Store} (h : s.Coherent) :
    (∀ a, a ∈ s.list ↔ s.get? a.interfaceName = some a) ∧
      (s.list.map Attachment.interfaceName).Nodup :=
  ⟨fun _ => Store.mem_list_iff h, (Store.list_ordered h).imp Text.Before.ne⟩

variable {nameOf : String → String} {w : World}

/-- A pass leaves each interface as if it were the only one. -/
theorem passAlone_slot {ps : List PodRef} (hpods : k.pods = .ok ps) (hsound : w.Sound nameOf)
    (n : String) :
    Slot.Passes (desired ps) (∀ place, k.mishap place = none) (w.slot n)
      ((passAlone k w).2.world.slot n) := by
  rcases passAlone_ends k w with ⟨⟨x, hx⟩, -⟩ | ⟨ps', hps, hpasses⟩
  · cases hpods.symm.trans hx
  obtain rfl : ps = ps' := Except.ok.inj (hpods.symm.trans hps)
  obtain ⟨hlisted, hnodup⟩ := list_records hsound.coherent
  obtain ⟨hsame, hdealt⟩ := hpasses.slot hsound (fun a ha => (hlisted a).1 ha) hnodup n
  by_cases hn : n ∈ w.store.list.map Attachment.interfaceName
  · obtain ⟨a, ha, hname⟩ := List.mem_map.1 hn
    exact hdealt a ha hname
  · rw [hsame hn]
    refine .same fun a ha => ?_
    have hname := hsound.coherent.name ha
    have hmem : a ∈ w.store.list := (hlisted a).2 (hname.symm ▸ ha)
    exact absurd (List.mem_map.2 ⟨a, hmem, hname⟩) hn

/-- What one step keeps, a pass keeps, whatever fails. -/
theorem passAlone_invariant {I : World → Prop}
    (hstep : ∀ keys well a w w', I w → w.store.get? a.interfaceName = some a →
      Restores keys well a w w' → I w') (hw : I w) : I (passAlone k w).2.world := by
  rcases passAlone_ends k w with ⟨-, hworld⟩ | ⟨ps, -, hpasses⟩
  · rw [hworld]
    exact hw
  · exact hpasses.invariant (fun a w w' => hstep _ _ a w w') hw

end PodAttach.Agent
