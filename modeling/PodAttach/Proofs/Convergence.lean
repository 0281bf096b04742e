import PodAttach.Proofs.Passes
import PodAttach.Proofs.Restart
import PodAttach.Proofs.Texts
import PodAttach.Proofs.Trace

/-!
# What a pass reports

`Passes` follows what a pass does to the world.  This module follows what it
says of it too, and what it asks.

* `Fate` is what is reported of an interface, and `Report.tally` a report that is made of the
  fates of some interfaces.
* `World.Apart`: no port but an interface's own has the UUID that is recorded.  Then an
  interface can be dealt with and the others stay as they are.
* `Slot.Deals` says what each fate means for the interface, and `restore_deals` that dealing
  with an attachment comes to one of them.  `foldlM_deals` is the induction over the list.
* `passAlone_deals` puts this together for the whole pass, and `passAlone_asks` says what is
  asked in it.
* `pass_converges`: the report tells exactly which recorded interfaces have their flows, which
  are gone, and which are left for the next pass.
-/

namespace PodAttach

/-! ## Keys of pods -/

/-- The key of a pod can be cut into its namespace and its name. -/
theorem pieces_podKey {podNamespace name : String} (hnamespace : '/' ∉ podNamespace.toList)
    (hname : '/' ∉ name.toList) :
    Text.pieces '/' (podKey podNamespace name).toList =
      if podNamespace = "" then [name.toList] else [podNamespace.toList, name.toList] := by
  unfold podKey
  by_cases h : podNamespace = ""
  · subst h
    exact Text.pieces_of_not_mem hname
  · have hlist : (podNamespace ++ "/" ++ name).toList =
        podNamespace.toList ++ '/' :: name.toList := by
      simp [String.toList_append]
    rw [if_neg (by rwa [String.isEmpty_iff]), if_neg h, hlist, Text.pieces_append hnamespace,
      Text.pieces_of_not_mem hname]

/-- Pods without slashes in their names have different keys. -/
theorem podKey_inj {podNamespace name podNamespace' name' : String}
    (hnamespace : '/' ∉ podNamespace.toList) (hname : '/' ∉ name.toList)
    (hnamespace' : '/' ∉ podNamespace'.toList) (hname' : '/' ∉ name'.toList) :
    podKey podNamespace name = podKey podNamespace' name' ↔
      podNamespace = podNamespace' ∧ name = name' := by
  constructor
  · intro hkey
    have hpieces := congrArg (fun key => Text.pieces '/' key.toList) hkey
    simp only [pieces_podKey hnamespace hname, pieces_podKey hnamespace' hname'] at hpieces
    by_cases h : podNamespace = "" <;> by_cases h' : podNamespace' = "" <;>
      simp_all [String.toList_inj]
  · rintro ⟨rfl, rfl⟩
    rfl

/-- Neither the namespace nor the name of a pod has a slash in it. -/
def PodRef.Plain (p : PodRef) : Prop :=
  '/' ∉ p.podNamespace.toList ∧ '/' ∉ p.name.toList

/-- Neither the namespace nor the name of an attachment's pod has a slash in it. -/
def Attachment.Plain (a : Attachment) : Prop :=
  '/' ∉ a.podNamespace.toList ∧ '/' ∉ a.podName.toList

instance (p : PodRef) : Decidable p.Plain := inferInstanceAs (Decidable (_ ∧ _))

instance (a : Attachment) : Decidable a.Plain := inferInstanceAs (Decidable (_ ∧ _))

namespace Agent

open Activity Switch.Session

/-- Some pod that has interfaces of its own is the one of the attachment. -/
def Wanted (ps : List PodRef) (a : Attachment) : Prop :=
  ∃ p ∈ ps, p.hostNetwork = false ∧ p.podNamespace = a.podNamespace ∧ p.name = a.podName

/-- A pod is looked for by its key, and that tells pods without slashes apart. -/
theorem contains_desired_iff {ps : List PodRef} {a : Attachment} (hps : ∀ p ∈ ps, p.Plain)
    (ha : a.Plain) : (desired ps).contains a.podKey = true ↔ Wanted ps a := by
  rw [List.contains_iff_mem, desired, List.mem_map]
  constructor
  · rintro ⟨p, hp, hkey⟩
    obtain ⟨hmem, hhost⟩ := List.mem_filter.1 hp
    have hplain := hps p hmem
    exact ⟨p, hmem, by simpa using hhost, (podKey_inj hplain.1 hplain.2 ha.1 ha.2).1 hkey⟩
  · rintro ⟨p, hmem, hhost, hnamespace, hname⟩
    refine ⟨p, List.mem_filter.2 ⟨hmem, by simpa using hhost⟩, ?_⟩
    rw [hnamespace, hname]
    rfl

/-! ## Reports -/

/-- What is reported of an interface. -/
inductive Fate where
  | replayed
  | removed
  | failed
  deriving DecidableEq, Repr

namespace Report

/-- One more interface is reported. -/
def file (r : Report) (name : String) : Fate → Report
  | .replayed => r.addReplayed name
  | .removed => r.addRemoved name
  | .failed => r.addFailed name

/-- The names of a certain fate. -/
def named (fate : String → Fate) (f : Fate) (names : List String) : List String :=
  names.filter fun n => fate n = f

/-- A report of more interfaces, one after the other. -/
def tally (r : Report) (fate : String → Fate) (names : List String) : Report :=
  ⟨r.replayed ++ named fate .replayed names, r.removed ++ named fate .removed names,
    r.failed ++ named fate .failed names⟩

variable {fate : String → Fate} {f : Fate} {names : List String} {n : String}

theorem mem_named : n ∈ named fate f names ↔ n ∈ names ∧ fate n = f := by
  rw [named, List.mem_filter, decide_eq_true_eq]

theorem tally_nil (r : Report) : r.tally fate [] = r := by
  simp [tally, named]

theorem tally_cons (r : Report) :
    r.tally fate (n :: names) = (r.file n (fate n)).tally fate names := by
  cases h : fate n <;>
    simp [tally, named, file, addReplayed, addRemoved, addFailed, h]

/-- Fates of other interfaces are not reported. -/
theorem tally_congr {fate' : String → Fate} (r : Report) (h : ∀ n ∈ names, fate n = fate' n) :
    r.tally fate names = r.tally fate' names := by
  have hnamed : ∀ f, named fate f names = named fate' f names :=
    fun f => List.filter_congr fun n hn => by rw [h n hn]
  rw [tally, tally, hnamed, hnamed, hnamed]

/-- An interface is reported in one way. -/
theorem nodup_named (hnames : names.Nodup) :
    (named fate .replayed names ++ named fate .removed names ++
      named fate .failed names).Nodup := by
  have hone : ∀ f, (named fate f names).Nodup := fun f => List.Pairwise.filter _ hnames
  rw [List.nodup_append, List.nodup_append]
  refine ⟨⟨hone _, hone _, ?_⟩, hone _, ?_⟩
  · rintro n hn _ hm rfl
    cases (mem_named.1 hn).2.symm.trans (mem_named.1 hm).2
  · rintro n hn _ hm rfl
    rcases List.mem_append.1 hn with hn | hn <;>
      cases (mem_named.1 hn).2.symm.trans (mem_named.1 hm).2

end Report

/-! ## Ports of interfaces -/

/-- No port but an interface's own has the UUID that is recorded of it. -/
structure World.Apart (w : World) : Prop where
  coherent : w.store.Coherent
  uuid : ∀ {n a q}, (w.slot n).record = some a → a.port = some q →
    ∀ {m p}, (w.slot m).port = some p → p.uuid = q.uuid → m = n

namespace World.Apart

variable {w w' : World}

/-- Fewer records and ports are apart too. -/
theorem of_fewer (hw : w.Apart) (hcoherent : w'.store.Coherent)
    (hrecord : ∀ n, (w'.slot n).record = none ∨ (w'.slot n).record = (w.slot n).record)
    (hport : ∀ n, (w'.slot n).port = none ∨ (w'.slot n).port = (w.slot n).port) : w'.Apart where
  coherent := hcoherent
  uuid {n a q} ha hq {m p} hp huuid := by
    have hsame : ∀ {β : Type} {x y : Option β} {v : β}, (x = none ∨ x = y) → x = some v →
        y = some v := by
      rintro β x y v (rfl | rfl) hv
      · cases hv
      · exact hv
    exact hw.uuid (hsame (hrecord n) ha) hq (hsame (hport m) hp) huuid

/-- No other interface has the port that is recorded of one. -/
theorem filter_port (hw : w.Apart) {n m : String} {a : Attachment}
    (ha : (w.slot n).record = some a) (hne : m ≠ n) :
    ((w.slot m).port.filter fun p => !a.hasPort p) = (w.slot m).port := by
  cases hq : a.port with
  | none => exact Attachment.filter_hasPort_of_none hq _
  | some q =>
    cases hp : (w.slot m).port with
    | none => rfl
    | some p =>
      have hother : p.uuid ≠ q.uuid := fun huuid => hne (hw.uuid ha hq hp huuid)
      simp [Attachment.hasPort, hq, hother]

end World.Apart

namespace Removes

variable {a : Attachment} {x : Except Failure Unit} {w w' : World}

theorem apart (h : Removes a w x w') (hw : w.Apart) : w'.Apart :=
  hw.of_fewer (h.coherent hw.coherent) (fun n => (h.within n).record) fun n => (h.within n).port

/-- The slots of other interfaces stay as they are. -/
theorem slot_of_apart (h : Removes a w x w') (hw : w.Apart)
    (ha : (w.slot a.interfaceName).record = some a) {n : String} (hn : n ≠ a.interfaceName) :
    w'.slot n = w.slot n := by
  rcases h.slot_of_ne_filter hn with hsame | hfilter
  · exact hsame
  · rw [hfilter, hw.filter_port ha hn]

end Removes

theorem Replays.apart {a : Attachment} {x : Except Failure Unit} {w w' : World}
    (h : Replays a w x w') (hw : w.Apart) : w'.Apart := by
  refine hw.of_fewer (h.store_eq ▸ hw.coherent) (fun n => .inr ?_) fun n => .inr ?_
  all_goals
    obtain ⟨flows, hslot⟩ := h.slot_flows n
    rw [hslot]

/-! ## Dealing with one attachment -/

/-- A call that removes something or installs flows succeeds. -/
def Event.GoesWell (ev : Event) : Prop :=
  ev.UndoesWell ∧ ∀ name ips mac ofport, ev.asked = .switch (.installFlows name ips mac ofport) →
    ev.failure? = none

/-- Flows were installed for the addresses of an attachment, with a number. -/
def Attachment.installed (a : Attachment) (ofport : Nat) : Event :=
  ⟨.switch (.installFlows a.interfaceName a.ips a.mac ofport), .ok ()⟩

/-- Flows that could be installed are there. -/
theorem Replays.slot_of_ok {a : Attachment} {w w' : World} (h : Replays a w (.ok ()) w') :
    ∃ q m, a.port = some q ∧ (q.ofport = some m ∨ q.ofport = none ∧
        (w.slot a.interfaceName).port.bind Switch.Port.ofport = some m) ∧
      w'.slot a.interfaceName = { w.slot a.interfaceName with flows := some m } := by
  cases h with
  | installed hport hofport =>
    refine ⟨_, _, hport, hofport, ?_⟩
    rw [World.slot_putFlows, if_pos rfl]

/-- What a fate says of the slot of an interface.  If calls go `well`, then all removals succeed,
and no flows are missing but those of a port whose number is not recorded. -/
inductive Slot.Deals (keys : List String) (well : Prop) (a : Attachment) (s : Slot) :
    Fate → Slot → Prop
  | replayed {q : AttachedPort} {m : Nat} (hkey : keys.contains a.podKey = true)
      (hport : a.port = some q)
      (hofport : q.ofport = some m ∨ q.ofport = none ∧ s.port.bind Switch.Port.ofport = some m) :
      Deals keys well a s .replayed { s with flows := some m }
  | unreplayed {flows : Option Nat} (hkey : keys.contains a.podKey = true)
      (hwell : well → a.port.bind AttachedPort.ofport = none) :
      Deals keys well a s .failed { s with flows }
  | removed (hkey : keys.contains a.podKey = false) :
      Deals keys well a s .removed ⟨none, none, s.port.filter fun p => !a.hasPort p, none⟩
  | unremoved {f : Failure} {s' : Slot} (hkey : keys.contains a.podKey = false)
      (hremove : Slot.Removes a s (.error f) s') (hwell : ¬ well) :
      Deals keys well a s .failed s'

variable {k : Conditions} {allows : Event → Prop} {e : Episode} {keys : List String} {well : Prop}

/-- An attachment was dealt with, with a fate: its interface is as the fate says, and flows that
it has were asked for. -/
structure Dealt (keys : List String) (well : Prop) (a : Attachment) (e e' : Episode) (f : Fate) :
    Prop where
  slot : Slot.Deals keys well a (e.world.slot a.interfaceName) f (e'.world.slot a.interfaceName)
  log : f = .replayed →
    ∃ m, (e'.world.slot a.interfaceName).flows = some m ∧ Attachment.installed a m ∈ e'.log

/-- Once there is a number, flows are installed with it, and that is logged. -/
theorem installFlows_log {a : Attachment} {q : AttachedPort} {m : Nat} {w : World}
    (hwell : well → ∀ ev, allows ev → ev.GoesWell) (hworld : e.world = w) (hport : a.port = some q)
    (hofport : q.ofport = some m ∨ q.ofport = none ∧ w.bridge.ofport? a.interfaceName = some m) :
    (onSwitch (installFlows a.interfaceName a.ips a.mac m)).Ensures (mayAnswer k allows) e
      fun r e' => Replays a w (r.mapError Failure.switch) e'.world ∧
        (r = .ok () → (e'.world.slot a.interfaceName).flows = some m ∧
          Attachment.installed a m ∈ e'.log) ∧ (well → r = .ok ()) := by
  refine ((installFlows_ends hworld hport hofport).and ?_)
  rw [ensures_installFlows]
  refine ⟨fun _ => ⟨fun _ => ?_, fun _ => rfl⟩, fun x hallows => ⟨nofun, fun h => ?_⟩⟩
  · rw [Episode.push_world, World.slot_putFlows, if_pos rfl]
    exact ⟨rfl, List.mem_cons_self ..⟩
  · cases (hwell h _ hallows).2 _ _ _ _ rfl

/-- How giving an interface its flows back can end, with what is logged of it. -/
theorem reconnect_log {a : Attachment} (hwell : well → ∀ ev, allows ev → ev.GoesWell) :
    (reconnect a).Ensures (mayAnswer k allows) e fun r e' => Replays a e.world r e'.world ∧
      (r = .ok () → ∃ m, (e'.world.slot a.interfaceName).flows = some m ∧
        Attachment.installed a m ∈ e'.log) ∧
      (well → a.port.bind AttachedPort.ofport ≠ none → r = .ok ()) := by
  refine reconnect_ends.and ?_
  unfold reconnect
  split
  · next hport => exact ⟨nofun, fun _ h => absurd (by rw [hport]; rfl) h⟩
  · next q hport =>
    cases hq : q.ofport with
    | some m =>
      refine (installFlows_log hwell rfl hport (.inl hq)).bind ?_
      rintro (x | ⟨⟩) e' ⟨-, hlog, hok⟩
      · exact ⟨nofun, fun h => by cases hok h⟩
      · exact ⟨fun _ => ⟨m, hlog rfl⟩, fun _ _ => rfl⟩
    | none =>
      dsimp only
      have hnone : a.port.bind AttachedPort.ofport = none := by rw [hport]; exact hq
      rw [Proc.ensures_bind]
      refine ensures_switch.2 ⟨fun _ => ?_, fun x _ => ⟨nofun, fun _ h => absurd hnone h⟩⟩
      rw [World.perform_getOfport]
      cases hnumber : (e.world.slot a.interfaceName).port.bind Switch.Port.ofport with
      | none => exact ⟨nofun, fun _ h => absurd hnone h⟩
      | some m =>
        dsimp only
        refine (installFlows_log hwell (e.push_world _ _ _) hport (.inr ⟨hq, hnumber⟩)).bind ?_
        rintro (x | ⟨⟩) e' ⟨-, hlog, hok⟩
        · exact ⟨nofun, fun _ h => absurd hnone h⟩
        · exact ⟨fun _ => ⟨m, hlog rfl⟩, fun _ h => absurd hnone h⟩

/-- Dealing with an attachment that is recorded gives it a fate, and leaves the other interfaces
as they are. -/
theorem restore_deals {r : Report} {a : Attachment} (hwell : well → ∀ ev, allows ev → ev.GoesWell)
    (hw : e.world.Apart) (ha : e.world.store.get? a.interfaceName = some a) :
    (restore keys r a).Ensures (mayAnswer k allows) e fun r' e' => ∃ f,
      r' = r.file a.interfaceName f ∧ Dealt keys well a e e' f ∧ e'.world.Apart ∧
        ∀ n, n ≠ a.interfaceName → e'.world.slot n = e.world.slot n := by
  unfold restore
  split
  · next hkey =>
    refine (reconnect_log hwell).bind ?_
    rintro (x | ⟨⟩) e' ⟨hreplay, hlog, hok⟩
    · obtain ⟨flows, hslot⟩ := hreplay.slot_flows a.interfaceName
      refine ⟨.failed, rfl, ⟨?_, nofun⟩, hreplay.apart hw, fun n hn => hreplay.slot_of_ne hn⟩
      rw [hslot]
      refine .unreplayed hkey fun h => Classical.byContradiction fun hnumber => ?_
      cases hok h hnumber
    · refine ⟨.replayed, rfl, ⟨?_, fun _ => hlog rfl⟩, hreplay.apart hw,
        fun n hn => hreplay.slot_of_ne hn⟩
      obtain ⟨q, m, hport, hofport, hflows⟩ := hreplay.slot_of_ok
      rw [hflows]
      exact .replayed hkey hport hofport
  · next hkey =>
    have hkey : keys.contains a.podKey = false := by simpa using hkey
    have hremove : (remove a).Ensures (mayAnswer k allows) e fun x e' =>
        Removes a e.world x e'.world ∧ (well → x = .ok ()) := by
      by_cases h : well
      · refine (ensures_of_imp remove_well fun ev hev => (hwell h ev hev).1).mono ?_
        exact fun x e' hends => ⟨hends.2, fun _ => hends.1⟩
      · exact remove_ends.mono fun x e' hends => ⟨hends.1, fun h' => absurd h' h⟩
    refine hremove.bind ?_
    rintro (x | ⟨⟩) e' ⟨hends, hok⟩
    · refine ⟨.failed, rfl, ⟨?_, nofun⟩, hends.apart hw, fun n hn => hends.slot_of_apart hw ha hn⟩
      exact .unremoved hkey hends.slot_self fun h => by cases hok h
    · refine ⟨.removed, rfl, ⟨?_, nofun⟩, hends.apart hw, fun n hn => hends.slot_of_apart hw ha hn⟩
      have hself := hends.slot_self
      generalize e'.world.slot a.interfaceName = s' at hself ⊢
      cases hself with
      | gone => exact .removed hkey

/-- What was written down stays, whatever is answered. -/
theorem ensures_suffix {α : Type} (p : Activity α) :
    p.Ensures (mayAnswer k allows) e fun _ e' => e.log <:+ e'.log := by
  induction p generalizing e with
  | done a => exact List.suffix_refl _
  | ask q next ih =>
    refine ⟨trivial, ?_⟩
    rintro reply e' ⟨-, m, -, hlog⟩
    refine (ih reply).mono fun _ e'' hsuffix => ?_
    rw [hlog] at hsuffix
    exact (List.suffix_cons _ _).trans hsuffix

/-- Before an interface is dealt with and afterwards it stays as it is. -/
theorem Dealt.of_same {a : Attachment} {e₁ e₂ e' : Episode} {f : Fate}
    (h : Dealt keys well a e₁ e₂ f)
    (hbefore : e₁.world.slot a.interfaceName = e.world.slot a.interfaceName)
    (hafter : e'.world.slot a.interfaceName = e₂.world.slot a.interfaceName)
    (hlog : e₂.log <:+ e'.log) : Dealt keys well a e e' f where
  slot := by
    rw [← hbefore, hafter]
    exact h.slot
  log hf := by
    obtain ⟨m, hflows, hmem⟩ := h.log hf
    rw [hafter]
    exact ⟨m, hflows, hlog.subset hmem⟩

/-- Attachments that are recorded are dealt with one after the other: each gets its fate, and the
other interfaces stay as they are. -/
theorem foldlM_deals (hwell : well → ∀ ev, allows ev → ev.GoesWell) (as : List Attachment)
    {r : Report} (hw : e.world.Apart)
    (hlisted : ∀ a ∈ as, e.world.store.get? a.interfaceName = some a)
    (hnodup : (as.map Attachment.interfaceName).Nodup) :
    (as.foldlM (reconcileOne keys) r).Ensures (mayAnswer k allows) e fun r' e' =>
      ∃ fate, r' = r.tally fate (as.map Attachment.interfaceName) ∧
        (∀ a ∈ as, Dealt keys well a e e' (fate a.interfaceName)) ∧
        ∀ n, n ∉ as.map Attachment.interfaceName → e'.world.slot n = e.world.slot n := by
  induction as generalizing r e with
  | nil => exact ⟨fun _ => .failed, (Report.tally_nil r).symm, by simp, fun _ _ => rfl⟩
  | cons a as ih =>
    obtain ⟨hnot, hnodup'⟩ := List.nodup_cons.1 hnodup
    have hne : ∀ b ∈ as, b.interfaceName ≠ a.interfaceName :=
      fun b hb heq => hnot (heq ▸ List.mem_map_of_mem hb)
    rw [List.foldlM_cons, Proc.ensures_bind, reconcileOne, Proc.ensures_bind, ensures_acquire]
    intro _
    rw [Proc.ensures_bind, ensures_attachment]
    intro _
    rw [Episode.push_world, if_pos (hlisted a (by simp))]
    refine Proc.Ensures.bind (restore_deals hwell (by exact hw) (hlisted a (by simp))) ?_
    rintro _ e₁ ⟨f, rfl, hdealt, hw₁, hothers⟩
    rw [Proc.ensures_bind, ensures_release]
    intro _
    rw [Proc.pure_def, Proc.ensures_done]
    -- the other listed attachments are still there
    have hlisted₁ : ∀ b ∈ as, e₁.world.store.get? b.interfaceName = some b := by
      intro b hb
      have hrecord := congrArg Slot.record (hothers _ (hne b hb))
      exact hrecord.trans (hlisted b (by simp [hb]))
    refine Proc.Ensures.mono (Proc.Ensures.and (ih (by exact hw₁) (by exact hlisted₁) hnodup')
      (ensures_suffix _)) ?_
    rintro _ e' ⟨⟨fate, rfl, hrest, hsame⟩, hlog⟩
    have hlog₁ : e₁.log <:+ e'.log := (List.suffix_cons _ _).trans hlog
    refine ⟨fun n => if n = a.interfaceName then f else fate n, ?_, fun b hb => ?_, fun n hn => ?_⟩
    · rw [List.map_cons, Report.tally_cons, if_pos rfl]
      refine Report.tally_congr _ fun n hn => ?_
      have hother : n ≠ a.interfaceName := fun heq => hnot (heq ▸ hn)
      rw [if_neg hother]
    · dsimp only
      rcases List.mem_cons.1 hb with rfl | hb
      · rw [if_pos rfl]
        exact hdealt.of_same rfl (hsame _ hnot) hlog₁
      · rw [if_neg (hne b hb)]
        exact (hrest b hb).of_same (hothers _ (hne b hb)) rfl (List.suffix_refl _)
    · rw [List.map_cons, List.mem_cons, not_or] at hn
      rw [hsame n hn.2]
      exact hothers n hn.1

/-! ## The whole pass -/

/-- A call that meets no mishap and removes something or installs flows succeeds. -/
theorem goesWell_perform (k : Conditions) (w : World) (q : Ask) :
    Event.GoesWell ⟨q, (w.perform k q).1⟩ := by
  refine ⟨undoesWell_perform k w q, fun name ips mac ofport hq => ?_⟩
  obtain rfl : q = .switch (.installFlows name ips mac ofport) := hq
  rfl

/-- A step that is no call is answered by the world. -/
theorem answer_sure {q : Ask} (hsure : ∀ m w, World.meet k w m q = w.perform k q) (e : Episode) :
    Episode.answer k q e =
      ((e.world.perform k q).1, e.push (e.world.perform k q).2 q (e.world.perform k q).1) := by
  simp only [Episode.answer, hsure]

/-- A pass that cannot list the pods asks for nothing else. -/
theorem passAlone_error {w : World} {x : DescriptorError} (hpods : k.pods = .error x) :
    passAlone k w = (.error (.descriptor x), ⟨w, [⟨.pods, k.pods⟩]⟩) := by
  unfold passAlone reconcile pods
  rw [Proc.run_bind, Proc.question, Proc.run_ask, answer_sure fun m _ => by cases m <;> rfl]
  simp only [Proc.run_done, World.perform, hpods]
  rfl

/-- What a pass does once the pods are known. -/
theorem passAlone_eq {w : World} {ps : List PodRef} (hpods : k.pods = .ok ps) :
    passAlone k w =
      let swept := (w.store.list.foldlM (reconcileOne (desired ps)) {}).run (Episode.answer k)
        ⟨w, [⟨.attachments, w.store.list⟩, ⟨.pods, k.pods⟩]⟩
      (.ok swept.1, swept.2) := by
  unfold passAlone reconcile pods attachments
  rw [Proc.run_bind, Proc.question, Proc.run_ask, answer_sure fun m _ => by cases m <;> rfl]
  simp only [Proc.run_done, World.perform, hpods]
  rw [Proc.run_bind, Proc.question, Proc.run_ask, answer_sure fun m _ => by cases m <;> rfl]
  rw [Proc.run_bind]
  rfl

variable {w : World}

/-- The names of the recorded interfaces, in order. -/
def World.recorded (w : World) : List String :=
  w.store.list.map Attachment.interfaceName

theorem World.mem_recorded (hcoherent : w.store.Coherent) {n : String} :
    n ∈ w.recorded ↔ ∃ a, (w.slot n).record = some a := by
  have hlisted := (list_records hcoherent).1
  constructor
  · intro hn
    obtain ⟨a, ha, rfl⟩ := List.mem_map.1 hn
    exact ⟨a, (hlisted a).1 ha⟩
  · rintro ⟨a, ha⟩
    have hname : a.interfaceName = n := hcoherent.name ha
    exact List.mem_map.2 ⟨a, (hlisted a).2 (hname.symm ▸ ha), hname⟩

/-- Every recorded interface gets a fate, the report tells it, and the other interfaces stay as
they are. -/
theorem passAlone_deals {ps : List PodRef} (hpods : k.pods = .ok ps) (hw : w.Apart) :
    ∃ fate, (passAlone k w).1 = .ok (Report.tally {} fate w.recorded) ∧
      (∀ n a, (w.slot n).record = some a →
        Dealt (desired ps) (∀ place, k.mishap place = none) a ⟨w, []⟩ (passAlone k w).2 (fate n)) ∧
      ∀ n, (w.slot n).record = none → (passAlone k w).2.world.slot n = w.slot n := by
  obtain ⟨hlisted, hnodup⟩ := list_records hw.coherent
  let e : Episode := ⟨w, [⟨.attachments, w.store.list⟩, ⟨.pods, k.pods⟩]⟩
  have hends : ∀ allows : Event → Prop,
      ((∀ place, k.mishap place = none) → ∀ ev, allows ev → ev.GoesWell) →
      (w.store.list.foldlM (reconcileOne (desired ps)) {}).Ensures (mayAnswer k allows) e _ :=
    fun _ hwell => foldlM_deals hwell w.store.list hw (fun a ha => (hlisted a).1 ha) hnodup
  -- the answers that may be had: those of calls that meet no mishap, or any
  obtain ⟨fate, hreport, hdealt, hsame⟩ : ∃ fate, _ := by
    by_cases hwell : ∀ place, k.mishap place = none
    · refine run_of_ensures (hends Event.GoesWell fun _ _ h => h) ?_
      refine performed_run hwell (goesWell_perform k) _ ?_
      simp [e, Event.GoesWell, Event.UndoesWell, Ask.undoes]
    · exact run_of_ensures (hends (fun _ => True) fun h => absurd h hwell)
        fun _ _ => trivial
  rw [passAlone_eq hpods]
  refine ⟨fate, congrArg Except.ok hreport, fun n a ha => ?_, fun n hn => hsame n ?_⟩
  · obtain rfl : a.interfaceName = n := hw.coherent.name ha
    exact (hdealt a ((hlisted a).2 ha)).of_same rfl rfl (List.suffix_refl _)
  · intro hmem
    obtain ⟨a, ha⟩ := (World.mem_recorded hw.coherent).1 hmem
    cases hn.symm.trans ha

/-! ## What a pass asks -/

/-- What is asked when an attachment is dealt with. -/
inductive Ask.DealsWith (keys : List String) (a : Attachment) : Ask → Prop
  | lock : DealsWith keys a (.acquire a.containerId none)
  | unlock : DealsWith keys a (.release a.containerId)
  | look : DealsWith keys a (.attachment a.interfaceName)
  | number (hkey : keys.contains a.podKey = true) :
      DealsWith keys a (.switch (.getOfport a.interfaceName))
  | install {ofport : Nat} (hkey : keys.contains a.podKey = true) :
      DealsWith keys a (.switch (.installFlows a.interfaceName a.ips a.mac ofport))
  | uninstall (hkey : keys.contains a.podKey = false) :
      DealsWith keys a (.switch (.uninstallFlows a.interfaceName))
  | deletePort {q : AttachedPort} (hkey : keys.contains a.podKey = false)
      (hport : a.port = some q) :
      DealsWith keys a (.switch (.deletePort q.uuid))
  | teardown (hkey : keys.contains a.podKey = false) :
      DealsWith keys a (.link (.teardown a.containerId a.interfaceName))
  | forget (hkey : keys.contains a.podKey = false) : DealsWith keys a (.forget a.interfaceName)

variable {may : Ask → Prop} {log : List Event}

/-- Giving an interface its flows back asks for its number at most, and for its flows. -/
theorem reconnect_asks {a : Attachment} (hkey : keys.contains a.podKey = true) :
    (reconnect a).Ensures (asking (Ask.DealsWith keys a)) log fun _ _ => True := by
  have hinstall : ∀ (m : Nat) (log' : List Event),
      (onSwitch (installFlows a.interfaceName a.ips a.mac m)).Ensures
        (asking (Ask.DealsWith keys a)) log' fun _ _ => True :=
    fun m log' => ensures_asking (.install hkey) fun _ => trivial
  unfold reconnect
  split
  · trivial
  · next q hport =>
    cases q.ofport with
    | some m =>
      refine (hinstall m log).bind ?_
      rintro (x | ⟨⟩) log' - <;> trivial
    | none =>
      dsimp only
      rw [Proc.ensures_bind]
      refine ensures_asking (q := .switch (.getOfport a.interfaceName)) (.number hkey) ?_
      rintro (x | m)
      · trivial
      · refine (hinstall m _).bind ?_
        rintro (x | ⟨⟩) log' - <;> trivial

/-- Dealing with a listed attachment asks for nothing of others. -/
theorem reconcileOne_asks {r : Report} {a : Attachment} :
    (reconcileOne keys r a).Ensures (asking (Ask.DealsWith keys a)) log fun _ _ => True := by
  have hrestore : ∀ log', (restore keys r a).Ensures (asking (Ask.DealsWith keys a)) log'
      fun _ _ => True := by
    intro log'
    unfold restore
    split
    · next hkey =>
      refine (reconnect_asks hkey).bind ?_
      rintro (x | ⟨⟩) log'' - <;> trivial
    · next hkey =>
      have hkey : keys.contains a.podKey = false := by simpa using hkey
      refine (remove_asking (.uninstall hkey) (fun q hq => .deletePort hkey hq) (.teardown hkey)
        (.forget hkey)).bind ?_
      rintro (x | ⟨⟩) log'' - <;> trivial
  rw [reconcileOne, Proc.ensures_bind]
  refine ensures_asking .lock fun _ => ?_
  rw [Proc.ensures_bind]
  refine ensures_asking .look fun found => ?_
  split
  · refine (hrestore _).bind fun r' log' _ => ?_
    rw [Proc.ensures_bind]
    exact ensures_asking .unlock fun _ => trivial
  · show (release a.containerId >>= fun _ => pure r).Ensures _ _ _
    rw [Proc.ensures_bind]
    exact ensures_asking .unlock fun _ => trivial

/-- Dealing with listed attachments asks for nothing of others. -/
theorem foldlM_asks (as : List Attachment) {r : Report} :
    (as.foldlM (reconcileOne keys) r).Ensures (asking fun q => ∃ a ∈ as, Ask.DealsWith keys a q)
      log fun _ _ => True := by
  induction as generalizing r log with
  | nil => trivial
  | cons a as ih =>
    rw [List.foldlM_cons]
    refine (ensures_asking_of_imp reconcileOne_asks fun q hq => ⟨a, by simp, hq⟩).bind ?_
    exact fun r' log' _ => ensures_asking_of_imp ih fun q ⟨b, hb, hq⟩ => ⟨b, by simp [hb], hq⟩

/-- A pass asks for the pods and the attachments, and then deals with the recorded ones. -/
theorem passAlone_asks {ps : List PodRef} (hpods : k.pods = .ok ps) {ev : Event}
    (hev : ev ∈ (passAlone k w).2.log) :
    ev = ⟨.pods, k.pods⟩ ∨ ev = ⟨.attachments, w.store.list⟩ ∨
      ∃ a ∈ w.store.list, Ask.DealsWith (desired ps) a ev.asked := by
  rw [passAlone_eq hpods] at hev
  rcases asking_run (foldlM_asks w.store.list) hev with hlog | hasked
  · simp only [List.mem_cons, List.not_mem_nil, or_false] at hlog
    exact hlog.elim (fun h => .inr (.inl h)) .inl
  · exact .inr (.inr hasked)

theorem Ask.DealsWith.changes {a : Attachment} {q : Ask} (h : q.DealsWith keys a) {n : String}
    (hn : n ≠ a.interfaceName) : q.changes n = false := by
  cases h <;> simp [Ask.changes, hn.symm]

/-! ## Convergence -/

/-- What a pass leaves of the interfaces that were recorded in a world, and what it says of
them. -/
structure Converged (ps : List PodRef) (w : World) (r : Report) (e : Episode) : Prop where
  /-- Each recorded interface is reported, and no other one. -/
  reported : ∀ n, n ∈ r.replayed ++ r.removed ++ r.failed ↔ ∃ a, (w.slot n).record = some a
  /-- None is reported twice, in one list or in two. -/
  once : (r.replayed ++ r.removed ++ r.failed).Nodup
  ordered : r.replayed.Pairwise Text.Before ∧ r.removed.Pairwise Text.Before ∧
    r.failed.Pairwise Text.Before
  wanted : ∀ n a, (w.slot n).record = some a → Wanted ps a → n ∈ r.replayed ∨ n ∈ r.failed
  unwanted : ∀ n a, (w.slot n).record = some a → ¬ Wanted ps a → n ∈ r.removed ∨ n ∈ r.failed
  /-- An interface that has its flows back, with the number that is recorded or else its port's
  own, is otherwise as it was. -/
  replayed : ∀ n ∈ r.replayed, ∃ a q m, (w.slot n).record = some a ∧ a.port = some q ∧
    (q.ofport = some m ∨ q.ofport = none ∧ (w.slot n).port.bind Switch.Port.ofport = some m) ∧
    e.world.slot n = { w.slot n with flows := some m }
  /-- Nothing is left of a removed interface, and no port with the UUID that was recorded. -/
  removed : ∀ n ∈ r.removed, ∃ a, (w.slot n).record = some a ∧
    (e.world.slot n).record = none ∧ (e.world.slot n).flows = none ∧
    (e.world.slot n).link = none ∧
    ∀ q, a.port = some q → ∀ m p, (e.world.slot m).port = some p → p.uuid ≠ q.uuid
  failed : ∀ n ∈ r.failed, (e.world.slot n).record = (w.slot n).record
  /-- No port or link is created. -/
  nothingNew : ∀ n, ((e.world.slot n).port = none ∨ (e.world.slot n).port = (w.slot n).port) ∧
    ((e.world.slot n).link = none ∨ (e.world.slot n).link = (w.slot n).link)
  /-- An interface that is not recorded stays as it is, and is not asked for to change. -/
  unrecorded : ∀ n, (w.slot n).record = none →
    e.world.slot n = w.slot n ∧ e.changed n = false

namespace Slot.Deals

variable {a : Attachment} {s s' : Slot} {f : Fate}

/-- No port or link is there that was not there before. -/
theorem nothingNew (h : Slot.Deals keys well a s f s') :
    (s'.port = none ∨ s'.port = s.port) ∧ (s'.link = none ∨ s'.link = s.link) := by
  cases h with
  | replayed => exact ⟨.inr rfl, .inr rfl⟩
  | unreplayed => exact ⟨.inr rfl, .inr rfl⟩
  | removed => exact ⟨filter_none_or _ _, .inl rfl⟩
  | unremoved hkey hremove hwell => exact ⟨hremove.within.port, hremove.within.link⟩

/-- The record stays where it is not reported that the interface was removed. -/
theorem record_eq (h : Slot.Deals keys well a s f s') (hf : f ≠ .removed) :
    s'.record = s.record := by
  cases h with
  | replayed => rfl
  | unreplayed => rfl
  | removed => exact absurd rfl hf
  | unremoved hkey hremove hwell => cases hremove <;> rfl

theorem fate_of_key (h : Slot.Deals keys well a s f s') (hkey : keys.contains a.podKey = true) :
    f = .replayed ∨ f = .failed := by
  cases h with
  | replayed => exact .inl rfl
  | unreplayed => exact .inr rfl
  | removed hkey' => cases hkey.symm.trans hkey'
  | unremoved hkey' => cases hkey.symm.trans hkey'

theorem fate_of_not_key (h : Slot.Deals keys well a s f s')
    (hkey : keys.contains a.podKey = false) : f = .removed ∨ f = .failed := by
  cases h with
  | replayed hkey' => cases hkey.symm.trans hkey'
  | unreplayed hkey' => cases hkey.symm.trans hkey'
  | removed => exact .inl rfl
  | unremoved => exact .inr rfl

end Slot.Deals

/-- What the fates of the recorded interfaces come to. -/
theorem converged_of_deals {ps : List PodRef} {fate : String → Fate} {e : Episode} (hw : w.Apart)
    (hps : ∀ p ∈ ps, p.Plain) (hrecords : ∀ a ∈ w.store.list, a.Plain)
    (hdealt : ∀ n a, (w.slot n).record = some a → Dealt (desired ps) well a ⟨w, []⟩ e (fate n))
    (hsame : ∀ n, (w.slot n).record = none → e.world.slot n = w.slot n)
    (hasked : ∀ n, (w.slot n).record = none → e.changed n = false) :
    Converged ps w (Report.tally {} fate w.recorded) e := by
  have hdeals : ∀ n a, (w.slot n).record = some a →
      Slot.Deals (desired ps) well a (w.slot n) (fate n) (e.world.slot n) := by
    intro n a ha
    obtain rfl : a.interfaceName = n := hw.coherent.name ha
    exact (hdealt _ a ha).slot
  have hkey : ∀ n a, (w.slot n).record = some a →
      ((desired ps).contains a.podKey = true ↔ Wanted ps a) := by
    intro n a ha
    exact contains_desired_iff hps (hrecords a (Table.mem_values.2 ⟨n, ha⟩))
  -- the names of a fate are recorded, and all recorded ones of that fate are named
  have hnamed : ∀ f n, n ∈ [] ++ Report.named fate f w.recorded ↔
      (∃ a, (w.slot n).record = some a) ∧ fate n = f := by
    intro f n
    rw [List.nil_append, Report.mem_named, World.mem_recorded hw.coherent]
  have hnothing : ∀ n, ((e.world.slot n).port = none ∨ (e.world.slot n).port = (w.slot n).port) ∧
      ((e.world.slot n).link = none ∨ (e.world.slot n).link = (w.slot n).link) := by
    intro n
    cases ha : (w.slot n).record with
    | none => exact hsame n ha ▸ ⟨.inr rfl, .inr rfl⟩
    | some a => exact (hdeals n a ha).nothingNew
  have hordered : ∀ f, ([] ++ Report.named fate f w.recorded).Pairwise Text.Before :=
    fun f => (Store.list_ordered hw.coherent).filter _
  exact {
    reported := fun n => by
      simp only [Report.tally, List.mem_append, hnamed]
      cases hf : fate n <;> simp
    once := by
      simp only [Report.tally, List.nil_append]
      exact Report.nodup_named (list_records hw.coherent).2
    ordered := ⟨hordered _, hordered _, hordered _⟩
    wanted := fun n a ha hwanted =>
      ((hdeals n a ha).fate_of_key ((hkey n a ha).2 hwanted)).imp
        (fun hf => (hnamed _ n).2 ⟨⟨a, ha⟩, hf⟩) fun hf => (hnamed _ n).2 ⟨⟨a, ha⟩, hf⟩
    unwanted := fun n a ha hnot =>
      ((hdeals n a ha).fate_of_not_key
        (Bool.eq_false_iff.2 fun hcontains => hnot ((hkey n a ha).1 hcontains))).imp
        (fun hf => (hnamed _ n).2 ⟨⟨a, ha⟩, hf⟩) fun hf => (hnamed _ n).2 ⟨⟨a, ha⟩, hf⟩
    replayed := fun n hn => by
      obtain ⟨⟨a, ha⟩, hf⟩ := (hnamed _ n).1 hn
      have hdeal := hdeals n a ha
      rw [hf] at hdeal
      generalize e.world.slot n = s' at hdeal ⊢
      cases hdeal with
      | replayed _ hport hofport => exact ⟨a, _, _, ha, hport, hofport, rfl⟩
    removed := fun n hn => by
      obtain ⟨⟨a, ha⟩, hf⟩ := (hnamed _ n).1 hn
      have hdeal := hdeals n a ha
      rw [hf] at hdeal
      refine ⟨a, ha, ?_⟩
      have hgone : e.world.slot n =
          ⟨none, none, (w.slot n).port.filter fun p => !a.hasPort p, none⟩ := by
        generalize e.world.slot n = s' at hdeal ⊢
        cases hdeal
        rfl
      rw [hgone]
      refine ⟨rfl, rfl, rfl, fun q hq m p hp huuid => ?_⟩
      -- a port with the UUID could only be the interface's own, and that was filtered out
      have hbefore : (w.slot m).port = some p := by
        rcases (hnothing m).1 with hnone | hsame
        · cases hnone.symm.trans hp
        · exact hsame.symm.trans hp
      obtain rfl := hw.uuid ha hq hbefore huuid
      rw [hgone, Option.filter_eq_some_iff] at hp
      simp [Attachment.hasPort, hq, huuid] at hp
    failed := fun n hn => by
      obtain ⟨⟨a, ha⟩, hf⟩ := (hnamed _ n).1 hn
      exact (hdeals n a ha).record_eq (by simp [hf])
    nothingNew := hnothing
    unrecorded := fun n hn => ⟨hsame n hn, hasked n hn⟩ }

/-- A pass fails because the pods cannot be listed, and then does nothing.  Or it reports of each
recorded interface once, in the order of names: one of a pod that is there has its flows back or
failed, another one is gone or failed, and nothing else is touched. -/
theorem pass_converges (k : Conditions) {w : World} (hstore : w.store.Reached)
    (hpods : ∀ ps, k.pods = .ok ps → ∀ p ∈ ps, p.Plain)
    (hrecords : ∀ a ∈ w.store.list, a.Plain)
    (huuids : ∀ a ∈ w.store.list, ∀ q, a.port = some q →
      ∀ n p, (w.slot n).port = some p → p.uuid = q.uuid → n = a.interfaceName) :
    (∃ x, k.pods = .error x ∧ (passAlone k w).1 = .error (.descriptor x) ∧
        (passAlone k w).2.world = w) ∨
      ∃ ps r, k.pods = .ok ps ∧ (passAlone k w).1 = .ok r ∧
        Converged ps w r (passAlone k w).2 := by
  have hw : w.Apart := by
    refine ⟨hstore.coherent, fun {n a q} ha hq {m p} hp huuid => ?_⟩
    obtain rfl : a.interfaceName = n := hstore.coherent.name ha
    exact huuids a (Table.mem_values.2 ⟨_, ha⟩) q hq m p hp huuid
  cases hlisted : k.pods with
  | error x =>
    rw [passAlone_error hlisted]
    exact .inl ⟨x, rfl, rfl, rfl⟩
  | ok ps =>
    obtain ⟨fate, hreport, hdealt, hsame⟩ := passAlone_deals hlisted hw
    refine .inr ⟨ps, _, rfl, hreport, ?_⟩
    refine converged_of_deals hw (hpods ps hlisted) hrecords hdealt hsame fun n hn => ?_
    rw [Episode.changed, List.any_eq_false]
    intro ev hev
    rw [Bool.not_eq_true]
    rcases passAlone_asks hlisted hev with rfl | rfl | ⟨a, ha, hdeals⟩
    · rfl
    · rfl
    · refine hdeals.changes ?_
      rintro rfl
      cases hn.symm.trans (((list_records hw.coherent).1 a).1 ha)

/-! ## A pass to try things on -/

namespace Sample

/-- The world after the start, with the record of one more interface. -/
def twoRecorded : World := started.putRecord (attached (some 10))

/-- A node that lists the pod of the earlier interface, and does not tear down the second pair. -/
def listing : Conditions :=
  { conditions (failing .bare 10) with pods := .ok [⟨"default", "p0", false⟩] }

end Sample

/-- The interface of the pod that is listed has its flows back, and the other one stays recorded
because its pair could not be removed. -/
theorem pass_converges_two :
    (passAlone Sample.listing Sample.twoRecorded).1 = .ok ⟨["tapold"], [], [Sample.name]⟩ ∧
      Converged [⟨"default", "p0", false⟩] Sample.twoRecorded ⟨["tapold"], [], [Sample.name]⟩
        (passAlone Sample.listing Sample.twoRecorded).2 := by
  have hreport : (passAlone Sample.listing Sample.twoRecorded).1.toOption =
      some ⟨["tapold"], [], [Sample.name]⟩ := by decide +kernel
  have hown : ∀ a ∈ Sample.twoRecorded.store.list, ∀ p ∈ Sample.foundPorts, a.hasPort p = true →
      p.name = a.interfaceName := by decide +kernel
  rcases pass_converges Sample.listing (w := Sample.twoRecorded)
    ((Store.reached_ofPorts Sample.foundPorts).add _) (by rintro ps ⟨⟩; decide +kernel)
    (by decide +kernel) (fun a ha q hq n p hp huuid => by
      obtain ⟨hmem, rfl⟩ := (Sample.startedFrom.bridge n p).1 hp
      exact hown a ha p hmem (by simp [Attachment.hasPort, hq, huuid])) with
    ⟨x, hx, -⟩ | ⟨ps, r, hps, hr, hconverged⟩
  · cases hx
  · obtain rfl := Except.ok.inj hps
    rw [hr] at hreport
    obtain rfl := Option.some.inj hreport
    exact ⟨hr, hconverged⟩

end Agent

end PodAttach
