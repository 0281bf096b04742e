import PodAttach.Proofs.Success

/-!
# Histories

Requests that are served one after the other, starting from nothing, with any
calls failing.  The `History` keeps the world and what each request did.

A record can be there without all that it stands for: a failed Add keeps the
record of a port that it could not remove, and a Del that fails half-way keeps
the record until it is tried again.  `Explained` is the invariant that says
there is no other reason: an interface with a record is complete, or the last
request that worked on it was answered by a failure.  `serveAlone_settled` is
the step, for one request of any kind, and `explained_of` holds of every
history.

From this follows exactly when the success of an Add can be relied on.
-/

namespace PodAttach.Agent

open Activity

variable {k : Conditions} {w : World} {nameOf : String → String}

/-! ## One request -/

/-- A step that the rules of a territory let happen names interfaces of the territory only. -/
theorem Territory.owns_of_changes {T : Territory} {limit : Option Duration}
    {d : Except DescriptorError Descriptor} {q : Ask} {s : LockStage}
    (hasks : (T.rules limit d).asks q s) {n : String} (hn : q.changes n = true) : T.owns n := by
  cases q with
  | switch c => cases c <;> first | cases hn | exact of_decide_eq_true hn ▸ hasks.2
  | link c => cases c <;> first | cases hn | exact of_decide_eq_true hn ▸ hasks.2
  | _ => cases hn

/-- A request that keeps to a territory leaves everything outside as it was. -/
theorem Territory.run_outside {T : Territory} {limit : Option Duration} {α : Type}
    (huuid : ∀ n, T.nameOf (k.uuid n) = n) {p : Activity α} {s : LockStage} {e : Episode}
    {post : α → LockStage → Prop} (h : p.Ensures (T.rules limit k.descriptor) s post)
    (hcovers : T.Covers e.world) :
    T.Covers (p.run (Episode.answer k) e).2.world ∧ ∀ n, ¬ T.owns n →
      (p.run (Episode.answer k) e).2.world.slot n = e.world.slot n ∧
        (p.run (Episode.answer k) e).2.changed n = e.changed n := by
  induction p generalizing s e with
  | done a => exact ⟨hcovers, fun n _ => ⟨rfl, rfl⟩⟩
  | ask q next ih =>
    obtain ⟨hasks, hnext⟩ := h
    obtain ⟨hanswers, hcovers', houtside⟩ := hcovers.step huuid hasks (k.mishap e.log.length)
    rw [Proc.run_ask]
    obtain ⟨hend, hrest⟩ := ih _ (hnext _ _ hanswers) (e := (Episode.answer k q e).2) hcovers'
    refine ⟨hend, fun n hn => ?_⟩
    obtain ⟨hslot, hchanged⟩ := hrest n hn
    have hq : q.changes n = false := by
      rw [← Bool.not_eq_true]
      exact fun hq => hn (owns_of_changes hasks hq)
    refine ⟨hslot.trans (houtside n hn), hchanged.trans ?_⟩
    simp [Episode.answer, Episode.changed, hq]

/-- A request that keeps to a territory leaves the territories of other containers covered. -/
theorem Territory.run_covers_other {T T' : Territory} {limit : Option Duration} {α : Type}
    (huuid : ∀ n, T.nameOf (k.uuid n) = n) (hne : T.container ≠ T'.container)
    (hname : T.nameOf = T'.nameOf) {p : Activity α} {s : LockStage} {e : Episode}
    {post : α → LockStage → Prop} (h : p.Ensures (T.rules limit k.descriptor) s post)
    (hcovers : T.Covers e.world) (hother : T'.Covers e.world) :
    T'.Covers (p.run (Episode.answer k) e).2.world := by
  induction p generalizing s e with
  | done a => exact hother
  | ask q next ih =>
    obtain ⟨hasks, hnext⟩ := h
    obtain ⟨hanswers, hcovers', -⟩ := hcovers.step huuid hasks (k.mishap e.log.length)
    have hother' := hother.step_other hne hname huuid hasks (k.mishap e.log.length)
    rw [Proc.run_ask]
    exact ih _ (hnext _ _ hanswers) (e := (Episode.answer k q e).2) hcovers' hother'

/-- The code of a configuration that failed. -/
def Failed (x : Except Cni.CallError Bytes) : Prop :=
  ∃ f : Failure, x = .error f.whileConfiguring

/-- One interface was worked on: that failed, or the interface has no record or is complete. -/
structure Episode.Worked (e : Episode) (name : String) (x : Except Cni.CallError Bytes) : Prop where
  changed : e.changed name = true
  ending : Failed x ∨ (e.world.slot name).record = none ∨ (e.world.slot name).Wired

theorem Episode.Worked.of_quiet {e e' : Episode} {name : String} {x : Except Cni.CallError Bytes}
    (h : e.Worked name x) (hquiet : Quiet e e') : e'.Worked name x where
  changed := (hquiet.2 name).trans h.changed
  ending := by
    rw [hquiet.1]
    exact h.ending

/-- What a request ensures holds of the run alone. -/
theorem serveAlone_ends {o : Options} {r : Cni.Request}
    {post : Except Cni.CallError Bytes → Episode → Prop}
    (h : (serve o r).Ensures (mayAnswer k fun _ => True) ⟨w, []⟩ post) :
    ∃ x, (serveAlone o k r w).1 = .ofExcept x ∧ post x (serveAlone o k r w).2 := by
  have hhandle : (handle o r).Ensures (mayAnswer k fun _ => True) ⟨w, []⟩ fun response e' =>
      ∃ x, response = .ofExcept x ∧ post x e' := by
    rw [ensures_handle]
    exact h.mono fun x e' hpost => ⟨x, rfl, hpost⟩
  exact serveAlone_of_ensures hhandle fun _ _ => trivial

/-- An Add for a container without a record works on the interface that it plans. -/
theorem serve_attaching {o : Options} {r : Cni.Request} {c : Cni.Call} {res : Cni.Result}
    {p : Plan} (hplans : Plans o k r c res p) (hnone : w.store.find? c.containerId = none) :
    (serve o r).Ensures (mayAnswer k fun _ => True) ⟨w, []⟩ fun x e' =>
      Quiet ⟨w, []⟩ e' ∨ e'.Worked p.hostIfname x := by
  refine ensures_serve (fun x e' hquiet => .inl hquiet) fun c' e₁ hdecode hquiet => ?_
  obtain rfl : c = c' := Except.ok.inj (hplans.decoded.symm.trans hdecode)
  rw [hplans.command]
  show (addLocked c).Ensures _ _ _
  rw [hplans.ensures_addLocked]
  intro _ _
  have hstill : e₁.world.store.find? c.containerId = none := by rw [hquiet.1, hnone]
  simp only [hstill]
  refine (attach_cases.and attach_changed).mono ?_
  rintro x e' ⟨hcases, hchanged⟩ e'' hend
  have hworked : e'.Worked p.hostIfname x := by
    refine ⟨hchanged, ?_⟩
    rcases hcases with hfailed | ⟨-, hwired⟩
    · exact .inl hfailed
    · exact .inr (.inr hwired)
  exact .inr (hworked.of_quiet hend)

/-- A Del for a container with a record works on the interface of the record. -/
theorem serve_removing {o : Options} {r : Cni.Request} {c : Cni.Call} {a : Attachment}
    (hcommand : r.command = .del) (hdecode : decode o r.args = .ok c) (hinfra : c.isInfra = true)
    (hrecord : w.store.find? c.containerId = some a) :
    (serve o r).Ensures (mayAnswer k fun _ => True) ⟨w, []⟩ fun x e' =>
      Quiet ⟨w, []⟩ e' ∨ e'.Worked a.interfaceName x := by
  refine ensures_serve (fun x e' hquiet => .inl hquiet) fun c' e₁ hdecode' hquiet => ?_
  obtain rfl : c = c' := Except.ok.inj (hdecode.symm.trans hdecode')
  rw [hcommand]
  show (delLocked c).Ensures _ _ _
  have hstill : e₁.world.store.find? c.containerId = some a := by rw [hquiet.1, hrecord]
  rw [delLocked, if_pos hinfra, removeOf, Proc.ensures_bind, Proc.ensures_bind,
    ensures_attachmentOf, hstill]
  intro _
  refine (remove_cases.and remove_changed).mono ?_
  rintro x e' ⟨hcases, hchanged⟩
  cases x with
  | error f =>
    intro e'' hend
    have hworked : e'.Worked a.interfaceName (.error f.whileConfiguring) :=
      ⟨hchanged, .inl ⟨f, rfl⟩⟩
    exact .inr (hworked.of_quiet hend)
  | ok =>
    intro e'' hend
    have hworked : e'.Worked a.interfaceName (.ok []) := by
      refine ⟨hchanged, .inr (.inl ?_)⟩
      rcases hcases with ⟨f, ⟨⟩⟩ | hgone
      exact hgone
    exact .inr (hworked.of_quiet hend)

/-- Any other request changes nothing. -/
theorem serve_quiet {o : Options} {r : Cni.Request}
    (hadd : ∀ c res p, Plans o k r c res p → w.store.find? c.containerId ≠ none)
    (hdel : ∀ c, r.command = .del → decode o r.args = .ok c → c.isInfra = true →
      w.store.find? c.containerId = none) :
    (serve o r).Ensures (mayAnswer k fun _ => True) ⟨w, []⟩ fun _ e' => Quiet ⟨w, []⟩ e' := by
  refine ensures_serve (fun x e' hquiet => hquiet) fun c e₁ hdecode hquiet => ?_
  have htrans : ∀ x : Except Cni.CallError Bytes, ∀ e' : Episode, Quiet e₁ e' →
      ∀ e'', Quiet e' e'' → Quiet ⟨w, []⟩ e'' := fun x e' h' e'' h'' =>
    (hquiet.trans h').trans h''
  unfold underLock
  split
  · next hcommand =>
    refine (addLocked_quiet fun d res p hinfra hd hplan => ?_).mono htrans
    rw [hquiet.1]
    exact hadd c res p ⟨hcommand, hdecode, hinfra, d, hd, hplan⟩
  · next hcommand =>
    refine (delLocked_quiet fun hinfra => ?_).mono htrans
    rw [hquiet.1]
    exact hdel c hcommand hdecode hinfra
  · exact checkLocked_quiet.mono htrans

/-- What serving a request can come to: nothing changed, or one interface was worked on and the
others were left as they were. -/
def World.Settled (nameOf : String → String) (w : World) (served : Cni.Response × Episode) : Prop :=
  ∃ x, served.1 = .ofExcept x ∧ served.2.world.Sound nameOf ∧
    (Quiet ⟨w, []⟩ served.2 ∨
      ∃ name, served.2.Worked name x ∧ ∀ n, n ≠ name →
        served.2.world.slot n = w.slot n ∧ served.2.changed n = false)

/-- A request for a sandbox that plans and holds one interface only does not leave the territory
of that interface. -/
theorem settled_of_worked {o : Options} {r : Cni.Request} {c : Cni.Call} {name : String}
    (huuid : ∀ n, nameOf (k.uuid n) = n) (hsound : w.Sound nameOf)
    (hdecode : decode o r.args = .ok c) (hinfra : c.isInfra = true)
    (hplanned : ∀ res p, Plans o k r c res p → p.hostIfname = name)
    (hheld : ∀ a, w.store.find? c.containerId = some a → a.interfaceName = name)
    (hserve : (serve o r).Ensures (mayAnswer k fun _ => True) ⟨w, []⟩ fun x e' =>
      Quiet ⟨w, []⟩ e' ∨ e'.Worked name x) :
    w.Settled nameOf (serveAlone o k r w) := by
  have hfits : Territory.Fits ⟨c.containerId, (· = name), nameOf⟩ o k.descriptor r := by
    constructor
    · intro c' hdecode'
      obtain rfl : c = c' := Except.ok.inj (hdecode.symm.trans hdecode')
      exact infraContainerId_of_isInfra hdecode hinfra
    · intro c' v res p hdecode' hcommand _ hd hplan
      obtain rfl : c = c' := Except.ok.inj (hdecode.symm.trans hdecode')
      exact hplanned res p ⟨hcommand, hdecode, hinfra, v, hd, hplan⟩
  have hcovers : Territory.Covers ⟨c.containerId, (· = name), nameOf⟩ w := by
    refine ⟨hsound, fun {n a} ha hc => ?_⟩
    have hself := hsound.coherent.name ha
    exact hself.symm.trans (hheld a ((World.find?_eq_some_iff hsound.coherent).2
      ⟨hself.symm ▸ ha, hc⟩))
  obtain ⟨hend, houtside⟩ := Territory.run_outside huuid (Territory.ensures_handle hfits)
    (e := ⟨w, []⟩) hcovers
  obtain ⟨x, hresponse, hpost⟩ := serveAlone_ends hserve
  exact ⟨x, hresponse, hend.toSound, hpost.imp_right fun hworked => ⟨name, hworked, houtside⟩⟩

/-- Serving a request changes nothing, or works on one interface and leaves the others. -/
theorem serveAlone_settled {o : Options} {r : Cni.Request} (huuid : ∀ n, nameOf (k.uuid n) = n)
    (hsound : w.Sound nameOf) : w.Settled nameOf (serveAlone o k r w) := by
  by_cases hadd : ∃ c res p, Plans o k r c res p ∧ w.store.find? c.containerId = none
  · obtain ⟨c, res, p, hplans, hnone⟩ := hadd
    refine settled_of_worked huuid hsound hplans.decoded hplans.infra (fun res' p' hplans' => ?_)
      (fun a ha => ?_) (serve_attaching hplans hnone)
    · rw [(hplans'.unique hplans).2]
    · simp [hnone] at ha
  by_cases hdel : ∃ c a, r.command = .del ∧ decode o r.args = .ok c ∧ c.isInfra = true ∧
      w.store.find? c.containerId = some a
  · obtain ⟨c, a, hcommand, hdecode, hinfra, ha⟩ := hdel
    refine settled_of_worked huuid hsound hdecode hinfra (fun res p hplans => ?_) (fun b hb => ?_)
      (serve_removing hcommand hdecode hinfra ha)
    · cases hcommand.symm.trans hplans.command
    · rw [Option.some.inj (ha.symm.trans hb)]
  · have hquiet : (serve o r).Ensures (mayAnswer k fun _ => True) ⟨w, []⟩ fun _ e' =>
        Quiet ⟨w, []⟩ e' := by
      refine serve_quiet (fun c res p hplans hnone => hadd ⟨c, res, p, hplans, hnone⟩)
        fun c hcommand hdecode hinfra => ?_
      cases hfound : w.store.find? c.containerId with
      | none => rfl
      | some a => exact absurd ⟨c, a, hcommand, hdecode, hinfra, hfound⟩ hdel
    obtain ⟨x, hresponse, hsame⟩ := serveAlone_ends hquiet
    exact ⟨x, hresponse, hsame.1 ▸ hsound, .inl hsame⟩

/-- An Add for a sandbox that succeeds has attached it, or found a record and done nothing. -/
theorem serveAlone_add_ok {o : Options} {r : Cni.Request} {c : Cni.Call}
    (hcommand : r.command = .add) (hdecode : decode o r.args = .ok c) (hinfra : c.isInfra = true)
    (hok : (serveAlone o k r w).1.isOk = true) :
    w.store.find? c.containerId = none ∧
        (serveAlone o k r w).2.world.Attached c.containerId ∨
      (w.store.find? c.containerId).isSome = true ∧ (serveAlone o k r w).2.world = w := by
  have hserve : (serve o r).Ensures (mayAnswer k fun _ => True) ⟨w, []⟩ fun x e' =>
      ∀ bytes, x = .ok bytes →
        w.store.find? c.containerId = none ∧ e'.world.Attached c.containerId ∨
          (w.store.find? c.containerId).isSome = true ∧ e'.world = w := by
    refine ensures_serve (fun x e' _ => nofun) fun c' e₁ hdecode' hquiet => ?_
    obtain rfl : c = c' := Except.ok.inj (hdecode.symm.trans hdecode')
    have hworld : e₁.world = w := hquiet.1
    rw [hcommand]
    refine (addLocked_ok hinfra).mono ?_
    intro x e' hpost e'' hend bytes hx
    have h := hpost bytes hx
    rw [hworld] at h
    rw [hend.1]
    exact h
  obtain ⟨x, hresponse, hpost⟩ := serveAlone_ends hserve
  cases x with
  | error e =>
    rw [hresponse] at hok
    cases hok
  | ok bytes => exact hpost bytes rfl

/-! ## Histories -/

/-- A request that was served. -/
structure Served where
  response : Cni.Response
  /-- What was asked for it, the last first. -/
  log : List Event

/-- Whether a request asked to change an interface. -/
def Served.changed (s : Served) (name : String) : Bool :=
  s.log.any fun ev => ev.asked.changes name

/-- Whether a request was answered by the failure of a configuration. -/
def Served.failed (s : Served) : Prop :=
  ∃ f : Failure, s.response = .ofError f.whileConfiguring

/-- What came about when requests were served one after the other. -/
structure History where
  world : World
  /-- The requests, the last first. -/
  past : List Served

namespace History

/-- One more request is served. -/
def turn (o : Options) (h : History) (t : Turn) : History :=
  let served := serveAlone o t.conditions t.request h.world
  ⟨served.2.world, ⟨served.1, served.2.log⟩ :: h.past⟩

/-- All requests are served, from the empty world on. -/
def of (o : Options) (turns : List Turn) : History :=
  turns.foldl (turn o) ⟨{}, []⟩

/-- Who changed an interface last, if anyone did. -/
def last? (h : History) (name : String) : Option Served :=
  h.past.find? fun s => s.changed name

/-- The invariant of histories: an interface that has a record is complete, or whoever changed it
last was answered by a failure. -/
structure Explained (nameOf : String → String) (h : History) : Prop where
  sound : h.world.Sound nameOf
  slot : ∀ n, (h.world.slot n).record = none ∨ (h.world.slot n).Wired ∨
    ∃ s, h.last? n = some s ∧ s.failed

theorem Explained.turn {o : Options} {h : History} (hexplained : h.Explained nameOf) {t : Turn}
    (huuid : ∀ n, nameOf (t.conditions.uuid n) = n) : (h.turn o t).Explained nameOf := by
  obtain ⟨x, hresponse, hsound, hcases⟩ := serveAlone_settled (o := o) (r := t.request) huuid
    hexplained.sound
  refine ⟨hsound, fun n => ?_⟩
  -- an interface that was not worked on is as it was
  have hsame : (h.turn o t).world.slot n = h.world.slot n →
      (serveAlone o t.conditions t.request h.world).2.changed n = false →
      ((h.turn o t).world.slot n).record = none ∨ ((h.turn o t).world.slot n).Wired ∨
        ∃ s, (h.turn o t).last? n = some s ∧ s.failed := by
    intro hslot hchanged
    have hlast : (h.turn o t).last? n = h.last? n :=
      List.find?_cons_of_neg (by simpa [Served.changed, Episode.changed] using hchanged)
    rw [hslot, hlast]
    exact hexplained.slot n
  rcases hcases with hquiet | ⟨name, hworked, hothers⟩
  · exact hsame (congrArg (World.slot · n) hquiet.1) (hquiet.2 n)
  · by_cases hn : n = name
    · subst hn
      have hlast : (h.turn o t).last? n =
          some ⟨_, (serveAlone o t.conditions t.request h.world).2.log⟩ :=
        List.find?_cons_of_pos hworked.changed
      rcases hworked.ending with ⟨f, rfl⟩ | hrest
      · exact .inr (.inr ⟨_, hlast, f, hresponse⟩)
      · exact hrest.imp_right .inl
    · exact hsame (hothers n hn).1 (hothers n hn).2

theorem Explained.foldl {o : Options} {h : History} (hexplained : h.Explained nameOf)
    {turns : List Turn} (huuid : ∀ t ∈ turns, ∀ n, nameOf (t.conditions.uuid n) = n) :
    (turns.foldl (History.turn o) h).Explained nameOf := by
  induction turns generalizing h with
  | nil => exact hexplained
  | cons t turns ih =>
    exact ih (hexplained.turn (huuid t (by simp))) fun t' ht' => huuid t' (by simp [ht'])

theorem explained_of {o : Options} {turns : List Turn}
    (huuid : ∀ t ∈ turns, ∀ n, nameOf (t.conditions.uuid n) = n) :
    (History.of o turns).Explained nameOf :=
  Explained.foldl ⟨World.sound_empty nameOf, fun _ => .inl rfl⟩ huuid

end History

/-- After any requests, with any failing calls, an Add for a sandbox that succeeds leaves it with a
record.  It is attached exactly if it had no record before or was attached already.  If it is not
attached, then the Add did nothing, and the last request that worked on the interface of the
record was answered by a failure. -/
theorem successful_add_attached_iff {o : Options} {turns : List Turn} {t : Turn} {c : Cni.Call}
    (huuid : ∀ t ∈ turns, ∀ n, nameOf (t.conditions.uuid n) = n)
    (hcommand : t.request.command = .add) (hdecode : decode o t.request.args = .ok c)
    (hinfra : c.isInfra = true)
    (hok : (serveAlone o t.conditions t.request (History.of o turns).world).1.isOk = true) :
    (∃ a, ((History.of o turns).turn o t).world.store.find? c.containerId = some a) ∧
      (((History.of o turns).turn o t).world.Attached c.containerId ↔
        (History.of o turns).world.store.find? c.containerId = none ∨
          (History.of o turns).world.Attached c.containerId) ∧
      (¬ ((History.of o turns).turn o t).world.Attached c.containerId →
        ((History.of o turns).turn o t).world = (History.of o turns).world ∧
          ∀ a, (History.of o turns).world.store.find? c.containerId = some a →
            ∃ s, (History.of o turns).last? a.interfaceName = some s ∧ s.failed) := by
  have hexplained := History.explained_of (o := o) huuid
  rcases serveAlone_add_ok hcommand hdecode hinfra hok with ⟨hnone, hattached⟩ | ⟨hsome, hsame⟩
  · obtain ⟨a, ha, hwired⟩ := hattached
    exact ⟨⟨a, ha⟩, iff_of_true ⟨a, ha, hwired⟩ (.inl hnone), fun hnot =>
      absurd ⟨a, ha, hwired⟩ hnot⟩
  · have hworld : ((History.of o turns).turn o t).world = (History.of o turns).world := hsame
    rw [hworld]
    refine ⟨Option.isSome_iff_exists.1 hsome, ?_, fun hnot => ⟨rfl, fun a ha => ?_⟩⟩
    · constructor
      · exact .inr
      · rintro (hnone | hattached)
        · simp [hnone] at hsome
        · exact hattached
    · -- the record is there, and the interface is not complete
      have hslot := ((World.find?_eq_some_iff hexplained.sound.coherent).1 ha).1
      rcases hexplained.slot a.interfaceName with hgone | hwired | hfailed
      · cases hslot.symm.trans hgone
      · exact absurd ⟨a, ha, hwired⟩ hnot
      · exact hfailed

namespace Sample

/-- The calls fail that were to ask for the number of the port, and both that were to remove it
after that. -/
def portStays : Nat → Option Mishap :=
  fun n => if n ∈ [6, 7, 11] then some ⟨⟨.ofPortUnavailable name, rfl⟩, default, false⟩ else none

/-- An Add that leaves a port on the bridge. -/
def halfAdd : Turn :=
  ⟨⟨.add, args "c1"⟩, conditions portStays⟩

/-- The same Add, when nothing fails. -/
def secondAdd : Turn :=
  ⟨⟨.add, args "c1"⟩, conditions fun _ => none⟩

end Sample

/-- After an Add that left a port on the bridge, the next one succeeds with the record of that
port, though there are no flows. -/
theorem successful_add_without_flows :
    (serveAlone {} Sample.secondAdd.conditions Sample.secondAdd.request
        (History.of {} [Sample.halfAdd]).world).1.isOk = true ∧
      ¬ ((History.of {} [Sample.halfAdd]).turn {} Sample.secondAdd).world.Attached "c1" ∧
      ((History.of {} [Sample.halfAdd]).turn {} Sample.secondAdd).world =
        (History.of {} [Sample.halfAdd]).world := by
  have hok : (serveAlone {} Sample.secondAdd.conditions Sample.secondAdd.request
      (History.of {} [Sample.halfAdd]).world).1.isOk = true := by decide +kernel
  have hnot : ¬ ((History.of {} [Sample.halfAdd]).turn {} Sample.secondAdd).world.Attached
      "c1" := by decide +kernel
  have huuid : ∀ t ∈ [Sample.halfAdd], ∀ n, Sample.nameOf (t.conditions.uuid n) = n := by
    intro t ht n
    obtain rfl : t = Sample.halfAdd := by simpa using ht
    exact Sample.nameOf_uuidOf n
  have hid : (Sample.call "c1").containerId = "c1" := by decide +kernel
  obtain ⟨-, -, hsame⟩ := successful_add_attached_iff huuid rfl
    (Sample.plans fun _ => none).decoded (Sample.plans fun _ => none).infra hok
  rw [hid] at hsame
  exact ⟨hok, hnot, (hsame hnot).1⟩

end PodAttach.Agent
