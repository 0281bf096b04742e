import PodAttach.Proofs.Runs

/-!
# Flows and the numbers of ports

Flows carry the OpenFlow number of a port, and the bridge gives a number that
became free to the next port.  So flows should not be there without their
port (`Slot.Current`).  Two things can leave them behind, and this module
shows that nothing else can.

* An Add puts a port in the place of one that has flows, and fails after that
  without removing them (`Job.Overtakes`).
* A pass installs flows with the number that is recorded, though the port is
  gone or has another one (`Job.Revives`).

`Job.current` is the step and `flows_current_iff` the result about runs: flows
are those of their ports as long as neither of the two happens, and no longer.
-/

namespace PodAttach.Agent

/-- The flows of an interface, if it has any, carry the number of its port. -/
def Slot.Current (s : Slot) : Prop :=
  ∀ m, s.flows = some m → s.port.bind Switch.Port.ofport = some m

/-- An Add of a container without a record makes a port for an interface that has flows, and fails;
and the flows stay, though the port is gone again or has another number. -/
def Job.Overtakes (o : Options) (w : World) (n : String) (j : Job) : Prop :=
  ∃ t c res p m, j = .serve t ∧ Plans o t.conditions t.request c res p ∧
    w.store.find? c.containerId = none ∧ p.hostIfname = n ∧
    (serveAlone o t.conditions t.request w).2.log.any Event.makesPort = true ∧
    (serveAlone o t.conditions t.request w).1.isOk = false ∧
    (w.slot n).flows = some m ∧ ((j.after o w).slot n).flows = some m ∧
    ((j.after o w).slot n).port.bind Switch.Port.ofport ≠ some m

/-- A pass gives an interface the flows of the recorded number, though the port is gone or has
another number. -/
def RevivesFlows (k : Conditions) (n : String) (w w' : World) : Prop :=
  ∃ ps a q m, k.pods = .ok ps ∧ (w.slot n).record = some a ∧
    (desired ps).contains a.podKey = true ∧ a.port = some q ∧ q.ofport = some m ∧
    (w.slot n).port.bind Switch.Port.ofport ≠ some m ∧ (w'.slot n).flows = some m

/-- A pass revives the flows of an interface. -/
def Job.Revives (o : Options) (w : World) (n : String) (j : Job) : Prop :=
  ∃ k, j = .pass k ∧ RevivesFlows k n w (j.after o w)

variable {o : Options} {w : World} {nameOf : String → String} {n : String} {j : Job}

namespace Slot

variable {s s' : Slot}

theorem current_of_none (h : s.flows = none) : s.Current := by
  intro m hm
  cases h.symm.trans hm

/-- Flows that are as before are current if the port is. -/
theorem Current.of_eq (h : s.Current) (hport : s'.port = s.port) (hflows : s'.flows = s.flows) :
    s'.Current := by
  intro m hm
  rw [hport]
  exact h m (hflows.symm.trans hm)

/-- A removal takes the flows away before the port. -/
theorem Removes.current {a : Attachment} {r : Except Failure Unit} (h : Slot.Removes a s r s')
    (hs : s.Current) : s'.Current := by
  cases h with
  | kept => exact hs
  | flowless => exact current_of_none rfl
  | portless => exact current_of_none rfl
  | gone => exact current_of_none rfl

/-- An attempt leaves the flows of the port that it made, or flows that were there before. -/
theorem Attempts.current_or {k : Conditions} {c : Cni.Call} {p : Plan} {made torn : Bool}
    {x : Except Cni.CallError Bytes} (h : Slot.Attempts k c p s made torn x s') (hs : s.Current) :
    s'.Current ∨ made = true ∧ Failed x ∧ s'.flows = s.flows := by
  cases h with
  | unbuilt => exact .inl hs
  | refused => exact .inl (hs.of_eq rfl rfl)
  | withdrawn hflows =>
    rcases hflows with hsame | hnone
    · exact .inr ⟨rfl, ⟨_, rfl⟩, hsame⟩
    · exact .inl (current_of_none hnone)
  | recorded hofport hflows hremove htorn =>
    rcases hflows with hsame | hnew
    · cases hremove with
      | kept => exact .inr ⟨rfl, ⟨_, rfl⟩, hsame⟩
      | flowless => exact .inl (current_of_none rfl)
      | portless => exact .inl (current_of_none rfl)
      | gone => exact .inl (current_of_none rfl)
    · refine .inl (hremove.current ?_)
      rcases hnew with rfl | rfl
      · exact current_of_none rfl
      · rintro m ⟨⟩
        rfl
  | attached =>
    refine .inl ?_
    rintro m ⟨⟩
    rfl

end Slot

/-! ## One job -/

/-- After a pass the flows of each interface are current, or were revived. -/
theorem current_or_revived {k : Conditions} (hsound : w.Sound nameOf) (hs : (w.slot n).Current) :
    ((passAlone k w).2.world.slot n).Current ∨ (Job.pass k).Revives o w n := by
  rcases passAlone_ends k w with ⟨-, hworld⟩ | ⟨ps, hpods, -⟩
  · rw [hworld]
    exact .inl hs
  have hpasses := passAlone_slot hpods hsound n
  generalize hs' : (passAlone k w).2.world.slot n = s' at hpasses ⊢
  cases hpasses with
  | same => exact .inl hs
  | @replayed a q m ha hkey hport hofport =>
    by_cases hnumber : (w.slot n).port.bind Switch.Port.ofport = some m
    · refine .inl ?_
      rintro m' ⟨⟩
      exact hnumber
    · rcases hofport with hrecorded | ⟨-, hown⟩
      · exact .inr ⟨k, rfl, ps, a, q, m, hpods, ha, hkey, hport, hrecorded, hnumber,
          congrArg Slot.flows hs'⟩
      · exact absurd hown hnumber
  | removed ha hkey hremove => exact .inl (hremove.current hs)

/-- After a request the flows of each interface are current, or the interface was overtaken. -/
theorem current_or_overtaken {t : Turn} (hnames : (Job.serve t).Names nameOf)
    (hsound : w.Sound nameOf) (hs : (w.slot n).Current) :
    ((serveAlone o t.conditions t.request w).2.world.slot n).Current ∨
      (Job.serve t).Overtakes o w n := by
  have hserves := serveAlone_serves o t.conditions t.request w
  generalize hserved : serveAlone o t.conditions t.request w = served at hserves ⊢
  cases hserves with
  | idle hquiet =>
    have hworld : served.2.world = w := hquiet.1
    rw [hworld]
    exact .inl hs
  | @removes c a _ _ _ hcommand hdecode hinfra ha h =>
    have hrecord := ((World.find?_eq_some_iff hsound.coherent).1 ha).1
    refine .inl ?_
    by_cases hn : n = a.interfaceName
    · subst hn
      exact h.slot_self.current hs
    · rw [h.slot_of_ne (fun q hq => (hsound.slot _).record a q hrecord hq) (hsound.slot n) hn]
      exact hs
  | @attempts c res p x _ _ hresponse hplans hnone h =>
    by_cases hn : n = p.hostIfname
    · subst hn
      rcases (h.slot_self hsound.coherent).current_or hs with hcurrent | ⟨hmade, ⟨f, rfl⟩, hsame⟩
      · exact .inl hcurrent
      · refine Classical.or_iff_not_imp_left.2 fun hstale => ?_
        obtain ⟨m, hm, hnumber⟩ : ∃ m, (served.2.world.slot p.hostIfname).flows = some m ∧
            (served.2.world.slot p.hostIfname).port.bind Switch.Port.ofport ≠ some m := by
          simpa [Slot.Current] using hstale
        subst hserved
        refine ⟨t, c, res, p, m, rfl, hplans, hnone, rfl, hmade, ?_, hsame.symm.trans hm, hm,
          hnumber⟩
        rw [hresponse]
        rfl
    · rw [h.slot_of_ne (hnames _) hsound hnone hn]
      exact .inl hs

/-- After any job the flows of each interface are current, unless one of two things happened. -/
theorem Job.current (hnames : j.Names nameOf) (hsound : w.Sound nameOf)
    (hs : (w.slot n).Current) :
    ((j.after o w).slot n).Current ∨ j.Overtakes o w n ∨ j.Revives o w n := by
  cases j with
  | serve t => exact (current_or_overtaken hnames hsound hs).imp_right .inl
  | pass k => exact (current_or_revived hsound hs).imp_right .inr
  | vanish name =>
    refine .inl ?_
    rw [Job.after, World.slot_dropLink]
    split
    · exact hs.of_eq rfl rfl
    · exact hs

/-- An interface that was overtaken has flows that are not those of its port. -/
theorem Job.Overtakes.not_current (h : j.Overtakes o w n) : ¬ ((j.after o w).slot n).Current := by
  obtain ⟨t, c, res, p, m, -, -, -, -, -, -, -, hflows, hnumber⟩ := h
  exact fun hcurrent => hnumber (hcurrent m hflows)

/-- A pass does not touch the port of an attachment that it restores. -/
theorem RevivesFlows.port_eq {k : Conditions} {w' : World} (h : RevivesFlows k n w w')
    (hsound : w.Sound nameOf) : ((passAlone k w).2.world.slot n).port = (w.slot n).port := by
  obtain ⟨ps, a, q, m, hpods, ha, hkey, -⟩ := h
  have hpasses := passAlone_slot hpods hsound n
  generalize (passAlone k w).2.world.slot n = s' at hpasses ⊢
  cases hpasses with
  | same => rfl
  | replayed => rfl
  | removed ha' hkey' =>
    obtain rfl := Option.some.inj (ha.symm.trans ha')
    cases hkey.symm.trans hkey'

/-- So does one whose flows were revived. -/
theorem Job.Revives.not_current (h : j.Revives o w n) (hsound : w.Sound nameOf) :
    ¬ ((j.after o w).slot n).Current := by
  obtain ⟨k, rfl, hrevives⟩ := h
  have hport := hrevives.port_eq hsound
  obtain ⟨ps, a, q, m, -, -, -, -, -, hnumber, hflows⟩ := hrevives
  exact fun hcurrent => hnumber (hport ▸ hcurrent m hflows)

/-! ## Runs -/

/-- In a run with any failing calls, the flows of every interface are always those of its port
exactly if no Add overtakes an interface that has flows and no pass revives flows. -/
theorem flows_current_iff {jobs : List Job} (hnames : ∀ j ∈ jobs, j.Names nameOf)
    (hsound : w.Sound nameOf) (hstart : ∀ n, (w.slot n).Current) :
    (∀ before after, jobs = before ++ after → ∀ n, ((w.after o before).slot n).Current) ↔
      ∀ before j after, jobs = before ++ j :: after → ∀ n,
        ¬ j.Overtakes o (w.after o before) n ∧ ¬ j.Revives o (w.after o before) n := by
  have hsnoc : ∀ before j, w.after o (before ++ [j]) = j.after o (w.after o before) :=
    fun before j => World.after_append o w before [j]
  constructor
  · intro hall before j after hjobs n
    have hcurrent := hall (before ++ [j]) after (by simp [hjobs]) n
    have hbefore : (w.after o before).Sound nameOf := World.after_sound hnames hsound hjobs
    rw [hsnoc] at hcurrent
    exact ⟨fun h => h.not_current hcurrent, fun h => h.not_current hbefore hcurrent⟩
  · intro hnever
    refine World.after_prefix (I := fun v => ∀ n, (v.slot n).Current) ?_ hstart
    intro before j after hjobs hbefore n
    have hnamed : j.Names nameOf := hnames j (by simp [hjobs])
    obtain ⟨hovertakes, hrevives⟩ := hnever before j after hjobs n
    rcases j.current hnamed (World.after_sound hnames hsound hjobs) (hbefore n) with h | h | h
    · exact h
    · exact absurd h hovertakes
    · exact absurd h hrevives

namespace Sample

/-- The port of a first sandbox has flows; its link vanishes; and the Add of a second sandbox of the
pod cannot get the number of the new port. -/
def takeover : List Job :=
  [.serve ⟨⟨.add, args "c1"⟩, conditions fun _ => none⟩, .vanish name,
    .serve ⟨⟨.add, args "c2"⟩, conditions (failing .bare 6)⟩]

theorem takeover_names : ∀ j ∈ takeover, j.Names Sample.nameOf := by
  intro j hj
  simp only [takeover, List.mem_cons, List.not_mem_nil, or_false] at hj
  rcases hj with rfl | rfl | rfl
  · exact nameOf_uuidOf
  · trivial
  · exact nameOf_uuidOf

end Sample

/-- The port is removed again, the flows of the first sandbox stay, and so the Add overtook them. -/
theorem flows_stay_without_port :
    ((World.after {} {} Sample.takeover).slot Sample.name).flows = some 10 ∧
      ((World.after {} {} Sample.takeover).slot Sample.name).port = none ∧
      ¬ ∀ before j after, Sample.takeover = before ++ j :: after → ∀ n,
        ¬ j.Overtakes {} (World.after {} {} before) n ∧
          ¬ j.Revives {} (World.after {} {} before) n := by
  have hflows : ((World.after {} {} Sample.takeover).slot Sample.name).flows = some 10 := by
    decide +kernel
  have hport : ((World.after {} {} Sample.takeover).slot Sample.name).port = none := by
    decide +kernel
  refine ⟨hflows, hport, fun hnever => ?_⟩
  have hcurrent := (flows_current_iff Sample.takeover_names (World.sound_empty Sample.nameOf)
    fun _ => Slot.current_of_none rfl).2 hnever Sample.takeover [] (by simp) Sample.name
  have hnumber := hcurrent 10 hflows
  rw [hport] at hnumber
  cases hnumber

end PodAttach.Agent
