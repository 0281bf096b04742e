import PodAttach.Proofs.Alone
import PodAttach.Proofs.Numbers

/-!
# Requests of twins

`Twins` relates two computations that ask the same questions, up to numbers,
in two worlds, and says how they end.  Both meet the same mishaps.
`Twins.bind` takes them apart at their sequencing, like `ensures_bind` for one
computation, and `Twins.run` goes to the two runs.

A request is followed through its parts.  While it has made a port that is
not recorded yet, `HasPort` says that the port is there with what was handed
out in the run, and `Numbered` whether the request knows the number yet.  The
errors may differ in these, but not in their wording.

`serveAlone_twin` is the result: the request gets the same response and the
worlds are twins again.
-/

namespace PodAttach.Agent

/-! ## Computations of twins -/

/-- Two computations ask alike in two worlds, whatever their questions meet, and end as the
postcondition says. -/
def Twins (k k' : Conditions) {α : Type} : Activity α → Activity α → World → World →
    (α → α → World → World → Prop) → Prop
  | .done a, p', v, v', post => ∃ a', p' = .done a' ∧ post a a' v v'
  | .ask q next, p', v, v', post => ∃ q' next', p' = .ask q' next' ∧ ∀ m,
      Twins k k' (next (v.meet k m q).1) (next' (v'.meet k' m q').1) (v.meet k m q).2
        (v'.meet k' m q').2 post

section

variable {k k' : Conditions} {α β : Type} {v v' : World}

theorem twins_done {a a' : α} {post : α → α → World → World → Prop} (h : post a a' v v') :
    Twins k k' (.done a) (.done a') v v' post :=
  ⟨a', rfl, h⟩

theorem Twins.bind {p p' : Activity α} {f f' : α → Activity β}
    {mid : α → α → World → World → Prop} {post : β → β → World → World → Prop}
    (h : Twins k k' p p' v v' mid)
    (hf : ∀ a a' e e', mid a a' e e' → Twins k k' (f a) (f' a') e e' post) :
    Twins k k' (p >>= f) (p' >>= f') v v' post := by
  induction p generalizing p' v v' with
  | done a =>
    obtain ⟨a', rfl, hmid⟩ := h
    exact hf a a' v v' hmid
  | ask q next ih =>
    obtain ⟨q', next', rfl, hnext⟩ := h
    exact ⟨q', _, rfl, fun m => ih _ (hnext m)⟩

/-- Two runs end as the computations do. -/
theorem Twins.run {p p' : Activity α} (e e' : Episode) {post : α → α → World → World → Prop}
    (h : Twins k k' p p' e.world e'.world post) (hmishap : k'.mishap = k.mishap)
    (hlength : e'.log.length = e.log.length) :
    post (p.run (Episode.answer k) e).1 (p'.run (Episode.answer k') e').1
      (p.run (Episode.answer k) e).2.world (p'.run (Episode.answer k') e').2.world := by
  induction p generalizing p' e e' with
  | done a =>
    obtain ⟨a', rfl, hpost⟩ := h
    exact hpost
  | ask q next ih =>
    obtain ⟨q', next', rfl, hnext⟩ := h
    rw [Proc.run_ask, Proc.run_ask]
    have hsame : k'.mishap e'.log.length = k.mishap e.log.length := by rw [hmishap, hlength]
    have hrest := hnext (k.mishap e.log.length)
    refine ih _ (Episode.answer k q e).2 (Episode.answer k' q' e').2 ?_ ?_
    · simp only [Episode.answer, hsame, Episode.push_world]
      exact hrest
    · simp only [Episode.answer, Episode.push_log, List.length_cons, hlength]

/-- The same question is asked of two worlds. -/
theorem twins_question {q : Ask} {post : q.Reply → q.Reply → World → World → Prop}
    (h : ∀ m, post (v.meet k m q).1 (v'.meet k' m q).1 (v.meet k m q).2 (v'.meet k' m q).2) :
    Twins k k' (Proc.question q : Activity q.Reply) (.question q) v v' post :=
  ⟨q, _, rfl, fun m => twins_done (h m)⟩

end

/-! ## What twins make -/

open Activity Switch.Session

/-- A question for a number that meets nothing is answered from the port. -/
theorem World.meet_getOfport (k : Conditions) (v : World) (name : String) :
    v.meet k none (.switch (.getOfport name)) =
      (match (v.slot name).port.bind Switch.Port.ofport with
        | some ofport => .ok ofport
        | none => .error (.ofPortUnavailable name), v) :=
  World.perform_getOfport k v name

/-- The port is there that was made under the conditions. -/
def HasPort (k : Conditions) (name : String) (ids : Table String) (v : World) : Prop :=
  (v.slot name).port = some ⟨k.uuid name, name, some k.ofport, ids⟩

/-- The number of the port was asked for in both runs, or in none. -/
def Numbered (k k' : Conditions) (n n' : Option Nat) : Prop :=
  n = none ∧ n' = none ∨ n = some k.ofport ∧ n' = some k'.ofport

/-- Removing flows leaves records and ports. -/
theorem slot_uninstallFlows (k : Conditions) {v : World} (h : v.store.Coherent) (n name : String)
    (m : Option Mishap) :
    ((v.meet k m (.switch (.uninstallFlows n))).2.slot name).port = (v.slot name).port ∧
      ((v.meet k m (.switch (.uninstallFlows n))).2.slot name).record = (v.slot name).record := by
  rw [World.slot_meet k h]
  cases m with
  | some m => exact ⟨rfl, rfl⟩
  | none =>
    simp only [Slot.meet, Slot.perform]
    split <;> exact ⟨rfl, rfl⟩

theorem HasPort.uninstallFlows {k : Conditions} {name : String} {ids : Table String} {v : World}
    (hport : HasPort k name ids v) (h : v.store.Coherent) (k₀ : Conditions) (n : String)
    (m : Option Mishap) : HasPort k name ids (v.meet k₀ m (.switch (.uninstallFlows n))).2 :=
  (slot_uninstallFlows k₀ h n name m).1.trans hport

section

variable {ρ : Renaming} {P : String → Prop} {nameOf nameOf' : String → String} {v v' : World}
  {k k' : Conditions} {name : String} {ids : Table String}
  (huuid : ∀ n, nameOf (k.uuid n) = n) (huuid' : ∀ n, nameOf' (k'.uuid n) = n)

include huuid huuid'

/-- The port that was made is removed in both worlds, or in none. -/
theorem deletePort_twins (h : v.Twin ρ P nameOf nameOf' v') (hport : HasPort k name ids v)
    (hport' : HasPort k' name ids v') :
    Twins k k' (onSwitch (deletePort (k.uuid name))) (onSwitch (deletePort (k'.uuid name))) v v'
      fun r r' e e' => e.Twin ρ P nameOf nameOf' e' ∧ r = r' ∧
        ∀ x, r = .error x → HasPort k name ids e ∧ HasPort k' name ids e' := by
  refine ⟨_, _, rfl, fun m => twins_done ⟨?_, ?_, fun x hx => ?_⟩⟩
  · refine h.deletePort huuid huuid' (huuid name) (huuid' name) (fun p p' hp hp' => ?_) m
    obtain rfl := Option.some.inj (hport.symm.trans hp)
    obtain rfl := Option.some.inj (hport'.symm.trans hp')
    exact iff_of_true rfl rfl
  · cases m <;> rfl
  · cases m with
    | none => cases hx
    | some m => exact ⟨hport, hport'⟩

theorem detach_twins (h : v.Twin ρ P nameOf nameOf' v') (hport : HasPort k name ids v)
    (hport' : HasPort k' name ids v') {n n' : Option Nat} (hnumbered : Numbered k k' n n') :
    Twins k k' (onSwitch (Switch.detach name (k.uuid name) n))
      (onSwitch (Switch.detach name (k'.uuid name) n')) v v'
      fun r r' e e' => e.Twin ρ P nameOf nameOf' e' ∧ r = r' ∧
        ∀ x, r = .error x → HasPort k name ids e ∧ HasPort k' name ids e' := by
  rcases hnumbered with ⟨rfl, rfl⟩ | ⟨rfl, rfl⟩
  · exact deletePort_twins huuid huuid' h hport hport'
  · unfold Switch.detach
    rw [onSwitch_bind, onSwitch_bind]
    refine ⟨_, _, rfl, fun m => ?_⟩
    have htwin := h.uninstallFlows huuid huuid' name m
    have hkept := hport.uninstallFlows h.sound.coherent k name m
    have hkept' := hport'.uninstallFlows h.sound'.coherent k' name m
    cases m with
    | some m => exact twins_done ⟨htwin, rfl, fun _ _ => ⟨hkept, hkept'⟩⟩
    | none => exact deletePort_twins huuid huuid' htwin hkept hkept'

/-- Both connections failed in the same way; a port that stayed is the one that was made. -/
structure LeftAlike (k k' : Conditions) (name : String) (ids : Table String)
    (x x' : Switch.Error) (e e' : World) : Prop where
  message : x.message = x'.message
  left : leftPort? x = none ∧ leftPort? x' = none ∨ ∃ n n', leftPort? x = some ⟨k.uuid name, n⟩ ∧
    leftPort? x' = some ⟨k'.uuid name, n'⟩ ∧ Numbered k k' n n' ∧ HasPort k name ids e ∧
    HasPort k' name ids e'

theorem detachAfter_twins (h : v.Twin ρ P nameOf nameOf' v') (hport : HasPort k name ids v)
    (hport' : HasPort k' name ids v') {n n' : Option Nat} (hnumbered : Numbered k k' n n')
    {cause : Switch.Error} (hcause : leftPort? cause = none) :
    Twins k k' (onSwitch (Switch.detachAfter name (k.uuid name) n cause))
      (onSwitch (Switch.detachAfter name (k'.uuid name) n' cause)) v v'
      fun x x' e e' => e.Twin ρ P nameOf nameOf' e' ∧ LeftAlike k k' name ids x x' e e' := by
  unfold Switch.detachAfter
  rw [onSwitch_bind, onSwitch_bind]
  refine (detach_twins huuid huuid' h hport hport' hnumbered).bind ?_
  rintro (cleanup | _) r' e e' ⟨htwin, rfl, hleft⟩
  · refine twins_done ⟨htwin, rfl, .inr ⟨n, n', rfl, rfl, hnumbered, hleft cleanup rfl⟩⟩
  · exact twins_done ⟨htwin, rfl, .inl ⟨hcause, hcause⟩⟩

/-- Both connections succeeded, or both failed in the same way. -/
def ConnectAlike (k k' : Conditions) (name : String) (ids : Table String) :
    Except Switch.Error Switch.Connected → Except Switch.Error Switch.Connected → World → World →
      Prop
  | .ok c, .ok c', e, e' => c = ⟨k.uuid name, k.ofport⟩ ∧ c' = ⟨k'.uuid name, k'.ofport⟩ ∧
    HasPort k name ids e ∧ HasPort k' name ids e'
  | .error x, .error x', e, e' => LeftAlike k k' name ids x x' e e'
  | _, _, _, _ => False

theorem createPort_twins (h : v.Twin ρ P nameOf nameOf' v') (hhands : ρ.Hands k k')
    (hfree : ∀ a, (v.slot name).record = some a → ¬ P a.containerId) :
    Twins k k' (onSwitch (createPort name ids)) (onSwitch (createPort name ids)) v v'
      fun r r' e e' => e.Twin ρ P nameOf nameOf' e' ∧
        ((∃ x, r = .error x ∧ r' = .error x ∧ leftPort? x = none) ∨
          r = .ok (k.uuid name) ∧ r' = .ok (k'.uuid name) ∧ HasPort k name ids e ∧
            HasPort k' name ids e') := by
  refine twins_question (q := .switch (.createPort name ids)) fun m => ?_
  refine ⟨h.createPort huuid huuid' hhands ids hfree m, ?_⟩
  cases m with
  | some m => exact .inl ⟨_, rfl, rfl, m.onSwitch.property⟩
  | none =>
    have hport : ∀ (k : Conditions) (w : World), w.store.Coherent →
        HasPort k name ids (w.meet k none (.switch (.createPort name ids))).2 := by
      intro k w hw
      unfold HasPort
      rw [World.slot_meet k hw]
      exact congrArg Slot.port (if_pos rfl)
    exact .inr ⟨rfl, rfl, hport k v h.sound.coherent, hport k' v' h.sound'.coherent⟩

omit huuid huuid' in
theorem getOfport_twins (h : v.Twin ρ P nameOf nameOf' v') (hport : HasPort k name ids v)
    (hport' : HasPort k' name ids v') :
    Twins k k' (onSwitch (getOfport name)) (onSwitch (getOfport name)) v v'
      fun r r' e e' => e.Twin ρ P nameOf nameOf' e' ∧ HasPort k name ids e ∧
        HasPort k' name ids e' ∧ ((∃ x, r = .error x ∧ r' = .error x ∧ leftPort? x = none) ∨
          r = .ok k.ofport ∧ r' = .ok k'.ofport) := by
  refine twins_question (q := .switch (.getOfport name)) fun m => ?_
  have hgives : ∀ (k : Conditions) (w : World), HasPort k name ids w →
      w.meet k none (.switch (.getOfport name)) = (.ok k.ofport, w) := by
    intro k w hw
    rw [World.meet_getOfport, hw]
    rfl
  cases m with
  | some m => exact ⟨h, hport, hport', .inl ⟨_, rfl, rfl, m.onSwitch.property⟩⟩
  | none =>
    rw [hgives k v hport, hgives k' v' hport']
    exact ⟨h, hport, hport', .inr ⟨rfl, rfl⟩⟩

theorem installFlows_twins (h : v.Twin ρ P nameOf nameOf' v') (hport : HasPort k name ids v)
    (hport' : HasPort k' name ids v') {ips : List Net.Ip} {mac : String} {ofport ofport' : Nat}
    (hofport : ρ.ofport ofport ofport') :
    Twins k k' (onSwitch (installFlows name ips mac ofport))
      (onSwitch (installFlows name ips mac ofport')) v v'
      fun r r' e e' => e.Twin ρ P nameOf nameOf' e' ∧ HasPort k name ids e ∧
        HasPort k' name ids e' ∧ r = r' ∧ ∀ x, r = .error x → leftPort? x = none := by
  have hkept : ∀ (k k₀ : Conditions) (w : World) (n : Nat) (m : Option Mishap), w.store.Coherent →
      HasPort k name ids w →
      HasPort k name ids (w.meet k₀ m (.switch (.installFlows name ips mac n))).2 := by
    intro k k₀ w n m hw hport
    unfold HasPort at hport ⊢
    rw [World.slot_meet k₀ hw, ← hport]
    cases m with
    | some m =>
      simp only [Slot.meet, Slot.afterFailed]
      split <;> rfl
    | none =>
      simp only [Slot.meet, Slot.perform]
      split <;> rfl
  refine ⟨_, _, rfl, fun m => twins_done ⟨?_, ?_, ?_, ?_, ?_⟩⟩
  · exact h.installFlows huuid huuid' name mac ips hofport m
  · exact hkept k k v ofport m h.sound.coherent hport
  · exact hkept k' k' v' ofport' m h.sound'.coherent hport'
  · cases m <;> rfl
  · cases m with
    | none =>
      intro x hx
      cases hx
    | some m =>
      rintro x ⟨⟩
      exact m.onSwitch.property

theorem connect_twins (h : v.Twin ρ P nameOf nameOf' v') (hhands : ρ.Hands k k') {mac : String}
    {ips : List Net.Ip} (hfree : ∀ a, (v.slot name).record = some a → ¬ P a.containerId) :
    Twins k k' (onSwitch (Switch.connect name ids ips mac))
      (onSwitch (Switch.connect name ids ips mac)) v v'
      fun r r' e e' => e.Twin ρ P nameOf nameOf' e' ∧ ConnectAlike k k' name ids r r' e e' := by
  -- a failure after the port was made
  have hfail : ∀ {e e' : World} {n n' : Option Nat} {x : Switch.Error},
      e.Twin ρ P nameOf nameOf' e' → HasPort k name ids e → HasPort k' name ids e' →
      Numbered k k' n n' → leftPort? x = none →
      Twins k k' (onSwitch (do return .error (← Switch.detachAfter name (k.uuid name) n x)))
        (onSwitch (do return .error (← Switch.detachAfter name (k'.uuid name) n' x))) e e'
        fun r r' e e' => e.Twin ρ P nameOf nameOf' e' ∧ ConnectAlike k k' name ids r r' e e' := by
    intro e e' n n' x h hport hport' hnumbered hx
    rw [onSwitch_bind, onSwitch_bind]
    refine (detachAfter_twins huuid huuid' h hport hport' hnumbered hx).bind ?_
    exact fun y y' e e' hpost => twins_done hpost
  unfold Switch.connect
  rw [onSwitch_bind]
  refine (createPort_twins huuid huuid' h hhands hfree).bind ?_
  rintro r r' e e' ⟨h, ⟨x, rfl, rfl, hx⟩ | ⟨rfl, rfl, hport, hport'⟩⟩
  · exact twins_done ⟨h, rfl, .inl ⟨hx, hx⟩⟩
  · simp only [onSwitch_bind]
    refine (getOfport_twins h hport hport').bind ?_
    rintro r r' e e' ⟨h, hport, hport', ⟨x, rfl, rfl, hx⟩ | ⟨rfl, rfl⟩⟩
    · exact hfail h hport hport' (.inl ⟨rfl, rfl⟩) hx
    · simp only [onSwitch_bind]
      refine (installFlows_twins huuid huuid' h hport hport' hhands.ofport).bind ?_
      rintro (x | _) r' e e' ⟨h, hport, hport', rfl, hx⟩
      · exact hfail h hport hport' (.inr ⟨rfl, rfl⟩) (hx x rfl)
      · exact twins_done ⟨h, rfl, rfl, hport, hport'⟩

omit huuid huuid' in
/-- The record of a port that was made refers to it. -/
theorem matched_of_numbered (hport : HasPort k name ids v) (hport' : HasPort k' name ids v')
    {n n' : Option Nat} (hnumbered : Numbered k k' n n') {p p' : Switch.Port}
    (hp : (v.slot name).port = some p) (hp' : (v'.slot name).port = some p') :
    Matched ⟨k.uuid name, n⟩ ⟨k'.uuid name, n'⟩ p p' := by
  obtain rfl := Option.some.inj (hport.symm.trans hp)
  obtain rfl := Option.some.inj (hport'.symm.trans hp')
  refine ⟨iff_of_true rfl rfl, ?_⟩
  rcases hnumbered with ⟨rfl, rfl⟩ | ⟨rfl, rfl⟩
  · exact .inr (.inl ⟨rfl, rfl⟩)
  · exact .inr (.inr ⟨rfl, rfl⟩)

omit huuid huuid' in
/-- What is recorded of a port that was made stands for what is recorded in the other run. -/
theorem recorded_of_numbered (hhands : ρ.Hands k k') {n n' : Option Nat}
    (hnumbered : Numbered k k' n n') (a : Attachment) :
    ρ.Recorded { a with port := some ⟨k.uuid name, n⟩ }
      { a with port := some ⟨k'.uuid name, n'⟩ } := by
  rcases hnumbered with ⟨rfl, rfl⟩ | ⟨rfl, rfl⟩
  · exact ⟨rfl, .some ⟨hhands.uuid name, .none⟩⟩
  · exact ⟨rfl, .some ⟨hhands.uuid name, .some hhands.ofport⟩⟩

/-- An interface is recorded with the port that was made for it. -/
theorem record_twins (h : v.Twin ρ P nameOf nameOf' v') (hhands : ρ.Hands k k') {a : Attachment}
    (hname : a.interfaceName = name) (hport : HasPort k name ids v)
    (hport' : HasPort k' name ids v') {n n' : Option Nat} (hnumbered : Numbered k k' n n') :
    Twins k k' (record { a with port := some ⟨k.uuid name, n⟩ })
      (record { a with port := some ⟨k'.uuid name, n'⟩ }) v v'
      fun _ _ e e' => e.Twin ρ P nameOf nameOf' e' := by
  refine ⟨_, _, rfl, fun m => twins_done ?_⟩
  refine h.record huuid huuid' (recorded_of_numbered hhands hnumbered a) ?_ ?_ ?_ m
  · rintro q ⟨⟩
    exact (huuid name).trans hname.symm
  · rintro q ⟨⟩
    exact (huuid' name).trans hname.symm
  · rintro q q' p p' ⟨⟩ ⟨⟩ hp hp'
    subst hname
    exact matched_of_numbered hport hport' hnumbered hp hp'

theorem teardown_twins (h : v.Twin ρ P nameOf nameOf' v') (containerId : String) (name : String) :
    Twins k k' (teardown containerId name) (teardown containerId name) v v'
      fun r r' e e' => e.Twin ρ P nameOf nameOf' e' ∧ r = r' := by
  refine twins_question (q := .link (.teardown containerId name)) fun m => ?_
  exact ⟨h.teardown huuid huuid' containerId name m, by cases m <;> rfl⟩

/-- Both results are the same, or both failures read the same. -/
def SameText {α : Type} : Except Failure α → Except Failure α → Prop
  | .ok a, .ok a' => a = a'
  | .error f, .error f' => f.message = f'.message
  | _, _ => False

theorem configure_twins (h : v.Twin ρ P nameOf nameOf' v') (hhands : ρ.Hands k k')
    (hmac : k'.hostMac = k.hostMac) {c : Cni.Call} {p : Plan}
    (hfree : ∀ a, (v.slot p.hostIfname).record = some a → ¬ P a.containerId) :
    Twins k k' (configure c p) (configure c p) v v'
      fun r r' e e' => e.Twin ρ P nameOf nameOf' e' ∧ SameText r r' := by
  unfold configure
  have hbuild : Twins k k' (buildPair p.pair) (buildPair p.pair) v v' fun r r' e e' =>
      e.Twin ρ P nameOf nameOf' e' ∧ r = r' ∧
        ∀ a, (e.slot p.hostIfname).record = some a → ¬ P a.containerId := by
    refine twins_question (q := .link (.build p.pair)) fun m => ⟨?_, ?_, ?_⟩
    · exact h.build huuid huuid' p.pair m
    · cases m with
      | some m => rfl
      | none =>
        show (Except.ok (builtPair k p.pair) : Except Link.Error Link.Pair) =
          .ok (builtPair k' p.pair)
        simp only [builtPair, hmac]
    · rw [World.slot_meet k h.sound.coherent]
      cases m with
      | some m => exact hfree
      | none =>
        simp only [Slot.meet, Slot.perform]
        split <;> exact hfree
  refine hbuild.bind ?_
  rintro (x | pair) r' e e' ⟨h, rfl, hfree⟩
  · exact twins_done ⟨h, rfl⟩
  · refine (connect_twins huuid huuid' h hhands hfree).bind ?_
    rintro (x | connected) (x' | connected') e e' ⟨h, halike⟩
    · obtain ⟨hmessage, ⟨hleft, hleft'⟩ | ⟨n, n', hleft, hleft', hnumbered, hport, hport'⟩⟩ :=
        halike
      · simp only [hleft, hleft']
        refine (teardown_twins huuid huuid' h c.containerId _).bind ?_
        rintro r r' e e' ⟨h, -⟩
        exact twins_done ⟨h, congrArg ("Switch operation error: " ++ ·) hmessage⟩
      · simp only [hleft, hleft']
        refine (record_twins huuid huuid' h hhands rfl hport hport' hnumbered).bind ?_
        intro r r' e e' h
        exact twins_done ⟨h, congrArg ("Switch operation error: " ++ ·) hmessage⟩
    · exact halike.elim
    · exact halike.elim
    · obtain ⟨rfl, rfl, hport, hport'⟩ := halike
      refine (record_twins huuid huuid' h hhands rfl hport hport' (.inr ⟨rfl, rfl⟩)).bind ?_
      intro r r' e e' h
      exact twins_done ⟨h, rfl⟩

/-- The recorded port is removed in both worlds, or in none. -/
theorem disconnect_twins (h : v.Twin ρ P nameOf nameOf' v') {a a' : Attachment}
    (ha : (v.slot a.interfaceName).record = some a)
    (ha' : (v'.slot a.interfaceName).record = some a')
    (hblank : blankAttachment a = blankAttachment a') (hP : P a.containerId) :
    Twins k k'
      (onSwitch (Switch.disconnect a.interfaceName (a.port.map AttachedPort.uuid)))
      (onSwitch (Switch.disconnect a.interfaceName (a'.port.map AttachedPort.uuid))) v v'
      fun r r' e e' => e.Twin ρ P nameOf nameOf' e' ∧ r = r' := by
  unfold Switch.disconnect
  rw [onSwitch_bind, onSwitch_bind]
  have huninstall : Twins k k' (onSwitch (uninstallFlows a.interfaceName))
      (onSwitch (uninstallFlows a.interfaceName)) v v' fun r r' e e' =>
        e.Twin ρ P nameOf nameOf' e' ∧ r = r' ∧ (e.slot a.interfaceName).record = some a ∧
          (e'.slot a.interfaceName).record = some a' := by
    refine twins_question (q := .switch (.uninstallFlows a.interfaceName)) fun m => ?_
    refine ⟨h.uninstallFlows huuid huuid' _ m, by cases m <;> rfl, ?_, ?_⟩
    · exact (slot_uninstallFlows k h.sound.coherent _ _ m).2.trans ha
    · exact (slot_uninstallFlows k' h.sound'.coherent _ _ m).2.trans ha'
  refine huninstall.bind ?_
  rintro (x | _) r' e e' ⟨h, rfl, ha, ha'⟩
  · exact twins_done ⟨h, rfl⟩
  · have hports : a.port.map (fun q => (⟨"", q.ofport.map fun _ => 0⟩ : AttachedPort)) =
        a'.port.map fun q => ⟨"", q.ofport.map fun _ => 0⟩ := congrArg Attachment.port hblank
    cases hq : a.port with
    | none =>
      cases hq' : a'.port with
      | none => exact twins_done ⟨h, rfl⟩
      | some q' => simp [hq, hq'] at hports
    | some q =>
      cases hq' : a'.port with
      | none => simp [hq, hq'] at hports
      | some q' =>
        have hname := (h.sound.slot _).record a q ha hq
        have hname' := (h.sound'.slot _).record a' q' ha' hq'
        refine ⟨_, _, rfl, fun m => twins_done ⟨?_, by cases m <;> rfl⟩⟩
        refine h.deletePort huuid huuid' hname hname' (fun p p' hp hp' => ?_) m
        exact ((h.slot _).matched a a' q q' p p' ha ha' hP hq hq' hp hp').uuid

theorem remove_twins (h : v.Twin ρ P nameOf nameOf' v') {a a' : Attachment}
    (ha : (v.slot a.interfaceName).record = some a)
    (ha' : (v'.slot a.interfaceName).record = some a')
    (hblank : blankAttachment a = blankAttachment a') (hP : P a.containerId) :
    Twins k k' (remove a) (remove a') v v' fun r r' e e' =>
      e.Twin ρ P nameOf nameOf' e' ∧ r = r' := by
  unfold remove
  rw [← Slot.Twin.interfaceName_eq hblank, ← Slot.Twin.containerId_eq hblank]
  refine (disconnect_twins huuid huuid' h ha ha' hblank hP).bind ?_
  rintro (x | _) r' e e' ⟨h, rfl⟩
  · exact twins_done ⟨h, rfl⟩
  · refine (teardown_twins huuid huuid' h a.containerId a.interfaceName).bind ?_
    rintro (x | _) r' e e' ⟨h, rfl⟩
    · exact twins_done ⟨h, rfl⟩
    · have hforget : Twins k k' (forget a.interfaceName) (forget a.interfaceName) e e'
          fun _ _ e e' => e.Twin ρ P nameOf nameOf' e' :=
        twins_question (q := .forget a.interfaceName) fun m => h.forget huuid huuid' _ m
      refine hforget.bind fun _ _ e e' h => twins_done ⟨h, rfl⟩

omit huuid huuid' in
/-- What is recorded of a container is looked up in both worlds. -/
theorem attachmentOf_twins (h : v.Twin ρ P nameOf nameOf' v') (containerId : String) :
    Twins k k' (attachmentOf containerId) (attachmentOf containerId) v v'
      fun found found' e e' => e = v ∧ e' = v' ∧ (found = none ∧ found' = none ∧
          v.store.find? containerId = none ∨
        ∃ a a', found = some a ∧ found' = some a' ∧ blankAttachment a = blankAttachment a' ∧
          a.containerId = containerId ∧ (v.slot a.interfaceName).record = some a ∧
          (v'.slot a.interfaceName).record = some a') := by
  refine twins_question (q := .attachmentOf containerId) fun m => ?_
  have hmeet : ∀ (k : Conditions) (w : World), w.meet k m (.attachmentOf containerId) =
      (w.store.find? containerId, w) := by
    intro k w
    cases m <;> rfl
  rw [hmeet, hmeet]
  refine ⟨rfl, rfl, ?_⟩
  rcases h.find?_cases containerId with ⟨hnone, hnone'⟩ | ⟨a, a', ha, ha', hblank⟩
  · exact .inl ⟨hnone, hnone', hnone⟩
  · obtain ⟨hrecord, hc⟩ := (World.find?_eq_some_iff h.sound.coherent).1 ha
    obtain ⟨hrecord', -⟩ := (World.find?_eq_some_iff h.sound'.coherent).1 ha'
    rw [← Slot.Twin.interfaceName_eq hblank] at hrecord'
    exact .inr ⟨a, a', ha, ha', hblank, hc, hrecord, hrecord'⟩

theorem removeOf_twins (h : v.Twin ρ P nameOf nameOf' v') {containerId : String}
    (hP : P containerId) :
    Twins k k' (removeOf containerId) (removeOf containerId) v v'
      fun r r' e e' => e.Twin ρ P nameOf nameOf' e' ∧ r = r' := by
  unfold removeOf
  refine (attachmentOf_twins h containerId).bind ?_
  rintro found found' e e' ⟨rfl, rfl, ⟨rfl, rfl, -⟩ | ⟨a, a', rfl, rfl, hblank, hc, ha, ha'⟩⟩
  · exact twins_done ⟨h, rfl⟩
  · exact remove_twins huuid huuid' h ha ha' hblank (hc ▸ hP)

theorem attach_twins (h : v.Twin ρ P nameOf nameOf' v') (hhands : ρ.Hands k k')
    (hmac : k'.hostMac = k.hostMac) {c : Cni.Call} {res : Cni.Result} {p : Plan}
    (hP : P c.containerId)
    (hfree : ∀ a, (v.slot p.hostIfname).record = some a → ¬ P a.containerId) :
    Twins k k' (attach c res p) (attach c res p) v v' fun r r' e e' =>
      e.Twin ρ P nameOf nameOf' e' ∧ r = r' := by
  unfold attach
  refine (configure_twins huuid huuid' h hhands hmac hfree).bind ?_
  rintro (x | pair) (x' | pair') e e' ⟨h, hsame⟩
  · have hmessage : x.message = x'.message := hsame
    refine (removeOf_twins huuid huuid' h hP).bind ?_
    rintro r r' e e' ⟨h, -⟩
    exact twins_done ⟨h, by simp only [Failure.whileConfiguring, hmessage]⟩
  · exact hsame.elim
  · exact hsame.elim
  · obtain rfl : pair = pair' := hsame
    exact twins_done ⟨h, rfl⟩

omit huuid huuid' in
/-- A port has the number that is recorded of it in both worlds, or in none. -/
theorem checkOfport_eq (h : v.Twin ρ P nameOf nameOf' v') {a a' : Attachment}
    (ha : (v.slot a.interfaceName).record = some a)
    (ha' : (v'.slot a.interfaceName).record = some a')
    (hblank : blankAttachment a = blankAttachment a') (hP : P a.containerId) {p p' : Switch.Port}
    {n n' : Nat} (hp : (v.slot a.interfaceName).port = some p)
    (hp' : (v'.slot a.interfaceName).port = some p') (hn : p.ofport = some n)
    (hn' : p'.ofport = some n') : checkOfport a n = checkOfport a' n' := by
  have hports : a.port.map (fun q => (⟨"", q.ofport.map fun _ => 0⟩ : AttachedPort)) =
      a'.port.map fun q => ⟨"", q.ofport.map fun _ => 0⟩ := congrArg Attachment.port hblank
  unfold checkOfport
  cases hq : a.port with
  | none =>
    cases hq' : a'.port with
    | none => rfl
    | some q' => simp [hq, hq'] at hports
  | some q =>
    cases hq' : a'.port with
    | none => simp [hq, hq'] at hports
    | some q' =>
      have hmatched := ((h.slot _).matched a a' q q' p p' ha ha' hP hq hq' hp hp').ofport
      simp only [Option.bind_some, hn, hn'] at hmatched ⊢
      rcases hmatched with ⟨hsame, hnumber⟩ | ⟨hnone, hnone'⟩ | ⟨hsome, hsome'⟩
      · rw [hsame, Option.some.inj hnumber, Slot.Twin.interfaceName_eq hblank]
      · rw [hnone, hnone']
      · simp only [hsome, hsome', if_true]

omit huuid huuid' in
theorem checkPair_twins (h : v.Twin ρ P nameOf nameOf' v') (name netns ifname mac : String) :
    Twins k k' (checkPair name netns ifname mac) (checkPair name netns ifname mac) v v'
      fun r r' e e' => e = v ∧ e' = v' ∧ r = r' := by
  refine twins_question (q := .link (.check name netns ifname mac)) fun m => ?_
  have hthere : v.pairs.contains name = v'.pairs.contains name :=
    congrArg Option.isSome (h.slot name).link
  cases m with
  | some m => exact ⟨rfl, rfl, rfl⟩
  | none =>
    refine ⟨rfl, rfl, ?_⟩
    show (if v.pairs.contains name then _ else _) = (if v'.pairs.contains name then _ else _)
    rw [hthere]

omit huuid huuid' in
/-- The number of a port that has a record is missing in both worlds, or compares in the same way
with the recorded one. -/
theorem recordedOfport_twins (h : v.Twin ρ P nameOf nameOf' v') {a a' : Attachment}
    (ha : (v.slot a.interfaceName).record = some a)
    (ha' : (v'.slot a.interfaceName).record = some a')
    (hblank : blankAttachment a = blankAttachment a') (hP : P a.containerId) :
    Twins k k' (onSwitch (getOfport a.interfaceName)) (onSwitch (getOfport a.interfaceName)) v v'
      fun r r' e e' => e = v ∧ e' = v' ∧ ((∃ x, r = .error x ∧ r' = .error x) ∨
        ∃ n n', r = .ok n ∧ r' = .ok n' ∧ checkOfport a n = checkOfport a' n') := by
  refine twins_question (q := .switch (.getOfport a.interfaceName)) fun m => ?_
  cases m with
  | some m => exact ⟨rfl, rfl, .inl ⟨_, rfl, rfl⟩⟩
  | none =>
    rw [World.meet_getOfport, World.meet_getOfport]
    refine ⟨rfl, rfl, ?_⟩
    rcases (h.slot a.interfaceName).port_cases with ⟨hp, hp'⟩ | ⟨p, p', hp, hp', hsame⟩
    · rw [hp, hp']
      exact .inl ⟨_, rfl, rfl⟩
    · rw [hp, hp', Option.bind_some, Option.bind_some]
      have hnumbers : p.ofport.map (fun _ => 0) = p'.ofport.map fun _ => 0 :=
        congrArg Switch.Port.ofport hsame
      cases hn : p.ofport with
      | none =>
        cases hn' : p'.ofport with
        | none => exact .inl ⟨_, rfl, rfl⟩
        | some n' => simp [hn, hn'] at hnumbers
      | some n =>
        cases hn' : p'.ofport with
        | none => simp [hn, hn'] at hnumbers
        | some n' =>
          exact .inr ⟨n, n', rfl, rfl, checkOfport_eq h ha ha' hblank hP hp hp' hn hn'⟩

omit huuid huuid' in
theorem check_twins (h : v.Twin ρ P nameOf nameOf' v') {c : Cni.Call} {a a' : Attachment}
    (ha : (v.slot a.interfaceName).record = some a)
    (ha' : (v'.slot a.interfaceName).record = some a')
    (hblank : blankAttachment a = blankAttachment a') (hP : P a.containerId) :
    Twins k k' (check c a) (check c a') v v' fun r r' e e' =>
      e.Twin ρ P nameOf nameOf' e' ∧ r = r' := by
  unfold check
  rw [← Slot.Twin.interfaceName_eq hblank, ← Slot.Twin.mac_eq hblank]
  refine (checkPair_twins h a.interfaceName c.netns c.ifname a.mac).bind ?_
  rintro (x | _) r' e e' ⟨rfl, rfl, rfl⟩
  · exact twins_done ⟨h, rfl⟩
  · refine (recordedOfport_twins h ha ha' hblank hP).bind ?_
    rintro r r' e e' ⟨rfl, rfl, ⟨x, rfl, rfl⟩ | ⟨n, n', rfl, rfl, hsame⟩⟩
    · exact twins_done ⟨h, rfl⟩
    · -- the rest asks nothing
      simp only [hsame]
      cases checkOfport a' n' with
      | error x => exact twins_done ⟨h, rfl⟩
      | ok =>
        cases c.network.prevResult with
        | none => exact twins_done ⟨h, rfl⟩
        | some earlier =>
          simp only
          cases checkEarlier earlier c.ifname a.mac with
          | error x => exact twins_done ⟨h, rfl⟩
          | ok => exact twins_done ⟨h, rfl⟩

/-! ## Whole requests -/

omit huuid huuid' in
theorem resultOfAttachment_eq {c : Cni.Call} {res : Cni.Result} {a a' : Attachment}
    (hblank : blankAttachment a = blankAttachment a') :
    resultOfAttachment c res a = resultOfAttachment c res a' := by
  unfold resultOfAttachment
  rw [Slot.Twin.interfaceName_eq hblank, Slot.Twin.mac_eq hblank]

theorem addLocked_twins (h : v.Twin ρ P nameOf nameOf' v') (hhands : ρ.Hands k k')
    (halike : k.Alike k') {c : Cni.Call} (hP : P c.infraContainerId)
    (hself : c.isInfra = true → c.infraContainerId = c.containerId)
    (hown : ∀ d res p, k.descriptor = .ok d → Plan.resolve c d = .ok (res, p) →
      c.isInfra = true → ∀ a, (v.slot p.hostIfname).record = some a → P a.containerId →
        a.containerId = c.containerId) :
    Twins k k' (addLocked c) (addLocked c) v v' fun r r' e e' =>
      e.Twin ρ P nameOf nameOf' e' ∧ r = r' := by
  unfold addLocked
  have hdescriptor : Twins k k' (descriptor c.podNamespace c.podName)
      (descriptor c.podNamespace c.podName) v v'
      fun r r' e e' => e = v ∧ e' = v' ∧ r = r' ∧ k.descriptor = r := by
    refine twins_question (q := .descriptor c.podNamespace c.podName) fun m => ?_
    cases m <;> exact ⟨rfl, rfl, halike.descriptor.symm, rfl⟩
  refine hdescriptor.bind ?_
  rintro r _ e e' ⟨rfl, rfl, rfl, hr⟩
  cases r with
  | error x => exact twins_done ⟨h, rfl⟩
  | ok d =>
    simp only
    cases hplan : Plan.resolve c d with
    | error x => exact twins_done ⟨h, rfl⟩
    | ok planned =>
      obtain ⟨res, p⟩ := planned
      simp only
      by_cases hinfra : c.isInfra = true
      · rw [if_pos hinfra, ← hself hinfra]
        refine (attachmentOf_twins h c.infraContainerId).bind ?_
        rintro found found' e e' ⟨rfl, rfl, ⟨rfl, rfl, hnone⟩ | ⟨a, a', rfl, rfl, hblank, -⟩⟩
        · refine attach_twins huuid huuid' h hhands halike.hostMac (hself hinfra ▸ hP) ?_
          intro a ha hPa
          -- a record of another container is not in the way
          have hc := hown d res p hr hplan hinfra a ha hPa
          exact (Store.find?_eq_none_iff h.sound.coherent).1 hnone _ a ha
            (hc.trans (hself hinfra).symm)
        · exact twins_done ⟨h, by rw [resultOfAttachment_eq hblank]⟩
      · rw [if_neg hinfra]
        refine (attachmentOf_twins h c.infraContainerId).bind ?_
        rintro found found' e e' ⟨rfl, rfl, ⟨rfl, rfl, -⟩ | ⟨a, a', rfl, rfl, hblank, -⟩⟩
        · exact twins_done ⟨h, rfl⟩
        · exact twins_done ⟨h, by rw [resultOfAttachment_eq hblank]⟩

theorem delLocked_twins (h : v.Twin ρ P nameOf nameOf' v') {c : Cni.Call}
    (hP : c.isInfra = true → P c.containerId) :
    Twins k k' (delLocked c) (delLocked c) v v' fun r r' e e' =>
      e.Twin ρ P nameOf nameOf' e' ∧ r = r' := by
  unfold delLocked
  by_cases hinfra : c.isInfra = true
  · rw [if_pos hinfra]
    refine (removeOf_twins huuid huuid' h (hP hinfra)).bind ?_
    rintro (x | _) r' e e' ⟨h, rfl⟩
    · exact twins_done ⟨h, rfl⟩
    · exact twins_done ⟨h, rfl⟩
  · rw [if_neg hinfra]
    exact twins_done ⟨h, rfl⟩

omit huuid huuid' in
theorem checkLocked_twins (h : v.Twin ρ P nameOf nameOf' v') {c : Cni.Call}
    (hP : c.isInfra = true → P c.containerId) :
    Twins k k' (checkLocked c) (checkLocked c) v v' fun r r' e e' =>
      e.Twin ρ P nameOf nameOf' e' ∧ r = r' := by
  unfold checkLocked
  by_cases hinfra : c.isInfra = true
  · rw [if_pos hinfra]
    refine (attachmentOf_twins h c.containerId).bind ?_
    rintro found found' e e' ⟨rfl, rfl, ⟨rfl, rfl, -⟩ | ⟨a, a', rfl, rfl, hblank, hc, ha, ha'⟩⟩
    · exact twins_done ⟨h, rfl⟩
    · refine (check_twins h ha ha' hblank (hc ▸ hP hinfra)).bind ?_
      rintro (x | _) r' e e' ⟨h, rfl⟩
      · exact twins_done ⟨h, rfl⟩
      · exact twins_done ⟨h, rfl⟩
  · rw [if_neg hinfra]
    exact twins_done ⟨h, rfl⟩

omit huuid huuid' in
theorem locked_twins (h : v.Twin ρ P nameOf nameOf' v') {o : Options} {c : Cni.Call}
    {body : Activity (Except Cni.CallError Bytes)}
    (hbody : Twins k k' body body v v' fun r r' e e' => e.Twin ρ P nameOf nameOf' e' ∧ r = r') :
    Twins k k' (locked o c body) (locked o c body) v v' fun r r' e e' =>
      e.Twin ρ P nameOf nameOf' e' ∧ r = r' := by
  unfold locked
  have hacquire : Twins k k' (acquire c.infraContainerId o.lockTimeout)
      (acquire c.infraContainerId o.lockTimeout) v v'
      fun r r' e e' => e = v ∧ e' = v' ∧ r = true ∧ r' = true := by
    refine twins_question (q := .acquire c.infraContainerId o.lockTimeout) fun m => ?_
    cases m <;> exact ⟨rfl, rfl, rfl, rfl⟩
  refine hacquire.bind ?_
  rintro _ _ e e' ⟨rfl, rfl, rfl, rfl⟩
  refine hbody.bind ?_
  rintro r r' e e' ⟨h, rfl⟩
  have hrelease : Twins k k' (release c.infraContainerId) (release c.infraContainerId) e e'
      fun _ _ e e' => e.Twin ρ P nameOf nameOf' e' := by
    refine twins_question (q := .release c.infraContainerId) fun m => ?_
    cases m <;> exact h
  exact hrelease.bind fun _ _ e e' h => twins_done ⟨h, rfl⟩

theorem handle_twins (h : v.Twin ρ P nameOf nameOf' v') (hhands : ρ.Hands k k')
    (halike : k.Alike k') {o : Options} {r : Cni.Request}
    (hP : ∀ c, decode o r.args = .ok c → P c.infraContainerId)
    (hown : ∀ c res p, Plans o k r c res p → ∀ a, (v.slot p.hostIfname).record = some a →
      P a.containerId → a.containerId = c.containerId) :
    Twins k k' (handle o r) (handle o r) v v' fun r r' e e' =>
      e.Twin ρ P nameOf nameOf' e' ∧ r = r' := by
  have hinfra : ∀ c, decode o r.args = .ok c → c.isInfra = true → P c.containerId := by
    intro c hdecode hinfra
    rw [← infraContainerId_of_isInfra hdecode hinfra]
    exact hP c hdecode
  have hserve : Twins k k' (serve o r) (serve o r) v v' fun r r' e e' =>
      e.Twin ρ P nameOf nameOf' e' ∧ r = r' := by
    unfold serve add del checkCall
    cases hdecode : decode o r.args with
    | error x => cases r.command <;> exact twins_done ⟨h, rfl⟩
    | ok c =>
      cases hcommand : r.command with
      | add =>
        have hready : Twins k k' (awaitReady o.readyTimeout) (awaitReady o.readyTimeout) v v'
            fun r r' e e' => e = v ∧ e' = v' ∧ r = r' := by
          refine twins_question (q := .awaitReady o.readyTimeout) fun m => ?_
          cases m <;> exact ⟨rfl, rfl, halike.ready.symm⟩
        refine hready.bind ?_
        rintro (_ | _) _ e e' ⟨rfl, rfl, rfl⟩
        · exact twins_done ⟨h, rfl⟩
        · refine locked_twins h (addLocked_twins huuid huuid' h hhands halike (hP c hdecode)
            (infraContainerId_of_isInfra hdecode) ?_)
          intro d res p hd hplan hinfra
          exact hown c res p ⟨hcommand, hdecode, hinfra, d, hd, hplan⟩
      | del => exact locked_twins h (delLocked_twins huuid huuid' h (hinfra c hdecode))
      | check => exact locked_twins h (checkLocked_twins h (hinfra c hdecode))
  unfold handle
  rw [map_eq_pure_bind]
  refine hserve.bind ?_
  rintro r r' e e' ⟨h, rfl⟩
  exact twins_done ⟨h, rfl⟩

/-- A request that is handed out other numbers gets the same response, and leaves the same world
up to the numbers. -/
theorem serveAlone_twin (h : v.Twin ρ P nameOf nameOf' v') (hhands : ρ.Hands k k')
    (halike : k.Alike k') {o : Options} {r : Cni.Request}
    (hP : ∀ c, decode o r.args = .ok c → P c.infraContainerId)
    (hown : ∀ c res p, Plans o k r c res p → ∀ a, (v.slot p.hostIfname).record = some a →
      P a.containerId → a.containerId = c.containerId) :
    (serveAlone o k r v).2.world.Twin ρ P nameOf nameOf' (serveAlone o k' r v').2.world ∧
      (serveAlone o k r v).1 = (serveAlone o k' r v').1 :=
  (handle_twins huuid huuid' h hhands halike hP hown).run ⟨v, []⟩ ⟨v', []⟩ halike.mishap rfl

end

end PodAttach.Agent
