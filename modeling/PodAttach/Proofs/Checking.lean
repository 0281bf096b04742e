import PodAttach.Proofs.Site

/-!
# What a Check tells

A Check compares what is recorded of a container with the pair of links in the
kernel, with the number that the switch reports, and with the result that the
runtime may have kept.  It stops at the first of them that differs, so it
succeeds exactly if none does.

* `onSite` are the answers of a site, mishaps of the switch among them.
* `checkOfport_eq_ok_iff` and `checkEarlier_eq_ok_iff`: what the comparisons compare.
* `Sound` says that what is recorded is so, and `ensures_check` that this is what is found out.
* `check_exact`: which of its three answers a Check gives.
-/

namespace PodAttach.Agent

open Activity Scenario

/-! ## Answers of a site -/

/-- The answers of a site. -/
def onSite (k : Conditions) : Proc.Rules Ask Ask.Reply Stay where
  asks _ _ := True
  answers q e reply e' := Stay.answer k q e = (reply, e')

variable {k : Conditions} {e : Stay} {s : Site}

/-- A question is answered as the site has it. -/
theorem ensures_question_on {q : Ask} {post : q.Reply → Stay → Prop} :
    (Proc.question q : Activity q.Reply).Ensures (onSite k) e post ↔
      post (Stay.answer k q e).1 (Stay.answer k q e).2 := by
  rw [Proc.ensures_question]
  constructor
  · exact fun h => h.2 _ _ rfl
  · intro h
    refine ⟨trivial, fun reply e' hreply => ?_⟩
    obtain ⟨rfl, rfl⟩ := Prod.mk.inj hreply
    exact h

theorem serveOn_of_ensures {o : Options} {r : Cni.Request} {post : Cni.Response → Stay → Prop}
    (h : (handle o r).Ensures (onSite k) ⟨s, []⟩ post) :
    post (serveOn o k r s).1 (serveOn o k r s).2 :=
  h.run fun _ _ _ => rfl

/-! ## Comparisons -/

/-- The number that the switch reports for a name; none if the call meets a mishap. -/
def Site.reported? (s : Site) (m : Option Mishap) (name : String) : Option Nat :=
  if m.isNone then s.bridge.ofport? name else none

theorem meet_getOfport_eq_ok_iff {m : Option Mishap} {name : String} {ofport : Nat} :
    (s.meet k m (.switch (.getOfport name))).1 = .ok ofport ↔ s.reported? m name = some ofport := by
  cases m with
  | some m => exact ⟨nofun, nofun⟩
  | none =>
    have hsame : (s.world.slot name).port.bind Switch.Port.ofport = s.bridge.ofport? name := rfl
    show (s.world.perform k (.switch (.getOfport name))).1 = .ok ofport ↔
      s.bridge.ofport? name = some ofport
    rw [World.perform_getOfport, hsame]
    cases s.bridge.ofport? name with
    | none => exact ⟨nofun, nofun⟩
    | some n => simp

/-- Only a number that was recorded can differ. -/
theorem checkOfport_eq_ok_iff {a : Attachment} {ofport : Nat} :
    checkOfport a ofport = .ok () ↔
      ∀ recorded, a.port.bind AttachedPort.ofport = some recorded → recorded = ofport := by
  unfold checkOfport
  cases a.port.bind AttachedPort.ofport with
  | none => exact ⟨fun _ => nofun, fun _ => rfl⟩
  | some recorded =>
    dsimp only
    split
    · next hsame => exact ⟨fun _ _ h => Option.some.inj h ▸ hsame, fun _ => rfl⟩
    · next hdiffers => exact ⟨nofun, fun h => absurd (h recorded rfl) hdiffers⟩

/-- An earlier result can be read, and each entry of an interface has no hardware address or the
one that is recorded, up to the case of letters. -/
def Agrees (v : Json) (ifname mac : String) : Prop :=
  ∃ interfaces, earlierInterfaces? v = some interfaces ∧
    ∀ i ∈ interfaces, i.name = ifname → i.mac = "" ∨ Text.lower i.mac = Text.lower mac

theorem contradicts_eq_false_iff {ifname mac : String} {i : EarlierInterface} :
    i.contradicts ifname mac = false ↔
      (i.name = ifname → i.mac = "" ∨ Text.lower i.mac = Text.lower mac) := by
  unfold EarlierInterface.contradicts Text.sameLetters
  rw [← Bool.not_eq_true]
  simp only [Bool.and_eq_true, beq_iff_eq, Bool.not_eq_true', beq_eq_false_iff_ne,
    String.isEmpty_eq_false_iff]
  tauto

theorem checkEarlier_eq_ok_iff {v : Json} {ifname mac : String} :
    checkEarlier v ifname mac = .ok () ↔ Agrees v ifname mac := by
  unfold checkEarlier Agrees
  cases earlierInterfaces? v with
  | none => exact ⟨nofun, nofun⟩
  | some interfaces =>
    have hnone : interfaces.find? (EarlierInterface.contradicts ifname mac) = none ↔
        ∀ i ∈ interfaces, i.name = ifname → i.mac = "" ∨ Text.lower i.mac = Text.lower mac := by
      rw [List.find?_eq_none]
      exact forall₂_congr fun i _ => by rw [Bool.not_eq_true, contradicts_eq_false_iff]
    have hread : (∃ is, some interfaces = some is ∧
        ∀ i ∈ is, i.name = ifname → i.mac = "" ∨ Text.lower i.mac = Text.lower mac) ↔
        interfaces.find? (EarlierInterface.contradicts ifname mac) = none := by
      rw [hnone]
      simp
    rw [hread]
    dsimp only
    cases interfaces.find? (EarlierInterface.contradicts ifname mac) with
    | none => exact ⟨fun _ => rfl, fun _ => rfl⟩
    | some i => exact ⟨nofun, nofun⟩

/-! ## A Check -/

/-- What is recorded of a container is so on a site, and the request says nothing else. -/
structure Sound (k : Conditions) (s : Site) (c : Cni.Call) (a : Attachment) : Prop where
  pair : Link.Stands s.netlab.own a.interfaceName c.netns c.ifname a.mac s.netlab
  /-- The switch is asked last, after the lock, the store and the kernel. -/
  ofport : ∃ ofport, s.reported? (k.mishap 3) a.interfaceName = some ofport ∧
    ∀ recorded, a.port.bind AttachedPort.ofport = some recorded → recorded = ofport
  earlier : ∀ v, c.network.prevResult = some v → Agrees v c.ifname a.mac

theorem Sound.checkOfport_eq_ok {c : Cni.Call} {a : Attachment} {ofport : Nat} (h : Sound k s c a)
    (hofport : s.reported? (k.mishap 3) a.interfaceName = some ofport) :
    checkOfport a ofport = .ok () := by
  obtain ⟨n, hn, hrecorded⟩ := h.ofport
  obtain rfl := Option.some.inj (hn.symm.trans hofport)
  exact checkOfport_eq_ok_iff.2 hrecorded

/-- What is recorded is compared with all that it has to agree with. -/
theorem ensures_check {c : Cni.Call} {a : Attachment} (hplace : e.log.length = 2)
    (hhost : Link.Truthful a.interfaceName e.site.netlab)
    (hcontainer : Link.Truthful c.ifname e.site.netlab) :
    (check c a).Ensures (onSite k) e fun x _ => x = .ok () ↔ Sound k e.site c a := by
  have hpair := Link.perform_checkPair hhost hcontainer e.site.netlab.own c.netns a.mac
  have hlooked : ∃ netlab ev,
      Stay.answer k (.link (.check a.interfaceName c.netns c.ifname a.mac)) e =
        ((e.site.netlab.perform (Link.checkPair e.site.netlab.own a.interfaceName c.netns c.ifname
          a.mac)).1, ⟨{ e.site with netlab }, ev :: e.log⟩) := ⟨_, _, rfl⟩
  obtain ⟨netlab, ev, hlooked⟩ := hlooked
  unfold check
  rw [Proc.ensures_bind]
  refine ensures_question_on.2 ?_
  rw [hlooked]
  cases hx : (e.site.netlab.perform (Link.checkPair e.site.netlab.own a.interfaceName c.netns
      c.ifname a.mac)).1 with
  | error x =>
    refine ⟨nofun, fun hsound => ?_⟩
    rw [hpair.2 hsound.pair] at hx
    cases hx
  | ok _ =>
    have hstands := hpair.1 hx
    have hreported : ∀ ofport, (Stay.answer k (.switch (.getOfport a.interfaceName))
        ⟨{ e.site with netlab }, ev :: e.log⟩).1 = .ok ofport ↔
          e.site.reported? (k.mishap 3) a.interfaceName = some ofport := by
      intro ofport
      have hlast : (ev :: e.log).length = 3 := congrArg (· + 1) hplace
      rw [← hlast]
      exact meet_getOfport_eq_ok_iff
    dsimp only
    rw [Proc.ensures_bind]
    refine (ensures_question_on (q := .switch (.getOfport a.interfaceName))).2 ?_
    cases hy : (Stay.answer k (.switch (.getOfport a.interfaceName))
        ⟨{ e.site with netlab }, ev :: e.log⟩).1 with
    | error y =>
      refine ⟨nofun, fun hsound => ?_⟩
      obtain ⟨ofport, hofport, -⟩ := hsound.ofport
      rw [(hreported ofport).2 hofport] at hy
      cases hy
    | ok ofport =>
      have hofport := (hreported ofport).1 hy
      dsimp only
      cases hnumber : checkOfport a ofport with
      | error x =>
        refine ⟨nofun, fun hsound => ?_⟩
        cases hnumber.symm.trans (hsound.checkOfport_eq_ok hofport)
      | ok _ =>
        have hrecorded := checkOfport_eq_ok_iff.1 hnumber
        cases hprev : c.network.prevResult with
        | none =>
          refine ⟨fun _ => ⟨hstands, ⟨ofport, hofport, hrecorded⟩, ?_⟩, fun _ => rfl⟩
          intro v hv
          cases hprev.symm.trans hv
        | some v =>
          dsimp only
          cases hearlier : checkEarlier v c.ifname a.mac with
          | error x =>
            refine ⟨nofun, fun hsound => ?_⟩
            cases hearlier.symm.trans (checkEarlier_eq_ok_iff.2 (hsound.earlier v hprev))
          | ok _ =>
            refine ⟨fun _ => ⟨hstands, ⟨ofport, hofport, hrecorded⟩, ?_⟩, fun _ => rfl⟩
            intro v' hv'
            obtain rfl := Option.some.inj (hprev.symm.trans hv')
            exact checkEarlier_eq_ok_iff.1 hearlier

/-- The answers that a Check can give. -/
inductive CheckAnswer (recorded : Option Attachment) (sound : Attachment → Prop) :
    Cni.Response → Prop where
  | unknown {e : Cni.CallError} (hnone : recorded = none) (hcode : e.code = .unknownContainer) :
    CheckAnswer recorded sound (.ofError e)
  | sound {a : Attachment} (hfound : recorded = some a) (hsound : sound a) :
    CheckAnswer recorded sound ⟨[], none⟩
  | unsound {a : Attachment} {e : Cni.CallError} (hfound : recorded = some a)
    (hunsound : ¬ sound a) (hcode : e.code = .checkInterfaceFailure) :
    CheckAnswer recorded sound (.ofError e)

theorem CheckAnswer.eq_of_sound {recorded : Option Attachment} {sound : Attachment → Prop}
    {response : Cni.Response} (h : CheckAnswer recorded sound response) {a : Attachment}
    (hfound : recorded = some a) (hsound : sound a) : response = ⟨[], none⟩ := by
  cases h with
  | unknown hnone _ => cases hnone.symm.trans hfound
  | sound _ _ => rfl
  | unsound hfound' hunsound _ =>
    obtain rfl := Option.some.inj (hfound'.symm.trans hfound)
    exact absurd hsound hunsound

/-- A Check that has its lock gives one of its three answers. -/
theorem ensures_checkLocked {c : Cni.Call} (hinfra : c.isInfra = true) (hplace : e.log.length = 1)
    (hhost : ∀ a, e.site.store.find? c.containerId = some a →
      Link.Truthful a.interfaceName e.site.netlab)
    (hcontainer : Link.Truthful c.ifname e.site.netlab) :
    (checkLocked c).Ensures (onSite k) e fun x _ =>
      CheckAnswer (e.site.store.find? c.containerId) (Sound k e.site c) (.ofExcept x) := by
  have hfound : ∃ ev, Stay.answer k (.attachmentOf c.containerId) e =
      (e.site.store.find? c.containerId, ⟨e.site, ev :: e.log⟩) := by
    unfold Stay.answer
    cases k.mishap e.log.length <;> exact ⟨_, rfl⟩
  obtain ⟨ev, hfound⟩ := hfound
  unfold checkLocked
  rw [if_pos hinfra, Proc.ensures_bind]
  refine (ensures_question_on (q := .attachmentOf c.containerId)).2 ?_
  rw [hfound]
  cases hrecorded : e.site.store.find? c.containerId with
  | none => exact .unknown rfl rfl
  | some a =>
    have hcheck := ensures_check (k := k) (e := ⟨e.site, ev :: e.log⟩) (c := c) (a := a)
      (congrArg (· + 1) hplace) (hhost a hrecorded) hcontainer
    refine hcheck.bind ?_
    intro x e' hx
    cases x with
    | ok _ => exact .sound rfl (hx.1 rfl)
    | error f => exact .unsound rfl (fun hsound => nomatch hx.2 hsound) rfl

theorem serveOn_check {o : Options} {r : Cni.Request} {c : Cni.Call} (hcommand : r.command = .check)
    (hdecode : decode o r.args = .ok c) (hinfra : c.isInfra = true)
    (hhost : ∀ a, s.store.find? c.containerId = some a → Link.Truthful a.interfaceName s.netlab)
    (hcontainer : Link.Truthful c.ifname s.netlab) :
    CheckAnswer (s.store.find? c.containerId) (Sound k s c) (serveOn o k r s).1 := by
  have hlocked : ∃ ev, Stay.answer k (.acquire c.infraContainerId o.lockTimeout) ⟨s, []⟩ =
      (true, ⟨s, [ev]⟩) := by
    unfold Stay.answer
    cases k.mishap ([] : List Event).length <;> exact ⟨_, rfl⟩
  obtain ⟨ev, hlocked⟩ := hlocked
  have hanswers : (handle o r).Ensures (onSite k) ⟨s, []⟩ fun response _ =>
      CheckAnswer (s.store.find? c.containerId) (Sound k s c) response := by
    unfold handle serve
    rw [Proc.ensures_map, hcommand]
    dsimp only
    unfold checkCall
    rw [hdecode]
    dsimp only
    unfold locked
    rw [Proc.ensures_bind]
    refine (ensures_question_on (q := .acquire c.infraContainerId o.lockTimeout)).2 ?_
    rw [hlocked, if_pos rfl]
    refine (ensures_checkLocked (e := ⟨s, [ev]⟩) hinfra rfl hhost hcontainer).bind ?_
    intro x e' hx
    rw [Proc.ensures_bind]
    exact (ensures_question_on (q := .release c.infraContainerId)).2 hx
  exact serveOn_of_ensures hanswers

namespace Sample

end Sample

end PodAttach.Agent
