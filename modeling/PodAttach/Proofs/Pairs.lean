import PodAttach.Link.Veth
import PodAttach.Proofs.Addresses
import PodAttach.Proofs.Rehearsal

/-!
# Looking at a pair

A pair `Stands` if both ends are there, the moved one with its hardware
address.  As long as the look-ups are `Truthful`, looking at a pair tells
exactly that (`perform_checkPair`).

A hardware address is compared by its text, which says as much as its bytes.
-/

namespace PodAttach.Link

open Kernel Scenario Work

variable {n : Netlab} {own space : Space} {name : String}

/-! ## Questions -/

/-- Looking for a name tells whether there is a link of it: no look-up fails by itself, and no link
has a name that is too long for one. -/
structure Truthful (name : String) (n : Netlab) : Prop where
  lookups : CalmFor .getLink n
  sized : ∀ l ∈ n.machine.links, l.name = name → isTooLong name = false

theorem Truthful.getLink (h : Truthful name n) :
    n.machine.getLink space name = match n.machine.named? space name with
      | some l => .ok ⟨l.index, l.mac⟩
      | none => .error (if isTooLong name then .outOfRange else .noDevice) := by
  unfold Machine.getLink
  cases hnamed : n.machine.named? space name with
  | none => split <;> rfl
  | some l =>
    have hfound := List.find?_some hnamed
    simp only [Bool.and_eq_true, beq_iff_eq] at hfound
    rw [h.sized l (List.mem_of_find?_eq_some hnamed) hfound.2]
    rfl

/-- What looking leaves as it was. -/
structure Looked (n n' : Netlab) : Prop where
  machine : n'.machine = n.machine
  files : SameFiles n n'
  lookups : CalmFor .getLink n → CalmFor .getLink n'

theorem Looked.truthful {n' : Netlab} (h : Looked n n') (htruthful : Truthful name n) :
    Truthful name n' :=
  ⟨h.lookups htruthful.lookups, by
    rw [h.machine]
    exact htruthful.sized⟩

theorem answered_getLink (hcalm : CalmFor .getLink n) {reply : Except Errno LinkInfo} {n' : Netlab}
    (hasked : answering.answers (.request space (.getLink name)) n reply n') :
    n.machine.getLink space name = reply ∧ Looked n n' ∧
      (Spares .socket n' ↔ Spares .socket n) := by
  have hanswer := answer_spared space (r := .getLink name) (spares_of_calmFor hcalm)
  have hfiles := sameFiles_answer n (.request space (.getLink name))
  rw [hanswer] at hfiles
  obtain ⟨rfl, rfl⟩ := Prod.mk.inj (hanswer.symm.trans hasked)
  refine ⟨rfl, ⟨rfl, hfiles, fun _ => hcalm.passed .getLink⟩, ?_⟩
  show (Netlab.passFaults .socket (Netlab.passFaults .getLink n.faults).2).1 = none ↔ _
  rw [passFaults_other (by decide)]
  rfl

/-- Whatever the kernel answers but the link, a link that has to be there is missed. -/
theorem requireLink_eq (space : Space) (name : String) :
    requireLink space name = Work.ask (.request space (.getLink name)) >>= fun
      | .ok info => pure info
      | .error e => throw (if e = .noDevice then .linkNotFound name else configureError name e) := by
  unfold requireLink findLink
  rw [bind_assoc]
  congr 1
  funext reply
  cases reply with
  | ok info => rfl
  | error e =>
    dsimp only
    split <;> rfl

/-- A link is found exactly if it is there. -/
theorem ends_requireLink (htruthful : Truthful name n) :
    Ends answering n (requireLink space name)
      (fun info n' => (∃ l, n.machine.named? space name = some l ∧ info = ⟨l.index, l.mac⟩) ∧
        Looked n n' ∧ (Spares .socket n' ↔ Spares .socket n))
      fun _ => n.machine.named? space name = none := by
  rw [requireLink_eq]
  refine ends_bind (ends_ask (q := .request space (.getLink name)) trivial
    fun _ _ => answered_getLink htruthful.lookups) ?_
  intro reply n' hasked
  obtain ⟨hget, hlooked⟩ := hasked
  rw [htruthful.getLink] at hget
  cases hnamed : n.machine.named? space name with
  | some l =>
    rw [hnamed] at hget
    rw [← hget]
    exact ends_pure ⟨⟨l, rfl, rfl⟩, hlooked⟩
  | none =>
    rw [hnamed] at hget
    rw [← hget]
    exact ends_throw rfl

theorem ends_openNamespace {path : String} :
    Ends answering n (openNamespace path)
      (fun file n' => isNamespacePath path = true ∧ n.openPath path = .ok file ∧ n = n')
      fun _ => ¬ (isNamespacePath path = true ∧ ∃ file, n.openPath path = .ok file) := by
  unfold openNamespace
  refine ends_ite (fun hpath => ?_) fun hpath => ends_throw fun h => hpath h.1
  refine ends_bind (ends_ask (q := .openPath path) trivial fun _ _ hasked => hasked) ?_
  intro reply n' hasked
  obtain ⟨rfl, rfl⟩ := Prod.mk.inj hasked
  refine ends_orFail (fun file hfile => ⟨hpath, hfile, rfl⟩) fun e he h => ?_
  obtain ⟨-, file, hfile⟩ := h
  cases he.symm.trans hfile

theorem ends_socketIn {path : String} {file : NsFile} :
    Ends answering n (socketIn path file)
      (fun inside n' => file = .space inside ∧ Spares .socket n ∧ Looked n n')
      fun _ => ¬ ∃ inside, file = .space inside ∧ Spares .socket n := by
  unfold socketIn
  refine ends_bind (ends_ask (q := .socket (some file)) trivial fun _ _ hasked => hasked) ?_
  intro reply n' hasked
  have hfiles := sameFiles_answer n (.socket (some file))
  rw [hasked] at hfiles
  have hopened : n.openSocket (some file) = (reply, n') := hasked
  unfold Netlab.openSocket at hopened
  split at hopened
  · next heq =>
    obtain ⟨rfl, rfl⟩ := Prod.mk.inj hopened
    refine ends_throw fun h => ?_
    obtain ⟨inside, hinside, -⟩ := h
    rw [hinside] at heq
    cases heq
  · split at hopened
    · next e _ hfault =>
      obtain ⟨rfl, rfl⟩ := Prod.mk.inj hopened
      refine ends_throw fun h => ?_
      have hspares := h.choose_spec.2
      unfold Spares at hspares
      rw [hfault] at hspares
      cases hspares
    · next n₁ hfault =>
      have hspares : Spares .socket n := congrArg Prod.fst hfault
      obtain ⟨-, rfl⟩ := Prod.mk.inj hfault
      cases file with
      | other => next hother => exact absurd rfl hother
      | space inside =>
        obtain ⟨rfl, rfl⟩ := Prod.mk.inj hopened
        exact ends_pure ⟨rfl, hspares, rfl, hfiles, fun hcalm => hcalm.passed .socket⟩

theorem ends_macBytes {σ : Type} {R : Proc.Rules Kernel.Ask Kernel.Ask.Reply σ} {s : σ}
    {mac : String} :
    Ends R s (macBytes mac) (fun bytes s' => Net.Mac.parse? mac = some bytes ∧ s = s')
      fun _ => Net.Mac.parse? mac = none := by
  unfold macBytes
  cases Net.Mac.parse? mac with
  | none => exact ends_throw rfl
  | some bytes => exact ends_pure ⟨rfl, rfl⟩

/-! ## Standing -/

/-- A path leads to a namespace in which a socket can be opened. -/
structure Enters (n : Netlab) (path : String) (space : Space) : Prop where
  absolute : isNamespacePath path = true
  file : n.openPath path = .ok (.space space)
  socket : Spares .socket n

/-- A pair stands: both ends are there, and the moved one has its hardware address. -/
structure Stands (own : Space) (hostIfname netns ifname mac : String) (n : Netlab) : Prop where
  host : ∃ l, n.machine.named? own hostIfname = some l
  container : ∃ space l, Enters n netns space ∧ n.machine.named? space ifname = some l ∧
    Net.Mac.parse? mac = some l.mac

/-- Looking at a pair succeeds exactly if it stands. -/
theorem ends_checkPair {hostIfname ifname : String} (hhost : Truthful hostIfname n)
    (hcontainer : Truthful ifname n) (own : Space) (netns mac : String) :
    Ends answering n (checkPair own hostIfname netns ifname mac)
      (fun _ _ => Stands own hostIfname netns ifname mac n)
      fun _ => ¬ Stands own hostIfname netns ifname mac n := by
  unfold checkPair
  refine ends_bind ((ends_requireLink hhost).imp_failed fun _ hnone hstands => ?_) ?_
  · obtain ⟨l, hl⟩ := hstands.host
    cases hnone.symm.trans hl
  intro _ n₁ hfound
  obtain ⟨⟨host, hhost, -⟩, hlooked₁, hsocket₁⟩ := hfound
  refine ends_bind (ends_openNamespace.imp_failed fun _ hnot hstands => ?_) ?_
  · obtain ⟨inside, l, henters, -⟩ := hstands.container
    exact hnot ⟨henters.absolute, .space inside,
      (hlooked₁.files.openPath netns).trans henters.file⟩
  intro file _ hfile
  obtain ⟨hpath, hfile, rfl⟩ := hfile
  rw [hlooked₁.files.openPath] at hfile
  -- whoever finds that the pair stands finds it in the namespace that was opened
  have hopened : ∀ {inside : Space}, Enters n netns inside → file = .space inside :=
    fun henters => Except.ok.inj (hfile.symm.trans henters.file)
  refine ends_bind (ends_socketIn.imp_failed fun _ hnot hstands => ?_) ?_
  · obtain ⟨inside, l, henters, -⟩ := hstands.container
    exact hnot ⟨inside, hopened henters, hsocket₁.2 henters.socket⟩
  intro inside n₂ hinside
  obtain ⟨rfl, hspares, hlooked₂⟩ := hinside
  have henters : Enters n netns inside := ⟨hpath, hfile, hsocket₁.1 hspares⟩
  have hmachine : n₂.machine = n.machine := hlooked₂.machine.trans hlooked₁.machine
  have hmoved : Stands own hostIfname netns ifname mac n →
      ∃ l, n.machine.named? inside ifname = some l ∧ Net.Mac.parse? mac = some l.mac := by
    intro hstands
    obtain ⟨inside', l, henters', hnamed, hmac⟩ := hstands.container
    obtain rfl : inside = inside' := NsFile.space.inj (hopened henters')
    exact ⟨l, hnamed, hmac⟩
  refine ends_bind ((ends_requireLink (hlooked₂.truthful (hlooked₁.truthful hcontainer))).mono
    (fun _ _ h => h) fun _ hnone hstands => ?_) ?_
  · obtain ⟨l, hnamed, -⟩ := hmoved hstands
    rw [hmachine, hnamed] at hnone
    cases hnone
  intro _ n₃ hfound
  obtain ⟨⟨container, hnamed, rfl⟩, -⟩ := hfound
  rw [hmachine] at hnamed
  refine ends_bind (ends_macBytes.imp_failed fun _ hnone hstands => ?_) ?_
  · obtain ⟨l, -, hmac⟩ := hmoved hstands
    cases hnone.symm.trans hmac
  intro bytes _ hbytes
  obtain ⟨hbytes, -⟩ := hbytes
  refine ends_ite (fun hsame => ends_pure ⟨⟨host, hhost⟩, ?_⟩) fun hdiffers =>
    ends_throw fun hstands => ?_
  · have hbytes' : container.mac = bytes := Net.Mac.render_injective hsame
    exact ⟨inside, container, henters, hnamed, hbytes'.symm ▸ hbytes⟩
  · obtain ⟨l, hl, hmac⟩ := hmoved hstands
    obtain rfl := Option.some.inj (hl.symm.trans hnamed)
    obtain rfl := Option.some.inj (hbytes.symm.trans hmac)
    exact hdiffers rfl

/-- Looking at a pair on a machine tells whether it stands. -/
theorem perform_checkPair {hostIfname ifname : String} (hhost : Truthful hostIfname n)
    (hcontainer : Truthful ifname n) (own : Space) (netns mac : String) :
    (n.perform (checkPair own hostIfname netns ifname mac)).1 = .ok () ↔
      Stands own hostIfname netns ifname mac n := by
  have hrun := run_ends (ends_checkPair hhost hcontainer own netns mac)
  constructor
  · exact hrun.1 ()
  · intro hstands
    cases hx : (n.perform (checkPair own hostIfname netns ifname mac)).1 with
    | ok _ => rfl
    | error e => exact absurd hstands (hrun.2 e hx)

end PodAttach.Link
