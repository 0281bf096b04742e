import PodAttach.Proofs.Convergence
import PodAttach.Proofs.Leftovers

/-!
# One interface and its lock

A recorded interface whose port is on the bridge is followed through its
stages: as it was found, with its flows, in the course of its removal, and
gone.  Only the holder of its container's lock takes it from one stage to
another, and removes it wholly before giving the lock back.

* `Standing` is such an interface, `Stage` how far it has come, and `Standing.At` says what
  that means in a world.
* `Standing.rules` are the rules of a computation that others may interfere with: a `View` is
  what it knows of the interface, which is sure as long as it has the lock.  Outside of the lock
  the interface may come further between any two questions.
* `Standing.idle_of_asking`: a computation that asks nothing of the interface leaves it alone.
* `Standing.pass_ends` and `Standing.request_ends`: the pass and all requests that build
  nothing keep to the rules, and what they know of the interface when they are over.
-/

namespace PodAttach.Agent

open Activity Switch.Session

/-! ## Stages -/

/-- How far an interface has come since it was found. -/
inductive Stage where
  /-- It is as it was found. -/
  | found
  /-- It has flows with its number. -/
  | replayed
  /-- It is being removed, and has no flows any more. -/
  | flowless
  /-- Its port is gone too. -/
  | portless
  /-- Nothing but its record is left. -/
  | linkless
  /-- Nothing is left. -/
  | gone
  deriving DecidableEq, Repr

namespace Stage

/-- The number of a stage in their order. -/
def rank : Stage → Nat
  | found => 0
  | replayed => 1
  | flowless => 2
  | portless => 3
  | linkless => 4
  | gone => 5

instance : LE Stage := ⟨fun s t => s.rank ≤ t.rank⟩

instance (s t : Stage) : Decidable (s ≤ t) := inferInstanceAs (Decidable (s.rank ≤ t.rank))

theorem le_iff {s t : Stage} : s ≤ t ↔ s.rank ≤ t.rank := Iff.rfl

theorem le_refl (s : Stage) : s ≤ s := Nat.le_refl _

theorem le_trans {s t u : Stage} (h : s ≤ t) (h' : t ≤ u) : s ≤ u := Nat.le_trans h h'

theorem eq_gone {s : Stage} (h : gone ≤ s) : s = gone := by
  cases s <;> simp_all [le_iff, rank]

/-- Nothing of the interface was removed yet. -/
def Whole (s : Stage) : Prop := s = found ∨ s = replayed

/-- The interface is not in the course of being removed. -/
def Settled (s : Stage) : Prop := s.Whole ∨ s = gone

theorem not_whole_iff {s : Stage} : ¬ s.Whole ↔ flowless ≤ s := by
  cases s <;> simp [Whole, le_iff, rank]

theorem Whole.le_replayed {s : Stage} (h : s.Whole) : s ≤ replayed := by
  rcases h with rfl | rfl <;> decide

theorem Whole.eq_replayed {s : Stage} (h : s.Whole) (hle : replayed ≤ s) : s = replayed := by
  rcases h with rfl | rfl
  · exact absurd hle (by decide)
  · rfl

/-- The slot of an interface at a stage, by the slot in which it was found and its number. -/
def slot (s₀ : Slot) (ofport : Nat) : Stage → Slot
  | found => s₀
  | replayed => { s₀ with flows := some ofport }
  | flowless => { s₀ with flows := none }
  | portless => { s₀ with port := none, flows := none }
  | linkless => { Slot.clear with record := s₀.record }
  | gone => .clear

end Stage

/-- A recorded interface whose port is on the bridge. -/
structure Standing (w : World) where
  attachment : Attachment
  /-- The port as it is recorded. -/
  attached : AttachedPort
  /-- The port on the bridge. -/
  port : Switch.Port
  /-- The number that is recorded, or else the one that the port has. -/
  ofport : Nat
  recorded : (w.slot attachment.interfaceName).record = some attachment
  attachedTo : attachment.port = some attached
  onBridge : (w.slot attachment.interfaceName).port = some port
  uuid : port.uuid = attached.uuid
  number : attached.ofport = some ofport ∨ attached.ofport = none ∧ port.ofport = some ofport

/-- What a task knows of an interface. -/
structure View where
  /-- The stage that it saw last. -/
  stage : Stage
  /-- Whether it has the lock of the interface's container. -/
  holds : Bool
  /-- Whether it began to remove the interface. -/
  took : Bool

namespace View

/-- A task that knows nothing yet. -/
def initial : View := ⟨.found, false, false⟩

/-- The interface may be at a stage.  Under the lock it is at the stage that was seen last. -/
structure Sees (σ : View) (now : Stage) : Prop where
  le : σ.stage ≤ now
  same : σ.holds = true → now = σ.stage

/-- A task did nothing to the interface, nor took or gave back its lock. -/
structure Idle (σ σ' : View) : Prop where
  holds : σ'.holds = σ.holds
  took : σ'.took = σ.took
  sees : σ.Sees σ'.stage

theorem idle_refl (σ : View) : σ.Idle σ := ⟨rfl, rfl, Stage.le_refl _, fun _ => rfl⟩

theorem Idle.trans {σ₁ σ₂ σ₃ : View} (h : σ₁.Idle σ₂) (h' : σ₂.Idle σ₃) : σ₁.Idle σ₃ where
  holds := h'.holds.trans h.holds
  took := h'.took.trans h.took
  sees := {
    le := Stage.le_trans h.sees.le h'.sees.le
    same := fun hholds =>
      (h'.sees.same (h.holds.trans hholds)).trans (h.sees.same hholds) }

end View

/-- The replies to a question in a world.  A lock or the network may not be had in time, and some
must not take locks. -/
def Replies (k : Conditions) (v : World) (mayLock : Prop) : (q : Ask) → q.Reply → Prop
  | .acquire _ limit, had => if had = true then mayLock else limit.isSome = true
  | .awaitReady _, _ => True
  | q, reply => reply = (v.perform k q).1

namespace Standing

variable {w : World} (x : Standing w)

/-- The name of the interface. -/
def name : String := x.attachment.interfaceName

/-- The container whose lock guards the interface. -/
def container : String := x.attachment.containerId

/-- The slot of the interface at a stage. -/
def slotAt (s : Stage) : Slot := s.slot (w.slot x.name) x.ofport

/-! ## Questions about the interface -/

/-- A question that has nothing to do with the interface or its lock, and builds nothing. -/
def Foreign : Ask → Prop
  | .acquire key _ => key ≠ x.container
  | .release key => key ≠ x.container
  | .switch (.createPort ..) => False
  | .switch (.installFlows n _ _ _) => n ≠ x.name
  | .switch (.uninstallFlows n) => n ≠ x.name
  | .switch (.deletePort uuid) => uuid ≠ x.attached.uuid
  | .link (.build _) => False
  | .link (.teardown _ n) => n ≠ x.name
  | .record _ => False
  | .forget n => n ≠ x.name
  | _ => True

/-- The stage after a question. -/
def next : Ask → Stage → Stage
  | .switch (.installFlows n _ _ _), s => if n = x.name then .replayed else s
  | .switch (.uninstallFlows n), s => if n = x.name then .flowless else s
  | .switch (.deletePort uuid), s => if uuid = x.attached.uuid then .portless else s
  | .link (.teardown _ n), s => if n = x.name then .linkless else s
  | .forget n, s => if n = x.name then .gone else s
  | _, s => s

/-- Whether the lock was taken. -/
def takes : Event → Bool
  | ⟨.acquire key _, true⟩ => key == x.container
  | _ => false

/-- Whether the lock is given back. -/
def gives : Ask → Bool
  | .release key => key == x.container
  | _ => false

/-- Whether a removal of the interface begins. -/
def strips : Ask → Bool
  | .switch (.uninstallFlows n) => n == x.name
  | _ => false

/-- What a task knows after an answer that it got at some stage. -/
def after (σ : View) (now : Stage) (ev : Event) : View where
  stage := x.next ev.asked now
  holds := (σ.holds || x.takes ev) && !x.gives ev.asked
  took := σ.took || x.strips ev.asked

/-- What a task may ask.  The interface is removed in order, and only by those who may. -/
inductive May (mayStrip : Prop) (σ : View) : Ask → Prop
  | foreign {q : Ask} (hq : x.Foreign q) : May mayStrip σ q
  | acquire {limit : Option Duration} (hfree : σ.holds = false) :
      May mayStrip σ (.acquire x.container limit)
  | release (hheld : σ.holds = true) (hsettled : σ.stage.Settled) :
      May mayStrip σ (.release x.container)
  | install {ips : List Net.Ip} {mac : String} (hheld : σ.holds = true)
      (hwhole : σ.stage.Whole) :
      May mayStrip σ (.switch (.installFlows x.name ips mac x.ofport))
  | uninstall (hheld : σ.holds = true) (hwhole : σ.stage.Whole) (hmay : mayStrip) :
      May mayStrip σ (.switch (.uninstallFlows x.name))
  | deletePort (hheld : σ.holds = true) (hstage : σ.stage = .flowless) :
      May mayStrip σ (.switch (.deletePort x.attached.uuid))
  | teardown {container : String} (hheld : σ.holds = true) (hstage : σ.stage = .portless) :
      May mayStrip σ (.link (.teardown container x.name))
  | forget (hheld : σ.holds = true) (hstage : σ.stage = .linkless) :
      May mayStrip σ (.forget x.name)

variable {x} {mayStrip mayLock : Prop} {σ : View} {now : Stage} {q : Ask}

theorem next_of_foreign (hq : x.Foreign q) (s : Stage) : x.next q s = s := by
  cases q with
  | switch c => cases c <;> simp_all [Foreign, next]
  | link c => cases c <;> simp_all [Foreign, next]
  | _ => simp_all [Foreign, next]

theorem takes_of_foreign (hq : x.Foreign q) (reply : q.Reply) : x.takes ⟨q, reply⟩ = false := by
  unfold takes
  split
  · next key limit hev =>
    obtain rfl : q = .acquire key limit := congrArg Event.asked hev
    exact beq_eq_false_iff_ne.2 hq
  · rfl

theorem gives_of_foreign (hq : x.Foreign q) : x.gives q = false := by
  cases q with
  | release key => exact beq_eq_false_iff_ne.2 hq
  | _ => rfl

theorem strips_of_foreign (hq : x.Foreign q) : x.strips q = false := by
  cases q with
  | switch c =>
    cases c with
    | uninstallFlows n => exact beq_eq_false_iff_ne.2 hq
    | _ => rfl
  | _ => rfl

theorem after_of_foreign (hq : x.Foreign q) (reply : q.Reply) :
    x.after σ now ⟨q, reply⟩ = ⟨now, σ.holds, σ.took⟩ := by
  simp [after, next_of_foreign hq, takes_of_foreign hq, gives_of_foreign hq, strips_of_foreign hq]

/-- Only who has the lock takes the interface to another stage. -/
theorem May.next_of_free (h : x.May mayStrip σ q) (hfree : σ.holds = false) (s : Stage) :
    x.next q s = s := by
  cases h with
  | foreign hq => exact next_of_foreign hq s
  | acquire => rfl
  | release hheld => rfl
  | _ => simp_all

/-- An interface never comes back to an earlier stage. -/
theorem May.le_next (h : x.May mayStrip σ q) (hsees : σ.Sees now) : now ≤ x.next q now := by
  have hsame := hsees.same
  cases h with
  | foreign hq => rw [next_of_foreign hq]; exact Stage.le_refl _
  | acquire => exact Stage.le_refl _
  | release => exact Stage.le_refl _
  | install hheld hwhole =>
    rw [next, if_pos rfl, hsame hheld]
    exact hwhole.le_replayed
  | uninstall hheld hwhole =>
    rw [next, if_pos rfl, hsame hheld]
    exact Stage.le_trans hwhole.le_replayed (by decide)
  | deletePort hheld hstage =>
    rw [next, if_pos rfl, hsame hheld, hstage]
    decide
  | teardown hheld hstage =>
    rw [next, if_pos rfl, hsame hheld, hstage]
    decide
  | forget hheld hstage =>
    rw [next, if_pos rfl, hsame hheld, hstage]
    decide

/-- The lock is given back by who has it, when the interface is settled. -/
theorem May.settled_of_gives (h : x.May mayStrip σ q) (hgives : x.gives q = true) :
    σ.holds = true ∧ σ.stage.Settled ∧ ∀ s, x.next q s = s := by
  cases h with
  | foreign hq => cases hgives.symm.trans (gives_of_foreign hq)
  | release hheld hsettled => exact ⟨hheld, hsettled, fun _ => rfl⟩
  | _ => cases hgives

theorem May.of_strips (h : x.May mayStrip σ q) (hstrips : x.strips q = true) : mayStrip := by
  cases h with
  | foreign hq => cases hstrips.symm.trans (strips_of_foreign hq)
  | uninstall hheld hwhole hmay => exact hmay
  | _ => cases hstrips

theorem strips_iff : x.strips q = true ↔ q = .switch (.uninstallFlows x.name) := by
  constructor
  · intro hstrips
    unfold strips at hstrips
    split at hstrips
    · rw [beq_iff_eq.1 hstrips]
    · cases hstrips
  · rintro rfl
    exact beq_self_eq_true _

theorem next_of_strips (hstrips : x.strips q = true) (s : Stage) : x.next q s = .flowless := by
  obtain rfl := strips_iff.1 hstrips
  exact if_pos rfl

/-- A removal that is under way has begun before, or begins now. -/
theorem May.flowless_le (h : x.May mayStrip σ q) (hsees : σ.Sees now)
    (hnext : .flowless ≤ x.next q now) : .flowless ≤ now ∨ x.strips q = true := by
  have hsame := hsees.same
  cases h with
  | foreign hq => exact .inl (next_of_foreign hq now ▸ hnext)
  | acquire => exact .inl hnext
  | release => exact .inl hnext
  | install hheld hwhole =>
    rw [next, if_pos rfl] at hnext
    exact absurd (.inr rfl) (Stage.not_whole_iff.2 hnext)
  | uninstall => exact .inr (beq_self_eq_true _)
  | deletePort hheld hstage => exact .inl (by rw [hsame hheld, hstage]; decide)
  | teardown hheld hstage => exact .inl (by rw [hsame hheld, hstage]; decide)
  | forget hheld hstage => exact .inl (by rw [hsame hheld, hstage]; decide)

/-- Flows are installed only as long as nothing was removed. -/
theorem May.whole_of_install {ips : List Net.Ip} {mac : String} {ofport : Nat}
    (h : x.May mayStrip σ (.switch (.installFlows x.name ips mac ofport))) (hsees : σ.Sees now) :
    now.Whole := by
  cases h with
  | foreign hq => exact absurd rfl hq
  | install hheld hwhole => exact hsees.same hheld ▸ hwhole

/-! ## The interface in a world -/

variable (x) in
/-- A world in which the interface is at a stage, and everything that is recorded was recorded
when it was found. -/
structure At (v : World) (now : Stage) : Prop where
  coherent : v.store.Coherent
  slot : v.slot x.name = x.slotAt now
  records : ∀ n b, (v.slot n).record = some b → (w.slot n).record = some b

variable {k : Conditions} {v : World}

theorem slotAt_record (hnow : now ≠ .gone) : (x.slotAt now).record = some x.attachment := by
  cases now with
  | gone => exact absurd rfl hnow
  | _ => exact x.recorded

theorem slotAt_port (hnow : now.Whole) : (x.slotAt now).port = some x.port := by
  rcases hnow with rfl | rfl <;> exact x.onBridge

theorem slotAt_port_uuid {p : Switch.Port} (hp : (x.slotAt now).port = some p) :
    p.uuid = x.attached.uuid := by
  have hport : ∀ p, (w.slot x.name).port = some p → p.uuid = x.attached.uuid := by
    intro p hp
    obtain rfl : x.port = p := Option.some.inj (x.onBridge.symm.trans hp)
    exact x.uuid
  cases now with
  | portless => cases hp
  | linkless => cases hp
  | gone => cases hp
  | _ => exact hport p hp

/-- What a foreign question does to others leaves the interface as it is. -/
theorem perform_of_foreign (hq : x.Foreign q) :
    (x.slotAt now).perform k x.name q = x.slotAt now := by
  cases q with
  | switch c =>
    cases c with
    | deletePort uuid =>
      have hkept : ((x.slotAt now).port.filter fun p => p.uuid != uuid) = (x.slotAt now).port := by
        cases hp : (x.slotAt now).port with
        | none => rfl
        | some p =>
          have hother : p.uuid ≠ uuid := fun h => hq (h.symm.trans (slotAt_port_uuid hp))
          simp [hother]
      simp only [Slot.perform, hkept]
    | createPort n ids => exact absurd hq id
    | installFlows n ips mac ofport => exact if_neg fun h => hq h.symm
    | uninstallFlows n => exact if_neg fun h => hq h.symm
    | getOfport n => rfl
  | link c =>
    cases c with
    | build spec => exact absurd hq id
    | teardown containerId n => exact if_neg fun h => hq h.symm
    | check => rfl
  | record a => exact absurd hq id
  | forget n => exact if_neg fun h => hq h.symm
  | _ => rfl

/-- What a task may ask takes the slot of the interface to its next stage. -/
theorem May.perform (h : x.May mayStrip σ q) (hsees : σ.Sees now) :
    (x.slotAt now).perform k x.name q = x.slotAt (x.next q now) := by
  have hsame := hsees.same
  cases h with
  | foreign hq => rw [perform_of_foreign hq, next_of_foreign hq]
  | acquire => rfl
  | release => rfl
  | install hheld hwhole =>
    rw [next, if_pos rfl, Slot.perform, if_pos rfl, hsame hheld]
    rcases hwhole with h | h <;> rw [h] <;> rfl
  | uninstall hheld hwhole =>
    rw [next, if_pos rfl, Slot.perform, if_pos rfl, hsame hheld]
    rcases hwhole with h | h <;> rw [h] <;> rfl
  | deletePort hheld hstage =>
    rw [next, if_pos rfl, Slot.perform, hsame hheld, hstage]
    have hport : w.bridge.ports.get? x.name = some x.port := x.onBridge
    simp [slotAt, Stage.slot, hport, x.uuid]
  | teardown hheld hstage =>
    rw [next, if_pos rfl, Slot.perform, if_pos rfl, hsame hheld, hstage]
    rfl
  | forget hheld hstage =>
    rw [next, if_pos rfl, Slot.perform, if_pos rfl, hsame hheld, hstage]
    rfl

/-- Nothing that a task may ask is recorded. -/
theorem May.ne_record (h : x.May mayStrip σ q) (a : Attachment) : q ≠ .record a := by
  rintro rfl
  cases h with
  | foreign hq => exact hq

theorem At.perform (hat : x.At v now) (h : x.May mayStrip σ q) (hsees : σ.Sees now) :
    x.At (v.perform k q).2 (x.next q now) where
  coherent := World.coherent_meet k hat.coherent none q
  slot := by rw [World.slot_perform k hat.coherent, hat.slot, h.perform hsees]
  records n b hb := by
    rw [World.slot_perform k hat.coherent] at hb
    rcases Territory.record_meet (m := none) hb with hbefore | ⟨rfl, -⟩
    · exact hat.records n b hbefore
    · exact absurd rfl (h.ne_record b)

/-! ## The rules -/

variable (x) in
/-- The answers that a task may get, and the stage at which it gets them.  Whoever takes the lock
finds no removal that is not finished. -/
structure Answered (k : Conditions) (mayLock : Prop) (σ : View) (now : Stage) (q : Ask)
    (reply : q.Reply) : Prop where
  sees : σ.Sees now
  world : ∃ v, x.At v now ∧ Replies k v mayLock q reply
  settled : x.takes ⟨q, reply⟩ = true → now.Settled

variable (x) in
/-- The rules of a task for the interface.  Others may do what the rules let them between any two
questions. -/
def rules (k : Conditions) (mayStrip mayLock : Prop) : Proc.Rules Ask Ask.Reply View where
  asks q σ := x.May mayStrip σ q
  answers q σ reply σ' :=
    ∃ now, x.Answered k mayLock σ now q reply ∧ σ' = x.after σ now ⟨q, reply⟩

section

variable {α : Type}

/-- A question that has nothing to do with the interface; others may take it further. -/
theorem ensures_foreign (hq : x.Foreign q) {post : q.Reply → View → Prop}
    (h : ∀ reply σ' v, σ.Idle σ' → x.At v σ'.stage → Replies k v mayLock q reply →
      post reply σ') :
    (Proc.question q : Activity q.Reply).Ensures (x.rules k mayStrip mayLock) σ post := by
  refine Proc.ensures_question.2 ⟨.foreign hq, ?_⟩
  rintro reply _ ⟨now, hanswered, rfl⟩
  obtain ⟨v, hat, hreplies⟩ := hanswered.world
  rw [after_of_foreign hq]
  exact h reply _ v ⟨rfl, rfl, hanswered.sees⟩ hat hreplies

/-- A question that is asked under the lock is answered at the stage that was seen last. -/
theorem ensures_held {s : Stage} {took : Bool} (hmay : x.May mayStrip ⟨s, true, took⟩ q)
    {post : q.Reply → View → Prop}
    (h : ∀ reply v, x.At v s → Replies k v mayLock q reply →
      post reply (x.after ⟨s, true, took⟩ s ⟨q, reply⟩)) :
    (Proc.question q : Activity q.Reply).Ensures (x.rules k mayStrip mayLock) ⟨s, true, took⟩
      post := by
  refine Proc.ensures_question.2 ⟨hmay, ?_⟩
  rintro reply _ ⟨now, hanswered, rfl⟩
  obtain ⟨v, hat, hreplies⟩ := hanswered.world
  obtain rfl : now = s := hanswered.sees.same rfl
  exact h reply v hat hreplies

/-- Who takes the lock finds the interface settled. -/
theorem ensures_acquire {limit : Option Duration} {s : Stage} {took : Bool}
    {post : Bool → View → Prop}
    (htaken : ∀ now, mayLock → s ≤ now → now.Settled → post true ⟨now, true, took⟩)
    (hbusy : ∀ now, limit.isSome = true → s ≤ now → post false ⟨now, false, took⟩) :
    (acquire x.container limit).Ensures (x.rules k mayStrip mayLock) ⟨s, false, took⟩ post := by
  refine Proc.ensures_question.2 ⟨.acquire rfl, ?_⟩
  rintro had _ ⟨now, hanswered, rfl⟩
  obtain ⟨v, hat, hreplies⟩ := hanswered.world
  cases had with
  | false =>
    have hafter : x.after ⟨s, false, took⟩ now ⟨.acquire x.container limit, false⟩ =
        ⟨now, false, took⟩ := by
      simp [after, next, takes, gives, strips]
    rw [hafter]
    exact hbusy now hreplies hanswered.sees.le
  | true =>
    have hafter : x.after ⟨s, false, took⟩ now ⟨.acquire x.container limit, true⟩ =
        ⟨now, true, took⟩ := by
      simp [after, next, takes, gives, strips]
    rw [hafter]
    exact htaken now hreplies hanswered.sees.le (hanswered.settled (beq_self_eq_true _))

/-- The lock is given back when the interface is settled. -/
theorem ensures_release {s : Stage} {took : Bool} (hsettled : s.Settled) {post : Unit → View → Prop}
    (h : post () ⟨s, false, took⟩) :
    (release x.container).Ensures (x.rules k mayStrip mayLock) ⟨s, true, took⟩ post := by
  refine ensures_held (.release rfl hsettled) fun _ v _ _ => ?_
  have hafter : x.after ⟨s, true, took⟩ s ⟨.release x.container, ()⟩ = ⟨s, false, took⟩ := by
    simp [after, next, takes, gives, strips]
  rw [hafter]
  exact h

/-- What asks nothing of the interface does nothing to it. -/
theorem idle_of_asking {p : Activity α} {may : Ask → Prop} {log : List Event}
    {post : α → List Event → Prop} (h : p.Ensures (asking may) log post)
    (hforeign : ∀ q, may q → x.Foreign q) :
    p.Ensures (x.rules k mayStrip mayLock) σ fun _ σ' => σ.Idle σ' := by
  induction p generalizing log σ with
  | done a => exact σ.idle_refl
  | ask q next ih =>
    refine ⟨.foreign (hforeign q h.1), ?_⟩
    rintro reply _ ⟨now, hanswered, rfl⟩
    rw [after_of_foreign (hforeign q h.1)]
    have hidle : σ.Idle ⟨now, σ.holds, σ.took⟩ := ⟨rfl, rfl, hanswered.sees⟩
    exact (ih reply (h.2 reply _ rfl)).mono fun _ σ' hrest => hidle.trans hrest

end

/-! ## Dealing with the interface -/

section

variable {s : Stage} {took : Bool}

/-- A call under the lock goes on with what the holder knows after it. -/
theorem ensures_call {s' : Stage} {took' : Bool} {reply : q.Reply}
    (hmay : x.May mayStrip ⟨s, true, took⟩ q)
    (hreply : ∀ reply' v, x.At v s → Replies k v mayLock q reply' → reply' = reply)
    (hafter : x.after ⟨s, true, took⟩ s ⟨q, reply⟩ = ⟨s', true, took'⟩)
    {post : q.Reply → View → Prop} (h : post reply ⟨s', true, took'⟩) :
    (Proc.question q : Activity q.Reply).Ensures (x.rules k mayStrip mayLock) ⟨s, true, took⟩
      post := by
  refine ensures_held hmay fun reply' v hat hreplies => ?_
  rw [hreply reply' v hat hreplies, hafter]
  exact h

theorem ensures_uninstallFlows (hmay : mayStrip) (hwhole : s.Whole)
    {post : Except Switch.Error Unit → View → Prop} (h : post (.ok ()) ⟨.flowless, true, true⟩) :
    (onSwitch (uninstallFlows x.name)).Ensures (x.rules k mayStrip mayLock) ⟨s, true, took⟩
      post :=
  ensures_call (q := .switch (.uninstallFlows x.name)) (.uninstall rfl hwhole hmay)
    (fun _ _ _ hreply => hreply) (by simp [after, next, takes, gives, strips]) h

theorem ensures_deletePort {post : Except Switch.Error Unit → View → Prop}
    (h : post (.ok ()) ⟨.portless, true, took⟩) :
    (onSwitch (deletePort x.attached.uuid)).Ensures (x.rules k mayStrip mayLock)
      ⟨.flowless, true, took⟩ post :=
  ensures_call (q := .switch (.deletePort x.attached.uuid)) (.deletePort rfl rfl)
    (fun _ _ _ hreply => hreply) (by simp [after, next, takes, gives, strips]) h

theorem ensures_teardown {container : String} {post : Except Link.Error Unit → View → Prop}
    (h : post (.ok ()) ⟨.linkless, true, took⟩) :
    (teardown container x.name).Ensures (x.rules k mayStrip mayLock) ⟨.portless, true, took⟩
      post :=
  ensures_call (q := .link (.teardown container x.name)) (.teardown rfl rfl)
    (fun _ _ _ hreply => hreply) (by simp [after, next, takes, gives, strips]) h

theorem ensures_forget {post : Unit → View → Prop} (h : post () ⟨.gone, true, took⟩) :
    (forget x.name).Ensures (x.rules k mayStrip mayLock) ⟨.linkless, true, took⟩ post :=
  ensures_call (q := .forget x.name) (.forget rfl rfl)
    (fun _ _ _ hreply => hreply) (by simp [after, next, takes, gives, strips]) h

theorem ensures_installFlows (hwhole : s.Whole) {ips : List Net.Ip} {mac : String}
    {post : Except Switch.Error Unit → View → Prop} (h : post (.ok ()) ⟨.replayed, true, took⟩) :
    (onSwitch (installFlows x.name ips mac x.ofport)).Ensures (x.rules k mayStrip mayLock)
      ⟨s, true, took⟩ post :=
  ensures_call (q := .switch (.installFlows x.name ips mac x.ofport)) (.install rfl hwhole)
    (fun _ _ _ hreply => hreply) (by simp [after, next, takes, gives, strips]) h

/-- Removing the interface under its lock leaves nothing of it. -/
theorem remove_ends (hmay : mayStrip) (hwhole : s.Whole) :
    (remove x.attachment).Ensures (x.rules k mayStrip mayLock) ⟨s, true, took⟩ fun r σ =>
      r = .ok () ∧ σ = ⟨.gone, true, true⟩ := by
  unfold remove
  rw [x.attachedTo, Option.map_some, Switch.disconnect, onSwitch_bind, Proc.ensures_bind,
    Proc.ensures_bind]
  refine ensures_uninstallFlows hmay hwhole ?_
  refine ensures_deletePort ?_
  dsimp only
  rw [Proc.ensures_bind]
  refine ensures_teardown ?_
  dsimp only
  rw [Proc.ensures_bind]
  exact ensures_forget ⟨rfl, rfl⟩

/-- A port that is on the bridge gives its number. -/
theorem ensures_getOfport (hwhole : s.Whole) (hnumber : x.port.ofport = some x.ofport)
    {post : Except Switch.Error Nat → View → Prop} (h : post (.ok x.ofport) ⟨s, true, took⟩) :
    (onSwitch (getOfport x.name)).Ensures (x.rules k mayStrip mayLock) ⟨s, true, took⟩ post := by
  refine ensures_call (q := .switch (.getOfport x.name)) (.foreign trivial)
    (fun reply v hat hreply => ?_) (by simp [after, next, takes, gives, strips]) h
  have hport : (v.slot x.name).port.bind Switch.Port.ofport = some x.ofport := by
    rw [hat.slot, slotAt_port hwhole]
    exact hnumber
  have hperform : reply = (v.perform k (.switch (.getOfport x.name))).1 := hreply
  rw [hperform, World.perform_getOfport, hport]

/-- Giving the interface its flows back under its lock succeeds. -/
theorem reconnect_ends (hwhole : s.Whole) :
    (reconnect x.attachment).Ensures (x.rules k mayStrip mayLock) ⟨s, true, took⟩ fun r σ =>
      r = .ok () ∧ σ = ⟨.replayed, true, took⟩ := by
  have hinstall : (onSwitch (installFlows x.attachment.interfaceName x.attachment.ips
      x.attachment.mac x.ofport)).Ensures (x.rules k mayStrip mayLock) ⟨s, true, took⟩
        fun r σ => r = .ok () ∧ σ = ⟨.replayed, true, took⟩ :=
    ensures_installFlows hwhole ⟨rfl, rfl⟩
  unfold reconnect
  rw [x.attachedTo]
  dsimp only
  rcases x.number with hnumber | ⟨hnone, hnumber⟩
  · rw [hnumber]
    refine hinstall.bind ?_
    rintro _ σ ⟨rfl, rfl⟩
    exact ⟨rfl, rfl⟩
  · rw [hnone]
    dsimp only
    rw [Proc.ensures_bind]
    refine ensures_getOfport hwhole hnumber (hinstall.bind ?_)
    rintro _ σ ⟨rfl, rfl⟩
    exact ⟨rfl, rfl⟩

end

/-! ## The pass -/

/-- A record is found as long as the interface is not gone. -/
theorem At.get? (hat : x.At v now) (hnow : now ≠ .gone) :
    v.store.get? x.name = some x.attachment := by
  have hrecord := congrArg Slot.record hat.slot
  exact hrecord.trans (slotAt_record hnow)

theorem At.get?_gone (hat : x.At v .gone) : v.store.get? x.name = none :=
  congrArg Slot.record hat.slot

/-- Another record is of another interface and container, and of another port. -/
theorem other (hw : w.Apart) {b : Attachment} (hb : (w.slot b.interfaceName).record = some b)
    (hne : b ≠ x.attachment) : b.interfaceName ≠ x.name ∧ b.containerId ≠ x.container ∧
      ∀ q, b.port = some q → q.uuid ≠ x.attached.uuid := by
  have hname : b.interfaceName ≠ x.name := by
    intro hname
    rw [hname] at hb
    exact hne (Option.some.inj (hb.symm.trans x.recorded))
  refine ⟨hname, fun hc => hname (hw.coherent.name_unique hb x.recorded hc), fun q hq huuid => ?_⟩
  exact hname (hw.uuid hb hq x.onBridge (x.uuid.trans huuid.symm)).symm

variable {keys : List String}

/-- Dealing with another attachment has nothing to do with the interface. -/
theorem foreign_of_dealsWith (hw : w.Apart) {b : Attachment}
    (hb : (w.slot b.interfaceName).record = some b) (hne : b ≠ x.attachment)
    (hq : q.DealsWith keys b) : x.Foreign q := by
  obtain ⟨hname, hcontainer, huuid⟩ := x.other hw hb hne
  cases hq with
  | lock => exact hcontainer
  | unlock => exact hcontainer
  | install => exact hname
  | uninstall => exact hname
  | deletePort hkey hport => exact huuid _ hport
  | teardown => exact hname
  | forget => exact hname
  | look => trivial
  | number => trivial

variable (x) in
/-- The pass has dealt with the interface. -/
def Handled (keys : List String) (s : Stage) : Prop :=
  if keys.contains x.attachment.podKey then .replayed ≤ s else s = .gone

theorem handled_gone : x.Handled keys .gone := by
  unfold Handled
  split
  · decide
  · rfl

theorem Handled.of_le {s s' : Stage} (h : x.Handled keys s) (hle : s ≤ s') :
    x.Handled keys s' := by
  unfold Handled at h ⊢
  split
  · next hkey =>
    rw [if_pos hkey] at h
    exact Stage.le_trans h hle
  · next hkey =>
    rw [if_neg hkey] at h
    subst h
    exact Stage.eq_gone hle

/-- Under the lock the pass gives the interface its flows back or removes it. -/
theorem restore_ends {s : Stage} {took : Bool} {r : Report} (hwhole : s.Whole) :
    (restore keys r x.attachment).Ensures
      (x.rules k (keys.contains x.attachment.podKey = false) True) ⟨s, true, took⟩ fun _ σ =>
        σ.holds = true ∧ σ.stage.Settled ∧ x.Handled keys σ.stage := by
  unfold restore
  split
  · next hkey =>
    refine (reconnect_ends hwhole).bind ?_
    rintro _ σ ⟨rfl, rfl⟩
    refine ⟨rfl, .inl (.inr rfl), ?_⟩
    rw [Handled, if_pos hkey]
    exact Stage.le_refl _
  · next hkey =>
    refine (remove_ends (by simpa using hkey) hwhole).bind ?_
    rintro _ σ ⟨rfl, rfl⟩
    exact ⟨rfl, .inr rfl, handled_gone⟩

/-- Once the pass comes to the interface it deals with it, or the interface is gone already. -/
theorem reconcileOne_ends {s : Stage} {took : Bool} {r : Report} :
    (reconcileOne keys r x.attachment).Ensures
      (x.rules k (keys.contains x.attachment.podKey = false) True) ⟨s, false, took⟩ fun _ σ =>
        σ.holds = false ∧ x.Handled keys σ.stage := by
  unfold reconcileOne
  rw [Proc.ensures_bind]
  refine ensures_acquire (fun now _ _ hsettled => ?_) fun _ hlimit => nomatch hlimit
  rw [Proc.ensures_bind]
  refine ensures_held (q := .attachment x.name) (.foreign trivial) fun reply v hat hreply => ?_
  have hfound : reply = v.store.get? x.name := hreply
  have hview : x.after ⟨now, true, took⟩ now ⟨.attachment x.name, reply⟩ = ⟨now, true, took⟩ :=
    after_of_foreign (q := .attachment x.name) trivial reply
  rw [hview]
  split
  · next hsame =>
    have hwhole : now.Whole := hsettled.resolve_right fun hgone => by
      subst hgone
      cases (hfound.symm.trans hsame).symm.trans hat.get?_gone
    refine (restore_ends hwhole).bind ?_
    rintro r' ⟨now', holds, took'⟩ ⟨hheld, hsettled', hhandled⟩
    obtain rfl : holds = true := hheld
    rw [Proc.ensures_bind]
    exact ensures_release hsettled' ⟨rfl, hhandled⟩
  · next hchanged =>
    -- the record is as it was listed, unless nothing is left
    have hgone : now = .gone := Classical.byContradiction fun hnow =>
      hchanged (hfound.trans (hat.get? hnow))
    show (release x.attachment.containerId >>= fun _ => pure r).Ensures _ _ _
    rw [Proc.ensures_bind]
    exact ensures_release hsettled ⟨rfl, hgone ▸ handled_gone⟩

/-- The pass deals with the interface when it comes to it, and leaves it alone otherwise. -/
theorem foldlM_ends (hw : w.Apart) (as : List Attachment) {r : Report}
    (has : ∀ b ∈ as, (w.slot b.interfaceName).record = some b) (hfree : σ.holds = false)
    (hleft : x.Handled keys σ.stage ∨ x.attachment ∈ as) :
    (as.foldlM (reconcileOne keys) r).Ensures
      (x.rules k (keys.contains x.attachment.podKey = false) True) σ fun _ σ' =>
        σ'.holds = false ∧ x.Handled keys σ'.stage := by
  induction as generalizing r σ with
  | nil => exact ⟨hfree, hleft.resolve_right List.not_mem_nil⟩
  | cons b as ih =>
    have has' : ∀ b ∈ as, (w.slot b.interfaceName).record = some b :=
      fun c hc => has c (List.mem_cons_of_mem _ hc)
    rw [List.foldlM_cons]
    by_cases hb : b = x.attachment
    · subst hb
      obtain ⟨s, holds, took⟩ := σ
      obtain rfl : holds = false := hfree
      refine reconcileOne_ends.bind ?_
      rintro r' σ' ⟨hfree', hhandled⟩
      exact ih has' hfree' (.inl hhandled)
    · have hasks : (reconcileOne keys r b).Ensures (asking (Ask.DealsWith keys b)) []
          fun _ _ => True := reconcileOne_asks
      have hforeign : ∀ q, q.DealsWith keys b → x.Foreign q :=
        fun q hq => foreign_of_dealsWith hw (has b (List.mem_cons_self ..)) hb hq
      refine (idle_of_asking hasks hforeign).bind ?_
      rintro r' σ' hσ'
      refine ih has' (hσ'.holds.trans hfree) ?_
      rcases hleft with hhandled | hmem
      · exact .inl (hhandled.of_le hσ'.sees.le)
      · exact .inr ((List.mem_cons.1 hmem).resolve_left fun h => hb h.symm)

/-- When the pass is over, the interface has its flows or is gone. -/
theorem pass_ends (hw : w.Apart) {ps : List PodRef} (hpods : k.pods = .ok ps) :
    reconcile.Ensures (x.rules k ((desired ps).contains x.attachment.podKey = false) True)
      .initial fun _ σ => σ.holds = false ∧ x.Handled (desired ps) σ.stage := by
  unfold reconcile
  rw [Proc.ensures_bind]
  refine ensures_foreign (q := .pods) trivial fun reply σ v hidle hat hreply => ?_
  obtain rfl : reply = .ok ps := Eq.trans hreply hpods
  dsimp only
  rw [Proc.ensures_bind]
  refine ensures_foreign (q := .attachments) trivial fun listed σ' v' hidle' hat' hlisted => ?_
  obtain rfl : listed = v'.store.list := hlisted
  have hrecords := (list_records hat'.coherent).1
  refine Proc.Ensures.bind (foldlM_ends hw _ (fun b hb => ?_) ?_ ?_) fun _ _ h => h
  · exact hat'.records _ _ ((hrecords b).1 hb)
  · exact (hidle.trans hidle').holds
  · by_cases hgone : σ'.stage = .gone
    · exact .inl (hgone ▸ handled_gone)
    · exact .inr ((hrecords _).2 (hat'.get? hgone))

/-! ## Requests -/

variable {o : Options} {r : Cni.Request} {c : Cni.Call}

/-- What does nothing to the interface does nothing to it under the lock of any sandbox. -/
theorem locked_idle {body : Activity (Except Cni.CallError Bytes)}
    (hbody : mayLock → ∀ σ, body.Ensures (x.rules k mayStrip mayLock) σ fun _ σ' => σ.Idle σ')
    (hfree : σ.holds = false) :
    (locked o c body).Ensures (x.rules k mayStrip mayLock) σ fun _ σ' => σ'.took = σ.took := by
  unfold locked
  rw [Proc.ensures_bind]
  by_cases hkey : c.infraContainerId = x.container
  · obtain ⟨s, holds, took⟩ := σ
    obtain rfl : holds = false := hfree
    rw [hkey]
    refine ensures_acquire (fun now hmay _ hsettled => ?_) fun now _ _ => rfl
    refine (hbody hmay _).bind ?_
    rintro outcome ⟨now', holds, took'⟩ ⟨hholds, htook, hsees⟩
    obtain rfl : holds = true := hholds
    obtain rfl : now' = now := hsees.same rfl
    rw [Proc.ensures_bind]
    exact ensures_release hsettled htook
  · refine ensures_foreign (q := .acquire c.infraContainerId o.lockTimeout) hkey ?_
    intro had σ₁ v hidle _ hhad
    cases had with
    | false => exact hidle.took
    | true =>
      refine (hbody hhad σ₁).bind fun outcome σ₂ hidle₂ => ?_
      rw [Proc.ensures_bind]
      refine ensures_foreign (q := .release c.infraContainerId) hkey ?_
      exact fun _ σ₃ _ hidle₃ _ _ => ((hidle.trans hidle₂).trans hidle₃).took

/-- A Check only looks. -/
theorem checkLocked_asks :
    (checkLocked c).Ensures (asking x.Foreign) [] fun _ _ => True := by
  have hcheck : ∀ a log, (check c a).Ensures (asking x.Foreign) log fun _ _ => True := by
    intro a log
    unfold check
    rw [Proc.ensures_bind]
    refine ensures_asking (q := .link (.check a.interfaceName c.netns c.ifname a.mac)) trivial ?_
    rintro (e | ⟨⟩)
    · trivial
    · dsimp only
      rw [Proc.ensures_bind]
      refine ensures_asking (q := .switch (.getOfport a.interfaceName)) trivial ?_
      rintro (e | ofport)
      · trivial
      · dsimp only
        cases checkOfport a ofport with
        | error e => trivial
        | ok =>
          cases c.network.prevResult with
          | none => trivial
          | some result =>
            dsimp only
            cases checkEarlier result c.ifname a.mac <;> trivial
  unfold checkLocked
  split
  · rw [Proc.ensures_bind]
    refine ensures_asking (q := .attachmentOf c.containerId) trivial fun found => ?_
    cases found with
    | none => trivial
    | some a =>
      refine (hcheck a _).bind ?_
      rintro (e | ⟨⟩) log' - <;> trivial
  · trivial

/-- The record of another container is of another interface. -/
theorem delLocked_idle (hw : w.Apart) (hother : c.isInfra = true → c.containerId ≠ x.container) :
    (delLocked c).Ensures (x.rules k mayStrip mayLock) σ fun _ σ' => σ.Idle σ' := by
  unfold delLocked
  split
  · next hinfra =>
    rw [removeOf, Proc.ensures_bind, Proc.ensures_bind]
    refine ensures_foreign (q := .attachmentOf c.containerId) trivial ?_
    intro found σ₁ v hidle hat hfound
    have hfind : v.store.find? c.containerId = found := hfound.symm
    cases found with
    | none => exact hidle
    | some b =>
      obtain ⟨hb, hcontainer⟩ := (World.find?_eq_some_iff hat.coherent).1 hfind
      have hne : b ≠ x.attachment := fun h => hother hinfra (hcontainer ▸ h ▸ rfl)
      obtain ⟨hname, -, huuid⟩ := x.other hw (hat.records _ _ hb) hne
      have hremove : (remove b).Ensures (asking x.Foreign) [] fun _ _ => True :=
        remove_asking hname huuid hname hname
      refine (idle_of_asking hremove fun _ hq => hq).mono ?_
      rintro (e | ⟨⟩) σ₂ hidle₂ <;> exact hidle.trans hidle₂
  · exact σ.idle_refl

/-- A Del of the interface's container removes it, or finds that it is gone. -/
theorem delLocked_ends {s : Stage} (hw : w.Apart) (hmay : mayStrip) (hinfra : c.isInfra = true)
    (hcontainer : c.containerId = x.container) (hsettled : s.Settled) :
    (delLocked c).Ensures (x.rules k mayStrip mayLock) ⟨s, true, false⟩ fun r σ =>
      r = .ok [] ∧ σ.holds = true ∧ σ.stage = .gone := by
  unfold delLocked
  rw [if_pos hinfra, removeOf, Proc.ensures_bind, Proc.ensures_bind]
  refine ensures_held (q := .attachmentOf c.containerId) (.foreign trivial) ?_
  intro found v hat hfound
  have hview : x.after ⟨s, true, false⟩ s ⟨.attachmentOf c.containerId, found⟩ =
      ⟨s, true, false⟩ := after_of_foreign (q := .attachmentOf c.containerId) trivial found
  have hfind : found = v.store.find? c.containerId := hfound
  rw [hview]
  rcases hsettled with hwhole | rfl
  · have hnow : s ≠ .gone := by
      rcases hwhole with rfl | rfl <;> simp
    have hrecord : v.store.find? c.containerId = some x.attachment :=
      (World.find?_eq_some_iff hat.coherent).2 ⟨hat.get? hnow, hcontainer.symm⟩
    rw [hfind, hrecord]
    refine (remove_ends hmay hwhole).mono ?_
    rintro _ σ ⟨rfl, rfl⟩
    exact ⟨rfl, rfl, rfl⟩
  · have hnone : v.store.find? c.containerId = none := by
      refine (Store.find?_eq_none_iff hat.coherent).2 fun n b hb hc => ?_
      -- a record of the container would have been the one of the interface
      have hname : n = x.name :=
        hw.coherent.name_unique (hat.records n b hb) x.recorded (hc.trans hcontainer)
      cases hb.symm.trans (hname ▸ hat.get?_gone)
    rw [hfind, hnone]
    exact ⟨rfl, rfl, rfl⟩

variable (x) in
/-- What a request knows when it is answered.  Whoever removes the interface says so. -/
structure Ends (o : Options) (r : Cni.Request) (response : Cni.Response) (σ : View) : Prop where
  removed : Dels o r x.container → response.isOk = true → σ.stage = .gone
  took : σ.took = true → response.isOk = true

theorem ends_of_not_took {response : Cni.Response} (hdels : ¬ Dels o r x.container)
    (htook : σ.took = false) : x.Ends o r response σ where
  removed h := absurd h hdels
  took h := by cases h.symm.trans htook

/-- A Del of the interface's container that succeeds leaves nothing of the interface. -/
theorem del_ends (hw : w.Apart) (hdels : Dels o r x.container) :
    (handle o r).Ensures (x.rules k (Dels o r x.container) mayLock) .initial (x.Ends o r) := by
  obtain ⟨c, hdecode, hinfra⟩ := hdels.decoded
  have hcontainer : c.containerId = x.container :=
    (containerId_of_decode hdecode).trans hdels.container
  unfold handle serve
  rw [Proc.ensures_map, hdels.command]
  simp only [del, hdecode, locked]
  rw [infraContainerId_of_isInfra hdecode hinfra, hcontainer, Proc.ensures_bind]
  refine ensures_acquire (fun now _ _ hsettled => ?_) fun now _ _ => ?_
  · refine (delLocked_ends hw hdels hinfra hcontainer hsettled).bind ?_
    rintro _ ⟨now', holds, took⟩ ⟨rfl, hholds, hgone⟩
    obtain rfl : holds = true := hholds
    obtain rfl : now' = .gone := hgone
    rw [Proc.ensures_bind]
    exact ensures_release (.inr rfl) ⟨fun _ _ => rfl, fun _ => rfl⟩
  · refine ⟨fun _ hok => ?_, fun htook => ?_⟩
    · cases hok
    · cases htook

/-- Every request keeps to the rules of the interface, as long as Adds take no lock. -/
theorem request_ends (hw : w.Apart) :
    (handle o r).Ensures (x.rules k (Dels o r x.container) (r.command ≠ .add)) .initial
      (x.Ends o r) := by
  by_cases hdels : Dels o r x.container
  · exact del_ends hw hdels
  · -- no other request does anything to the interface
    have hidle : (handle o r).Ensures (x.rules k (Dels o r x.container) (r.command ≠ .add))
        .initial fun _ σ => σ.took = false := by
      unfold handle serve
      rw [Proc.ensures_map]
      cases hcommand : r.command with
      | add =>
        simp only [add]
        cases decode o r.args with
        | error e => rfl
        | ok c =>
          dsimp only
          rw [Proc.ensures_bind]
          refine ensures_foreign (q := .awaitReady o.readyTimeout) trivial ?_
          intro ready σ v hσ _ _
          cases ready with
          | false => exact hσ.took
          | true =>
            refine (locked_idle (fun h => absurd rfl h) hσ.holds).mono ?_
            exact fun _ _ htook => htook.trans hσ.took
      | del =>
        simp only [del]
        cases hdecode : decode o r.args with
        | error e => rfl
        | ok c =>
          refine locked_idle (fun _ σ => delLocked_idle hw fun hinfra hc => ?_) rfl
          have hargs := (containerId_of_decode hdecode).symm.trans hc
          exact hdels ⟨hcommand, hargs, c, hdecode, hinfra⟩
      | check =>
        simp only [checkCall]
        cases decode o r.args with
        | error e => rfl
        | ok c =>
          exact locked_idle (fun _ σ => idle_of_asking checkLocked_asks fun _ h => h) rfl
    exact hidle.mono fun _ _ htook => ends_of_not_took hdels htook

end Standing

end PodAttach.Agent
