import PodAttach.Agent.Attach
import PodAttach.Proofs.Rules
import PodAttach.Switch.Bridge

/-!
# The contract of connecting an interface

Connecting an interface is a few calls on the switch, each of which may fail.
Whatever fails, what it reports is what is on the switch, nothing of any other
interface is touched, and the calls are made in an order that keeps the flows
of one port from another one that gets its number.

* `Bridge.Answers` is how a call may go: what it answers, and what it does to
  the bridge.  A call that fails does nothing, but installing flows may have
  added them.
* `Call.InOrder` is when a call may be made, after the calls before it.
* `UnderWay` is what the bridge holds from when the port is there, and each
  call has a lemma that says what becomes of it.
* `Contract` is what comes of the whole, and `connect_contract` that it comes
  of every course of calls, all of them in order.
-/

namespace PodAttach.Switch

open Agent (leftPort?)

/-! ## How calls may go -/

/-- What a call may answer on a bridge, and what the bridge is after it. -/
inductive Bridge.Answers (b : Bridge) : (c : Call) → c.Reply → Bridge → Prop
  /-- A port is made.  No other port has its UUID, and it may get its number later. -/
  | made {name uuid : String} {externalIds : Table String} {ofport : Option Nat} {next : Nat}
      (hnew : ∀ n p, n ≠ name → b.ports.get? n = some p → p.uuid ≠ uuid) :
      b.Answers (.createPort name externalIds) (.ok uuid)
        { b.insertPort ⟨uuid, name, ofport, externalIds⟩ with nextOfport := next }
  /-- A port gets its number while it is waited for. -/
  | numbered {name : String} {p : Port} {ofport : Nat} (hport : b.ports.get? name = some p)
      (hnone : p.ofport = none) :
      b.Answers (.getOfport name) (.ok ofport) (b.setOfport name (some ofport))
  /-- Any other call does what it is for. -/
  | done {c : Call} (hc : ∀ name externalIds, c ≠ .createPort name externalIds) :
      b.Answers c (b.call c).1 (b.call c).2
  /-- A call fails.  No call says that a port stayed; that is found out by the one who calls. -/
  | failed {c : Call} {e : Error} (he : leftPort? e = none) : b.Answers c (.error e) b
  /-- Flows are added, and yet installing them fails. -/
  | added {name mac : String} {ips : List Net.Ip} {ofport : Nat} {e : Error}
      (he : leftPort? e = none) :
      b.Answers (.installFlows name ips mac ofport) (.error e)
        (b.call (.installFlows name ips mac ofport)).2

/-- A bridge on which the UUIDs of other ports are not made from the name answers as it may. -/
theorem Bridge.answers_call {b : Bridge}
    (hnew : ∀ name n p, n ≠ name → b.ports.get? n = some p → p.uuid ≠ uuidOf name) (c : Call) :
    b.Answers c (b.call c).1 (b.call c).2 := by
  cases c with
  | createPort name externalIds => exact .made (hnew name)
  | _ => exact .done nofun

/-! ## The order of calls -/

/-- A call with its answer. -/
structure Exchange where
  asked : Call
  reply : asked.Reply

namespace Exchange

/-- Whether a port was to be removed. -/
def deletes : Exchange → Bool
  | ⟨.deletePort _, _⟩ => true
  | _ => false

/-- Whether flows were to be removed, and were not. -/
def keepsFlows : Exchange → Bool
  | ⟨.uninstallFlows _, .error _⟩ => true
  | _ => false

/-- Whether the flows of an interface were to be installed. -/
def installs (name : String) : Exchange → Bool
  | ⟨.installFlows n _ _ _, _⟩ => n == name
  | _ => false

/-- Whether the flows of an interface were removed. -/
def uninstalls (name : String) : Exchange → Bool
  | ⟨.uninstallFlows n, .ok _⟩ => n == name
  | _ => false

end Exchange

/-- Whether the flows of an interface may be there, after calls of which the last comes first: they
were to be installed, and were not removed since. -/
def Unsettled (name : String) : List Exchange → Prop
  | [] => False
  | x :: log => x.uninstalls name = false ∧ (x.installs name = true ∨ Unsettled name log)

/-- Whether a call may be made, after calls of which the last comes first. -/
def Call.InOrder (log : List Exchange) : Call → Prop
  -- flows are installed with the number that was just given for the port
  | .installFlows name _ _ ofport => log.head? = some ⟨.getOfport name, .ok ofport⟩
  -- a port is removed once, and not while there may be flows
  | .deletePort _ =>
    (∀ x ∈ log, x.deletes = false ∧ x.keepsFlows = false) ∧ ∀ name, ¬ Unsettled name log
  | _ => True

/-- How far a sequence of calls has come. -/
structure Progress where
  bridge : Bridge
  /-- The calls so far, the last first. -/
  log : List Exchange

/-- Calls are made in order, and go as they may. -/
def inOrder : Proc.Rules Call Call.Reply Progress where
  asks c s := c.InOrder s.log
  answers c s r s' := s.bridge.Answers c r s'.bridge ∧ s'.log = ⟨c, r⟩ :: s.log

theorem ensures_call {c : Call} {s : Progress} {post : c.Reply → Progress → Prop} :
    (.question c : Session c.Reply).Ensures inOrder s post ↔
      c.InOrder s.log ∧
        ∀ r b, s.bridge.Answers c r b → post r ⟨b, ⟨c, r⟩ :: s.log⟩ := by
  rw [Proc.ensures_question]
  refine and_congr_right fun _ => ⟨fun h r b hb => h r ⟨b, _⟩ ⟨hb, rfl⟩, ?_⟩
  rintro h r ⟨b, log⟩ ⟨hb, hlog⟩
  subst hlog
  exact h r b hb

/-! ## A port that is there -/

/-- The ports and flows of all other names are as they were. -/
def Bridge.Apart (before : Bridge) (name : String) (after : Bridge) : Prop :=
  ∀ n, n ≠ name →
    after.ports.get? n = before.ports.get? n ∧ after.flows.get? n = before.flows.get? n

/-- The bridge while an interface is being connected, from when its port is there. -/
structure UnderWay (before : Bridge) (p : Port) (flows : Option Nat) (b : Bridge) : Prop where
  port_eq : b.ports.get? p.name = some p
  flows_eq : b.flows.get? p.name = flows
  /-- No other port has the UUID. -/
  fresh : ∀ n q, n ≠ p.name → before.ports.get? n = some q → q.uuid ≠ p.uuid
  apart : before.Apart p.name b

section

variable {before b b' : Bridge} {name uuid : String} {externalIds : Table String} {p : Port}
  {flows : Option Nat}

theorem underWay_createPort (hflows : before.flows.get? name = none)
    {r : (Call.createPort name externalIds).Reply}
    (h : before.Answers (.createPort name externalIds) r b) :
    (∃ uuid ofport, r = .ok uuid ∧ UnderWay before ⟨uuid, name, ofport, externalIds⟩ none b) ∨
      ∃ e, leftPort? e = none ∧ r = .error e ∧ b = before := by
  cases h with
  | @made _ uuid _ ofport _ hnew =>
    refine .inl ⟨uuid, ofport, rfl, ?_, hflows, hnew, ?_⟩
    · simp [Bridge.insertPort]
    · intro n hn
      simp [Bridge.insertPort, hn]
  | done hc => exact absurd rfl (hc _ _)
  | failed he => exact .inr ⟨_, he, rfl, rfl⟩

theorem UnderWay.getOfport (h : UnderWay before p flows b) {r : (Call.getOfport p.name).Reply}
    (hr : b.Answers (.getOfport p.name) r b') :
    (∃ n, r = .ok n ∧ UnderWay before { p with ofport := some n } flows b') ∨
      ∃ e, leftPort? e = none ∧ r = .error e ∧ b' = b := by
  cases hr with
  | @numbered _ q n hport hnone =>
    obtain rfl : p = q := Option.some.inj (h.port_eq.symm.trans hport)
    refine .inl ⟨n, rfl, ?_, ?_, h.fresh, fun m hm => ?_⟩
    · simp [Bridge.setOfport, Bridge.insertPort, hport]
    · simpa [Bridge.setOfport, Bridge.insertPort, hport] using h.flows_eq
    · simpa [Bridge.setOfport, Bridge.insertPort, hport, hm] using h.apart m hm
  | done =>
    cases hp : p.ofport with
    | none =>
      have hcall : b.call (.getOfport p.name) = (.error (.ofPortUnavailable p.name), b) := by
        simp [Bridge.call, Bridge.ofport?, h.port_eq, hp]
      rw [hcall]
      exact .inr ⟨_, rfl, rfl, rfl⟩
    | some n =>
      have hcall : b.call (.getOfport p.name) = (.ok n, b) := by
        simp [Bridge.call, Bridge.ofport?, h.port_eq, hp]
      have hsame : ({ p with ofport := some n } : Port) = p := by rw [← hp]
      rw [hcall]
      exact .inl ⟨n, rfl, hsame.symm ▸ h⟩
  | failed he => exact .inr ⟨_, he, rfl, rfl⟩

theorem UnderWay.putFlows (h : UnderWay before p flows b) (n : Nat) :
    UnderWay before p (some n) { b with flows := b.flows.insert p.name n } where
  port_eq := h.port_eq
  flows_eq := by simp
  fresh := h.fresh
  apart m hm := by simpa [hm] using h.apart m hm

theorem UnderWay.installFlows (h : UnderWay before p flows b) {ips : List Net.Ip} {mac : String}
    {n : Nat} {r : (Call.installFlows p.name ips mac n).Reply}
    (hr : b.Answers (.installFlows p.name ips mac n) r b') :
    (r = .ok () ∧ UnderWay before p (some n) b') ∨
      ∃ e flows', leftPort? e = none ∧ r = .error e ∧ UnderWay before p flows' b' := by
  cases hr with
  | done => exact .inl ⟨rfl, h.putFlows n⟩
  | failed he => exact .inr ⟨_, _, he, rfl, h⟩
  | added he => exact .inr ⟨_, _, he, rfl, h.putFlows n⟩

theorem UnderWay.uninstallFlows (h : UnderWay before p flows b)
    {r : (Call.uninstallFlows p.name).Reply} (hr : b.Answers (.uninstallFlows p.name) r b') :
    (r = .ok () ∧ UnderWay before p none b') ∨ ∃ e, r = .error e ∧ b' = b := by
  cases hr with
  | done =>
    refine .inl ⟨rfl, h.port_eq, ?_, h.fresh, fun m hm => ?_⟩
    · simp [Bridge.call]
    · simpa [Bridge.call, hm] using h.apart m hm
  | failed => exact .inr ⟨_, rfl, rfl⟩

/-- Nothing is there of an interface, and all else is as it was. -/
def Bridge.Cleared (before : Bridge) (name : String) (after : Bridge) : Prop :=
  after.ports.get? name = none ∧ after.flows.get? name = none ∧ before.Apart name after

theorem UnderWay.deletePort (h : UnderWay before p none b) {r : (Call.deletePort p.uuid).Reply}
    (hr : b.Answers (.deletePort p.uuid) r b') :
    (r = .ok () ∧ before.Cleared p.name b') ∨ ∃ e, r = .error e ∧ b' = b := by
  cases hr with
  | done =>
    refine .inl ⟨rfl, ?_, h.flows_eq, fun m hm => ?_⟩
    · simp [Bridge.call, h.port_eq]
    · -- a port of another name has another UUID, so it stays
      obtain ⟨hport, hflows⟩ := h.apart m hm
      refine ⟨?_, hflows⟩
      show (b.ports.filter fun _ q => q.uuid != p.uuid).get? m = before.ports.get? m
      rw [Table.get?_filter, hport]
      cases hq : before.ports.get? m with
      | none => rfl
      | some q => simp [h.fresh m q hm hq]
  | failed => exact .inr ⟨_, rfl, rfl⟩

end

/-! ## The whole -/

/-- What comes of connecting an interface of which nothing was there. -/
structure Contract (name : String) (externalIds : Table String) (before : Bridge)
    (result : Except Error Connected) (after : Bridge) : Prop where
  /-- A connection has its port, and the flows carry its number. -/
  connected : ∀ c, result = .ok c →
    after.ports.get? name = some ⟨c.uuid, name, some c.ofport, externalIds⟩ ∧
      after.flows.get? name = some c.ofport
  /-- A port that stayed is told of, with its number if one is told. -/
  left : ∀ n uuid ofport cause cleanup,
    result = .error (.portLeftAttached n uuid ofport cause cleanup) →
      n = name ∧ ∃ p, after.ports.get? name = some p ∧ p.uuid = uuid ∧
        ∀ number, ofport = some number → p.ofport = some number
  /-- After any other error nothing is there. -/
  failed : ∀ e, result = .error e → leftPort? e = none →
    after.ports.get? name = none ∧ after.flows.get? name = none
  /-- Other interfaces are left alone. -/
  apart : before.Apart name after

section

variable {before b : Bridge} {p : Port} {name : String} {externalIds : Table String} {e : Error}
  {log : List Exchange}

/-- An error after which nothing is there keeps the contract. -/
theorem contract_of_cleared {after : Bridge} (he : leftPort? e = none)
    (hcleared : before.Cleared name after) :
    Contract name externalIds before (.error e) after where
  connected := nofun
  left := by
    rintro n uuid ofport cause cleanup ⟨⟩
    cases he
  failed _ _ _ := ⟨hcleared.1, hcleared.2.1⟩
  apart := hcleared.2.2

/-- An error that tells of the port keeps the contract. -/
theorem UnderWay.contract_of_left {flows ofport : Option Nat} {cause cleanup : Error}
    (h : UnderWay before p flows b) (hofport : ∀ n, ofport = some n → p.ofport = some n) :
    Contract p.name externalIds before
      (.error (.portLeftAttached p.name p.uuid ofport cause cleanup)) b where
  connected := nofun
  left := by
    rintro n uuid ofport' cause' cleanup' ⟨⟩
    exact ⟨rfl, p, h.port_eq, rfl, hofport⟩
  failed := by
    rintro e' ⟨⟩ he'
    cases he'
  apart := h.apart

/-- What was done halfway is taken off again in order, or the error tells of it. -/
theorem UnderWay.detachAfter {flows ofport : Option Nat} (h : UnderWay before p flows b)
    (hofport : ∀ n, ofport = some n → p.ofport = some n) (hflows : ofport = none → flows = none)
    (he : leftPort? e = none) (hlog : ∀ x ∈ log, x.deletes = false ∧ x.keepsFlows = false)
    (hsettled : ∀ n, Unsettled n log → n = p.name ∧ ofport ≠ none) :
    (detachAfter p.name p.uuid ofport e).Ensures inOrder ⟨b, log⟩ fun e' s =>
      Contract p.name externalIds before (.error e') s.bridge := by
  -- removing the port, once there are no flows
  have hdelete : ∀ b log, UnderWay before p none b → (Call.deletePort p.uuid).InOrder log →
      (Session.deletePort p.uuid).Ensures inOrder ⟨b, log⟩ fun r s =>
        (r = .ok () ∧ before.Cleared p.name s.bridge) ∨
          ∃ e flows, r = .error e ∧ UnderWay before p flows s.bridge := by
    intro b log h hlog
    refine ensures_call.2 ⟨hlog, fun r b' hr => ?_⟩
    rcases h.deletePort hr with hgone | ⟨e, rfl, rfl⟩
    · exact .inl hgone
    · exact .inr ⟨e, none, rfl, h⟩
  have hdetach : (detach p.name p.uuid ofport).Ensures inOrder ⟨b, log⟩ fun r s =>
      (r = .ok () ∧ before.Cleared p.name s.bridge) ∨
        ∃ e flows, r = .error e ∧ UnderWay before p flows s.bridge := by
    cases ofport with
    | none =>
      obtain rfl := hflows rfl
      exact hdelete b log h ⟨hlog, fun n hn => (hsettled n hn).2 rfl⟩
    | some ofport =>
      refine Proc.ensures_bind.2 (ensures_call.2 ⟨trivial, fun r b' hr => ?_⟩)
      rcases h.uninstallFlows hr with ⟨rfl, h'⟩ | ⟨e', rfl, rfl⟩
      · refine hdelete _ _ h' ⟨?_, fun n hn => ?_⟩
        · exact List.forall_mem_cons.2 ⟨⟨rfl, rfl⟩, hlog⟩
        · obtain ⟨hother, hinstalls | hn⟩ := hn
          · cases hinstalls
          · obtain rfl := (hsettled n hn).1
            simp [Exchange.uninstalls] at hother
      · exact .inr ⟨e', flows, rfl, h⟩
  refine hdetach.bind fun r s hr => ?_
  rcases hr with ⟨rfl, hcleared⟩ | ⟨cleanup, flows', rfl, h'⟩
  · exact contract_of_cleared he hcleared
  · exact h'.contract_of_left hofport

/-- However the calls go, they are made in order, and what connecting an interface reports is what
is on the bridge. -/
theorem connect_contract (name : String) (externalIds : Table String) (ips : List Net.Ip)
    (mac : String) {before : Bridge} (hport : before.ports.get? name = none)
    (hflows : before.flows.get? name = none) :
    (connect name externalIds ips mac).Ensures inOrder ⟨before, []⟩ fun result s =>
      Contract name externalIds before result s.bridge := by
  refine Proc.ensures_bind.2 (ensures_call.2 ⟨trivial, fun r b hr => ?_⟩)
  rcases underWay_createPort hflows hr with ⟨uuid, ofport, rfl, h⟩ | ⟨e, he, rfl, rfl⟩
  · refine Proc.ensures_bind.2 (ensures_call.2 ⟨trivial, fun r b' hr => ?_⟩)
    rcases h.getOfport hr with ⟨n, rfl, h⟩ | ⟨e, he, rfl, rfl⟩
    · refine Proc.ensures_bind.2 (ensures_call.2 ⟨rfl, fun r b'' hr => ?_⟩)
      rcases h.installFlows hr with ⟨rfl, h⟩ | ⟨e, flows, he, rfl, h⟩
      · refine ⟨?_, nofun, nofun, h.apart⟩
        rintro c ⟨⟩
        exact ⟨h.port_eq, h.flows_eq⟩
      · refine Proc.ensures_bind.2 (h.detachAfter (fun m hm => hm) nofun he ?_ ?_)
        · simp [Exchange.deletes, Exchange.keepsFlows]
        · intro m hm
          obtain ⟨-, hinstalls | ⟨-, hother | ⟨-, hother | hother⟩⟩⟩ := hm
          · exact ⟨(eq_of_beq hinstalls).symm, nofun⟩
          · cases hother
          · cases hother
          · cases hother
    · refine Proc.ensures_bind.2 (h.detachAfter nofun (fun _ => rfl) he ?_ ?_)
      · simp [Exchange.deletes, Exchange.keepsFlows]
      · simp [Unsettled, Exchange.installs]
  · exact contract_of_cleared he ⟨hport, hflows, fun _ _ => ⟨rfl, rfl⟩⟩

end

namespace Sample

/-- A bridge takes one port.  Its flows are added, though that is reported to fail, and then cannot
be removed. -/
def stubborn : (c : Call) → Bridge → c.Reply × Bridge
  | .createPort name externalIds, b =>
    if b.ports = .empty then b.call (.createPort name externalIds)
    else (.error (.command "" ""), b)
  | .installFlows name ips mac ofport, b =>
    (.error (.installFlows name "timed out"), (b.call (.installFlows name ips mac ofport)).2)
  | .uninstallFlows name, b => (.error (.uninstallFlows name "timed out"), b)
  | c, b => b.call c

/-- The calls are written down. -/
def stubbornly (c : Call) (s : Progress) : c.Reply × Progress :=
  let (r, b) := stubborn c s.bridge
  (r, ⟨b, ⟨c, r⟩ :: s.log⟩)

theorem stubborn_answers (c : Call) (b : Bridge) :
    b.Answers c (stubborn c b).1 (stubborn c b).2 := by
  cases c with
  | createPort name externalIds =>
    rw [stubborn]
    split
    · next hempty =>
      refine Bridge.answers_call (fun _ n p _ hp => ?_) _
      rw [hempty] at hp
      cases hp
    · exact .failed rfl
  | deletePort uuid => exact .done nofun
  | getOfport name => exact .done nofun
  | installFlows name ips mac ofport => exact .added rfl
  | uninstallFlows name => exact .failed rfl

/-- What connecting an interface comes to on an empty bridge of this kind. -/
def stranded : Except Error Connected × Progress :=
  (connect "tap0" .empty [] "").run stubbornly ⟨{}, []⟩

end Sample

/-- The port whose flows could not be removed is told of with its number, and is there. -/
theorem stubborn_port_told :
    Sample.stranded.1 = .error (.portLeftAttached "tap0" "uuid-tap0" (some 10)
        (.installFlows "tap0" "timed out") (.uninstallFlows "tap0" "timed out")) ∧
      ∃ p, Sample.stranded.2.bridge.ports.get? "tap0" = some p ∧ p.uuid = "uuid-tap0" ∧
        p.ofport = some 10 := by
  have hleft : Sample.stranded.1 = .error (.portLeftAttached "tap0" "uuid-tap0" (some 10)
      (.installFlows "tap0" "timed out") (.uninstallFlows "tap0" "timed out")) := by rfl
  have hcontract : Contract "tap0" .empty {} Sample.stranded.1 Sample.stranded.2.bridge :=
    (connect_contract "tap0" .empty [] "" rfl rfl).run fun c s _ =>
      ⟨Sample.stubborn_answers c s.bridge, rfl⟩
  obtain ⟨-, p, hport, huuid, hofport⟩ := hcontract.left _ _ _ _ _ hleft
  exact ⟨hleft, p, hport, huuid, hofport 10 rfl⟩

end PodAttach.Switch
