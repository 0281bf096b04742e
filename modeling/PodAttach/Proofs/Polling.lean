import Mathlib.Algebra.Order.Floor.Div
import PodAttach.Proofs.Joining
import PodAttach.Proofs.Rules
import PodAttach.Switch.Vsctl

/-!
# Waiting for an OpenFlow number

A port has no OpenFlow number at first, so it is asked for until there is one,
or until the time is over.  How often that is depends on the clock, of which
nothing is known but that a sleep takes its time.

* `Decides`: the outcomes after which nothing more is asked, and what they give.
* `watching`: what may be asked, and how the outcomes and the time go on.
* `pollOfport_ensures`: the induction over the questions.  Before each of them no
  outcome decided, and as many sleeps are over as there are outcomes.
* `number_awaited`: how often it is asked, and what comes of it.
-/

namespace PodAttach.Switch.Vsctl

/-! ## Outcomes -/

/-- The run that asks for the OpenFlow number of a port. -/
def query (c : Client) (name : String) : Invocation :=
  invocation c ["get", "Interface", name, "ofport"]

/-- What an outcome of this run decides.  A failure is the error, and a text that spells a number
gives the number; other texts decide nothing. -/
inductive Decides (c : Client) (name : String) (outcome : ToolOutcome) :
    Except Error Nat → Prop where
  | failure {e : Error} (hfailed : (query c name).interpret outcome = .error e) :
    Decides c name outcome (.error e)
  | number {text : String} {n : Nat} (hprinted : (query c name).interpret outcome = .ok text)
      (hspells : SpellsOfport text n) : Decides c name outcome (.ok n)

/-- The outcome decides nothing. -/
def Undecided (c : Client) (name : String) (outcome : ToolOutcome) : Prop :=
  ∀ result, ¬ Decides c name outcome result

section

variable {c : Client} {name : String} {outcome : ToolOutcome}

theorem undecided_of_printed {text : String}
    (hprinted : (query c name).interpret outcome = .ok text)
    (hread : readOfport? text = none) : Undecided c name outcome := by
  intro result h
  cases h with
  | failure hfailed => cases hprinted.symm.trans hfailed
  | number hprinted' hspells =>
    cases hprinted.symm.trans hprinted'
    cases hread.symm.trans (readOfport?_eq_some_iff.2 hspells)

/-- No run says that there is no number. -/
theorem Decides.ne_unavailable {result : Except Error Nat} (h : Decides c name outcome result)
    (port : String) : result ≠ .error (.ofPortUnavailable port) := by
  cases h with
  | failure hfailed =>
    rintro ⟨⟩
    cases outcome with
    | failed reason => cases hfailed
    | timedOut => cases hfailed
    | ended success stdout stderr => cases success <;> cases hfailed
  | number => exact nofun

end

/-! ## Surroundings -/

/-- How the runs ended, and what time it is, in nanoseconds. -/
structure Watch where
  outcomes : List ToolOutcome
  time : Nat

/-- Runs may end in any way, and any time may pass, at a sleep no less than it has to take.
Nothing but the number is asked for, and nothing at all after an outcome that decides. -/
def watching (c : Client) (name : String) : Proc.Rules ToolAsk ToolAsk.Reply Watch where
  asks q s :=
    (∀ outcome ∈ s.outcomes, Undecided c name outcome) ∧ ∀ i, q = .run i → i = query c name
  answers
    | .run _, s, (outcome : ToolOutcome), s' =>
      s'.outcomes = s.outcomes ++ [outcome] ∧ s.time ≤ s'.time
    | .clock, s, now, s' => s'.outcomes = s.outcomes ∧ s.time ≤ s'.time ∧ now.nanos = s'.time
    | .sleep d, s, _, s' => s'.outcomes = s.outcomes ∧ s.time + d.nanos ≤ s'.time

/-- How the waiting ends that started at some time. -/
inductive Settled (c : Client) (name : String) (started : Nat) (left : Watch) :
    Except Error Nat → Prop where
  /-- The last outcome decides, and none before it does. -/
  | decided {earlier : List ToolOutcome} {last : ToolOutcome} {result : Except Error Nat}
      (houtcomes : left.outcomes = earlier ++ [last])
      (hearlier : ∀ outcome ∈ earlier, Undecided c name outcome)
      (hlast : Decides c name last result) : Settled c name started left result
  /-- No outcome decides, and the time is over. -/
  | waited (hundecided : ∀ outcome ∈ left.outcomes, Undecided c name outcome)
      (htime : started + c.ofportWait.nanos ≤ left.time) :
    Settled c name started left (.error (.ofPortUnavailable name))

/-- How often it is asked, and what comes of it. -/
structure Awaited (c : Client) (name : String) (started : Nat) (left : Watch)
    (result : Except Error Nat) : Prop where
  /-- It is asked at least once. -/
  least : 1 ≤ left.outcomes.length
  /-- It is asked no more often than there are sleeps in the time, and once before them. -/
  most : left.outcomes.length ≤ c.ofportWait.nanos ⌈/⌉ pollInterval.nanos + 1
  /-- The first outcome that decides is the answer. -/
  settled : Settled c name started left result
  /-- That there is no number is said only if no outcome decides and the time is over. -/
  unavailable : ∀ port, result = .error (.ofPortUnavailable port) →
    (∀ outcome ∈ left.outcomes, Undecided c name outcome) ∧
      started + c.ofportWait.nanos ≤ left.time

/-! ## The loop -/

theorem polls_eq (wait : Duration) : polls wait = wait.nanos ⌈/⌉ pollInterval.nanos :=
  (Nat.ceilDiv_eq_add_pred_div _ _).symm

/-- As long as the time is not over, there are sleeps left. -/
theorem lt_polls_iff {wait : Duration} {k : Nat} :
    k < polls wait ↔ k * pollInterval.nanos < wait.nanos := by
  have hpos : 0 < pollInterval.nanos := by decide
  rw [polls_eq, ← not_le, ← not_le, ceilDiv_le_iff_le_mul hpos, Nat.mul_comm]

section

variable {c : Client} {name : String}

theorem Settled.unavailable {started : Nat} {left : Watch} {result : Except Error Nat}
    (h : Settled c name started left result) {port : String}
    (hresult : result = .error (.ofPortUnavailable port)) :
    (∀ outcome ∈ left.outcomes, Undecided c name outcome) ∧
      started + c.ofportWait.nanos ≤ left.time := by
  cases h with
  | decided _ _ hlast => exact absurd hresult (hlast.ne_unavailable port)
  | waited hundecided htime => exact ⟨hundecided, htime⟩

/-- Who started earlier has waited no less. -/
theorem Settled.mono {started started' : Nat} {left : Watch} {result : Except Error Nat}
    (h : Settled c name started left result) (hle : started' ≤ started) :
    Settled c name started' left result := by
  cases h with
  | decided houtcomes hearlier hlast => exact .decided houtcomes hearlier hlast
  | waited hundecided htime => exact .waited hundecided (by omega)

/-- What one question finds out about its outcome. -/
def Tells (c : Client) (name : String) (outcome : ToolOutcome) : Except Error (Option Nat) → Prop
  | .error e => Decides c name outcome (.error e)
  | .ok (some n) => Decides c name outcome (.ok n)
  | .ok none => Undecided c name outcome

theorem queryOfport_ensures {s : Watch}
    (hundecided : ∀ outcome ∈ s.outcomes, Undecided c name outcome) :
    (queryOfport c name).Ensures (watching c name) s fun found left =>
      ∃ outcome, left.outcomes = s.outcomes ++ [outcome] ∧ s.time ≤ left.time ∧
        Tells c name outcome found := by
  have hquery : ∀ i, ToolAsk.run (query c name) = .run i → i = query c name :=
    fun i hi => (ToolAsk.run.inj hi).symm
  refine Toolwork.ensures_run.2 ⟨⟨hundecided, hquery⟩, fun outcome left ⟨houtcomes, htime⟩ => ?_⟩
  cases hprinted : (invocation c ["get", "Interface", name, "ofport"]).interpret outcome with
  | error e => exact ⟨outcome, houtcomes, htime, .failure hprinted⟩
  | ok text =>
    refine ⟨outcome, houtcomes, htime, ?_⟩
    cases hread : readOfport? text with
    | some n => exact .number hprinted (readOfport?_eq_some_iff.1 hread)
    | none => exact undecided_of_printed hprinted hread

/-- With each question one more sleep is over, so the questions do not run out before the time. -/
theorem pollOfport_ensures (started : Duration) (rounds : Nat) (s : Watch)
    (hundecided : ∀ outcome ∈ s.outcomes, Undecided c name outcome)
    (htime : started.nanos + s.outcomes.length * pollInterval.nanos ≤ s.time)
    (hfew : s.outcomes.length ≤ polls c.ofportWait)
    (hrounds : polls c.ofportWait < s.outcomes.length + rounds) :
    (pollOfport c name started rounds).Ensures (watching c name) s fun result left =>
      1 ≤ left.outcomes.length ∧ left.outcomes.length ≤ polls c.ofportWait + 1 ∧
        Settled c name started.nanos left result := by
  induction rounds generalizing s with
  | zero => exact absurd hrounds (Nat.not_lt.2 hfew)
  | succ rounds ih =>
    rw [pollOfport]
    refine (queryOfport_ensures hundecided).bind fun found s₁ hfound => ?_
    obtain ⟨outcome, houtcomes, hrun, htells⟩ := hfound
    have hlength : s₁.outcomes.length = s.outcomes.length + 1 := by
      rw [houtcomes, List.length_append, List.length_singleton]
    have hleast : 1 ≤ s₁.outcomes.length := by omega
    have hmost : s₁.outcomes.length ≤ polls c.ofportWait + 1 := by omega
    match found, htells with
    | .error e, hdecides => exact ⟨hleast, hmost, .decided houtcomes hundecided hdecides⟩
    | .ok (some n), hdecides => exact ⟨hleast, hmost, .decided houtcomes hundecided hdecides⟩
    | .ok none, hnone =>
      have hall : ∀ outcome ∈ s₁.outcomes, Undecided c name outcome := by
        rw [houtcomes, List.forall_mem_append, List.forall_mem_singleton]
        exact ⟨hundecided, hnone⟩
      refine Toolwork.ensures_clock.2 ⟨⟨hall, nofun⟩, fun now s₂ ⟨hsame, hclock, hnow⟩ => ?_⟩
      rw [← hsame] at hlength hleast hmost hall
      split
      · next hover => exact ⟨hleast, hmost, .waited hall (by omega)⟩
      · next hover =>
        -- the sleeps so far took less than the whole time
        have hslept : s.outcomes.length * pollInterval.nanos < c.ofportWait.nanos := by omega
        have hpolls := lt_polls_iff.2 hslept
        refine Toolwork.ensures_sleep.2 ⟨⟨hall, nofun⟩, fun s₃ ⟨hsame', hsleep⟩ => ?_⟩
        rw [← hsame'] at hlength hall
        refine ih s₃ hall ?_ (by omega) (by omega)
        rw [hlength, Nat.add_mul, Nat.one_mul]
        omega

/-- The waiting for a number, whatever the outcomes are and however the time goes on.  It is the
same if it is allowed to ask more often. -/
theorem number_awaited (c : Client) (name : String) (start : Nat) :
    (getOfport c name).Ensures (watching c name) ⟨[], start⟩
        (fun result left => Awaited c name start left result) ∧
      ∀ more, (getOfportWithin c name (polls c.ofportWait + 1 + more)).Ensures (watching c name)
        ⟨[], start⟩ fun result left => Awaited c name start left result := by
  have hwithin : ∀ more, (getOfportWithin c name (polls c.ofportWait + 1 + more)).Ensures
      (watching c name) ⟨[], start⟩ fun result left => Awaited c name start left result := by
    intro more
    refine Toolwork.ensures_clock.2 ⟨⟨List.forall_mem_nil _, nofun⟩, fun now s hs => ?_⟩
    obtain ⟨hsame, hclock, hnow⟩ := hs
    have hnone : s.outcomes.length = 0 := by rw [hsame, List.length_nil]
    refine (pollOfport_ensures now (polls c.ofportWait + 1 + more) s (by simp [hsame])
      (by rw [hnone]; omega) (by omega) (by omega)).mono fun result left hleft => ?_
    obtain ⟨hleast, hmost, hsettled⟩ := hleft
    have hstarted := hsettled.mono (hnow ▸ hclock)
    exact ⟨hleast, polls_eq c.ofportWait ▸ hmost, hstarted, fun port => hstarted.unavailable⟩
  exact ⟨hwithin 0, hwithin⟩

end

/-- A switch that gives the port its number after the first question. -/
def Sample.reply : (q : ToolAsk) → Watch → q.Reply × Watch
  | .run _, s =>
    let outcome : ToolOutcome :=
      .ended true (Utf8.encode (if s.outcomes.isEmpty then "[]\n" else "10\n")) []
    (outcome, ⟨s.outcomes ++ [outcome], s.time⟩)
  | .clock, s => (⟨s.time⟩, s)
  | .sleep d, s => ((), ⟨s.outcomes, s.time + d.nanos⟩)

/-- A client that waits for a second. -/
def Sample.client : Client := ⟨"br-int", .ofSecs 5, .ofSecs 1⟩

/-- The number is known with the second question. -/
theorem number_at_second : ∃ left,
    Proc.run Sample.reply (getOfport Sample.client "tap0123456789a") ⟨[], 0⟩ = (.ok 10, left) ∧
      left.outcomes.length = 2 ∧
        Awaited Sample.client "tap0123456789a" 0 left (.ok 10) := by
  have hreply : ∀ q s, (watching Sample.client "tap0123456789a").asks q s →
      (watching Sample.client "tap0123456789a").answers q s (Sample.reply q s).1
        (Sample.reply q s).2 := by
    rintro (i | _ | d) s -
    · exact ⟨rfl, Nat.le_refl _⟩
    · exact ⟨rfl, Nat.le_refl _, rfl⟩
    · exact ⟨rfl, Nat.le_refl _⟩
  have hawaited := (number_awaited Sample.client "tap0123456789a" 0).1.run hreply
  have hresult :
      (Proc.run Sample.reply (getOfport Sample.client "tap0123456789a") ⟨[], 0⟩).1 = .ok 10 := by
    decide +kernel
  rw [hresult] at hawaited
  refine ⟨_, Prod.ext hresult rfl, ?_, hawaited⟩
  decide +kernel

end PodAttach.Switch.Vsctl
