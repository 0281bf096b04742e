import Mathlib.Data.List.Nodup
import PodAttach.Proofs.FlowLines
import PodAttach.Switch.Flow

/-!
# No interface speaks for another

The flows of an interface are three kinds of rules: one for each `Payload` that
it may send (`Interface.admission`), one that drops what else comes from its
port (`Interface.refusal`), and one that delivers what goes to its hardware
address (`Interface.delivery`).

* `Interface.permits_iff`: a packet that an interface may send is of a kind that
  is admitted.
* `Interface.readRules?_text`: the text that the flows are installed by is read
  as these rules.
* `judges_of_matches`: what the rules that are for a packet can be, among those
  of all interfaces.  The priorities are in the order of the cases, so that a
  refusal hides all deliveries (`Handles.verdict`).
* `interfaces_isolated`: the rules that are read for interfaces with different
  OpenFlow numbers isolate them (`Isolates`).
-/

namespace PodAttach.Switch

open Net

/-! ## Interfaces -/

/-- An interface that flows are installed for. -/
structure Interface where
  name : String
  /-- The OpenFlow number of its port. -/
  ofport : Nat
  ips : List Ip
  /-- The text of its hardware address; the letters may be of either case. -/
  mac : String
  hardware : Hardware
  spelled : Text.lower mac = Mac.render hardware.bytes

/-- What a payload has to be, as the switch reads it. -/
def Payload.conditions : Payload → List Condition
  | .arp sender => [.arp, .arpSender sender]
  | .ipv4 source => [.ipv4, .ipv4Source source]
  | .ipv6 source => [.ipv6, .ipv6Source source]
  | .icmpv6 type => [.control, .controlType type]

namespace Interface

/-- The lines that install the flows of an interface. -/
def text (i : Interface) : String :=
  renderFlows (flows (cookie i.name) i.ips (Text.lower i.mac) i.ofport)

/-- What an interface may send: ARP, IPv4 and IPv6 with its hardware address and from one of its
addresses, and, if it has an IPv6 address, the messages that neighbours are found with. -/
def Permits (i : Interface) (p : Packet) : Prop :=
  p.source = i.hardware ∧
    match p.content with
    | .arp sender => sender ∈ i.ips ∧ sender.family = .v4
    | .ipv4 source => source ∈ i.ips ∧ source.family = .v4
    | .ipv6 source control => source ∈ i.ips ∧ source.family = .v6 ∨
        (∃ a ∈ i.ips, a.family = .v6) ∧
          (control = some 133 ∨ control = some 135 ∨ control = some 136)
    | .other => False

/-- The rule that admits one kind of packets. -/
def admission (i : Interface) (q : Payload) : Rule where
  cookie := (cookie i.name).toNat
  priority := admitPriority
  conditions := .inPort i.ofport :: .source i.hardware :: q.conditions
  action := .normal

/-- The rule that drops what else comes from the port. -/
def refusal (i : Interface) : Rule where
  cookie := (cookie i.name).toNat
  priority := dropPriority
  conditions := [.inPort i.ofport]
  action := .drop

/-- The rule that delivers packets to the port. -/
def delivery (i : Interface) : Rule where
  cookie := (cookie i.name).toNat
  priority := deliverPriority
  conditions := [.destination i.hardware]
  action := .output i.ofport

/-- The rules of an interface. -/
def rules (i : Interface) : List Rule :=
  (payloads i.ips).map i.admission ++ [i.refusal, i.delivery]

end Interface

/-! ## What is admitted -/

/-- What may be sent from some addresses. -/
def Payload.From (ips : List Ip) : Payload → Prop
  | .arp a | .ipv4 a => a ∈ ips ∧ a.family = .v4
  | .ipv6 a => a ∈ ips ∧ a.family = .v6
  | .icmpv6 type => (∃ a ∈ ips, a.family = .v6) ∧ type ∈ neighbourTypes

theorem mem_payloadsOf {a : Ip} {q : Payload} :
    q ∈ payloadsOf a ↔
      a.family = .v4 ∧ (q = .arp a ∨ q = .ipv4 a) ∨ a.family = .v6 ∧ q = .ipv6 a := by
  unfold payloadsOf
  cases a.family <;> simp

theorem all_isV4 {ips : List Ip} : ips.all Ip.isV4 = true ↔ ¬ ∃ a ∈ ips, a.family = .v6 := by
  have hfamily : ∀ a : Ip, a.isV4 = true ↔ ¬ a.family = .v6 := by
    intro a
    unfold Ip.isV4
    cases a.family <;> decide
  simp [hfamily]

theorem mem_payloads {ips : List Ip} {q : Payload} : q ∈ payloads ips ↔ q.From ips := by
  have hcontrol : q ∈ (if ips.all Ip.isV4 then [] else neighbourTypes.map Payload.icmpv6) ↔
      (∃ a ∈ ips, a.family = .v6) ∧ ∃ t ∈ neighbourTypes, Payload.icmpv6 t = q := by
    split
    · next hall => simp [all_isV4.1 hall]
    · next hall => simp [not_not.1 fun hnone => hall (all_isV4.2 hnone)]
  rw [payloads, List.mem_append, List.mem_flatMap, hcontrol]
  simp only [mem_payloadsOf]
  cases q <;> simp [Payload.From]

/-- What a packet carries if it is of a payload. -/
def Payload.Covers (content : Content) : Payload → Prop
  | .arp a => content = .arp a
  | .ipv4 a => content = .ipv4 a
  | .ipv6 a => ∃ control, content = .ipv6 a control
  | .icmpv6 type => ∃ a, content = .ipv6 a (some type)

theorem Payload.holds_conditions {q : Payload} {p : Packet} :
    (∀ c ∈ q.conditions, c.Holds p) ↔ q.Covers p.content := by
  -- the first condition of each follows from the second one
  cases q <;> simp only [conditions, Covers, List.forall_mem_cons, Condition.Holds] <;> grind

/-- A packet that an interface may send is of one of the kinds that are admitted. -/
theorem Interface.permits_iff {i : Interface} {p : Packet} :
    i.Permits p ↔ p.source = i.hardware ∧ ∃ q ∈ payloads i.ips, ∀ c ∈ q.conditions, c.Holds p := by
  simp only [mem_payloads, Payload.holds_conditions, Permits]
  generalize p.content = content
  refine and_congr_right fun _ => ⟨fun h => ?_, ?_⟩
  · cases content with
    | arp sender => exact ⟨.arp sender, h, rfl⟩
    | ipv4 source => exact ⟨.ipv4 source, h, rfl⟩
    | ipv6 source control =>
      cases h with
      | inl hsource => exact ⟨.ipv6 source, hsource, control, rfl⟩
      | inr hneighbour =>
        obtain ⟨hv6, rfl | rfl | rfl⟩ := hneighbour
        · exact ⟨.icmpv6 133, ⟨hv6, by decide⟩, source, rfl⟩
        · exact ⟨.icmpv6 135, ⟨hv6, by decide⟩, source, rfl⟩
        · exact ⟨.icmpv6 136, ⟨hv6, by decide⟩, source, rfl⟩
    | other => exact h.elim
  · intro ⟨q, hfrom, hcovers⟩
    cases q with
    | arp a =>
      subst hcovers
      exact hfrom
    | ipv4 a =>
      subst hcovers
      exact hfrom
    | ipv6 a =>
      obtain ⟨control, rfl⟩ := hcovers
      exact .inl hfrom
    | icmpv6 t =>
      obtain ⟨a, rfl⟩ := hcovers
      obtain ⟨hv6, htype⟩ := hfrom
      exact .inr ⟨hv6, by simpa [neighbourTypes] using htype⟩

/-! ## Reading the flows of an interface -/

/-- The fields of a payload are its conditions. -/
theorem Payload.From.reads {ips : List Ip} {q : Payload} (hq : q.From ips) :
    Reads q.render (q.conditions.map Field.condition) := by
  cases q with
  | arp a =>
    have hword : Unmarked "arp" := by decide
    have hsender := (written_address hq.2).reads "arp_spa" (fun a => .condition (.arpSender a))
      (by decide) fun _ => rfl
    refine (hword.reads rfl).comma hsender ?_
    show ("arp,arp_spa=" ++ a.render).toList = _
    simp
  | ipv4 a =>
    have hword : Unmarked "ip" := by decide
    have hsource := (written_address hq.2).reads "nw_src" (fun a => .condition (.ipv4Source a))
      (by decide) fun _ => rfl
    refine (hword.reads rfl).comma hsource ?_
    show ("ip,nw_src=" ++ a.render).toList = _
    simp
  | ipv6 a =>
    have hword : Unmarked "ipv6" := by decide
    have hsource := (written_address hq.2).reads "ipv6_src" (fun a => .condition (.ipv6Source a))
      (by decide) fun _ => rfl
    refine (hword.reads rfl).comma hsource ?_
    show ("ipv6,ipv6_src=" ++ a.render).toList = _
    simp
  | icmpv6 t =>
    have hword : Unmarked "icmp6" := by decide
    have htype := (written_decimal t).reads "icmp_type" (fun n => .condition (.controlType n))
      (by decide) fun _ => rfl
    refine (hword.reads rfl).comma htype ?_
    show ("icmp6,icmp_type=" ++ Text.decimal t).toList = _
    simp

theorem reads_inPort (n : Nat) : Reads ("in_port=" ++ Text.decimal n) [.condition (.inPort n)] :=
  (written_decimal n).reads "in_port" (fun n => .condition (.inPort n)) (by decide) fun _ => rfl

namespace Interface

variable (i : Interface)

theorem denotes_admission {q : Payload} (hq : q ∈ payloads i.ips) :
    Denotes (entrance (cookie i.name) (Text.lower i.mac) i.ofport q).render (i.admission q) := by
  have hsource := (written_hardware i.hardware).reads "dl_src" (fun mac => .condition (.source mac))
    (by decide) fun _ => rfl
  have hparts : List.Forall₂ (fun part cs => Reads part (cs.map Field.condition))
      (entrance (cookie i.name) (Text.lower i.mac) i.ofport q).matching.parts
      [[.inPort i.ofport], [.source i.hardware], q.conditions] :=
    .cons (reads_inPort i.ofport)
      (.cons (i.spelled ▸ hsource) (.cons (mem_payloads.1 hq).reads .nil))
  simpa [entrance, admission] using Flow.denotes hparts

theorem denotes_refusal :
    Denotes (Flow.render ⟨cookie i.name, dropPriority, { inPort := some i.ofport }, .drop⟩)
      i.refusal := by
  have hparts : List.Forall₂ (fun part cs => Reads part (cs.map Field.condition))
      (Match.parts { inPort := some i.ofport }) [[.inPort i.ofport]] :=
    .cons (reads_inPort i.ofport) .nil
  exact Flow.denotes (f := ⟨cookie i.name, dropPriority, { inPort := some i.ofport }, .drop⟩) hparts

theorem denotes_delivery :
    Denotes (Flow.render ⟨cookie i.name, deliverPriority,
      { destinationMac := some (Text.lower i.mac) }, .output i.ofport⟩) i.delivery := by
  have hdestination := (written_hardware i.hardware).reads "dl_dst"
    (fun mac => .condition (.destination mac)) (by decide) fun _ => rfl
  have hparts : List.Forall₂ (fun part cs => Reads part (cs.map Field.condition))
      (Match.parts { destinationMac := some (Text.lower i.mac) }) [[.destination i.hardware]] :=
    .cons (i.spelled ▸ hdestination) .nil
  exact Flow.denotes (f := ⟨cookie i.name, deliverPriority,
    { destinationMac := some (Text.lower i.mac) }, .output i.ofport⟩) hparts

/-- The flows of an interface are read as its rules. -/
theorem readRules?_text : readRules? i.text = some i.rules := by
  have hadmissions : List.Forall₂ Denotes
      (((payloads i.ips).map (entrance (cookie i.name) (Text.lower i.mac) i.ofport)).map
        Flow.render) ((payloads i.ips).map i.admission) := by
    rw [List.map_map, List.forall₂_map_left_iff, List.forall₂_map_right_iff, List.forall₂_same]
    exact fun q hq => i.denotes_admission hq
  have hall := List.rel_append hadmissions (.cons i.denotes_refusal (.cons i.denotes_delivery .nil))
  refine readRules?_lines (by simp [flows]) ?_
  rw [flows, List.map_append]
  exact hall

end Interface

/-! ## The rules of all interfaces -/

/-- The rules of all interfaces. -/
def allRules (is : List Interface) : List Rule :=
  is.flatMap Interface.rules

/-- What a rule that is for a packet can be. -/
inductive Judges (is : List Interface) (p : Packet) : Rule → Prop where
  | admission {i : Interface} {q : Payload} (hi : i ∈ is) (hport : p.inPort = i.ofport)
    (hpermits : i.Permits p) : Judges is p (i.admission q)
  | refusal {i : Interface} (hi : i ∈ is) (hport : p.inPort = i.ofport) : Judges is p i.refusal
  | delivery {i : Interface} (hi : i ∈ is) (hdestination : p.destination = i.hardware) :
    Judges is p i.delivery

section

variable {is : List Interface} {i : Interface} {p : Packet} {r : Rule}

theorem judges_of_matches (hr : r ∈ allRules is) (hmatches : r.Matches p) : Judges is p r := by
  obtain ⟨i, hi, hrule⟩ := List.mem_flatMap.1 hr
  simp only [Interface.rules, List.mem_append, List.mem_map, List.mem_cons, List.not_mem_nil,
    or_false] at hrule
  obtain ⟨q, hq, rfl⟩ | rfl | rfl := hrule
  · have hconditions := hmatches.2
    simp only [Interface.admission, List.forall_mem_cons, Condition.Holds] at hconditions
    obtain ⟨hport, hsource, hpayload⟩ := hconditions
    exact .admission hi hport (Interface.permits_iff.2 ⟨hsource, q, hq, hpayload⟩)
  · exact .refusal hi (hmatches.2 _ (List.mem_singleton_self _))
  · exact .delivery hi (hmatches.2 _ (List.mem_singleton_self _))

/-- What an interface may send is admitted by a rule. -/
theorem exists_admission (hi : i ∈ is) (hport : p.inPort = i.ofport) (hpermits : i.Permits p) :
    ∃ q, i.admission q ∈ allRules is ∧ (i.admission q).Matches p := by
  obtain ⟨hsource, q, hq, hpayload⟩ := Interface.permits_iff.1 hpermits
  refine ⟨q, List.mem_flatMap.2 ⟨i, hi, by simpa [Interface.rules] using .inl ⟨q, hq, rfl⟩⟩, rfl, ?_⟩
  simp only [Interface.admission, List.forall_mem_cons, Condition.Holds]
  exact ⟨hport, hsource, hpayload⟩

theorem refusal_matches (hi : i ∈ is) (hport : p.inPort = i.ofport) :
    i.refusal ∈ allRules is ∧ i.refusal.Matches p := by
  refine ⟨List.mem_flatMap.2 ⟨i, hi, by simp [Interface.rules]⟩, rfl, fun c hc => ?_⟩
  rw [List.mem_singleton.1 hc]
  exact hport

theorem delivery_matches (hi : i ∈ is) (hdestination : p.destination = i.hardware) :
    i.delivery ∈ allRules is ∧ i.delivery.Matches p := by
  refine ⟨List.mem_flatMap.2 ⟨i, hi, by simp [Interface.rules]⟩, rfl, fun c hc => ?_⟩
  rw [List.mem_singleton.1 hc]
  exact hdestination

/-- An interface is known by its OpenFlow number. -/
theorem eq_of_ofport (hports : (is.map Interface.ofport).Nodup) {j : Interface} (hi : i ∈ is)
    (hj : j ∈ is) (hport : p.inPort = i.ofport) (hport' : p.inPort = j.ofport) : j = i :=
  List.inj_on_of_nodup_map hports hj hi (hport' ▸ hport)

end

/-- How rules deal with the packets of interfaces. -/
structure Isolates (is : List Interface) (rules : List Rule) : Prop where
  /-- Every packet from the port of an interface is handled by a rule. -/
  handled : ∀ i ∈ is, ∀ p, p.inPort = i.ofport → ∃ r, Handles rules p r
  /-- It is forwarded if and only if the interface may send it. -/
  forwarded : ∀ i ∈ is, ∀ p r, p.inPort = i.ofport → Handles rules p r →
    (r.action = .normal ↔ i.Permits p)
  /-- Otherwise it is dropped. -/
  dropped : ∀ i ∈ is, ∀ p r, p.inPort = i.ofport → Handles rules p r →
    (r.action = .drop ↔ ¬ i.Permits p)
  /-- No rule delivers it to a port. -/
  undelivered : ∀ i ∈ is, ∀ p r, p.inPort = i.ofport → Handles rules p r →
    ∀ n, r.action ≠ .output n
  /-- A packet from another port is delivered to interfaces that have its destination alone. -/
  delivered : ∀ p r, (∀ i ∈ is, p.inPort ≠ i.ofport) → Handles rules p r →
    ∃ i ∈ is, i.hardware = p.destination ∧ r.action = .output i.ofport
  /-- It may reach each of them. -/
  reached : ∀ p, (∀ i ∈ is, p.inPort ≠ i.ofport) → ∀ i ∈ is, i.hardware = p.destination →
    ∃ r, Handles rules p r ∧ r.action = .output i.ofport

section

variable {is : List Interface} {i : Interface} {p : Packet} {r : Rule}

theorem drop_lt_admit : dropPriority < admitPriority := by decide

theorem deliver_lt_drop : deliverPriority < dropPriority := by decide

theorem deliver_lt_admit : deliverPriority < admitPriority :=
  Nat.lt_trans deliver_lt_drop drop_lt_admit

theorem Handles.judges (h : Handles (allRules is) p r) : Judges is p r :=
  judges_of_matches h.1 h.2.1

/-- What becomes of a packet from the port of an interface. -/
theorem Handles.verdict (hports : (is.map Interface.ofport).Nodup) (hi : i ∈ is)
    (hport : p.inPort = i.ofport) (h : Handles (allRules is) p r) :
    i.Permits p ∧ r.action = .normal ∨ ¬ i.Permits p ∧ r.action = .drop := by
  by_cases hpermits : i.Permits p
  · -- the rule that admits the packet is above refusals and deliveries
    obtain ⟨q, hmem, hmatches⟩ := exists_admission hi hport hpermits
    have hpriority : admitPriority ≤ r.priority := h.2.2 _ hmem hmatches
    cases h.judges with
    | admission => exact .inl ⟨hpermits, rfl⟩
    | refusal => exact absurd hpriority (Nat.not_le_of_lt drop_lt_admit)
    | delivery => exact absurd hpriority (Nat.not_le_of_lt deliver_lt_admit)
  · -- the refusal is above deliveries, and no other interface admits what comes from the port
    obtain ⟨hmem, hmatches⟩ := refusal_matches hi hport
    have hpriority : dropPriority ≤ r.priority := h.2.2 _ hmem hmatches
    cases h.judges with
    | admission hj hport' hpermits' =>
      rw [eq_of_ofport hports hi hj hport hport'] at hpermits'
      exact absurd hpermits' hpermits
    | refusal => exact .inr ⟨hpermits, rfl⟩
    | delivery => exact absurd hpriority (Nat.not_le_of_lt deliver_lt_drop)

theorem exists_handles (hports : (is.map Interface.ofport).Nodup) (hi : i ∈ is)
    (hport : p.inPort = i.ofport) : ∃ r, Handles (allRules is) p r := by
  by_cases hpermits : i.Permits p
  · obtain ⟨q, hmem, hmatches⟩ := exists_admission hi hport hpermits
    refine ⟨i.admission q, hmem, hmatches, fun s hs hmatches' => ?_⟩
    show s.priority ≤ admitPriority
    cases judges_of_matches hs hmatches' with
    | admission => exact Nat.le_refl _
    | refusal => exact Nat.le_of_lt drop_lt_admit
    | delivery => exact Nat.le_of_lt deliver_lt_admit
  · obtain ⟨hmem, hmatches⟩ := refusal_matches hi hport
    refine ⟨i.refusal, hmem, hmatches, fun s hs hmatches' => ?_⟩
    show s.priority ≤ dropPriority
    cases judges_of_matches hs hmatches' with
    | admission hj hport' hpermits' =>
      rw [eq_of_ofport hports hi hj hport hport'] at hpermits'
      exact absurd hpermits' hpermits
    | refusal => exact Nat.le_refl _
    | delivery => exact Nat.le_of_lt deliver_lt_drop

/-- Only deliveries are for a packet from another port. -/
theorem Judges.delivery_of_other (hother : ∀ i ∈ is, p.inPort ≠ i.ofport) (h : Judges is p r) :
    ∃ i ∈ is, i.hardware = p.destination ∧ r = i.delivery := by
  cases h with
  | admission hi hport => exact absurd hport (hother _ hi)
  | refusal hi hport => exact absurd hport (hother _ hi)
  | delivery hi hdestination => exact ⟨_, hi, hdestination.symm, rfl⟩

theorem handles_delivery (hother : ∀ i ∈ is, p.inPort ≠ i.ofport) (hi : i ∈ is)
    (hdestination : i.hardware = p.destination) : Handles (allRules is) p i.delivery := by
  obtain ⟨hmem, hmatches⟩ := delivery_matches hi hdestination.symm
  refine ⟨hmem, hmatches, fun s hs hmatches' => ?_⟩
  obtain ⟨j, -, -, rfl⟩ := (judges_of_matches hs hmatches').delivery_of_other hother
  exact Nat.le_refl _

end

theorem isolates_allRules {is : List Interface} (hports : (is.map Interface.ofport).Nodup) :
    Isolates is (allRules is) where
  handled i hi p hport := exists_handles hports hi hport
  forwarded i hi p r hport h := by
    cases h.verdict hports hi hport with
    | inl hadmitted => simp [hadmitted.1, hadmitted.2]
    | inr hrefused => simp [hrefused.1, hrefused.2]
  dropped i hi p r hport h := by
    cases h.verdict hports hi hport with
    | inl hadmitted => simp [hadmitted.1, hadmitted.2]
    | inr hrefused => simp [hrefused.1, hrefused.2]
  undelivered i hi p r hport h n := by
    cases h.verdict hports hi hport with
    | inl hadmitted => simp [hadmitted.2]
    | inr hrefused => simp [hrefused.2]
  delivered p r hother h := by
    obtain ⟨i, hi, hdestination, rfl⟩ := h.judges.delivery_of_other hother
    exact ⟨i, hi, hdestination, rfl⟩
  reached p hother i hi hdestination :=
    ⟨i.delivery, handles_delivery hother hi hdestination, rfl⟩

/-- The texts that install the flows of interfaces with different OpenFlow numbers are read, and
all rules together isolate the interfaces. -/
theorem interfaces_isolated {is : List Interface} (hports : (is.map Interface.ofport).Nodup) :
    ∃ tables, is.mapM (fun i => readRules? i.text) = some tables ∧ Isolates is tables.flatten := by
  have hread : is.mapM (fun i => readRules? i.text) = some (is.map Interface.rules) :=
    mapM_eq_some_iff.2 (List.forall₂_map_right_iff.2 (List.forall₂_same.2 fun i _ =>
      i.readRules?_text))
  refine ⟨is.map Interface.rules, hread, ?_⟩
  rw [← List.flatMap_def]
  exact isolates_allRules hports

/-- An interface with an address of each version; its hardware address is written in capitals. -/
def Sample.mixed : Interface where
  name := "tap0123456789a"
  ofport := 1
  ips := [.ofBits .v4 0x0A000005, .ofBits .v6 0xFD000000000000000000000000000005]
  mac := "0A:58:0A:00:00:05"
  hardware := ⟨[0x0A, 0x58, 0x0A, 0x00, 0x00, 0x05], rfl⟩
  spelled := by decide

/-- An interface with an IPv4 address. -/
def Sample.single : Interface where
  name := "tapba9876543210"
  ofport := 2
  ips := [.ofBits .v4 0x0A000006]
  mac := "0a:58:0a:00:00:06"
  hardware := ⟨[0x0A, 0x58, 0x0A, 0x00, 0x00, 0x06], rfl⟩
  spelled := by decide

/-- A packet to one interface from the port of the other one, which gives the address of the first
as its source. -/
def Sample.forged : Packet where
  inPort := 1
  source := Sample.mixed.hardware
  destination := Sample.single.hardware
  content := .ipv4 (.ofBits .v4 0x0A000006)

/-- The packet is dropped. -/
theorem forged_dropped :
    ∃ tables, [Sample.mixed, Sample.single].mapM (fun i => readRules? i.text) = some tables ∧
      (∃ r, Handles tables.flatten Sample.forged r) ∧
      ∀ r, Handles tables.flatten Sample.forged r → r.action = .drop := by
  have hports : ([Sample.mixed, Sample.single].map Interface.ofport).Nodup := by decide
  obtain ⟨tables, hread, hisolates⟩ := interfaces_isolated hports
  have hi : Sample.mixed ∈ [Sample.mixed, Sample.single] := by simp
  have hforbidden : ¬ Sample.mixed.Permits Sample.forged := by
    intro ⟨_, haddress, _⟩
    exact absurd haddress (by decide)
  refine ⟨tables, hread, hisolates.handled _ hi _ rfl, fun r hr => ?_⟩
  exact (hisolates.dropped _ hi _ r rfl hr).2 hforbidden

end PodAttach.Switch
