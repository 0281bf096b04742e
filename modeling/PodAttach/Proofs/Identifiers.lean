import PodAttach.Attachment.Store
import PodAttach.Proofs.Addresses
import PodAttach.Proofs.Store
import PodAttach.Proofs.Tables

/-!
# Attachments on ports

The switch keeps what the agent knows of an attachment, as identifiers of its
port.

* `ofPort?_externalIds`: from a port with the identifiers of an attachment the
  attachment can be read again.
* `ofPort?_eq_some_iff`: it is read so from its own port, and from no other one.
* `get?_ofPorts` and `list_ofPorts`: the store that is made of ports holds one attachment for
  each port of a container, if names and containers are distinct.
-/

namespace PodAttach

namespace Attachment

theorem addressesOf_addressesText (ips : List Net.Ip) : addressesOf (addressesText ips) = ips := by
  unfold addressesOf addressesText
  rw [String.toList_ofList]
  cases ips with
  | nil => decide
  | cons ip ips =>
    have hpieces : Text.pieces ',' (Text.join ',' ((ip :: ips).map Net.Ip.chars)) =
        (ip :: ips).map Net.Ip.chars := by
      refine Text.pieces_join (by simp) fun p hp => ?_
      obtain ⟨a, -, rfl⟩ := List.mem_map.1 hp
      exact a.comma_not_mem_chars
    have hread : (fun a : Net.Ip => Net.Ip.ofChars? a.chars) = some :=
      funext Net.Ip.ofChars?_chars
    rw [hpieces, List.filterMap_map]
    show (ip :: ips).filterMap (fun a => Net.Ip.ofChars? a.chars) = _
    rw [hread, List.filterMap_some]

/-- The identifiers say all that there is of an attachment. -/
theorem get?_externalIds (a : Attachment) :
    a.externalIds.get? Switch.idContainer = some a.containerId ∧
      a.externalIds.get? Switch.idMac = some a.mac ∧
      a.externalIds.get? Switch.idAddresses = some (addressesText a.ips) ∧
      a.externalIds.get? Switch.idPodName = some a.podName ∧
      a.externalIds.get? Switch.idPodNamespace = some a.podNamespace ∧
      a.externalIds.get? Switch.idVif = some a.vifId := by
  simp [externalIds, Table.ofList, Switch.idContainer, Switch.idMac, Switch.idAddresses,
    Switch.idPodName, Switch.idPodNamespace, Switch.idVif]

/-- From a port with the identifiers of an attachment the attachment is read, with that port. -/
theorem ofPort?_externalIds (a : Attachment) (uuid : String) (ofport : Option Nat) :
    ofPort? ⟨uuid, a.interfaceName, ofport, a.externalIds⟩ =
      some { a with port := some ⟨uuid, ofport⟩ } := by
  obtain ⟨hcontainer, hmac, haddresses, hname, hnamespace, hvif⟩ := a.get?_externalIds
  simp only [ofPort?, hcontainer, hmac, haddresses, hname, hnamespace, hvif, Option.getD_some,
    addressesOf_addressesText]

end Attachment

namespace Store

/-! ## The store of some ports -/

theorem coherent_foldl_add {as : List Attachment} {s : Store} (hs : s.Coherent) :
    (as.foldl add s).Coherent := by
  induction as generalizing s with
  | nil => exact hs
  | cons a as ih => exact ih (hs.add a)

theorem coherent_ofPorts (ports : List Switch.Port) : (ofPorts ports).Coherent :=
  coherent_foldl_add coherent_empty

/-- Attachments of distinct interfaces and containers do not give way to each other. -/
theorem get?_foldl_add {as : List Attachment} {s : Store} (hs : s.Coherent)
    (hnames : (as.map Attachment.interfaceName).Nodup)
    (hcontainers : (as.map Attachment.containerId).Nodup)
    (hnew : ∀ a ∈ as, ∀ n b, s.get? n = some b →
      n ≠ a.interfaceName ∧ b.containerId ≠ a.containerId) {n : String} {a : Attachment} :
    (as.foldl add s).get? n = some a ↔ (a ∈ as ∧ a.interfaceName = n) ∨ s.get? n = some a := by
  induction as generalizing s with
  | nil => simp
  | cons b as ih =>
    obtain ⟨hname, hnames'⟩ := List.nodup_cons.1 hnames
    obtain ⟨hcontainer, hcontainers'⟩ := List.nodup_cons.1 hcontainers
    have hadd : ∀ m, (s.add b).get? m = if m = b.interfaceName then some b else s.get? m := by
      intro m
      rw [hs.get?_add_filter]
      split
      · rfl
      · cases hm : s.get? m with
        | none => rfl
        | some c =>
          have hne := (hnew b (by simp) m c hm).2
          rw [Option.filter_some, if_pos (by simpa using hne)]
    have hnew' : ∀ c ∈ as, ∀ m d, (s.add b).get? m = some d →
        m ≠ c.interfaceName ∧ d.containerId ≠ c.containerId := by
      intro c hc m d hd
      rw [hadd] at hd
      split at hd
      · next hm =>
        obtain rfl := Option.some.inj hd
        refine ⟨fun heq => hname ?_, fun heq => hcontainer ?_⟩
        · rw [← hm, heq]
          exact List.mem_map_of_mem hc
        · rw [heq]
          exact List.mem_map_of_mem hc
      · exact hnew c (by simp [hc]) m d hd
    rw [List.foldl_cons, ih (hs.add b) hnames' hcontainers' hnew', hadd, List.mem_cons]
    by_cases hn : n = b.interfaceName
    · have hfree : s.get? n ≠ some a := fun ha => (hnew b (by simp) n a ha).1 hn
      rw [if_pos hn, Option.some.injEq]
      grind
    · rw [if_neg hn]
      grind

/-- The store of ports of distinct interfaces and containers holds what the ports speak of. -/
theorem get?_ofPorts {ports : List Switch.Port}
    (hnames : ((ports.filterMap Attachment.ofPort?).map Attachment.interfaceName).Nodup)
    (hcontainers : ((ports.filterMap Attachment.ofPort?).map Attachment.containerId).Nodup)
    {n : String} {a : Attachment} :
    (ofPorts ports).get? n = some a ↔
      a ∈ ports.filterMap Attachment.ofPort? ∧ a.interfaceName = n := by
  rw [ofPorts, get?_foldl_add coherent_empty hnames hcontainers fun a _ n b hb => by cases hb]
  exact or_iff_left nofun

end Store

namespace Attachment

/-- An attachment has the name of its port. -/
theorem interfaceName_of_ofPort? {p : Switch.Port} {a : Attachment} (h : ofPort? p = some a) :
    a.interfaceName = p.name := by
  unfold ofPort? at h
  split at h
  · cases h
  · obtain rfl := Option.some.inj h
    rfl

/-- An attachment names its port. -/
theorem port_of_ofPort? {p : Switch.Port} {a : Attachment} (h : ofPort? p = some a) :
    a.port = some ⟨p.uuid, p.ofport⟩ := by
  unfold ofPort? at h
  split at h
  · cases h
  · obtain rfl := Option.some.inj h
    rfl

end Attachment

namespace Attachment

/-- Of the ports with the identifiers of an attachment, the attachment is read from its own port,
and from no other one. -/
theorem ofPort?_eq_some_iff (a : Attachment) {p : Switch.Port}
    (hids : p.externalIds = a.externalIds) :
    ofPort? p = some a ↔ p.name = a.interfaceName ∧ a.port = some ⟨p.uuid, p.ofport⟩ := by
  constructor
  · intro h
    exact ⟨(interfaceName_of_ofPort? h).symm, port_of_ofPort? h⟩
  · intro ⟨hname, hport⟩
    have hp : p = ⟨p.uuid, a.interfaceName, p.ofport, a.externalIds⟩ := by
      rw [← hname, ← hids]
    rw [hp, ofPort?_externalIds, ← hport]

/-- An attachment whose addresses are of both versions, one of them twice, with runs of zeros and
an embedded address. -/
def Sample.manyAddresses : Attachment where
  interfaceName := "tap0123456789a"
  containerId := "c1"
  podName := "p1"
  podNamespace := ""
  vifId := "0123456789abcdef"
  mac := "AA:bb"
  ips := [.ofBits .v6 0, .ofBits .v4 0x0A000005, .ofBits .v6 0xFFFF0A000005, .ofBits .v4 0x0A000005,
    .ofBits .v6 0xFD000000000000000000000000000005]
  port := some ⟨"uuid-1", none⟩

/-- The attachment is read from its port as it was, with all of its addresses in their order. -/
theorem manyAddresses_read_back :
    ofPort? ⟨"uuid-1", "tap0123456789a", none, Sample.manyAddresses.externalIds⟩ =
      some Sample.manyAddresses :=
  (ofPort?_eq_some_iff Sample.manyAddresses rfl).2 ⟨rfl, rfl⟩

end Attachment

/-! ## The ports of a bridge -/

/-- Ports are filed under their names, and each container has one at most. -/
structure Table.Distinct (ports : Table Switch.Port) : Prop where
  name : ∀ {n p}, ports.get? n = some p → p.name = n
  container : ∀ {n m p q a b}, ports.get? n = some p → ports.get? m = some q →
    Attachment.ofPort? p = some a → Attachment.ofPort? q = some b →
    a.containerId = b.containerId → n = m

namespace Store

variable {ports : Table Switch.Port}

theorem get?_ofPorts_values (h : ports.Distinct) (n : String) :
    (ofPorts ports.values).get? n = (ports.get? n).bind Attachment.ofPort? := by
  have hport : ∀ {m a}, (ports.filterMap Attachment.ofPort?).get? m = some a →
      ∃ p, ports.get? m = some p ∧ Attachment.ofPort? p = some a := by
    intro m a ha
    rw [Table.get?_filterMap, Option.bind_eq_some_iff] at ha
    exact ha
  have hself : ∀ {m a}, (ports.filterMap Attachment.ofPort?).get? m = some a →
      a.interfaceName = m := by
    intro m a ha
    obtain ⟨p, hp, hpa⟩ := hport ha
    rw [Attachment.interfaceName_of_ofPort? hpa, h.name hp]
  have hnames : ((ports.values.filterMap Attachment.ofPort?).map
      Attachment.interfaceName).Nodup := by
    rw [← Table.values_filterMap]
    exact Table.nodup_map_values fun ha hb heq => by rw [← hself ha, ← hself hb, heq]
  have hcontainers : ((ports.values.filterMap Attachment.ofPort?).map
      Attachment.containerId).Nodup := by
    rw [← Table.values_filterMap]
    refine Table.nodup_map_values fun ha hb heq => ?_
    obtain ⟨p, hp, hpa⟩ := hport ha
    obtain ⟨q, hq, hqb⟩ := hport hb
    exact h.container hp hq hpa hqb heq
  ext a
  rw [get?_ofPorts hnames hcontainers, ← Table.values_filterMap, Table.mem_values,
    ← Table.get?_filterMap]
  constructor
  · rintro ⟨⟨m, hm⟩, rfl⟩
    rw [hself hm]
    exact hm
  · exact fun ha => ⟨⟨n, ha⟩, hself ha⟩

/-- The store of a bridge's ports lists one attachment for each port of a container. -/
theorem list_ofPorts_values (h : ports.Distinct) :
    (ofPorts ports.values).list = ports.values.filterMap Attachment.ofPort? := by
  have hbyName : (ofPorts ports.values).byName = ports.filterMap Attachment.ofPort? := by
    ext n
    rw [Table.get?_filterMap, ← get?_ofPorts_values h n]
    rfl
  rw [list, hbyName, Table.values_filterMap]

end Store

end PodAttach
