import PodAttach.Proofs.Construction
import PodAttach.Proofs.Flattening
import PodAttach.Proofs.Identifiers
import PodAttach.Proofs.Site

/-!
# What an Add says of one interface

An Add computes what to attach once, and hands copies of it to the kernel,
to the switch, to the store and to the runtime.

* `resolve_ok`: routes that are merged are not repeated, so the result, which
  takes out repeats of its own, has the routes of the plan.
* `Copies` are the copies, `Copies.Given` says who got them and `Copies.Agree`
  that they are of one interface.
* `add_agrees`: an Add for a sandbox without a record that succeeds gives copies that agree.
-/

namespace PodAttach

namespace Agent

/-! ## The plan -/

/-- What a plan is for: the first virtual interface that is asked for names the link and gives its
hardware address, and the addresses and routes are those of the result. -/
theorem resolve_ok {c : Cni.Call} {d : Descriptor} {res : Cni.Result} {p : Plan}
    (hplan : Plan.resolve c d = .ok (res, p)) :
    ∃ e rest, d.matching c.ifname = e :: rest ∧ p.hostIfname = Net.LinkName.host e.vif.id ∧
      p.pair.mac = Text.lower e.vif.macAddress ∧ p.pair.netns = c.netns ∧
      p.pair.containerIfname = c.ifname ∧ p.pair.addresses = res.addresses ∧
      p.pair.routes.Nodup ∧ res.routes = p.pair.routes.map Cni.ResultRoute.ofRoute ∧
      ∀ i ∈ res.ips, i.interface = some Cni.Result.containerIndex := by
  unfold Plan.resolve at hplan
  cases hmatching : d.matching c.ifname with
  | nil =>
    rw [hmatching] at hplan
    cases hplan
  | cons e rest =>
    rw [hmatching] at hplan
    dsimp only at hplan
    cases haddressing : Addressing.ofVifs (e :: rest) with
    | error x =>
      rw [haddressing] at hplan
      cases hplan
    | ok a =>
      rw [haddressing] at hplan
      obtain ⟨rfl, rfl⟩ := Prod.mk.inj (Except.ok.inj hplan)
      have hnodup := (Addressing.nodup_ofVifs haddressing).1
      refine ⟨e, rest, rfl, rfl, rfl, rfl, rfl, rfl, hnodup, ?_, ?_⟩
      · exact routes_resultFor hnodup
      · intro i hi
        obtain ⟨assigned, -, rfl⟩ := List.mem_map.1 hi
        rfl

/-! ## The copies -/

/-- The copies that an Add makes. -/
structure Copies where
  /-- What the pair of links is built from. -/
  spec : Link.PairSpec
  /-- The name of the port, and its identifiers. -/
  portName : String
  ids : Table String
  /-- What flows are installed for. -/
  flowName : String
  flowIps : List Net.Ip
  flowMac : String
  recorded : Attachment
  result : Cni.Result

namespace Copies

/-- Who was given the copies: the kernel, the switch, the store and the runtime.  The calls are all
that were made. -/
structure Given (y : Copies) (response : Cni.Response) (e : Stay) : Prop where
  calls : ∃ pair uuid ofport, e.log.reverse.filter (fun ev => ev.asked.isCall) = [
    ⟨.link (.build y.spec), .ok pair⟩,
    ⟨.switch (.createPort y.portName y.ids), .ok uuid⟩,
    ⟨.switch (.getOfport y.portName), .ok ofport⟩,
    ⟨.switch (.installFlows y.flowName y.flowIps y.flowMac ofport), .ok ()⟩]
  port : ∃ p, e.site.bridge.ports.get? y.portName = some p ∧ p.externalIds = y.ids
  recorded : e.site.store.find? y.recorded.containerId = some y.recorded
  result : response = ⟨y.result.toBytes, none⟩

/-- The copies are of one interface: its name, its hardware address, its addresses and routes are
the same everywhere. -/
structure Agree (y : Copies) (c : Cni.Call) (v : Vif) : Prop where
  addresses : y.spec.addresses = y.result.addresses
  ips : y.recorded.ips = y.spec.addresses.map Net.Cidr.ip ∧
    y.flowIps = y.spec.addresses.map Net.Cidr.ip ∧
    (y.ids.get? Switch.idAddresses).map Attachment.addressesOf =
      some (y.spec.addresses.map Net.Cidr.ip)
  routes : y.spec.routes.Nodup ∧ y.result.routes = y.spec.routes.map Cni.ResultRoute.ofRoute
  mac : y.spec.mac = Text.lower v.macAddress ∧ y.recorded.mac = Text.lower v.macAddress ∧
    y.ids.get? Switch.idMac = some (Text.lower v.macAddress) ∧
    y.flowMac = Text.lower v.macAddress
  name : y.spec.hostIfname = Net.LinkName.host v.id ∧ y.portName = Net.LinkName.host v.id ∧
    y.flowName = Net.LinkName.host v.id ∧ y.recorded.interfaceName = Net.LinkName.host v.id
  interfaces : ∃ hostMac, y.result.interfaces = [
    { name := Net.LinkName.host v.id, mac := hostMac },
    { name := c.ifname, mac := Text.lower v.macAddress, sandbox := c.netns }]

end Copies

/-- What was built has the names and the hardware address of its plan. -/
theorem Added.pair_names {s s' : Site} {x : Made} (h : Added s x s') :
    x.pair.host.name = x.plan.pair.hostIfname ∧ x.pair.host.sandbox = "" ∧
      x.pair.container =
        ⟨x.plan.pair.containerIfname, Text.lower x.plan.pair.mac, x.plan.pair.netns⟩ := by
  have hbuilt := congrArg Prod.fst h.built
  have hnames := Link.run_gives (Link.buildPair_names (R := Link.answering) (s := s.netlab)
    (fun _ _ => trivial) s.netlab.own x.plan.pair) hbuilt
  exact hnames

/-- The copies that an Add makes of what it attached step by step. -/
def Made.copies (x : Made) (res : Cni.Result) : Copies where
  spec := x.plan.pair
  portName := x.plan.hostIfname
  ids := (x.plan.attachment x.call).externalIds
  flowName := x.plan.hostIfname
  flowIps := x.plan.ips
  flowMac := x.plan.pair.mac
  recorded := x.attachment
  result := resultOfPair res x.pair

/-- An Add for a sandbox without a record that succeeds tells the kernel, the switch, the store and
the runtime one and the same of the interface. -/
theorem add_agrees {o : Options} {k : Conditions} {r : Cni.Request} {s : Site} {c : Cni.Call}
    (hcommand : r.command = .add) (hdecode : decode o r.args = .ok c) (hinfra : c.isInfra = true)
    (hfresh : s.store.find? c.containerId = none) (hok : (serveOn o k r s).1.isOk = true) :
    ∃ d e rest, ∃ y : Copies, k.descriptor = .ok d ∧ d.matching c.ifname = e :: rest ∧
      y.Given (serveOn o k r s).1 (serveOn o k r s).2 ∧ y.Agree c e.vif := by
  obtain ⟨d, res, x, hd, rfl, hplan, hlog, hresponse, hadded⟩ :=
    serveOn_added hcommand hdecode hinfra hfresh hok
  obtain ⟨e, rest, hmatching, hname, hmac, hnetns, hifname, haddresses, hnodup, hroutes, -⟩ :=
    resolve_ok hplan
  obtain ⟨hhost, hsandbox, hcontainer⟩ := hadded.pair_names
  obtain ⟨-, hidMac, hidIps, -⟩ := (x.plan.attachment x.call).get?_externalIds
  refine ⟨d, e, rest, x.copies res, hd, hmatching, ?_, ?_⟩
  · refine ⟨⟨x.pair, x.uuid, x.ofport, ?_⟩, ?_, ?_, hresponse⟩
    · rw [hlog]
      rfl
    · refine ⟨⟨x.uuid, x.plan.hostIfname, some x.ofport, (x.plan.attachment x.call).externalIds⟩,
        ?_, rfl⟩
      rw [hadded.ports, Table.get?_insert]
      exact if_pos rfl
    · rw [hadded.store]
      exact Store.find?_add_self s.store x.attachment
  · refine ⟨haddresses, ⟨rfl, rfl, ?_⟩, ⟨hnodup, hroutes⟩, ⟨hmac, hmac, ?_, hmac⟩,
      ⟨hname, hname, hname, hname⟩, ⟨x.pair.host.mac, ?_⟩⟩
    · rw [Made.copies, hidIps, Option.map_some, Attachment.addressesOf_addressesText]
      rfl
    · rw [Made.copies, hidMac]
      exact congrArg some hmac
    · show [_, _] = _
      rw [hhost, hcontainer, hifname, hnetns, hmac, Text.lower_lower]
      exact congrArg (fun n => [({ name := n, mac := x.pair.host.mac } : Cni.Interface), _]) hname

/-- The pod of a node gets its interface, and everyone is told of `tapvif1`. -/
theorem tapvif1_told_alike :
    ∃ y : Copies,
      y.Given (serveOn {} (Sample.conditions fun _ => none) ⟨.add, Sample.args "c1"⟩ Sample.site).1
        (serveOn {} (Sample.conditions fun _ => none) ⟨.add, Sample.args "c1"⟩ Sample.site).2 ∧
      y.recorded.interfaceName = "tapvif1" ∧ y.flowMac = "02:00:00:00:00:09" ∧
      y.spec.addresses = y.result.addresses := by
  have hplans := Sample.plans fun _ => none
  obtain ⟨d, e, rest, y, hd, hmatching, hgiven, hagree⟩ :=
    add_agrees hplans.command hplans.decoded hplans.infra rfl Sample.serveOn_isOk
  obtain rfl : Sample.descriptor = d := Except.ok.inj hd
  have hfirst : Sample.descriptor.matching (Sample.call "c1").ifname = Sample.descriptor.vifs := by
    decide +kernel
  obtain ⟨rfl, -⟩ := List.cons.inj (hfirst.symm.trans hmatching)
  refine ⟨y, hgiven, hagree.name.2.2.2.trans ?_, hagree.mac.2.2.2.trans ?_, hagree.addresses⟩
  · decide +kernel
  · decide +kernel

end Agent

end PodAttach
