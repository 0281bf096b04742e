import PodAttach.Proofs.Routes

/-!
# IP versions in the addressing of an interface

A subnet, its gateway, its addresses and its static routes are read from texts of their own.  An
address has to lie in its subnet and a static route has to go through a gateway of its own version,
but nothing holds the gateway of a subnet to the version of the subnet.

* `Subnet.OneFamily` and `AssignedAddress.OneFamily`: the gateway is of the version of the rest.
* `Subnet.Assigns.oneFamily_iff`: an address is as its subnet is.
* `Subnet.hasDefault_iff`: what the default route of a subnet is.
* `Cni.Result.blockOneFamily_iff`: the block of a version in a result is as its first address is.
* `families_unmixed_iff`: routes never mix versions, and for addresses, default routes and blocks
  it is said for which subnets they do not.
-/

namespace PodAttach

open Net

/-- The version of a subnet. -/
def Subnet.family? (s : Subnet) : Option Family :=
  (Cidr.parse? s.cidr).map Cidr.family

/-- The gateway of a subnet, if there is one, is of the version of the subnet. -/
def Subnet.OneFamily (s : Subnet) : Prop :=
  ∀ gateway, s.gateway? = some gateway → s.family? = some gateway.family

/-- The gateway of an address, if there is one, is of the version of the address. -/
def AssignedAddress.OneFamily (a : AssignedAddress) : Prop :=
  ∀ gateway, a.gateway = some gateway → a.address.family = gateway.family

/-- The default route of a subnet: it comes ahead of as many routes as the subnet has static
ones. -/
def Subnet.HasDefault (isDefault : Bool) (s : Subnet) (r : Route) : Prop :=
  ∃ a statics, Addressing.ofSubnet isDefault s = .ok a ∧ a.routes = r :: statics ∧
    statics.length = s.routes.length

/-- The block of a version in a result names no gateway of the other version. -/
def Cni.Result.BlockOneFamily (r : Cni.Result) (family : Family) : Prop :=
  ∀ block text gateway, r.blockJson? family = some block →
    block.member? "gateway" = some (.str text) → Ip.parse? text = some gateway →
    family = gateway.family

/-! ## Addresses -/

namespace Subnet.Assigns

variable {s : Subnet} {i : FixedIp} {a : AssignedAddress}

/-- An assigned address is of the version of its subnet. -/
theorem family (h : s.Assigns i a) (hi : i ∈ s.ips) (hs : ¬ s.Faulty) :
    s.family? = some a.address.family := by
  obtain ⟨block, hblock, -⟩ := h.len
  have hcovers : block.Covers a.address.ip := by
    by_contra hout
    exact hs (.outside hi h.ip hblock hout)
  have hfamily : block.family = a.address.family := hcovers.1
  rw [family?, hblock, Option.map_some, hfamily]

/-- An address and its gateway are of one version exactly if its subnet and the gateway are. -/
theorem oneFamily_iff (h : s.Assigns i a) (hi : i ∈ s.ips) (hs : ¬ s.Faulty) :
    s.OneFamily ↔ a.OneFamily := by
  unfold OneFamily AssignedAddress.OneFamily
  rw [h.gateway, h.family hi hs]
  simp only [Option.some.injEq]

end Subnet.Assigns

/-- The addresses that subnets assign, each with its subnet. -/
def assignments (ss : List Subnet) : List (Subnet × FixedIp) :=
  ss.flatMap fun s => s.ips.map (s, ·)

theorem mem_assignments {ss : List Subnet} {p : Subnet × FixedIp} :
    p ∈ assignments ss ↔ p.1 ∈ ss ∧ p.2 ∈ p.1.ips := by
  obtain ⟨s, i⟩ := p
  simp only [assignments, List.mem_flatMap, List.mem_map, Prod.mk.injEq]
  constructor
  · intro h
    obtain ⟨t, ht, j, hj, rfl, rfl⟩ := h
    exact ⟨ht, hj⟩
  · intro h
    exact ⟨s, h.1, i, h.2, rfl, rfl⟩

/-- The addresses of an interface go with gateways of their versions exactly if this is so for the
subnets that assign any. -/
theorem Addressing.addresses_oneFamily_iff {e : VifEntry} {a : Addressing} (h : ofVif e = .ok a) :
    (∀ x ∈ a.addresses, x.OneFamily) ↔
      ∀ s ∈ e.vif.network.subnets, s.ips ≠ [] → s.OneFamily := by
  have hsound : ∀ s ∈ e.vif.network.subnets, ¬ s.Faulty := exists_ofVif_iff.1 ⟨a, h⟩
  have hassigns : List.Forall₂ (fun p x => p.1.Assigns p.2 x)
      (assignments e.vif.network.subnets) a.addresses := by
    have hflat := (flat_ofVif h).addresses
    rwa [List.flatMap_map] at hflat
  have hsame : ∀ p ∈ assignments e.vif.network.subnets, ∀ x, p.1.Assigns p.2 x →
      (p.1.OneFamily ↔ x.OneFamily) := by
    intro p hp x hx
    obtain ⟨hs, hi⟩ := mem_assignments.1 hp
    exact hx.oneFamily_iff hi (hsound p.1 hs)
  rw [← forall_mem_iff_of_forall₂ hassigns hsame]
  constructor
  · intro hall s hs hne
    obtain ⟨i, hi⟩ := List.exists_mem_of_ne_nil _ hne
    exact hall (s, i) (mem_assignments.2 ⟨hs, hi⟩)
  · intro hall p hp
    obtain ⟨hs, hi⟩ := mem_assignments.1 hp
    exact hall p.1 hs (List.ne_nil_of_mem hi)

/-! ## Default routes -/

theorem Route.toEverywhere_family (gateway : Ip) :
    (toEverywhere gateway).destination.family = gateway.family := by
  unfold toEverywhere
  dsimp only
  cases gateway.family <;> rfl

/-- The default route of a subnet leads to everywhere through the gateway. -/
theorem Subnet.hasDefault_iff {isDefault : Bool} {s : Subnet} {r : Route} (hs : ¬ s.Faulty) :
    s.HasDefault isDefault r ↔
      isDefault = true ∧ ∃ gateway, s.gateway? = some gateway ∧
        r = Route.toEverywhere gateway := by
  have hok : ∃ a, Addressing.ofSubnet isDefault s = .ok a := Addressing.ofSubnet_isOk_iff.2 hs
  obtain ⟨a, ha⟩ := hok
  obtain ⟨block, gateway, addresses, statics, -, hgateway, -, hstatics, hall⟩ :=
    Addressing.ofSubnet_eq_ok_iff.1 ha
  have hlength : s.routes.length = statics.length := (mapM_eq_ok_iff.1 hstatics).length_eq
  have hroutes : a.routes =
      (if isDefault then (s.gateway?.map Route.toEverywhere).toList else []) ++ statics := by
    rw [hall, (Addressing.gatewayOf_eq_ok_iff.1 hgateway).2]
  constructor
  · intro h
    obtain ⟨b, rest, hb, hrest, hcount⟩ := h
    obtain rfl := Except.ok.inj (ha.symm.trans hb)
    -- without a default route there are as many routes as static ones, which is one too few
    have hmore : statics.length < a.routes.length := by
      rw [hrest, List.length_cons]
      omega
    rw [hroutes] at hmore hrest
    cases isDefault with
    | false => simp at hmore
    | true =>
      cases hg : s.gateway? with
      | none => simp [hg] at hmore
      | some g =>
        simp only [hg, if_true, Option.map_some, Option.toList_some, List.singleton_append,
          List.cons.injEq] at hrest
        exact ⟨rfl, g, rfl, hrest.1.symm⟩
  · intro h
    obtain ⟨rfl, g, hg, rfl⟩ := h
    refine ⟨a, statics, ha, ?_, hlength.symm⟩
    rw [hroutes, hg]
    rfl

/-- The default routes of subnets are of the versions of the subnets exactly if the gateways are. -/
theorem defaults_oneFamily_iff {isDefault : Bool} {ss : List Subnet}
    (hss : ∀ s ∈ ss, ¬ s.Faulty) :
    (∀ s ∈ ss, ∀ r, s.HasDefault isDefault r → s.family? = some r.destination.family) ↔
      (isDefault = true → ∀ s ∈ ss, s.OneFamily) := by
  constructor
  · intro hall hdefault s hs g hg
    have hroute := hall s hs _ ((Subnet.hasDefault_iff (hss s hs)).2 ⟨hdefault, g, hg, rfl⟩)
    rwa [Route.toEverywhere_family] at hroute
  · intro hall s hs r hr
    obtain ⟨hdefault, g, hg, rfl⟩ := (Subnet.hasDefault_iff (hss s hs)).1 hr
    rw [Route.toEverywhere_family]
    exact hall hdefault s hs g hg

/-! ## Blocks of results -/

/-- The block of a version names a gateway of this version exactly if its first address has no
other one. -/
theorem Cni.Result.blockOneFamily_iff {r : Cni.Result} {family : Family} :
    r.BlockOneFamily family ↔
      ∀ i, r.ips.find? (fun i => i.address.family == family) = some i →
        ∀ gateway, i.gateway = some gateway → family = gateway.family := by
  unfold BlockOneFamily blockJson?
  have hgateway : ∀ (i : IpConfig) (routes : Option Json),
      (Json.ofFields [("ip", some (.str i.address.render)),
        ("gateway", i.gateway.map fun g => .str g.render), ("routes", routes)]).member? "gateway" =
      i.gateway.map fun g => .str g.render := by
    intro i routes
    cases i.gateway <;> cases routes <;>
      simp [Json.ofFields, Json.member?, Table.lookup_cons]
  constructor
  · intro h i hi g hg
    refine h _ g.render g (by rw [hi]; rfl) ?_ g.parse?_render
    rw [hgateway, hg]
    rfl
  · intro h block text g hblock hmember hread
    obtain ⟨i, hi, rfl⟩ := Option.map_eq_some_iff.1 hblock
    rw [hgateway] at hmember
    obtain ⟨g', hg', htext⟩ := Option.map_eq_some_iff.1 hmember
    obtain rfl := Json.str.inj htext
    obtain rfl := Option.some.inj (g'.parse?_render.symm.trans hread)
    exact h i hi g' hg'

/-- The subnets from which a result was made have nothing wrong with them, and the result lists what
they say. -/
theorem Agent.lists_of_resolve {c : Cni.Call} {d : Descriptor} {r : Cni.Result} {p : Plan}
    (h : Plan.resolve c d = .ok (r, p)) :
    (∀ s ∈ (d.subnetsFor c.ifname).map Prod.snd, ¬ s.Faulty) ∧
      r.Lists c.network (d.subnetsFor c.ifname) := by
  cases resolve_cases c d with
  | inl hunusable =>
    obtain ⟨-, message, herror⟩ := hunusable
    cases h.symm.trans herror
  | inr husable =>
    obtain ⟨husable, r', p', hok, hlists⟩ := husable
    cases h.symm.trans hok
    refine ⟨?_, hlists⟩
    intro s hs hfaulty
    obtain ⟨q, hq, rfl⟩ := List.mem_map.1 hs
    obtain ⟨e, he, hsubnet⟩ := List.mem_flatMap.1 hq
    obtain ⟨s, hmem, rfl⟩ := List.mem_map.1 hsubnet
    obtain ⟨hvif, hname⟩ := List.mem_filter.1 he
    exact husable (.inr ⟨e, hvif, beq_iff_eq.1 hname, s, hmem, hfaulty⟩)

/-- The block of a version in the result of a call is as the subnet of the first assigned address of
this version is. -/
theorem Agent.blockOneFamily_resolve {c : Cni.Call} {d : Descriptor} {r : Cni.Result} {p : Plan}
    (h : Plan.resolve c d = .ok (r, p)) (family : Family) :
    r.BlockOneFamily family ↔
      ∀ q, (assignments ((d.subnetsFor c.ifname).map Prod.snd)).find?
        (fun q => q.1.family? == some family) = some q → q.1.OneFamily := by
  obtain ⟨hsound, hlists⟩ := lists_of_resolve h
  obtain ⟨as, hassigns, hips⟩ := hlists.ips
  have hassigns : List.Forall₂ (fun q a => q.1.Assigns q.2 a)
      (assignments ((d.subnetsFor c.ifname).map Prod.snd)) as := by
    rwa [assignments, List.flatMap_map]
  have hfound := rel_find?_of_forall₂ (p := fun q => q.1.family? == some family)
    (q := fun a => a.address.family == family) hassigns (by
      intro q hq a ha
      obtain ⟨hs, hi⟩ := mem_assignments.1 hq
      rw [ha.family hi (hsound q.1 hs)]
      exact Option.some_beq_some)
  rw [Cni.Result.blockOneFamily_iff, hips, List.find?_map]
  have hfamily : ∀ a, as.find? (fun a => a.address.family == family) = some a →
      a.address.family = family := fun a ha => by simpa using List.find?_some ha
  show (∀ i, (as.find? fun a => a.address.family == family).map _ = some i → _) ↔ _
  generalize (assignments _).find? _ = first, as.find? _ = listed at hfound hfamily
  cases hfound with
  | none => simp
  | @some q a hq =>
    obtain ⟨hmem, ha⟩ := hq
    obtain ⟨hs, hi⟩ := mem_assignments.1 hmem
    have hsame := ha.oneFamily_iff hi (hsound q.1 hs)
    have hversion := hfamily a rfl
    simp only [Option.map_some, Option.some.injEq, forall_eq', hsame]
    unfold AssignedAddress.OneFamily
    rw [hversion]

/-- Whatever addressing is accepted, every route goes through a gateway of its own version.  The
addresses do so exactly if the gateways of the subnets that assign any are of the versions of these
subnets, and the default routes are of the versions of their subnets exactly if, on a default
interface, all gateways are.  The block of a version in the result of a call names no gateway of the
other version exactly if this holds of the subnet of the first address of the version. -/
theorem families_unmixed_iff {e : VifEntry} {a : Addressing} (h : Addressing.ofVif e = .ok a) :
    (∀ r ∈ a.routes, r.IsValid) ∧
    ((∀ x ∈ a.addresses, x.OneFamily) ↔
      ∀ s ∈ e.vif.network.subnets, s.ips ≠ [] → s.OneFamily) ∧
    ((∀ s ∈ e.vif.network.subnets, ∀ r, s.HasDefault e.isDefault r →
        s.family? = some r.destination.family) ↔
      (e.isDefault = true → ∀ s ∈ e.vif.network.subnets, s.OneFamily)) ∧
    ∀ (c : Cni.Call) (d : Descriptor) (r : Cni.Result) (p : Agent.Plan),
      Agent.Plan.resolve c d = .ok (r, p) → ∀ family, r.BlockOneFamily family ↔
        ∀ q, (assignments ((d.subnetsFor c.ifname).map Prod.snd)).find?
          (fun q => q.1.family? == some family) = some q → q.1.OneFamily := by
  refine ⟨?_, Addressing.addresses_oneFamily_iff h,
    defaults_oneFamily_iff (Addressing.exists_ofVif_iff.1 ⟨a, h⟩),
    fun c d r p hresolve => Agent.blockOneFamily_resolve hresolve⟩
  intro r hr
  exact (Addressing.calculated_ofVif h r hr).spec.2

namespace Sample

/-- A subnet of one version whose gateway is of the other. -/
def crossedSubnet : Subnet :=
  { cidr := "10.0.0.0/24", gateway := "fd00::1", ips := [{ ipAddress := "10.0.0.5" }] }

/-- A default interface on that subnet alone. -/
def crossedEntry : VifEntry :=
  { ifName := "eth0", isDefault := true
    vif := { id := "0123456789abcdef", macAddress := "aa:bb:cc:dd:ee:ff"
             network := { subnets := [crossedSubnet] } } }

/-- What the interface gets. -/
def crossedAddressing : Addressing where
  addresses := (Cidr.parse? "10.0.0.5/24").toList.map fun address =>
    ⟨address, some (Ip.ofBits .v6 0xfd000000000000000000000000000001)⟩
  routes := (Cidr.parse? "::/0").toList.map fun destination =>
    ⟨destination, Ip.ofBits .v6 0xfd000000000000000000000000000001⟩

/-- A call for the interface, in a version whose results have blocks. -/
def blockCall : Cni.Call :=
  { containerId := "c1", infraContainerId := "c1", isInfra := true, netns := "/proc/42/ns/net"
    ifname := "eth0", cniVersion := "0.2.0", podName := "p1", podNamespace := "default"
    network := {}, args := {} }

theorem ofVif_crossedEntry : Addressing.ofVif crossedEntry = .ok crossedAddressing := by
  decide +kernel

theorem not_oneFamily_crossedSubnet : ¬ crossedSubnet.OneFamily := by
  intro h
  have hfamily := h (Ip.ofBits .v6 0xfd000000000000000000000000000001) (by decide +kernel)
  exact absurd hfamily (by decide +kernel)

end Sample

/-- An interface whose subnet has a gateway of the other version is accepted.  Its address goes with
that gateway, also in the block of the address's version, and its default route is not of the
version of the subnet. -/
theorem crossed_gateway_accepted :
    Addressing.ofVif Sample.crossedEntry = .ok Sample.crossedAddressing ∧
      ¬ (∀ x ∈ Sample.crossedAddressing.addresses, x.OneFamily) ∧
      ¬ (∀ s ∈ Sample.crossedEntry.vif.network.subnets, ∀ r, s.HasDefault true r →
        s.family? = some r.destination.family) ∧
      ∃ r p, Agent.Plan.resolve Sample.blockCall { vifs := [Sample.crossedEntry] } = .ok (r, p) ∧
        ¬ r.BlockOneFamily .v4 := by
  obtain ⟨-, haddresses, hdefaults, hblocks⟩ := families_unmixed_iff Sample.ofVif_crossedEntry
  have hmem : Sample.crossedSubnet ∈ Sample.crossedEntry.vif.network.subnets :=
    List.mem_singleton_self _
  refine ⟨Sample.ofVif_crossedEntry, ?_, ?_, ?_⟩
  · intro hall
    exact Sample.not_oneFamily_crossedSubnet (haddresses.1 hall _ hmem (List.cons_ne_nil _ _))
  · intro hall
    exact Sample.not_oneFamily_crossedSubnet (hdefaults.1 hall rfl _ hmem)
  · have hresolved : (Agent.Plan.resolve Sample.blockCall
        { vifs := [Sample.crossedEntry] }).toOption.isSome = true := by decide +kernel
    cases hresolve : Agent.Plan.resolve Sample.blockCall { vifs := [Sample.crossedEntry] } with
    | error err =>
      rw [hresolve] at hresolved
      cases hresolved
    | ok planned =>
      refine ⟨planned.1, planned.2, rfl, ?_⟩
      intro hall
      exact Sample.not_oneFamily_crossedSubnet
        ((hblocks _ _ _ _ hresolve .v4).1 hall (Sample.crossedSubnet, { ipAddress := "10.0.0.5" })
          (by decide +kernel))

end PodAttach
