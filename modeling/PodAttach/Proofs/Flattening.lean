import PodAttach.Agent.Plan
import PodAttach.Proofs.Blocks
import PodAttach.Proofs.Lists

/-!
# Addressing, all at once

The addressing of an interface is put together subnet by subnet and entry by
entry, and repeats are left out at each step.  Here it is said in one go what
comes out: `Addressing.Flat` lists everything that the subnets give, one
after the other.

* `Subnet.Faulty` says what is wrong with a subnet, and `ofSubnet_isOk_iff` that nothing else is.
* `Addressing.Flat.merge`: what two runs of subnets give is merged to what both give.
* `resolve_flat`: a call cannot be resolved exactly if no entry is for its interface or a subnet
  is faulty, and otherwise the result is `Flat`.
-/

namespace PodAttach

open Net

/-! ## Subnets -/

/-- What is wrong with a route that comes with a subnet. -/
inductive StaticRoute.Faulty (r : StaticRoute) : Prop where
  | destination (h : Cidr.parse? r.cidr = none)
  | gateway (h : Ip.parse? r.gateway = none)
  | mixed {block : Cidr} {gateway : Ip} (hblock : Cidr.parse? r.cidr = some block)
    (hgateway : Ip.parse? r.gateway = some gateway) (h : block.family ≠ gateway.family)

/-- What is wrong with a subnet. -/
inductive Subnet.Faulty (s : Subnet) : Prop where
  | block (h : Cidr.parse? s.cidr = none)
  | gateway (hblank : Text.trim s.gateway ≠ "") (h : Ip.parse? (Text.trim s.gateway) = none)
  | address {i : FixedIp} (hi : i ∈ s.ips) (h : Ip.parse? i.ipAddress = none)
  /-- An address of the other version is outside as well. -/
  | outside {i : FixedIp} {ip : Ip} {block : Cidr} (hi : i ∈ s.ips)
    (hip : Ip.parse? i.ipAddress = some ip) (hblock : Cidr.parse? s.cidr = some block)
    (h : ¬ block.Covers ip)
  | route {r : StaticRoute} (hr : r ∈ s.routes) (h : r.Faulty)

/-- The gateway of a subnet; blank text is none. -/
def Subnet.gateway? (s : Subnet) : Option Ip :=
  Ip.parse? (Text.trim s.gateway)

/-- An address that is assigned on a subnet, as it is given to the interface: with the length of the
subnet's network part and with the subnet's gateway. -/
structure Subnet.Assigns (s : Subnet) (i : FixedIp) (a : AssignedAddress) : Prop where
  ip : Ip.parse? i.ipAddress = some a.address.ip
  len : ∃ block, Cidr.parse? s.cidr = some block ∧ a.address.len = block.len
  gateway : a.gateway = s.gateway?

/-- What a route is made from. -/
inductive RouteSource where
  /-- A gateway through which everything else goes. -/
  | default (gateway : Ip)
  | static (r : StaticRoute)

/-- How the block of all addresses of a version is written. -/
def Net.Family.everywhereText : Family → String
  | .v4 => "0.0.0.0/0"
  | .v6 => "::/0"

/-- The route of a source leads to the block of its text, named by the least address. -/
inductive RouteSource.Gives : RouteSource → Route → Prop where
  | default {gateway : Ip} {block : Cidr}
    (hblock : Cidr.parse? gateway.family.everywhereText = some block) :
    Gives (.default gateway) ⟨block.network, gateway⟩
  | static {r : StaticRoute} {block : Cidr} {gateway : Ip}
    (hblock : Cidr.parse? r.cidr = some block) (hgateway : Ip.parse? r.gateway = some gateway)
    (hfamily : block.family = gateway.family) :
    Gives (.static r) ⟨block.network, gateway⟩

/-- What the routes of a subnet are made from: the default route comes first. -/
def Subnet.routeSources (isDefault : Bool) (s : Subnet) : List RouteSource :=
  (if isDefault then s.gateway?.toList.map .default else []) ++ s.routes.map .static

theorem Net.Cidr.parse?_everywhereText (family : Family) :
    parse? family.everywhereText = some (Route.everywhere family) := by
  cases family <;> decide

/-- Everything else is reached by the default route. -/
theorem RouteSource.gives_toEverywhere (gateway : Ip) :
    Gives (.default gateway) (Route.toEverywhere gateway) := by
  have hnetwork : ∀ family, (Route.everywhere family).network = Route.everywhere family := by
    intro family
    cases family <;> decide
  have hgives := Gives.default (Cidr.parse?_everywhereText gateway.family)
  rw [hnetwork] at hgives
  exact hgives

/-- A route is calculated if its text is read and its gateway is of the version of the block. -/
theorem Route.calculate_eq_ok_iff {text : String} {gateway : Ip} {r : Route} :
    calculate text gateway = .ok r ↔ ∃ block, Cidr.parse? text = some block ∧
      block.family = gateway.family ∧ r = ⟨block.network, gateway⟩ := by
  unfold calculate
  cases Cidr.parse? text with
  | none => simp
  | some block =>
    simp only [Option.some.injEq, exists_eq_left']
    unfold toBlock
    split
    · next hfamily => simp [hfamily, eq_comm]
    · next hfamily => simp [hfamily]

namespace Addressing

theorem gatewayOf_eq_ok_iff {s : Subnet} {gateway : Option Ip} :
    gatewayOf s.gateway = .ok gateway ↔
      (Text.trim s.gateway ≠ "" → s.gateway? ≠ none) ∧ gateway = s.gateway? := by
  unfold gatewayOf Subnet.gateway?
  dsimp only
  by_cases hempty : Text.trim s.gateway = ""
  · have hblank : Ip.parse? "" = none := rfl
    rw [hempty, hblank, if_pos (show "".isEmpty = true from rfl)]
    constructor
    · intro h
      exact ⟨fun hne => absurd rfl hne, (Except.ok.inj h).symm⟩
    · intro h
      rw [h.2]
  · rw [if_neg (by simpa using hempty)]
    cases Ip.parse? (Text.trim s.gateway) with
    | none =>
      constructor
      · intro h
        cases h
      · intro h
        exact absurd rfl (h.1 hempty)
    | some ip =>
      constructor
      · intro h
        exact ⟨fun _ => Option.some_ne_none ip, (Except.ok.inj h).symm⟩
      · intro h
        rw [h.2]

theorem addressIn_eq_ok_iff {cidr text : String} {block : Cidr} {gateway : Option Ip}
    {a : AssignedAddress} :
    addressIn cidr block gateway text = .ok a ↔
      ∃ ip, Ip.parse? text = some ip ∧ block.Covers ip ∧
        ip = a.address.ip ∧ block.len = a.address.len ∧ gateway = a.gateway := by
  unfold addressIn
  cases Ip.parse? text with
  | none => simp
  | some ip =>
    simp only [Option.some.injEq, exists_eq_left']
    rw [← Cidr.contains_iff]
    constructor
    · intro h
      split at h
      · split at h
        · next hcontains =>
          cases h
          exact ⟨hcontains, rfl, rfl, rfl⟩
        · cases h
      · cases h
    · intro h
      obtain ⟨hcontains, hip, hlen, hgateway⟩ := h
      have hfamily : ip.family = block.ip.family := (Cidr.contains_iff.1 hcontains).1.symm
      rw [dif_pos hfamily, if_pos hcontains]
      have haddress : block.withIp ip hfamily = a.address := Cidr.eq_of_len hip hlen
      rw [haddress, hgateway]

theorem addressIn_of_covers {cidr text : String} {block : Cidr} {gateway : Option Ip} {ip : Ip}
    (hip : Ip.parse? text = some ip) (hcovers : block.Covers ip) :
    ∃ a, addressIn cidr block gateway text = .ok a := by
  have hfamily : ip.family = block.ip.family := hcovers.1.symm
  exact ⟨⟨block.withIp ip hfamily, gateway⟩,
    addressIn_eq_ok_iff.2 ⟨ip, hip, hcovers, rfl, rfl, rfl⟩⟩

theorem staticRoute_eq_ok_iff {r : StaticRoute} {q : Route} :
    staticRoute r = .ok q ↔ RouteSource.Gives (.static r) q := by
  unfold staticRoute
  constructor
  · intro h
    split at h
    · cases h
    · next gateway hgateway =>
      obtain ⟨block, hblock, hfamily, rfl⟩ := Route.calculate_eq_ok_iff.1 h
      exact .static hblock hgateway hfamily
  · intro h
    cases h with
    | static hblock hgateway hfamily =>
      rw [hgateway]
      exact Route.calculate_eq_ok_iff.2 ⟨_, hblock, hfamily, rfl⟩

/-- What a subnet gives, if nothing is wrong with it. -/
theorem ofSubnet_eq_ok_iff {isDefault : Bool} {s : Subnet} {a : Addressing} :
    ofSubnet isDefault s = .ok a ↔ ∃ block gateway addresses statics,
      Cidr.parse? s.cidr = some block ∧ gatewayOf s.gateway = .ok gateway ∧
      (s.ips.mapM fun i => addressIn s.cidr block gateway i.ipAddress) = .ok addresses ∧
      s.routes.mapM staticRoute = .ok statics ∧
      a = { addresses, dns := s.dns,
            routes := (if isDefault then (gateway.map Route.toEverywhere).toList else []) ++
              statics } := by
  unfold ofSubnet
  cases hblock : Cidr.parse? s.cidr with
  | none => simp [bind, Except.bind]
  | some block =>
    simp only [bind_eq_ok_iff, Except.ok.injEq, Option.some.injEq, exists_eq_left', pure,
      Except.pure]
    constructor
    · intro h
      obtain ⟨gateway, hgateway, addresses, haddresses, statics, hstatics, ha⟩ := h
      exact ⟨block, gateway, addresses, statics, rfl, hgateway, haddresses, hstatics, ha.symm⟩
    · intro h
      obtain ⟨_, gateway, addresses, statics, rfl, hgateway, haddresses, hstatics, ha⟩ := h
      exact ⟨gateway, hgateway, addresses, haddresses, statics, hstatics, ha.symm⟩

end Addressing

theorem StaticRoute.exists_gives_iff {r : StaticRoute} :
    (∃ q, Addressing.staticRoute r = .ok q) ↔ ¬ r.Faulty := by
  simp only [Addressing.staticRoute_eq_ok_iff]
  constructor
  · intro h hfaulty
    obtain ⟨q, hq⟩ := h
    cases hq with
    | static hblock hgateway hfamily =>
      cases hfaulty with
      | destination h => rw [h] at hblock; cases hblock
      | gateway h => rw [h] at hgateway; cases hgateway
      | mixed hblock' hgateway' hne =>
        rw [hblock] at hblock'
        rw [hgateway] at hgateway'
        cases hblock'
        cases hgateway'
        exact hne hfamily
  · intro h
    cases hblock : Cidr.parse? r.cidr with
    | none => exact absurd (.destination hblock) h
    | some block =>
      cases hgateway : Ip.parse? r.gateway with
      | none => exact absurd (.gateway hgateway) h
      | some gateway =>
        by_cases hfamily : block.family = gateway.family
        · exact ⟨_, .static hblock hgateway hfamily⟩
        · exact absurd (.mixed hblock hgateway hfamily) h

/-- A subnet gives something exactly if nothing is wrong with it. -/
theorem Addressing.ofSubnet_isOk_iff {isDefault : Bool} {s : Subnet} :
    (∃ a, ofSubnet isDefault s = .ok a) ↔ ¬ s.Faulty := by
  constructor
  · intro h hfaulty
    obtain ⟨a, ha⟩ := h
    obtain ⟨block, gateway, addresses, statics, hblock, hgateway, haddresses, hstatics, -⟩ :=
      ofSubnet_eq_ok_iff.1 ha
    have hassigned : ∀ i ∈ s.ips, ∃ x, addressIn s.cidr block gateway i.ipAddress = .ok x :=
      exists_mapM_ok_iff.1 ⟨addresses, haddresses⟩
    cases hfaulty with
    | block h => rw [h] at hblock; cases hblock
    | gateway hblank h => exact (gatewayOf_eq_ok_iff.1 hgateway).1 hblank h
    | address hi h =>
      obtain ⟨x, hx⟩ := hassigned _ hi
      obtain ⟨ip, hip, -⟩ := addressIn_eq_ok_iff.1 hx
      rw [h] at hip
      cases hip
    | outside hi hip hblock' h =>
      obtain ⟨x, hx⟩ := hassigned _ hi
      obtain ⟨ip, hip', hcovers, -⟩ := addressIn_eq_ok_iff.1 hx
      rw [hip] at hip'
      rw [hblock] at hblock'
      cases hip'
      cases hblock'
      exact h hcovers
    | route hr h =>
      exact StaticRoute.exists_gives_iff.1 (exists_mapM_ok_iff.1 ⟨statics, hstatics⟩ _ hr) h
  · intro h
    cases hblock : Cidr.parse? s.cidr with
    | none => exact absurd (.block hblock) h
    | some block =>
      have hgateway : gatewayOf s.gateway = .ok s.gateway? :=
        gatewayOf_eq_ok_iff.2 ⟨fun hblank hnone => h (.gateway hblank hnone), rfl⟩
      have hassigned : ∀ i ∈ s.ips, ∃ x, addressIn s.cidr block s.gateway? i.ipAddress = .ok x := by
        intro i hi
        cases hip : Ip.parse? i.ipAddress with
        | none => exact absurd (.address hi hip) h
        | some ip =>
          by_cases hcovers : block.Covers ip
          · exact addressIn_of_covers hip hcovers
          · exact absurd (.outside hi hip hblock hcovers) h
      have hroutes : ∀ r ∈ s.routes, ∃ q, staticRoute r = .ok q := fun r hr =>
        StaticRoute.exists_gives_iff.2 fun hfaulty => h (.route hr hfaulty)
      obtain ⟨addresses, haddresses⟩ := exists_mapM_ok_iff.2 hassigned
      obtain ⟨statics, hstatics⟩ := exists_mapM_ok_iff.2 hroutes
      exact ⟨_, ofSubnet_eq_ok_iff.2
        ⟨block, s.gateway?, addresses, statics, hblock, hgateway, haddresses, hstatics, rfl⟩⟩

/-! ## Everything in a row -/

/-- What subnets give, one after the other; repeats of routes and servers do not count.  With each
subnet comes whether default routes lead through it. -/
structure Addressing.Flat (ss : List (Bool × Subnet)) (a : Addressing) : Prop where
  addresses : List.Forall₂ (fun p x => p.1.Assigns p.2 x)
    (ss.flatMap fun s => s.2.ips.map (s.2, ·)) a.addresses
  routes : ∃ routes, List.Forall₂ RouteSource.Gives (ss.flatMap fun s => s.2.routeSources s.1)
    routes ∧ a.routes.eraseDups = routes.eraseDups
  dns : a.dns.eraseDups = (ss.flatMap fun s => s.2.dns).eraseDups

namespace Addressing

theorem flat_empty : Flat [] {} :=
  ⟨.nil, ⟨[], .nil, rfl⟩, rfl⟩

/-- What two runs of subnets give is merged to what both give. -/
theorem Flat.merge {ss ts : List (Bool × Subnet)} {a b : Addressing} (ha : Flat ss a)
    (hb : Flat ts b) : Flat (ss ++ ts) (a.merge b) where
  addresses := by
    rw [List.flatMap_append]
    exact List.rel_append ha.addresses hb.addresses
  routes := by
    obtain ⟨rs, hrs, harepeat⟩ := ha.routes
    obtain ⟨qs, hqs, hbrepeat⟩ := hb.routes
    rw [List.flatMap_append]
    refine ⟨rs ++ qs, List.rel_append hrs hqs, ?_⟩
    show (appendNew a.routes b.routes).eraseDups = _
    rw [eraseDups_appendNew]
    exact eraseDups_append_congr harepeat hbrepeat
  dns := by
    rw [List.flatMap_append]
    show (appendNew a.dns b.dns).eraseDups = _
    rw [eraseDups_appendNew]
    exact eraseDups_append_congr ha.dns hb.dns

/-- What one subnet gives is everything that it says. -/
theorem flat_ofSubnet {isDefault : Bool} {s : Subnet} {a : Addressing}
    (h : ofSubnet isDefault s = .ok a) : Flat [(isDefault, s)] a := by
  obtain ⟨block, gateway, addresses, statics, hblock, hgateway, haddresses, hstatics, rfl⟩ :=
    ofSubnet_eq_ok_iff.1 h
  rw [(gatewayOf_eq_ok_iff.1 hgateway).2] at haddresses ⊢
  constructor
  · have hassigns : ∀ i x, addressIn s.cidr block s.gateway? i = .ok x →
        ∀ j : FixedIp, j.ipAddress = i → s.Assigns j x := by
      intro i x hx j hj
      obtain ⟨ip, hip, -, rfl, hlen, hgateway⟩ := addressIn_eq_ok_iff.1 hx
      exact ⟨hj ▸ hip, ⟨block, hblock, hlen.symm⟩, hgateway.symm⟩
    simp only [List.flatMap_cons, List.flatMap_nil, List.append_nil, List.forall₂_map_left_iff]
    exact (mapM_eq_ok_iff.1 haddresses).imp fun i x hx => hassigns _ _ hx i rfl
  · refine ⟨_, ?_, rfl⟩
    simp only [List.flatMap_cons, List.flatMap_nil, List.append_nil]
    unfold Subnet.routeSources
    refine List.rel_append ?_ ?_
    · split
      · cases s.gateway? with
        | none => exact .nil
        | some gateway => exact .cons (RouteSource.gives_toEverywhere gateway) .nil
      · exact .nil
    · rw [List.forall₂_map_left_iff]
      exact (mapM_eq_ok_iff.1 hstatics).imp fun r q hq => staticRoute_eq_ok_iff.1 hq
  · simp

/-! ## Folds -/

section

variable {α : Type} {f : α → Except RouteError Addressing} {xs : List α} {a b : Addressing}

/-- Merging goes through exactly if there is something to merge at each step. -/
theorem exists_foldlM_merge_iff :
    (∃ b, xs.foldlM (fun acc x => do return acc.merge (← f x)) a = .ok b) ↔
      ∀ x ∈ xs, ∃ y, f x = .ok y := by
  induction xs generalizing a with
  | nil => simp [pure, Except.pure]
  | cons x xs ih =>
    rw [List.foldlM_cons, List.forall_mem_cons]
    cases hx : f x with
    | error e => simp [bind, Except.bind]
    | ok y =>
      have hrest := ih (a := a.merge y)
      simp only [Except.ok.injEq, exists_eq', true_and]
      exact hrest

/-- If each step gives what some subnets say, the fold gives what all of them say. -/
theorem foldlM_flat {ss : α → List (Bool × Subnet)} {ts : List (Bool × Subnet)}
    (hf : ∀ x ∈ xs, ∀ y, f x = .ok y → Flat (ss x) y) (ha : Flat ts a)
    (h : xs.foldlM (fun acc x => do return acc.merge (← f x)) a = .ok b) :
    Flat (ts ++ xs.flatMap ss) b := by
  induction xs generalizing a ts with
  | nil =>
    cases h
    rw [List.flatMap_nil, List.append_nil]
    exact ha
  | cons x xs ih =>
    rw [List.foldlM_cons, bind_eq_ok_iff] at h
    obtain ⟨a', hstep, hrest⟩ := h
    obtain ⟨y, hy, hmerged⟩ := bind_eq_ok_iff.1 hstep
    cases hmerged
    have hmerge := ha.merge (hf x List.mem_cons_self y hy)
    rw [List.flatMap_cons, ← List.append_assoc]
    exact ih (fun x hx => hf x (List.mem_cons_of_mem _ hx)) hmerge hrest

end

theorem exists_ofVif_iff {e : VifEntry} :
    (∃ a, ofVif e = .ok a) ↔ ∀ s ∈ e.vif.network.subnets, ¬ s.Faulty := by
  unfold ofVif
  rw [exists_foldlM_merge_iff]
  simp only [ofSubnet_isOk_iff]

theorem flat_ofVif {e : VifEntry} {a : Addressing} (h : ofVif e = .ok a) :
    Flat (e.vif.network.subnets.map (e.isDefault, ·)) a := by
  have hflat := foldlM_flat (fun s _ _ hs => flat_ofSubnet hs) flat_empty h
  rw [List.nil_append, ← List.map_eq_flatMap] at hflat
  exact hflat

theorem exists_ofVifs_iff (es : List VifEntry) :
    (∃ a, ofVifs es = .ok a) ↔ ∀ e ∈ es, ∀ s ∈ e.vif.network.subnets, ¬ s.Faulty := by
  unfold ofVifs
  rw [exists_foldlM_merge_iff]
  simp only [exists_ofVif_iff]

theorem flat_ofVifs {es : List VifEntry} {a : Addressing} (h : ofVifs es = .ok a) :
    Flat (es.flatMap fun e => e.vif.network.subnets.map (e.isDefault, ·)) a := by
  have hflat := foldlM_flat (fun e _ _ he => flat_ofVif he) flat_empty h
  rw [List.nil_append] at hflat
  exact hflat

/-- Neither the routes nor the servers of an interface are repeated. -/
theorem nodup_ofVifs {es : List VifEntry} {a : Addressing} (h : ofVifs es = .ok a) :
    a.routes.Nodup ∧ a.dns.Nodup := by
  refine foldlM_invariant (P := fun a : Addressing => a.routes.Nodup ∧ a.dns.Nodup) ?_
    ⟨List.nodup_nil, List.nodup_nil⟩ h
  intro a e b hb ha
  obtain ⟨c, -, hmerged⟩ := bind_eq_ok_iff.1 hb
  cases hmerged
  exact ⟨nodup_appendNew ha.1 c.routes, nodup_appendNew ha.2 c.dns⟩

end Addressing

/-! ## Calls -/

theorem Cni.ResultRoute.ofRoute_injective {r r' : Route}
    (h : ResultRoute.ofRoute r = ResultRoute.ofRoute r') : r = r' := by
  cases r
  cases r'
  cases h
  rfl

/-- Nothing can be had from a descriptor for an interface: no entry is for it, or a subnet of one
that is has something wrong with it. -/
def Descriptor.Unusable (d : Descriptor) (ifname : String) : Prop :=
  (∀ e ∈ d.vifs, e.ifName ≠ ifname) ∨
    ∃ e ∈ d.vifs, e.ifName = ifname ∧ ∃ s ∈ e.vif.network.subnets, s.Faulty

/-- The subnets of the entries for an interface, one after the other.  With each comes whether
default routes lead through it. -/
def Descriptor.subnetsFor (d : Descriptor) (ifname : String) : List (Bool × Subnet) :=
  (d.matching ifname).flatMap fun e => e.vif.network.subnets.map (e.isDefault, ·)

/-- A result lists what subnets say. -/
structure Cni.Result.Lists (r : Cni.Result) (network : Cni.NetConf) (ss : List (Bool × Subnet)) :
    Prop where
  /-- All assigned addresses in order; the interface of the container is the one after the
  node's. -/
  ips : ∃ as, List.Forall₂ (fun p a => p.1.Assigns p.2 a)
      (ss.flatMap fun s => s.2.ips.map (s.2, ·)) as ∧
    r.ips = as.map fun a => ⟨some 1, a.address, a.gateway⟩
  /-- All routes in order, each where it comes first. -/
  routes : ∃ routes, List.Forall₂ RouteSource.Gives (ss.flatMap fun s => s.2.routeSources s.1)
      routes ∧
    r.routes = routes.eraseDups.map Cni.ResultRoute.ofRoute
  nameservers : r.dns.nameservers =
    if network.runtimeDns.servers ≠ [] then network.runtimeDns.servers
    else if network.dns.nameservers ≠ [] then network.dns.nameservers
    else (ss.flatMap fun s => s.2.dns).eraseDups

namespace Agent

theorem matching_eq_nil_iff (d : Descriptor) (ifname : String) :
    d.matching ifname = [] ↔ ∀ e ∈ d.vifs, e.ifName ≠ ifname := by
  simp [Descriptor.matching]

/-- The result, which leaves out repeats of its own, has all routes that were merged. -/
theorem routes_resultFor {c : Cni.Call} {a : Addressing} (hnodup : a.routes.Nodup) :
    (Plan.resultFor c a).routes = a.routes.map Cni.ResultRoute.ofRoute := by
  have hmapped : ([] ++ a.routes.map Cni.ResultRoute.ofRoute).Nodup :=
    List.Pairwise.map Cni.ResultRoute.ofRoute
      (fun _ _ hne heq => hne (Cni.ResultRoute.ofRoute_injective heq)) hnodup
  exact appendNew_of_nodup hmapped

/-- The result of a call lists what the subnets say. -/
theorem lists_resultFor {c : Cni.Call} {es : List VifEntry} {a : Addressing}
    (h : Addressing.ofVifs es = .ok a) :
    (Plan.resultFor c a).Lists c.network
      (es.flatMap fun e => e.vif.network.subnets.map (e.isDefault, ·)) := by
  have hflat := Addressing.flat_ofVifs h
  obtain ⟨hroutes, hdns⟩ := Addressing.nodup_ofVifs h
  constructor
  · exact ⟨a.addresses, hflat.addresses, rfl⟩
  · obtain ⟨routes, hgives, hsame⟩ := hflat.routes
    rw [eraseDups_of_nodup hroutes] at hsame
    exact ⟨routes, hgives, hsame ▸ routes_resultFor hroutes⟩
  · have hservers := hflat.dns
    rw [eraseDups_of_nodup hdns] at hservers
    rw [← hservers]
    unfold Plan.resultFor Cni.Result.addAddressing Cni.NetConf.effectiveDns
    dsimp only
    cases c.network.runtimeDns.servers with
    | cons server servers => rfl
    | nil => cases c.network.dns.nameservers <;> rfl

/-- Something is wrong with the descriptor, or it is resolved. -/
theorem resolve_cases (c : Cni.Call) (d : Descriptor) :
    (d.Unusable c.ifname ∧
      ∃ message, Plan.resolve c d = .error ⟨.invalidNetworkConfig, message⟩) ∨
    (¬ d.Unusable c.ifname ∧
      ∃ r p, Plan.resolve c d = .ok (r, p) ∧ r.Lists c.network (d.subnetsFor c.ifname)) := by
  unfold Plan.resolve Descriptor.subnetsFor
  have hnone := matching_eq_nil_iff d c.ifname
  have hmem : ∀ e, e ∈ d.matching c.ifname ↔ e ∈ d.vifs ∧ e.ifName = c.ifname := by
    intro e
    rw [Descriptor.matching, List.mem_filter, beq_iff_eq]
  have hfaultless := Addressing.exists_ofVifs_iff (d.matching c.ifname)
  cases hmatching : d.matching c.ifname with
  | nil => exact .inl ⟨.inl (hnone.1 hmatching), _, rfl⟩
  | cons e es =>
    rw [hmatching] at hnone hmem hfaultless
    dsimp only
    cases haddressing : Addressing.ofVifs (e :: es) with
    | error err =>
      refine .inl ⟨.inr ?_, _, rfl⟩
      rw [haddressing] at hfaultless
      have hfaulty : ¬ ∀ e' ∈ e :: es, ∀ s ∈ e'.vif.network.subnets, ¬ s.Faulty := by
        intro h
        obtain ⟨a, ha⟩ := hfaultless.2 h
        cases ha
      push Not at hfaulty
      obtain ⟨e', he', s, hs, hfault⟩ := hfaulty
      obtain ⟨hvif, hname⟩ := (hmem e').1 he'
      exact ⟨e', hvif, hname, s, hs, hfault⟩
    | ok a =>
      refine .inr ⟨?_, _, _, rfl, lists_resultFor haddressing⟩
      intro hunusable
      cases hunusable with
      | inl hall => cases hnone.2 hall
      | inr hfaulty =>
        obtain ⟨e', hvif, hname, s, hs, hfault⟩ := hfaulty
        exact hfaultless.1 ⟨a, haddressing⟩ e' ((hmem e').2 ⟨hvif, hname⟩) s hs hfault

/-- A call cannot be resolved exactly if the descriptor is `Unusable` for its interface, and then
the configuration is said to be at fault.  Otherwise the result lists what the subnets say. -/
theorem resolve_flat (c : Cni.Call) (d : Descriptor) :
    ((∃ message, Plan.resolve c d = .error ⟨.invalidNetworkConfig, message⟩) ↔
      d.Unusable c.ifname) ∧
    ((∃ r p, Plan.resolve c d = .ok (r, p) ∧ r.Lists c.network (d.subnetsFor c.ifname)) ↔
      ¬ d.Unusable c.ifname) := by
  cases resolve_cases c d with
  | inl h =>
    obtain ⟨hunusable, message, herror⟩ := h
    simp [herror, hunusable]
  | inr h =>
    obtain ⟨husable, r, p, hok, hlists⟩ := h
    simp [hok, husable, hlists]

end Agent

end PodAttach
