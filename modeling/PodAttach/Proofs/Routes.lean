import PodAttach.Proofs.Flattening

/-!
# Routes to the same addresses

A route names its block by the least address, so whatever text it was
calculated from, routes through one gateway are equal exactly if they lead to
the same addresses.

* `Route.Canonical` says what a route has to do with its text, and `calculate_canonical` that a
  route that is calculated is canonical.
* `Route.Calculated.eq_iff_sameWay`: two calculated routes are equal exactly if they lead the
  same way.
* `routes_canonical`: all this of two texts, and what it means where routes are merged and where
  they are taken into a result: what is dropped is what leads the same way as a route before it.
-/

namespace PodAttach

open Net

namespace Route

/-- A route through a gateway is what a text says, in its one form. -/
structure Canonical (r : Route) (text : String) (gateway : Ip) : Prop where
  through : r.gateway = gateway
  /-- The network part is as long as the text says. -/
  len : ∃ ip, Cidr.Spells text.toList ip r.destination.len
  hostBits : ∀ i < r.destination.hostBits, r.destination.ip.bits.testBit i = false
  covers : ∀ a, r.destination.Covers a ↔ Cidr.Denotes text a
  /-- Its own text gives the same route again. -/
  again : calculate r.destination.render gateway = .ok r

/-- A route that is calculated from a text is canonical. -/
theorem calculate_canonical {text : String} {block : Cidr} {gateway : Ip}
    (hread : Cidr.parse? text = some block) (hfamily : block.family = gateway.family) :
    calculate text gateway = .ok ⟨block.network, gateway⟩ ∧
      Canonical ⟨block.network, gateway⟩ text gateway := by
  refine ⟨calculate_eq_ok_iff.2 ⟨block, hread, hfamily, rfl⟩, rfl, ?_, ?_, ?_, ?_⟩
  · exact ⟨block.ip, Cidr.ofChars?_eq_some_iff.1 hread⟩
  · intro i hi
    exact block.testBit_networkIp hi
  · intro a
    rw [Cidr.denotes_iff hread, Cidr.covers_network]
  · refine calculate_eq_ok_iff.2 ⟨block.network, Cidr.parse?_render block.network, hfamily, ?_⟩
    rw [Cidr.network_network]

/-- The route was calculated from some text. -/
def Calculated (r : Route) : Prop :=
  ∃ text, calculate text r.gateway = .ok r

/-- Two routes lead through one gateway to the same addresses. -/
def SameWay (q r : Route) : Prop :=
  q.gateway = r.gateway ∧ ∀ a, q.destination.Covers a ↔ r.destination.Covers a

theorem Calculated.spec {r : Route} (h : r.Calculated) :
    r.destination.network = r.destination ∧ r.destination.family = r.gateway.family := by
  obtain ⟨text, hcalculate⟩ := h
  obtain ⟨block, -, hfamily, hr⟩ := calculate_eq_ok_iff.1 hcalculate
  rw [hr] at hfamily ⊢
  exact ⟨block.network_network, hfamily⟩

/-- Two calculated routes are equal exactly if they lead the same way. -/
theorem Calculated.eq_iff_sameWay {q r : Route} (hq : q.Calculated) (hr : r.Calculated) :
    q = r ↔ q.SameWay r := by
  constructor
  · intro heq
    rw [heq]
    exact ⟨rfl, fun a => Iff.rfl⟩
  · intro hsame
    obtain ⟨hgateway, hcovers⟩ := hsame
    have hfamily : q.destination.family = r.destination.family := by
      rw [hq.spec.2, hr.spec.2, hgateway]
    have hnetwork := (Cidr.network_eq_iff hfamily).2 hcovers
    rw [hq.spec.1, hr.spec.1] at hnetwork
    cases q
    cases r
    simp_all

theorem calculated_of_gives {source : RouteSource} {r : Route} (h : source.Gives r) :
    r.Calculated := by
  cases h with
  | default hblock =>
    rename_i gateway block
    have heverywhere := Cidr.parse?_everywhereText gateway.family
    have hfamily : block.family = gateway.family := by
      rw [← Option.some.inj (heverywhere.symm.trans hblock)]
      cases gateway.family <;> rfl
    exact ⟨_, calculate_eq_ok_iff.2 ⟨block, hblock, hfamily, rfl⟩⟩
  | static hblock _ hfamily => exact ⟨_, calculate_eq_ok_iff.2 ⟨_, hblock, hfamily, rfl⟩⟩

end Route

/-- All routes of a virtual interface were calculated. -/
theorem Addressing.calculated_ofVif {e : VifEntry} {a : Addressing} (h : ofVif e = .ok a) :
    ∀ r ∈ a.routes, r.Calculated := by
  intro r hr
  obtain ⟨routes, hgives, hsame⟩ := (flat_ofVif h).routes
  have hmem : r ∈ routes := by
    rw [← List.mem_eraseDups, ← hsame, List.mem_eraseDups]
    exact hr
  obtain ⟨source, -, hsource⟩ := exists_of_mem_forall₂ hgives hmem
  exact Route.calculated_of_gives hsource

/-! ## Repeats -/

/-- A list grows by an item, unless the item repeats something. -/
inductive Grows {α : Type} (repeated : Prop) (x : α) (xs : List α) : List α → Prop where
  | dropped (h : repeated) : Grows repeated x xs xs
  | kept (h : ¬ repeated) : Grows repeated x xs (xs ++ [x])

theorem grows_appendNew {α : Type} [BEq α] [LawfulBEq α] (xs ys : List α) (y : α) :
    Grows (y ∈ xs ++ ys) y (appendNew xs ys) (appendNew xs (ys ++ [y])) := by
  rw [appendNew_concat]
  split
  · next hy => exact .dropped hy
  · next hy => exact .kept hy

theorem mem_iff_sameWay {rs : List Route} (hrs : ∀ q ∈ rs, q.Calculated) {r : Route}
    (hr : r.Calculated) : r ∈ rs ↔ ∃ q ∈ rs, q.SameWay r := by
  constructor
  · intro hmem
    exact ⟨r, hmem, rfl, fun a => Iff.rfl⟩
  · intro h
    obtain ⟨q, hq, hsame⟩ := h
    obtain rfl := ((hrs q hq).eq_iff_sameWay hr).2 hsame
    exact hq

/-- Two texts of one version give canonical routes through a gateway of that version, and these are
equal exactly if the texts stand for the same addresses.  All routes of a virtual interface are
calculated, and where calculated routes are merged and where they are taken into a result, a route
is dropped exactly if one before it leads the same way. -/
theorem routes_canonical {s t : String} {c d : Cidr} {g : Ip}
    (hs : Cidr.parse? s = some c) (ht : Cidr.parse? t = some d)
    (hc : c.family = g.family) (hd : d.family = g.family) :
    (∃ q r, Route.calculate s g = .ok q ∧ Route.calculate t g = .ok r ∧
      q.Canonical s g ∧ r.Canonical t g ∧
      (q = r ↔ ∀ a, Cidr.Denotes s a ↔ Cidr.Denotes t a)) ∧
    (∀ (e : VifEntry) (a : Addressing), Addressing.ofVif e = .ok a → ∀ r ∈ a.routes, r.Calculated) ∧
    (∀ (a b : Addressing) (r : Route), (∀ q ∈ a.routes ++ b.routes, q.Calculated) →
      r.Calculated → Grows (∃ q ∈ a.routes ++ b.routes, q.SameWay r) r (a.merge b).routes
        (a.merge { b with routes := b.routes ++ [r] }).routes) ∧
    ∀ (res : Cni.Result) (qs : List Route) (a : Addressing) (r : Route),
      res.routes = qs.map Cni.ResultRoute.ofRoute → (∀ q ∈ qs ++ a.routes, q.Calculated) →
      r.Calculated → Grows (∃ q ∈ qs ++ a.routes, q.SameWay r) (Cni.ResultRoute.ofRoute r)
        (res.addAddressing a).routes
        (res.addAddressing { a with routes := a.routes ++ [r] }).routes := by
  refine ⟨?_, fun _ _ => Addressing.calculated_ofVif, ?_, ?_⟩
  · obtain ⟨hq, hqcanonical⟩ := Route.calculate_canonical hs hc
    obtain ⟨hr, hrcanonical⟩ := Route.calculate_canonical ht hd
    refine ⟨_, _, hq, hr, hqcanonical, hrcanonical, ?_⟩
    simp only [Cidr.denotes_iff hs, Cidr.denotes_iff ht, Route.mk.injEq, and_true]
    exact Cidr.network_eq_iff (hc.trans hd.symm)
  · intro a b r hcalculated hr
    rw [← mem_iff_sameWay hcalculated hr]
    exact grows_appendNew a.routes b.routes r
  · intro res qs a r hres hcalculated hr
    have hmem : Cni.ResultRoute.ofRoute r ∈ res.routes ++ a.routes.map Cni.ResultRoute.ofRoute ↔
        ∃ q ∈ qs ++ a.routes, q.SameWay r := by
      rw [← mem_iff_sameWay hcalculated hr, hres, ← List.map_append,
        List.mem_map_of_injective fun _ _ => Cni.ResultRoute.ofRoute_injective]
    rw [← hmem]
    have hgrows := grows_appendNew res.routes (a.routes.map Cni.ResultRoute.ofRoute)
      (Cni.ResultRoute.ofRoute r)
    have hmap : (a.routes ++ [r]).map Cni.ResultRoute.ofRoute =
        a.routes.map Cni.ResultRoute.ofRoute ++ [Cni.ResultRoute.ofRoute r] := by simp
    unfold Cni.Result.addAddressing
    rw [hmap]
    exact hgrows

/-- Prefix length and netmask of one block: the routes are equal, so the texts stand for the same
addresses. -/
theorem sameAddresses_prefix_netmask :
    Cidr.parse? "10.0.0.7/24" = some ⟨Ip.ofBits .v4 0x0a000007, 24, by decide⟩ ∧
      Cidr.parse? "10.0.0.9/255.255.255.0" = some ⟨Ip.ofBits .v4 0x0a000009, 24, by decide⟩ ∧
      ∀ a, Cidr.Denotes "10.0.0.7/24" a ↔ Cidr.Denotes "10.0.0.9/255.255.255.0" a := by
  refine ⟨by decide, by decide, ?_⟩
  obtain ⟨q, r, hq, hr, -, -, hiff⟩ := (routes_canonical (s := "10.0.0.7/24")
    (t := "10.0.0.9/255.255.255.0") (c := ⟨Ip.ofBits .v4 0x0a000007, 24, by decide⟩)
    (d := ⟨Ip.ofBits .v4 0x0a000009, 24, by decide⟩) (g := Ip.ofBits .v4 0x0a000001)
    (by decide) (by decide) rfl rfl).1
  apply hiff.1
  have hsame : Route.calculate "10.0.0.7/24" (Ip.ofBits .v4 0x0a000001) =
      Route.calculate "10.0.0.9/255.255.255.0" (Ip.ofBits .v4 0x0a000001) := by decide
  rw [hq, hr] at hsame
  exact Except.ok.inj hsame

end PodAttach
