import PodAttach.Proofs.Flattening
import PodAttach.Proofs.History

/-!
# Adding a container again

An Add for a container that has a record builds nothing.  What it answers
comes from two places: the interfaces from the record, and all else from the
descriptor that the pod has by then.  The descriptor may have been written
anew since the interface was attached.

* `serve_recorded`: such an Add asks for the descriptor and the record, and for nothing to be done.
* `Cni.Result.Lists.ips_eq_iff`: the addresses of a result are those that the descriptor spells.
* `repeated_add_recorded_iff`: so the answer has the recorded addresses exactly if the descriptor
  still has them.
-/

namespace PodAttach

open Net

/-- The addresses that a descriptor assigns to an interface, as they are written. -/
def Descriptor.addressTexts (d : Descriptor) (ifname : String) : List String :=
  (d.subnetsFor ifname).flatMap fun s => s.2.ips.map FixedIp.ipAddress

/-- A result has given addresses if they are what the subnets spell. -/
theorem Cni.Result.Lists.ips_eq_iff {r : Cni.Result} {network : Cni.NetConf}
    {ss : List (Bool × Subnet)} (h : r.Lists network ss) {ips : List Ip} :
    r.addresses.map Cidr.ip = ips ↔
      (ss.flatMap fun s => s.2.ips.map FixedIp.ipAddress).map Ip.parse? = ips.map some := by
  obtain ⟨as, hassigned, hips⟩ := h.ips
  have hresult : r.addresses.map Cidr.ip = as.map fun a => a.address.ip := by
    rw [addresses, hips, List.map_map, List.map_map]
    rfl
  have hspelled : (ss.flatMap fun s => s.2.ips.map FixedIp.ipAddress).map Ip.parse? =
      (as.map fun a => a.address.ip).map some := by
    have hpairs : (ss.flatMap fun s => s.2.ips.map FixedIp.ipAddress).map Ip.parse? =
        (ss.flatMap fun s => s.2.ips.map (s.2, ·)).map fun p => Ip.parse? p.2.ipAddress := by
      simp [List.map_flatMap, Function.comp_def]
    rw [hpairs, List.map_map, ← List.forall₂_eq_eq_eq, List.forall₂_map_left_iff,
      List.forall₂_map_right_iff]
    exact hassigned.imp fun _ _ ha => ha.ip
  rw [hresult, hspelled]
  have hsome : Function.Injective (some : Ip → Option Ip) := fun _ _ h => Option.some.inj h
  exact (List.map_injective_iff.2 hsome).eq_iff.symm

namespace Agent

variable {o : Options} {k : Conditions} {r : Cni.Request} {w : World} {c : Cni.Call}
  {a : Attachment}

/-- An Add for a sandbox that has a record does nothing.  If it succeeds, it answers with the
interfaces of the record and what else the descriptor of the pod comes to. -/
theorem serve_recorded (hcommand : r.command = .add) (hdecode : decode o r.args = .ok c)
    (hinfra : c.isInfra = true) (hrecord : w.store.find? c.containerId = some a) :
    (serve o r).Ensures (mayAnswer k fun _ => True) ⟨w, []⟩ fun x e =>
      e.world = w ∧ (∀ ev ∈ e.log, ev.asked.isCall = false) ∧
        ∀ bytes, x = .ok bytes → ∃ d res p, k.descriptor = .ok d ∧
          Plan.resolve c d = .ok (res, p) ∧ bytes = (resultOfAttachment c res a).toBytes := by
  rw [serve, hcommand]
  simp only [add, hdecode, Proc.ensures_bind, ensures_awaitReady]
  intro _
  split
  · rw [ensures_locked, addLocked, Proc.ensures_bind, ensures_descriptor]
    intro _ _
    cases hdescriptor : k.descriptor with
    | error e => simp [Ask.isCall]
    | ok d =>
      cases hplan : Plan.resolve c d with
      | error e => simp [hplan, Ask.isCall]
      | ok planned =>
        simp only [hplan, if_pos hinfra, Proc.ensures_bind, ensures_attachmentOf,
          Episode.push_world, hrecord]
        intro _ _
        refine ⟨rfl, by simp [Ask.isCall], ?_⟩
        rintro bytes ⟨⟩
        exact ⟨d, planned.1, planned.2, rfl, hplan, rfl⟩
  · simp [Ask.isCall]

/-- A successful Add for a sandbox that has a record leaves the node as it is and calls neither
the switch nor the links.  The interfaces of its result are the recorded ones; all else is what
the descriptor of the pod says by then.  So the addresses of the result are the recorded ones
exactly if the descriptor still assigns them, in the same order. -/
theorem repeated_add_recorded_iff (hcommand : r.command = .add)
    (hdecode : decode o r.args = .ok c) (hinfra : c.isInfra = true)
    (hrecord : w.store.find? c.containerId = some a)
    (hok : (serveAlone o k r w).1.isOk = true) :
    (serveAlone o k r w).2.world = w ∧
      (∀ ev ∈ (serveAlone o k r w).2.log, ev.asked.isCall = false) ∧
      ∃ (d : Descriptor) (res : Cni.Result), k.descriptor = .ok d ∧
        (serveAlone o k r w).1 = .ofExcept (.ok res.toBytes) ∧
        res.interfaces = [{ name := a.interfaceName },
          { name := c.ifname, mac := a.mac, sandbox := c.netns }] ∧
        res.Lists c.network (d.subnetsFor c.ifname) ∧
        (res.addresses.map Cidr.ip = a.ips ↔
          (d.addressTexts c.ifname).map Ip.parse? = a.ips.map some) := by
  obtain ⟨x, hresponse, hworld, hlog, hbytes⟩ :=
    serveAlone_ends (serve_recorded (k := k) hcommand hdecode hinfra hrecord)
  refine ⟨hworld, hlog, ?_⟩
  cases x with
  | error e =>
    rw [hresponse] at hok
    cases hok
  | ok bytes =>
    obtain ⟨d, res, p, hdescriptor, hplan, rfl⟩ := hbytes bytes rfl
    have hlists : res.Lists c.network (d.subnetsFor c.ifname) := by
      rcases resolve_cases c d with ⟨-, message, herror⟩ | ⟨-, r', p', hok', hlists⟩
      · cases hplan.symm.trans herror
      · obtain ⟨rfl, -⟩ := Prod.mk.inj (Except.ok.inj (hplan.symm.trans hok'))
        exact hlists
    have htold : (resultOfAttachment c res a).Lists c.network (d.subnetsFor c.ifname) :=
      ⟨hlists.ips, hlists.routes, hlists.nameservers⟩
    exact ⟨d, resultOfAttachment c res a, hdescriptor, hresponse, rfl, htold, htold.ips_eq_iff⟩

namespace Sample

/-- The pod is given another address. -/
def readdressed : Descriptor where
  vifs := descriptor.vifs.map fun e => { e with
    vif := { e.vif with network := { e.vif.network with
      subnets := [{ cidr := "10.0.0.0/24", ips := [{ ipAddress := "10.0.0.9" }] }] } } }

/-- The node after the pod was added. -/
def added : World :=
  (serveAlone {} (conditions fun _ => none) ⟨.add, args "c1"⟩ {}).2.world

/-- A node that knows of the new address of the pod. -/
def later : Conditions :=
  { conditions fun _ => none with descriptor := .ok readdressed }

end Sample

/-- A pod that was given another address after it was added: a second Add changes nothing and
succeeds, and its result does not have the address that the interface has. -/
theorem repeated_add_tells_new_address :
    ∃ (a : Attachment) (res : Cni.Result),
      Sample.added.store.find? "c1" = some a ∧
      (serveAlone {} Sample.later ⟨.add, Sample.args "c1"⟩ Sample.added).2.world = Sample.added ∧
      (serveAlone {} Sample.later ⟨.add, Sample.args "c1"⟩ Sample.added).1 =
        .ofExcept (.ok res.toBytes) ∧
      res.addresses.map Cidr.ip ≠ a.ips := by
  have hid : (Sample.call "c1").containerId = "c1" := by decide +kernel
  have hifname : (Sample.call "c1").ifname = "eth0" := by decide +kernel
  have hfound : (Sample.added.store.find? "c1").isSome = true := by decide +kernel
  obtain ⟨a, ha⟩ := Option.isSome_iff_exists.1 hfound
  have hok : (serveAlone {} Sample.later ⟨.add, Sample.args "c1"⟩ Sample.added).1.isOk = true := by
    decide +kernel
  obtain ⟨hworld, -, d, res, hdescriptor, hresponse, -, -, hips⟩ :=
    repeated_add_recorded_iff rfl (Sample.plans fun _ => none).decoded
      (Sample.plans fun _ => none).infra (hid ▸ ha) hok
  obtain rfl : Sample.readdressed = d := Except.ok.inj hdescriptor
  refine ⟨a, res, ha, hworld, hresponse, fun heq => ?_⟩
  have hspelled := hips.1 heq
  have hrecorded : (Sample.added.store.find? "c1").map (fun a => a.ips.map some) =
      some ((Sample.descriptor.addressTexts "eth0").map Ip.parse?) := by
    decide +kernel
  rw [ha, Option.map_some, Option.some.injEq] at hrecorded
  rw [hifname, hrecorded] at hspelled
  have hmoved : (Sample.readdressed.addressTexts "eth0").map Ip.parse? ≠
      (Sample.descriptor.addressTexts "eth0").map Ip.parse? := by
    decide +kernel
  exact hmoved hspelled

end Agent

end PodAttach
