import PodAttach.Proofs.Convergence
import PodAttach.Proofs.Directory
import PodAttach.Proofs.Recovery

/-!
# Attachments that outlast the agent

When the agent starts again it knows its attachments from the ports of the
switch, and the pods from the directory of descriptors.  An attachment is
kept if the two meet: the pod that was written onto its port has to be the
one that its file is listed as.

* `serveAlone_attaches`: what there is of an interface after an Add that attached it.
* `World.Restarted`: the world that a start finds.  Flows may be lost.
* `attachment_survives_restart`: the first pass after the start gives the interface its flows
  back and takes nothing of it away.
-/

namespace PodAttach

namespace Agent

variable {o : Options} {k : Conditions} {r : Cni.Request} {c : Cni.Call} {v w u : World}

/-! ## A fresh attachment -/

/-- All that there is of an interface that was attached. -/
def Plan.slot (k : Conditions) (c : Cni.Call) (p : Plan) : Slot :=
  ⟨some (p.recorded c ⟨k.uuid p.hostIfname, some k.ofport⟩), some (),
    some (portFor k p.hostIfname (p.attachment c).externalIds), some k.ofport⟩

theorem Slot.Attempts.eq_of_ok {p : Plan} {made torn : Bool} {bytes : Bytes} {s s' : Slot}
    (h : Slot.Attempts k c p s made torn (.ok bytes) s') : s' = p.slot k c := by
  cases h
  rfl

/-- An Add that succeeds, for a container without a record, is an attempt that succeeds. -/
theorem serveAlone_attempts (hnone : w.store.find? c.containerId = none)
    (hcommand : r.command = .add) (hdecode : decode o r.args = .ok c) (hinfra : c.isInfra = true)
    (hok : (serveAlone o k r w).1.isOk = true) :
    ∃ res p made torn bytes, Plans o k r c res p ∧
      Attempts k c p w made torn (.ok bytes) (serveAlone o k r w).2.world := by
  have hattached : (serveAlone o k r w).2.world.Attached c.containerId := by
    rcases serveAlone_add_ok hcommand hdecode hinfra hok with ⟨-, hattached⟩ | ⟨hsome, -⟩
    · exact hattached
    · rw [hnone] at hsome
      cases hsome
  have hserves := serveAlone_serves o k r w
  generalize serveAlone o k r w = served at hok hattached hserves ⊢
  obtain ⟨response, e⟩ := served
  cases hserves with
  | idle hquiet =>
    -- there is no record yet
    obtain ⟨a, ha, -⟩ := hattached
    rw [hquiet.1] at ha
    cases hnone.symm.trans ha
  | @attempts c' res p x _ _ hresponse hplans hnone' h =>
    obtain rfl : c = c' := Except.ok.inj (hdecode.symm.trans hplans.decoded)
    subst hresponse
    cases x with
    | error x => cases hok
    | ok bytes => exact ⟨res, p, _, _, bytes, hplans, h⟩
  | removes hcommand' => cases hcommand.symm.trans hcommand'

/-- It attaches the container as planned. -/
theorem serveAlone_attaches (hcoherent : w.store.Coherent)
    (hnone : w.store.find? c.containerId = none) (hcommand : r.command = .add)
    (hdecode : decode o r.args = .ok c) (hinfra : c.isInfra = true)
    (hok : (serveAlone o k r w).1.isOk = true) :
    ∃ res p, Plans o k r c res p ∧ (serveAlone o k r w).2.world.store.Coherent ∧
      (serveAlone o k r w).2.world.slot p.hostIfname = p.slot k c := by
  obtain ⟨res, p, made, torn, bytes, hplans, h⟩ :=
    serveAlone_attempts hnone hcommand hdecode hinfra hok
  exact ⟨res, p, hplans, h.coherent hcoherent, (h.slot_self hcoherent).eq_of_ok⟩

/-! ## Starting again -/

/-- What a start finds of the world that the agent left: its store is made of the ports, and the
flows may have been lost. -/
structure World.Restarted (v u : World) : Prop where
  store : u.store = .ofPorts v.bridge.ports.values
  ports : u.bridge.ports = v.bridge.ports
  pairs : u.pairs = v.pairs

/-- The UUIDs of ports tell them apart. -/
def World.Identified (w : World) : Prop :=
  ∀ n m p q, (w.slot n).port = some p → (w.slot m).port = some q → p.uuid = q.uuid → n = m

namespace World.Restarted

/-- A start finds the flows that are still there. -/
theorem of_flows (v : World) (flows : Table Nat) :
    v.Restarted { v.restart with bridge := { v.bridge with flows } } :=
  ⟨rfl, rfl, rfl⟩

/-- Each port of a container is recorded as it says. -/
theorem record_eq (h : v.Restarted u) (hports : v.bridge.ports.Distinct) (n : String) :
    (u.slot n).record = (v.slot n).port.bind Attachment.ofPort? := by
  rw [World.slot_record, h.store]
  exact Store.get?_ofPorts_values hports n

theorem apart (h : v.Restarted u) (hports : v.bridge.ports.Distinct)
    (huuids : v.Identified) : u.Apart where
  coherent := h.store ▸ Store.coherent_ofPorts _
  uuid {n a q} ha hq {m p} hp huuid := by
    rw [h.record_eq hports, Option.bind_eq_some_iff] at ha
    obtain ⟨p', hp', ha'⟩ := ha
    obtain rfl := Option.some.inj ((Attachment.port_of_ofPort? ha').symm.trans hq)
    rw [World.slot_port, h.ports] at hp
    exact huuids m n p p' hp hp' huuid

theorem slot_port (h : v.Restarted u) (n : String) : (u.slot n).port = (v.slot n).port := by
  rw [World.slot_port, h.ports, World.slot_port]

theorem slot_link (h : v.Restarted u) (n : String) : (u.slot n).link = (v.slot n).link := by
  rw [World.slot_link, h.pairs, World.slot_link]

end World.Restarted

/-- UUIDs that are handed out by names tell ports apart. -/
theorem World.Sound.identified {nameOf : String → String} (h : w.Sound nameOf) : w.Identified := by
  intro n m p q hp hq huuid
  rw [← (h.slot n).port p hp, huuid, (h.slot m).port q hq]

/-! ## Survival -/

/-- Whether a step takes the flows, the port or the link of an attachment away. -/
def Ask.takesFrom (a : Attachment) : Ask → Bool
  | .switch (.uninstallFlows name) => name == a.interfaceName
  | .switch (.deletePort uuid) => a.port.any fun q => q.uuid == uuid
  | .link (.teardown containerId name) => containerId == a.containerId || name == a.interfaceName
  | _ => false

/-- Dealing with attachments takes nothing away from one whose pod is there. -/
theorem Ask.DealsWith.takesFrom {keys : List String} {a b : Attachment} {q : Ask}
    (h : q.DealsWith keys b) (hw : w.Apart) (ha : (w.slot a.interfaceName).record = some a)
    (hb : (w.slot b.interfaceName).record = some b) (hkey : keys.contains a.podKey = true)
    (hport : ∀ p, a.port = some p → ∃ p', (w.slot a.interfaceName).port = some p' ∧
      p'.uuid = p.uuid) : q.takesFrom a = false := by
  -- what is taken away is another one's
  have hne : keys.contains b.podKey = false → b.interfaceName ≠ a.interfaceName := by
    intro hkey' heq
    rw [heq, ha] at hb
    rw [Option.some.inj hb, hkey'] at hkey
    cases hkey
  cases h with
  | uninstall hkey' => simpa [Ask.takesFrom] using hne hkey'
  | @deletePort q' hkey' hq' =>
    show (a.port.any fun q => q.uuid == q'.uuid) = false
    cases hq : a.port with
    | none => rfl
    | some q =>
      obtain ⟨p, hp, huuid⟩ := hport q hq
      refine beq_eq_false_iff_ne.2 fun heq => hne hkey' ?_
      exact (hw.uuid hb hq' hp (huuid.trans heq)).symm
  | teardown hkey' =>
    have hcontainer : b.containerId ≠ a.containerId :=
      fun heq => hne hkey' (hw.coherent.name_unique hb ha heq)
    simp [Ask.takesFrom, hcontainer, hne hkey']
  | _ => rfl

/-- If no call fails, then an interface of a pod that is there gets flows with the number that is
recorded of it. -/
theorem Slot.Deals.of_number {keys : List String} {well : Prop} {a : Attachment} {s s' : Slot}
    {f : Fate} {q : AttachedPort} {m : Nat} (h : Slot.Deals keys well a s f s') (hwell : well)
    (hkey : keys.contains a.podKey = true) (hport : a.port = some q) (hofport : q.ofport = some m) :
    f = .replayed ∧ s' = { s with flows := some m } := by
  cases h with
  | replayed _ hport' hofport' =>
    obtain rfl := Option.some.inj (hport.symm.trans hport')
    rcases hofport' with hsome | ⟨hnone, -⟩
    · rw [Option.some.inj (hofport.symm.trans hsome)]
      exact ⟨rfl, rfl⟩
    · cases hofport.symm.trans hnone
  | unreplayed _ hnumber =>
    have hnone := hnumber hwell
    rw [hport] at hnone
    cases hofport.symm.trans hnone
  | removed hkey' => cases hkey.symm.trans hkey'
  | unremoved hkey' => cases hkey.symm.trans hkey'

/-- An interface that an Add attached outlasts the agent: the first pass after the next start finds
its pod in the directory, installs its flows again, leaves all else of it as it was, and asks for
nothing of it to go. -/
theorem attachment_survives_restart {dir dir' : DescriptorDir} {k' : Conditions}
    (hcoherent : w.store.Coherent) (hnone : w.store.find? c.containerId = none)
    (hcommand : r.command = .add) (hdecode : decode o r.args = .ok c) (hinfra : c.isInfra = true)
    (hdescriptor : k.descriptor = dir.get c.podNamespace c.podName)
    (hhost : ∀ d, k.descriptor = .ok d → d.hostNetwork = false)
    (hok : (serveAlone o k r w).1.isOk = true)
    (hports : (serveAlone o k r w).2.world.bridge.ports.Distinct)
    (huuids : (serveAlone o k r w).2.world.Identified)
    (hrestarted : (serveAlone o k r w).2.world.Restarted u)
    (hfile : dir'.read [c.podNamespace, DescriptorDir.fileName c.podName] =
      dir.read [c.podNamespace, DescriptorDir.fileName c.podName])
    (hpods : k'.pods = dir'.pods) (hwell : ∀ place, k'.mishap place = none) :
    ∃ a q m report,
      (serveAlone o k r w).2.world.store.find? c.containerId = some a ∧ a.port = some q ∧
        q.ofport = some m ∧
        (passAlone k' u).1 = .ok report ∧ a.interfaceName ∈ report.replayed ∧
        (passAlone k' u).2.world.slot a.interfaceName =
          (serveAlone o k r w).2.world.slot a.interfaceName ∧
        Attachment.installed a m ∈ (passAlone k' u).2.log ∧
        ∀ ev ∈ (passAlone k' u).2.log, ev.asked.takesFrom a = false := by
  obtain ⟨res, p, hplans, hcoherent', hslot⟩ :=
    serveAlone_attaches hcoherent hnone hcommand hdecode hinfra hok
  generalize (serveAlone o k r w).2.world = v at hports huuids hrestarted hcoherent' hslot ⊢
  -- the pod is listed
  obtain ⟨d, hd, -⟩ := hplans.planned
  obtain ⟨hpart, content, hread, hparse⟩ := DescriptorDir.get_ok (hdescriptor.symm.trans hd)
  obtain ⟨ps, hps, hmem⟩ := DescriptorDir.mem_pods hpart (hfile.trans hread) hparse
  have hkey : (desired ps).contains (podKey c.podNamespace c.podName) = true := by
    rw [List.contains_iff_mem]
    exact List.mem_map.2 ⟨_, List.mem_filter.2 ⟨hmem, by simp [hhost d hd]⟩, rfl⟩
  -- the attachment is recorded again
  have hport : (v.slot p.hostIfname).port =
      some (portFor k p.hostIfname (p.attachment c).externalIds) := by rw [hslot, Plan.slot]
  have hrecord : (u.slot p.hostIfname).record =
      some (p.recorded c ⟨k.uuid p.hostIfname, some k.ofport⟩) := by
    rw [hrestarted.record_eq hports, hport]
    exact ofPort?_portFor k c p
  have hfound : v.store.find? c.containerId =
      some (p.recorded c ⟨k.uuid p.hostIfname, some k.ofport⟩) :=
    (World.find?_eq_some_iff hcoherent').2 ⟨congrArg Slot.record hslot, rfl⟩
  -- so it gets its flows back
  have hw := hrestarted.apart hports huuids
  obtain ⟨fate, hreport, hdealt, -⟩ := passAlone_deals (hpods.trans hps) hw
  have hdeal := hdealt _ _ hrecord
  obtain ⟨hfate, hflows⟩ := hdeal.slot.of_number hwell hkey rfl rfl
  have hsame : (passAlone k' u).2.world.slot p.hostIfname = v.slot p.hostIfname := by
    refine hflows.trans (Slot.ext ?_ ?_ ?_ ?_)
    · exact hrecord.trans (congrArg Slot.record hslot).symm
    · exact hrestarted.slot_link _
    · exact hrestarted.slot_port _
    · exact (congrArg Slot.flows hslot).symm
  obtain ⟨m, hm, hinstalled⟩ := hdeal.log hfate
  obtain rfl : k.ofport = m := Option.some.inj ((congrArg Slot.flows hflows).symm.trans hm)
  refine ⟨_, _, _, _, hfound, rfl, rfl, hreport, ?_, hsame, hinstalled, fun ev hev => ?_⟩
  · exact Report.mem_named.2 ⟨(World.mem_recorded hw.coherent).2 ⟨_, hrecord⟩, hfate⟩
  · rcases passAlone_asks (hpods.trans hps) hev with rfl | rfl | ⟨b, hb, hasked⟩
    · rfl
    · rfl
    · refine hasked.takesFrom hw hrecord (((list_records hw.coherent).1 b).1 hb) hkey ?_
      rintro q ⟨⟩
      exact ⟨_, (hrestarted.slot_port _).trans hport, rfl⟩

namespace Sample

/-- The directory with the descriptor of one pod. -/
def directory : DescriptorDir where
  root := "/run/pods"
  tree := some (.dir [("default", .dir [("p1.json", .file (Utf8.encode
    ("\x7b\"vifs\":[\x7b\"if_name\":\"eth0\",\"vif\":\x7b\"id\":\"vif1\"," ++
      "\"mac_address\":\"02:00:00:00:00:09\",\"network\":\x7b\"subnets\":[" ++
      "\x7b\"cidr\":\"10.0.0.0/24\",\"ips\":[\x7b\"ip_address\":\"10.0.0.5\"\x7d]\x7d]" ++
      "\x7d\x7d\x7d]\x7d")))])])

theorem directory_get : directory.get "default" "p1" = .ok descriptor := by
  have hget : (directory.get "default" "p1").toOption = some descriptor := by decide +kernel
  exact (eq_ok_getD (by rw [hget]; rfl) default).trans (by rw [hget]; rfl)

/-- An Add for the pod. -/
def listedAdd : Turn where
  request := ⟨.add, { args "c1" with args := "K8S_POD_NAMESPACE=default;K8S_POD_NAME=p1" }⟩
  conditions := conditions fun _ => none

/-- The decoded call of the Add. -/
def listedCall : Cni.Call :=
  (decode {} listedAdd.request.args).toOption.getD default

/-- The world after the Add. -/
def withPod : World := (serveAlone {} listedAdd.conditions listedAdd.request {}).2.world

/-- A start that finds no flows. -/
def flowless : World :=
  { withPod.restart with bridge := { withPod.bridge with flows := .empty } }

/-- A node that lists the directory. -/
def listingDirectory : Conditions :=
  { conditions fun _ => none with pods := directory.pods }

end Sample

/-- An interface has its flows again that were lost with the agent. -/
theorem attachment_survives_lost_flows :
    (Sample.flowless.slot Sample.name).flows = none ∧
      ∃ a q m report, Sample.withPod.store.find? "c1" = some a ∧ a.port = some q ∧
        q.ofport = some m ∧
        (passAlone Sample.listingDirectory Sample.flowless).1 = .ok report ∧
        a.interfaceName ∈ report.replayed ∧
        (passAlone Sample.listingDirectory Sample.flowless).2.world.slot a.interfaceName =
          Sample.withPod.slot a.interfaceName ∧
        Attachment.installed a m ∈ (passAlone Sample.listingDirectory Sample.flowless).2.log ∧
        ∀ ev ∈ (passAlone Sample.listingDirectory Sample.flowless).2.log,
          ev.asked.takesFrom a = false := by
  have horderly : Sample.withPod.Orderly Sample.nameOf :=
    World.Orderly.job (j := .serve Sample.listedAdd) (World.Orderly.empty Sample.nameOf .empty)
      Sample.nameOf_uuidOf
  have hdecode : decode {} Sample.listedAdd.request.args = .ok Sample.listedCall :=
    Sample.eq_ok_getD (by decide +kernel) default
  have hcontainer : Sample.listedCall.containerId = "c1" := by decide +kernel
  have hnamespace : Sample.listedCall.podNamespace = "default" := by decide +kernel
  have hname : Sample.listedCall.podName = "p1" := by decide +kernel
  have hdescriptor : Sample.listedAdd.conditions.descriptor =
      Sample.directory.get Sample.listedCall.podNamespace Sample.listedCall.podName := by
    rw [hnamespace, hname, Sample.directory_get]
    rfl
  have hworld : (serveAlone {} Sample.listedAdd.conditions Sample.listedAdd.request {}).2.world =
      Sample.withPod := rfl
  have hwell : ∀ place, Sample.listingDirectory.mishap place = none := fun _ => rfl
  have hpods : Sample.listingDirectory.pods = Sample.directory.pods := rfl
  have hsurvives := attachment_survives_restart (o := {}) (w := {}) (u := Sample.flowless)
    Store.coherent_empty rfl rfl hdecode (by decide +kernel) hdescriptor (by rintro d ⟨⟩; rfl)
    (by decide +kernel) (by rw [hworld]; exact horderly.accounted.distinct)
    (by rw [hworld]; exact horderly.sound.identified)
    (by rw [hworld]; exact World.Restarted.of_flows _ .empty) rfl hpods hwell
  rw [hcontainer, hworld] at hsurvives
  exact ⟨by decide +kernel, hsurvives⟩

end Agent

end PodAttach
