import PodAttach.Proofs.Agreement
import PodAttach.Proofs.Checking
import PodAttach.Proofs.Results

/-!
# Looking after attaching

What an Add leaves is what a Check looks for: the pair of links in the kernel,
the number of the port, and the result that the runtime may have kept.

* `Added.sound`: what an Add leaves is found as it was recorded.
* `Returned` is what a Check gets of the bytes that an Add answered, and `checkEarlier_added` says
  that this contradicts no record.  `parse?_configurationWith`: a configuration can bring it.
* `check_after_add`: a Check with the arguments of the Add succeeds, whatever supported version it
  declares and whether it brings the result of the Add or none.
-/

namespace PodAttach.Agent

open Activity Scenario

/-! ## After an Add -/

/-- What an Add leaves is found as it was recorded, as long as no call fails by itself. -/
theorem Added.sound {s s' : Site} {x : Made} {c : Cni.Call} {k : Conditions} (h : Added s x s')
    (hnumbered : s.netlab.machine.Numbered) (hnetns : x.plan.pair.netns = c.netns)
    (hifname : x.plan.pair.containerIfname = c.ifname) (hne : c.ifname ≠ "")
    (hcalm : ∀ place, k.mishap place = none) (hkernel : Link.Calm s'.netlab)
    (hearlier : ∀ v, c.network.prevResult = some v → Agrees v c.ifname x.attachment.mac) :
    Sound k s' c x.attachment ∧ Link.Truthful x.attachment.interfaceName s'.netlab ∧
      Link.Truthful c.ifname s'.netlab := by
  have hsame := Link.sameFiles_perform s.netlab (Link.buildPair s.netlab.own x.plan.pair)
  rw [h.built] at hsame
  obtain ⟨hstands, hhost, hcontainer⟩ := Link.buildPair_stands hnumbered (hifname ▸ hne)
    (congrArg Prod.fst h.built) (congrArg (·.2.machine) h.built).symm hsame hkernel
  rw [hnetns, hifname, ← hsame.own] at hstands
  rw [hifname] at hcontainer
  refine ⟨⟨hstands, ⟨x.ofport, ?_, ?_⟩, hearlier⟩, hhost, hcontainer⟩
  · have hname : x.attachment.interfaceName = x.plan.hostIfname := rfl
    unfold Site.reported? Switch.Bridge.ofport?
    rw [hcalm, h.ports, hname, Table.get?_insert, if_pos rfl]
    rfl
  · intro recorded hrecorded
    exact (Option.some.inj hrecorded).symm

/-- What is kept of the bytes that were answered, when they are handed in as an earlier result. -/
def Returned (bytes : Bytes) (v : Json) : Prop :=
  ∃ d, Json.Document.parse? bytes = some d ∧ d.value? (Json.maxDepth - 1) = some v

theorem Returned.unique {bytes : Bytes} {v v' : Json} (h : Returned bytes v)
    (h' : Returned bytes v') : v = v' := by
  obtain ⟨d, hd, hv⟩ := h
  obtain ⟨d', hd', hv'⟩ := h'
  obtain rfl := Option.some.inj (hd.symm.trans hd')
  exact Option.some.inj (hv.symm.trans hv')

/-! ## Configurations -/

/-- The configuration of a version that brings an earlier result. -/
def configurationWith (version : String) (earlier : Bytes) : Bytes :=
  Utf8.encodeChars ('\x7b' :: Json.stringChars "cniVersion" ++ ':' :: Json.stringChars version ++
    ',' :: Json.stringChars "prevResult" ++ [':']) ++ earlier ++ Utf8.encodeChars ['\x7d']

/-- The text of a result is an object. -/
theorem toJson_obj (res : Cni.Result) : ∃ members, res.toJson = .obj members := by
  unfold Cni.Result.toJson
  split
  · exact ⟨_, rfl⟩
  · exact ⟨_, rfl⟩

/-- The earlier result of a configuration is kept as a value. -/
theorem parse?_configurationWith (version : String) {res : Cni.Result}
    (hkept : res.toJson.Kept (Json.maxDepth - 1)) :
    ∃ network, Cni.NetConf.parse? (configurationWith version res.toBytes) = some network ∧
      network.cniVersion = version ∧ network.prevResult = some res.toJson.normal := by
  have hbytes : configurationWith version res.toBytes = Utf8.encodeChars
      (Json.obj [("cniVersion", .str version), ("prevResult", res.toJson)]).chars := by
    unfold configurationWith Cni.Result.toBytes
    rw [← Utf8.encodeChars_append, ← Utf8.encodeChars_append]
    simp [Json.chars, Json.membersChars]
  have hparse := Json.parse?_chars
    (j := .obj [("cniVersion", .str version), ("prevResult", res.toJson)])
    ⟨trivial, hkept.whole, trivial⟩
  have hvalue : (res.toJson.spelled).optional? (Json.Document.value? (Json.maxDepth - 1)) =
      some (some res.toJson.normal) := by
    have hkept' := Json.value?_spelled _ _ hkept
    obtain ⟨members, hmembers⟩ := toJson_obj res
    rw [hmembers] at hkept' ⊢
    exact congrArg (Option.map some) hkept'
  refine ⟨{ cniVersion := version, prevResult := some res.toJson.normal }, ?_, rfl, rfl⟩
  unfold Cni.NetConf.parse?
  rw [hbytes, hparse]
  dsimp only
  unfold Cni.NetConf.ofDocument?
  rw [Json.record?_spelled _ _ (by simp) (by simp [Json.hasRepeat])]
  simp [Json.Fields.withDefault?, Table.lookup_cons, Json.text?_spelled, hvalue]

/-- A configuration of a supported version that brings no earlier result, or the one that was
answered. -/
def Repeats (answered configuration : Bytes) : Prop :=
  ∃ network, Cni.NetConf.parse? configuration = some network ∧
    Cni.isSupported network.cniVersion = true ∧
    ∀ v, network.prevResult = some v → Returned answered v

/-- The same arguments with another configuration are decoded alike. -/
theorem decode_with {o : Options} {args : Cni.CallArgs} {c : Cni.Call}
    (hdecode : decode o args = .ok c) {configuration : Bytes} {network : Cni.NetConf}
    (hnetwork : Cni.NetConf.parse? configuration = some network)
    (hsupported : Cni.isSupported network.cniVersion = true) :
    ∃ c', decode o { args with networkConfiguration := configuration } = .ok c' ∧
      c'.containerId = c.containerId ∧ c'.isInfra = c.isInfra ∧ c'.netns = c.netns ∧
      c'.ifname = c.ifname ∧ c'.network = network := by
  obtain ⟨_, pod, -, hpod, -, rfl⟩ := decode_eq_ok hdecode
  have hdecode' : decode o { args with networkConfiguration := configuration } = .ok {
      containerId := args.containerId
      infraContainerId := (Cni.Call.sandboxOf args.containerId args.netns).1
      isInfra := (Cni.Call.sandboxOf args.containerId args.netns).2
      netns := Cni.Call.netnsPath o.procRoot args.netns
      ifname := args.ifname
      cniVersion := network.cniVersion
      podName := pod.podName
      podNamespace := pod.podNamespace
      network
      args := { args with networkConfiguration := configuration } } := by
    unfold decode Cni.Call.decode
    dsimp only
    rw [hnetwork, hpod]
    exact if_pos hsupported
  exact ⟨_, hdecode', rfl, rfl, rfl, rfl, rfl⟩

/-- The result of an Add does not contradict what is recorded. -/
theorem checkEarlier_added {s s' : Site} {x : Made} (h : Added s x s') (res : Cni.Result)
    (hne : x.plan.pair.containerIfname ≠ x.plan.pair.hostIfname) :
    checkEarlier (resultOfPair res x.pair).toJson.normal x.plan.pair.containerIfname
      x.plan.pair.mac = .ok () := by
  obtain ⟨hhost, -, hcontainer⟩ := h.pair_names
  refine checkEarlier_normal fun i hi hname => ?_
  have hmem : i = { name := x.pair.host.name, mac := x.pair.host.mac } ∨
      i = { name := x.pair.container.name, mac := x.pair.container.mac,
            sandbox := x.pair.container.sandbox } := by
    simpa [resultOfPair, Cni.Result.withInterfaces] using hi
  rcases hmem with rfl | rfl
  · exact absurd (hname.symm.trans hhost) hne
  · show Text.sameLetters x.pair.container.mac x.plan.pair.mac = true
    rw [hcontainer]
    unfold Text.sameLetters
    rw [Text.lower_lower]
    exact beq_self_eq_true _

/-- After an Add for a sandbox without a record that succeeds, a Check with the same arguments
succeeds: without an earlier result, and with the one that the Add answered, whatever supported
versions the two requests are of.  The interface that is asked for has a name, and it is not the one
of the host's end.

The kernel has numbers left that are those of no link, as it always has (`Site.numbered_run`), and
no call of the Check fails by itself. -/
theorem check_after_add {o : Options} {k : Conditions} {r : Cni.Request} {s : Site} {c : Cni.Call}
    (hcommand : r.command = .add) (hdecode : decode o r.args = .ok c) (hinfra : c.isInfra = true)
    (hnumbered : s.netlab.machine.Numbered) (hfresh : s.store.find? c.containerId = none)
    (hok : (serveOn o k r s).1.isOk = true) (hnonempty : c.ifname ≠ "")
    (hhost : ∀ d e rest, k.descriptor = .ok d → d.matching c.ifname = e :: rest →
      c.ifname ≠ Net.LinkName.host e.vif.id)
    (hkernel : Link.Calm (serveOn o k r s).2.site.netlab) :
    (∀ version, ∃ network v,
      Cni.NetConf.parse? (configurationWith version (serveOn o k r s).1.result) = some network ∧
      network.cniVersion = version ∧ network.prevResult = some v ∧
      Returned (serveOn o k r s).1.result v) ∧
    ∀ (k' : Conditions) (configuration : Bytes), (∀ place, k'.mishap place = none) →
      Repeats (serveOn o k r s).1.result configuration →
      (serveOn o k' ⟨.check, { r.args with networkConfiguration := configuration }⟩
        (serveOn o k r s).2.site).1 = ⟨[], none⟩ := by
  obtain ⟨d, res, x, hd, rfl, hplan, -, hresponse, hadded⟩ :=
    serveOn_added hcommand hdecode hinfra hfresh hok
  obtain ⟨e, rest, hmatching, hname, -, hnetns, hifname, -, -, -, hinterfaces⟩ := resolve_ok hplan
  have hne : x.plan.pair.containerIfname ≠ x.plan.pair.hostIfname := by
    have hname' : x.plan.pair.hostIfname = Net.LinkName.host e.vif.id := hname
    rw [hifname, hname']
    exact hhost d e rest hd hmatching
  have hkept : (resultOfPair res x.pair).toJson.Kept (Json.maxDepth - 1) := by
    show (resultOfPair res x.pair).toJson.Kept (122 + 4)
    refine Cni.Result.kept_toJson fun i hi n hn => ?_
    have hone := (hinterfaces i hi).symm.trans hn
    cases hone
    decide
  have hreturned : Returned (resultOfPair res x.pair).toBytes
      (resultOfPair res x.pair).toJson.normal := Json.kept_chars hkept
  rw [hresponse]
  constructor
  · intro version
    obtain ⟨network, hparse, hversion, hprev⟩ := parse?_configurationWith version hkept
    exact ⟨network, _, hparse, hversion, hprev, hreturned⟩
  · rintro k' configuration hcalm ⟨network, hnetwork, hsupported, hprev⟩
    obtain ⟨c', hdecode', hcontainer', hinfra', hnetns', hifname', rfl⟩ :=
      decode_with hdecode hnetwork hsupported
    have hearlier : ∀ v, c'.network.prevResult = some v →
        Agrees v c'.ifname x.plan.pair.mac := by
      intro v hv
      obtain rfl := (hprev v hv).unique hreturned
      have hagrees := checkEarlier_added hadded res hne
      rw [hifname, ← hifname'] at hagrees
      exact checkEarlier_eq_ok_iff.1 hagrees
    obtain ⟨hsound, hhost, hcontainer⟩ := hadded.sound (k := k') hnumbered
      (hnetns.trans hnetns'.symm) (hifname.trans hifname'.symm) (hifname' ▸ hnonempty) hcalm hkernel
      hearlier
    have hrecord : (serveOn o k r s).2.site.store.find? c'.containerId = some x.attachment := by
      rw [hcontainer', hadded.store]
      exact Store.find?_add_self s.store x.attachment
    refine (serveOn_check rfl hdecode' (hinfra'.trans hinfra) (fun a ha => ?_)
      hcontainer).eq_of_sound hrecord hsound
    obtain rfl := Option.some.inj (hrecord.symm.trans ha)
    exact hhost

/-- A Check of another version that brings the result of the Add finds `eth0` as it was left. -/
theorem eth0_found_as_left :
    (serveOn {} (Sample.conditions fun _ => none)
      ⟨.check, { Sample.args "c1" with
        networkConfiguration := configurationWith "0.2.0"
          (serveOn {} (Sample.conditions fun _ => none) ⟨.add, Sample.args "c1"⟩
            Sample.site).1.result }⟩
      (serveOn {} (Sample.conditions fun _ => none) ⟨.add, Sample.args "c1"⟩
        Sample.site).2.site).1 = ⟨[], none⟩ := by
  have hplans := Sample.plans fun _ => none
  have hifname : (Sample.call "c1").ifname = "eth0" := by decide +kernel
  have hfirst : Sample.descriptor.matching (Sample.call "c1").ifname = Sample.descriptor.vifs := by
    decide +kernel
  obtain ⟨hbrings, hcheck⟩ := check_after_add hplans.command hplans.decoded hplans.infra
    (Kernel.Machine.numbered_ofSpaces ["host", "net"]) rfl Sample.serveOn_isOk
    (by rw [hifname]; decide)
    (by
      intro d e rest hd hmatching
      obtain rfl : Sample.descriptor = d := Except.ok.inj hd
      obtain ⟨rfl, -⟩ := List.cons.inj (hfirst.symm.trans hmatching)
      rw [hifname]
      decide +kernel)
    (by unfold Link.Calm; decide +kernel)
  obtain ⟨network, v, hparse, hversion, hprev, hreturned⟩ := hbrings "0.2.0"
  refine hcheck (Sample.conditions fun _ => none) _ (fun _ => rfl)
    ⟨network, hparse, by rw [hversion]; decide, fun v' hv' => ?_⟩
  rw [hprev] at hv'
  obtain rfl := Option.some.inj hv'
  exact hreturned

end PodAttach.Agent
