import PodAttach.Proofs.Blocks
import PodAttach.Proofs.Pairs

/-!
# Building a pair

A pair is made, and then it is configured in many steps, of which each may
fail.  What was made stays the pair that was begun (`Begun`) through all of
them, wherever the moved end is and whatever it is called, so it can be
removed by the name of the end that stays.

* `buildPair_names`: whatever the kernel answers, a pair that is built has the names and the
  hardware address of its plan.
* `ends_configurePair`: a pair that was made is configured as planned, or it can be removed still.
* `succeeds_teardownPair`: a pair that was begun is removed, and nothing else.
* `buildPair_atomic`: a pair is built as planned, or no link is left or lost.
-/

namespace PodAttach

open Net Kernel Scenario Link Kernel.Work

/-- The route to the whole network of its destination. -/
def Route.toNetwork (r : Route) : Route :=
  ⟨r.destination.network, r.gateway⟩

namespace Link

/-! ## Names -/

/-- Whatever the kernel answers, a pair that is built has the names and the hardware address of
its plan. -/
theorem buildPair_names {σ : Type} {R : Proc.Rules Kernel.Ask Kernel.Ask.Reply σ} {s : σ}
    (hasks : ∀ q s, R.asks q s) (own : Space) (spec : PairSpec) :
    Gives R s (buildPair own spec) fun pair _ =>
      pair.host.name = spec.hostIfname ∧ pair.host.sandbox = "" ∧
        pair.container = ⟨spec.containerIfname, Text.lower spec.mac, spec.netns⟩ := by
  unfold buildPair
  refine ends_bind (gives_trivial hasks _) fun mac s' _ => ?_
  refine ends_bind (gives_trivial hasks _) fun _ s' _ => ?_
  have hconfigured : Gives R s' (configurePair own spec mac) fun pair _ =>
      pair.host.name = spec.hostIfname ∧ pair.host.sandbox = "" ∧
        pair.container = ⟨spec.containerIfname, Text.lower spec.mac, spec.netns⟩ := by
    unfold configurePair
    refine ends_bind (gives_trivial hasks _) fun netns s' _ => ?_
    refine ends_bind (gives_trivial hasks _) fun _ s' _ => ?_
    refine ends_bind (gives_trivial hasks _) fun _ s' _ => ?_
    refine ends_bind (gives_trivial hasks _) fun inside s' _ => ?_
    refine ends_bind (gives_trivial hasks _) fun _ s' _ => ?_
    refine ends_bind (gives_trivial hasks _) fun host s' _ => ?_
    exact ends_pure ⟨rfl, rfl, rfl⟩
  refine ends_tryCatch hconfigured fun e s' _ => ?_
  exact ends_bind (gives_trivial hasks _) fun _ _ _ => ends_throw trivial

/-! ## What a link is given -/

/-- Whether a link is given an address or a route. -/
def isGift : Kernel.Ask → Bool
  | .request _ (.newAddress ..) => true
  | .request _ (.newRoute ..) => true
  | _ => false

/-- What links were given, in order. -/
def gifts (asked : List Kernel.Ask) : List Kernel.Ask :=
  asked.filter isGift

/-- Each of some addresses and then each of some routes once. -/
def giving (space : Space) (index : Nat) (addresses : List Cidr) (routes : List Route) :
    List Kernel.Ask :=
  addresses.map (fun a => .request space (.newAddress index a)) ++
    routes.map fun r => .request space (.newRoute index r.toNetwork)

/-! ## Single steps -/

variable {s : Netlab × List Kernel.Ask} {own space : Space} {name : String}

/-- A question that gives a link nothing. -/
theorem gifts_concat {q : Kernel.Ask} (hq : isGift q = false) (asked : List Kernel.Ask) :
    gifts (asked ++ [q]) = gifts asked := by
  simp [gifts, hq]

theorem ends_request {ε : Type} {r : Request} {wrap : Errno → ε} :
    Ends answering.keeping s (Work.request space r wrap)
      (fun v s' => s.1.machine.serve space r = (.ok v, s'.1.machine) ∧
        s'.2 = s.2 ++ [.request space r] ∧ SameFiles s.1 s'.1)
      fun s' => s'.1.machine = s.1.machine := by
  unfold Work.request
  refine ends_bind (ends_ask (q := .request space r) trivial fun _ _ hasked => hasked) ?_
  intro reply s' hasked
  obtain ⟨hanswer, hlog⟩ := hasked
  have hfiles := sameFiles_answer s.1 (.request space r)
  rw [hanswer] at hfiles
  rcases answer_request hanswer with ⟨e, hreply, hsame⟩ | ⟨v, hreply, hserve⟩
  · rw [hreply]
    exact ends_throw hsame
  · rw [hreply]
    exact ends_pure ⟨hserve, hlog, hfiles⟩

theorem ends_setLink {index : Nat} {change : Change} :
    Ends answering.keeping s (setLink space index change name)
      (fun _ s' => s.1.machine.setLink space index change = .ok s'.1.machine ∧
        gifts s'.2 = gifts s.2)
      fun s' => s'.1.machine = s.1.machine := by
  refine ends_request.mono (fun _ s' h => ⟨settle_ok h.1, ?_⟩) fun _ h => h
  rw [h.2.1]
  exact gifts_concat rfl s.2

/-- Nothing was done but asking. -/
structure Idle (s s' : Netlab × List Kernel.Ask) : Prop where
  machine : s'.1.machine = s.1.machine
  gifts : gifts s'.2 = gifts s.2

theorem ends_requireLink_keeping :
    Ends answering.keeping s (requireLink space name)
      (fun info s' => s.1.machine.getLink space name = .ok info ∧ Idle s s')
      fun s' => s'.1.machine = s.1.machine := by
  rw [requireLink_eq]
  refine ends_bind (ends_ask (q := .request space (.getLink name)) trivial
    fun _ _ hasked => hasked) ?_
  intro reply s' hasked
  obtain ⟨hanswer, hlog⟩ := hasked
  have hgifts : gifts s'.2 = gifts s.2 := by
    rw [hlog]
    exact gifts_concat rfl s.2
  rcases answer_request hanswer with ⟨e, hreply, hsame⟩ | ⟨info, hreply, hserve⟩
  · rw [hreply]
    exact ends_throw hsame
  · rw [hreply]
    obtain ⟨hget, hmachine⟩ := Prod.mk.inj hserve
    exact ends_pure ⟨hget, hmachine.symm, hgifts⟩

theorem ends_openNamespace_keeping {path : String} :
    Ends answering.keeping s (openNamespace path)
      (fun file s' => (isNamespacePath path = true ∧ s.1.openPath path = .ok file) ∧ Idle s s')
      fun s' => s'.1.machine = s.1.machine := by
  unfold openNamespace
  refine ends_ite (fun hpath => ?_) fun _ => ends_throw rfl
  refine ends_bind (ends_ask (q := .openPath path) trivial fun _ _ hasked => hasked) ?_
  intro reply s' hasked
  obtain ⟨hanswer, hlog⟩ := hasked
  obtain ⟨hopen, hnetlab⟩ := Prod.mk.inj hanswer
  have hmachine : s'.1.machine = s.1.machine := by rw [← hnetlab]
  refine ends_orFail (fun file hfile => ⟨⟨hpath, hopen.trans hfile⟩, hmachine, ?_⟩)
    fun _ _ => hmachine
  rw [hlog]
  exact gifts_concat rfl s.2

theorem openSocket_ok {n n' : Netlab} {target inside : Space}
    (h : n.openSocket (some (.space target)) = (.ok inside, n')) : inside = target := by
  unfold Netlab.openSocket at h
  dsimp only at h
  split at h
  · cases h
  · exact (Except.ok.inj (Prod.mk.inj h).1).symm

theorem ends_socketIn_keeping {path : String} {target : Space} :
    Ends answering.keeping s (socketIn path (.space target))
      (fun inside s' => inside = target ∧ Idle s s') fun s' => s'.1.machine = s.1.machine := by
  unfold socketIn
  refine ends_bind (ends_ask (q := .socket (some (.space target))) trivial
    fun _ _ hasked => hasked) ?_
  intro reply s' hasked
  obtain ⟨hanswer, hlog⟩ := hasked
  have hopened : s.1.openSocket (some (.space target)) = (reply, s'.1) := hanswer
  have hmachine : s'.1.machine = s.1.machine := by
    have hsame := congrArg Netlab.machine (openSocket_same s.1 (some (.space target)))
    rw [hopened] at hsame
    exact hsame
  refine ends_orFail (fun inside hinside => ⟨?_, hmachine, ?_⟩) fun _ _ => hmachine
  · rw [hinside] at hopened
    exact openSocket_ok hopened
  rw [hlog]
  exact gifts_concat rfl s.2

/-! ## What was begun -/

/-- A pair was begun: it is there, and the end that stays is where it was made, under its name. -/
structure Begun (before : Machine) (own : Space) (hostIfname : String) (host peer : Kernel.Link)
    (m : Machine) : Prop where
  paired : before.Paired host peer m
  space : host.space = own
  name : host.name = hostIfname

/-- Some pair was begun. -/
def Undoable (before : Machine) (own : Space) (hostIfname : String) (m : Machine) : Prop :=
  ∃ host peer, Begun before own hostIfname host peer m

/-- The end to be moved has the name under which it was made, and no address and no route. -/
structure Bare (hostIfname : String) (peer : Kernel.Link) : Prop where
  name : peer.name = LinkName.peer hostIfname
  addresses : peer.addresses = []
  routes : peer.routes = []

/-- The moved end is as planned, with the addresses and routes that it was given so far. -/
structure Equipped (spec : PairSpec) (mac : Bytes) (addresses : List Cidr) (routes : List Route)
    (peer : Kernel.Link) : Prop where
  name : peer.name = spec.containerIfname
  mac : peer.mac = mac
  mtu : spec.mtu ≠ 0 → peer.mtu = spec.mtu
  up : peer.up = true
  addresses : peer.addresses = addresses
  routes : peer.routes = routes.map Route.toNetwork

variable {before : Machine} {spec : PairSpec} {host peer : Kernel.Link}

theorem getLink_ok {m : Machine} {l : Kernel.Link} {info : LinkInfo}
    (hget : m.getLink space name = .ok info) (hnamed : m.named? space name = some l) :
    info = ⟨l.index, l.mac⟩ := by
  unfold Machine.getLink at hget
  split at hget
  · cases hget
  · rw [hnamed] at hget
    exact (Except.ok.inj hget).symm

theorem Begun.getLink_host (h : Begun before own spec.hostIfname host peer s.1.machine)
    {info : LinkInfo} (hget : s.1.machine.getLink own spec.hostIfname = .ok info) :
    info = ⟨host.index, host.mac⟩ := by
  have hnamed := h.paired.named?_host
  rw [h.space, h.name] at hnamed
  exact getLink_ok hget hnamed

/-- A step that changes nothing when it fails leaves a pair that can be removed. -/
theorem Begun.ends {ε α : Type} {hostIfname : String} {w : Work ε α}
    {post : α → Netlab × List Kernel.Ask → Prop}
    (h : Begun before own hostIfname host peer s.1.machine)
    (hw : Ends answering.keeping s w post fun s' => s'.1.machine = s.1.machine) :
    Ends answering.keeping s w post fun s' => Undoable before own hostIfname s'.1.machine := by
  refine hw.imp_failed fun s' hsame => ?_
  rw [hsame]
  exact ⟨host, peer, h⟩

theorem ends_configureHost (hbefore : before.Numbered)
    (h : Begun before own spec.hostIfname host peer s.1.machine) :
    Ends answering.keeping s (configureHost own spec)
      (fun _ s' => ∃ host', Begun before own spec.hostIfname host' peer s'.1.machine ∧
        host'.up = true ∧ gifts s'.2 = gifts s.2)
      fun s' => Undoable before own spec.hostIfname s'.1.machine := by
  unfold configureHost
  refine ends_bind (h.ends ends_requireLink_keeping) ?_
  intro info s₁ hinfo
  obtain ⟨hget, hidle⟩ := hinfo
  rw [h.getLink_host hget]
  rw [← hidle.machine] at h
  refine (h.ends ends_setLink).imp_post fun _ s₂ hset => ?_
  obtain ⟨hset, hgifts⟩ := hset
  rw [← h.space] at hset
  have hpaired := h.paired.setHost hbefore rfl rfl hset
  exact ⟨_, ⟨hpaired, h.space, h.name⟩, by simp [Machine.changed], hgifts.trans hidle.gifts⟩

theorem ends_movePeer (hbefore : before.Numbered)
    (h : Begun before own spec.hostIfname host peer s.1.machine) (hspace : peer.space = own)
    (hbare : Bare spec.hostIfname peer) {netns : NsFile} :
    Ends answering.keeping s (movePeer own spec netns)
      (fun _ s' => ∃ peer', Begun before own spec.hostIfname host peer' s'.1.machine ∧
        netns = .space peer'.space ∧ Bare spec.hostIfname peer' ∧ gifts s'.2 = gifts s.2)
      fun s' => Undoable before own spec.hostIfname s'.1.machine := by
  unfold movePeer
  refine ends_bind (h.ends ends_requireLink_keeping) ?_
  intro info s₁ hinfo
  obtain ⟨hget, hidle⟩ := hinfo
  have hnamed := h.paired.named?_peer
  rw [hspace, hbare.name] at hnamed
  rw [getLink_ok hget hnamed]
  rw [← hidle.machine] at h
  refine (h.ends ends_setLink).imp_post fun _ s₂ hset => ?_
  obtain ⟨hset, hgifts⟩ := hset
  rw [← hspace] at hset
  obtain ⟨moved, hmoved, hpaired⟩ := h.paired.setPeer hbefore hset
  refine ⟨_, ⟨hpaired, h.space, h.name⟩, ?_⟩
  cases hmoved with
  | nowhere hnone => cases hnone
  | there hnetns =>
    exact ⟨Option.some.inj hnetns, ⟨hbare.name, hbare.addresses, hbare.routes⟩,
      hgifts.trans hidle.gifts⟩
  | away hnetns =>
    exact ⟨Option.some.inj hnetns, ⟨hbare.name, rfl, rfl⟩, hgifts.trans hidle.gifts⟩

/-- The moved end has its name, and it was given what it has and nothing else. -/
def Given (before : Machine) (own : Space) (host : Kernel.Link) (spec : PairSpec) (inside : Space)
    (mac : Bytes) (addresses : List Cidr) (routes : List Route)
    (s : Netlab × List Kernel.Ask) : Prop :=
  ∃ peer, Begun before own spec.hostIfname host peer s.1.machine ∧ peer.space = inside ∧
    Equipped spec mac addresses routes peer ∧
    gifts s.2 = giving inside peer.index addresses routes

section

variable {inside : Space} {mac : Bytes} {addresses : List Cidr} {routes : List Route}

theorem ends_addAddress (hbefore : before.Numbered)
    (h : Given before own host spec inside mac addresses [] s) (address : Cidr) :
    Ends answering.keeping s (addAddress inside (before.nextIndex + 1) address)
      (fun _ s' => Given before own host spec inside mac (addresses ++ [address]) [] s')
      fun s' => Undoable before own spec.hostIfname s'.1.machine := by
  obtain ⟨peer, hbegun, hinside, hequipped, hgifts⟩ := h
  rw [← hinside, ← hbegun.paired.peerIndex]
  refine (hbegun.ends ends_request).imp_post fun _ s' hadded => ?_
  obtain ⟨hserve, hlog, -⟩ := hadded
  have hpaired := hbegun.paired.newAddress hbefore (settle_ok hserve)
  refine ⟨_, ⟨hpaired, hbegun.space, hbegun.name⟩, rfl, ?_, ?_⟩
  · exact { hequipped with addresses := congrArg (· ++ [address]) hequipped.addresses }
  · rw [hlog, gifts, List.filter_append, ← gifts, hgifts, hinside]
    simp [giving, isGift]

theorem ends_addRoute (hbefore : before.Numbered)
    (h : Given before own host spec inside mac addresses routes s) (route : Route) :
    Ends answering.keeping s (addRoute inside (before.nextIndex + 1) route)
      (fun _ s' => Given before own host spec inside mac addresses (routes ++ [route]) s')
      fun s' => Undoable before own spec.hostIfname s'.1.machine := by
  obtain ⟨peer, hbegun, hinside, hequipped, hgifts⟩ := h
  refine ends_ite (fun _ => ?_) fun _ => ends_throw ⟨host, peer, hbegun⟩
  rw [← hinside, ← hbegun.paired.peerIndex]
  refine (hbegun.ends ends_request).imp_post fun _ s' hadded => ?_
  obtain ⟨hserve, hlog, -⟩ := hadded
  have hpaired := hbegun.paired.newRoute hbefore (settle_ok hserve)
  refine ⟨_, ⟨hpaired, hbegun.space, hbegun.name⟩, rfl, ?_, ?_⟩
  · refine { hequipped with routes := ?_ }
    rw [hequipped.routes, List.map_append, Cidr.network_network]
    rfl
  · rw [hlog, gifts, List.filter_append, ← gifts, hgifts, hinside]
    simp [giving, isGift, Route.toNetwork]

theorem ends_configureAddressing (hbefore : before.Numbered)
    (h : Given before own host spec inside mac [] [] s) (addresses : List Cidr)
    (routes : List Route) :
    Ends answering.keeping s
      (configureAddressing inside (before.nextIndex + 1) addresses routes)
      (fun _ s' => Given before own host spec inside mac addresses routes s')
      fun s' => Undoable before own spec.hostIfname s'.1.machine := by
  unfold configureAddressing
  refine ends_bind (ends_forM (fun done => Given before own host spec inside mac done [])
    h fun done address s _ hdone => ends_addAddress hbefore hdone address) fun _ s' hall => ?_
  exact ends_forM (fun done => Given before own host spec inside mac addresses done) hall
    fun done route s _ hdone => ends_addRoute hbefore hdone route

end

theorem ends_configureContainer (hbefore : before.Numbered)
    (h : Begun before own spec.hostIfname host peer s.1.machine)
    (hbare : Bare spec.hostIfname peer) (hnone : gifts s.2 = []) (mac : Bytes)
    (hifname : spec.containerIfname ≠ "") :
    Ends answering.keeping s (configureContainer peer.space spec mac)
      (fun _ s' => Given before own host spec peer.space mac spec.addresses spec.routes s' ∧
        isTooLong spec.containerIfname = false)
      fun s' => Undoable before own spec.hostIfname s'.1.machine := by
  unfold configureContainer
  refine ends_bind (h.ends ends_requireLink_keeping) ?_
  intro info s₁ hinfo
  obtain ⟨hget, hidle⟩ := hinfo
  have hnamed := h.paired.named?_peer
  rw [hbare.name] at hnamed
  rw [getLink_ok hget hnamed]
  rw [← hidle.machine] at h
  -- the first change gives it its name and hardware address, the second one sets it up
  refine ends_bind (h.ends ends_setLink) ?_
  intro _ s₂ hset₂
  obtain ⟨hset₂, hgifts₂⟩ := hset₂
  have hsize : isTooLong spec.containerIfname = false := Machine.size_of_setLink hset₂
  have hbegun₂ : Begun before own spec.hostIfname host _ s₂.1.machine :=
    ⟨h.paired.setPeer_stays hbefore rfl hset₂, h.space, h.name⟩
  refine ends_bind (hbegun₂.ends ends_setLink) ?_
  intro _ s₃ hset₃
  obtain ⟨hset₃, hgifts₃⟩ := hset₃
  have hpaired₃ := hbegun₂.paired.setPeer_stays hbefore rfl hset₃
  have hgiven : Given before own host spec peer.space mac [] [] s₃ := by
    refine ⟨_, ⟨hpaired₃, h.space, h.name⟩, rfl, ?_, ?_⟩
    · refine ⟨?_, rfl, ?_, ?_, hbare.addresses, hbare.routes⟩
      · exact if_neg (by simpa using hifname)
      · intro hmtu
        simp [Machine.changed, askedMtu, Nat.pos_of_ne_zero hmtu]
      · simp [Machine.changed]
    · rw [hgifts₃, hgifts₂, hidle.gifts, hnone]
      rfl
  rw [h.paired.peerIndex]
  exact ends_adapt ((ends_configureAddressing hbefore hgiven spec.addresses spec.routes).mono
    (fun _ _ hall => ⟨hall, hsize⟩) fun _ h => h)

/-- A pair that was made is configured as planned; otherwise it can be removed still. -/
theorem ends_configurePair (hbefore : before.Numbered)
    (h : Begun before own spec.hostIfname host peer s.1.machine) (hspace : peer.space = own)
    (hbare : Bare spec.hostIfname peer) (hnone : gifts s.2 = []) (mac : Bytes)
    (hifname : spec.containerIfname ≠ "") :
    Ends answering.keeping s (configurePair own spec mac)
      (fun _ s' => ∃ host inside, host.up = true ∧
        (isNamespacePath spec.netns = true ∧ s.1.openPath spec.netns = .ok (.space inside)) ∧
        Given before own host spec inside mac spec.addresses spec.routes s' ∧
        isTooLong spec.containerIfname = false)
      fun s' => Undoable before own spec.hostIfname s'.1.machine := by
  unfold configurePair
  refine ends_bind (h.ends ends_openNamespace_keeping) ?_
  intro netns s₁ hopened
  obtain ⟨hopen, hidle₁⟩ := hopened
  rw [← hidle₁.machine] at h
  refine ends_bind (ends_configureHost hbefore h) ?_
  intro _ s₂ hset
  obtain ⟨host₂, hbegun₂, hup, hgifts₂⟩ := hset
  refine ends_bind (ends_movePeer hbefore hbegun₂ hspace hbare) ?_
  intro _ s₃ hmoved
  obtain ⟨peer₃, hbegun₃, rfl, hbare₃, hgifts₃⟩ := hmoved
  refine ends_bind (hbegun₃.ends ends_socketIn_keeping) ?_
  intro inside s₄ hsocket
  obtain ⟨rfl, hidle₄⟩ := hsocket
  rw [← hidle₄.machine] at hbegun₃
  have hnone₄ : gifts s₄.2 = [] := by
    rw [hidle₄.gifts, hgifts₃, hgifts₂, hidle₁.gifts, hnone]
  refine ends_bind (ends_configureContainer hbefore hbegun₃ hbare₃ hnone₄ mac hifname) ?_
  intro _ s₅ hequipped
  obtain ⟨hgiven, hsize⟩ := hequipped
  -- looking for the end that stays changes nothing
  obtain ⟨peer₅, hbegun₅, hgiven⟩ := hgiven
  refine ends_bind (hbegun₅.ends ends_requireLink_keeping) ?_
  intro info s₆ hinfo
  rw [← hinfo.2.machine] at hbegun₅
  rw [← hinfo.2.gifts] at hgiven
  exact ends_pure ⟨host₂, peer₃.space, hup, hopen, ⟨peer₅, hbegun₅, hgiven⟩, hsize⟩

/-! ## Taking back -/

/-- A pair that was begun is removed, and nothing else. -/
theorem succeeds_teardownPair {n : Netlab} {hostIfname : String} (hbefore : before.Numbered)
    (h : Undoable before own hostIfname n.machine) (hsize : isTooLong hostIfname = false)
    (hget : Spares .getLink n) (hdel : Spares .delLink n) :
    Succeeds answering n (teardownPair own hostIfname) fun _ n' =>
      n'.machine.links = before.links := by
  obtain ⟨host, peer, hbegun⟩ := h
  obtain ⟨m, hdelLink, hlinks⟩ := hbegun.paired.delLink hbefore
  have hnamed := hbegun.paired.named?_host
  rw [hbegun.space, hbegun.name] at hnamed
  rw [hbegun.space] at hdelLink
  have hfound : n.machine.getLink own hostIfname = .ok ⟨host.index, host.mac⟩ := by
    unfold Machine.getLink
    rw [hsize, hnamed]
    rfl
  unfold teardownPair findLink
  rw [bind_assoc]
  refine ends_bind (ends_ask (q := .request own (.getLink hostIfname)) trivial
    fun _ _ hasked => hasked) ?_
  intro reply n₁ hasked
  have hanswer := answer_spared own (r := .getLink hostIfname) hget
  obtain ⟨rfl, rfl⟩ := Prod.mk.inj (hanswer.symm.trans hasked)
  have hreply : (n.machine.serve own (.getLink hostIfname)).1 = .ok ⟨host.index, host.mac⟩ := hfound
  rw [hreply, pure_bind]
  refine ends_bind (ends_ask (q := .request own (.delLink host.index)) trivial
    fun _ _ hasked => hasked) ?_
  intro reply n₂ hasked
  have hspared : Spares .delLink { n with
      machine := n.machine, faults := (Netlab.passFaults .getLink n.faults).2 } := by
    show (Netlab.passFaults .delLink (Netlab.passFaults .getLink n.faults).2).1 = none
    rw [passFaults_other (by decide)]
    exact hdel
  have hanswer := answer_spared own (r := .delLink host.index) hspared
  obtain ⟨rfl, rfl⟩ := Prod.mk.inj (hanswer.symm.trans hasked)
  have hserve : n.machine.serve own (.delLink host.index) = (.ok (), m) := by
    show n.machine.settle (n.machine.delLink own host.index) = (.ok (), m)
    rw [hdelLink]
    rfl
  rw [hserve]
  exact ends_pure hlinks

/-! ## All or nothing -/

/-- What was built, and what the machine was asked for it. -/
structure Built (own : Space) (spec : PairSpec) (n : Netlab) (m : Machine)
    (asked : List Kernel.Ask) (host container : Kernel.Link) : Prop where
  /-- No other link was made, changed or lost. -/
  links : m.links = n.machine.links ++ [host, container]
  hostNamed : m.named? own spec.hostIfname = some host
  hostUp : host.up = true
  netns : n.openPath spec.netns = .ok (.space container.space)
  named : m.named? container.space spec.containerIfname = some container
  mac : Mac.parse? spec.mac = some container.mac
  mtu : spec.mtu ≠ 0 → container.mtu = spec.mtu
  up : container.up = true
  addresses : container.addresses = spec.addresses
  routes : container.routes = spec.routes.map Route.toNetwork
  /-- Each address and then each route was added once, in order. -/
  given : gifts asked = giving container.space container.index spec.addresses spec.routes

variable {n : Netlab}

/-- A pair that was made is one that was begun. -/
theorem begun_of_newLink {m m' : Machine} {hostIfname : String} {mtu : Option Nat}
    (hmade : m.newLink own hostIfname (LinkName.peer hostIfname) mtu = .ok m') :
    ∃ host peer, Begun m own hostIfname host peer m' ∧ peer.space = own ∧ Bare hostIfname peer ∧
      isTooLong hostIfname = false := by
  obtain ⟨host, peer, hpaired, hspace, hname, hsize, hpeer, hpeerName, haddresses, hroutes⟩ :=
    Machine.newLink_ok hmade
  exact ⟨host, peer, ⟨hpaired, hspace, hname⟩, hpeer, ⟨hpeerName, haddresses, hroutes⟩, hsize⟩

/-- A pair that is built is as planned, and it stands as long as nothing else is done. -/
theorem gives_buildPair (hnumbered : n.machine.Numbered) (hifname : spec.containerIfname ≠ "") :
    Gives answering.keeping (n, []) (buildPair own spec) fun _ s' =>
      (∃ host container, Built own spec n s'.1.machine s'.2 host container) ∧
        isTooLong spec.hostIfname = false ∧ isTooLong spec.containerIfname = false ∧
        isNamespacePath spec.netns = true := by
  unfold buildPair
  refine ends_bind (ends_macBytes.imp_failed fun _ _ => trivial) ?_
  intro mac s₀ hmac
  obtain ⟨hmac, rfl⟩ := hmac
  refine ends_bind (ends_request.imp_failed fun _ _ => trivial) ?_
  intro _ s₁ hmade
  obtain ⟨hserve, hlog, hfiles⟩ := hmade
  obtain ⟨host, peer, hbegun, hspace, hbare, hsize⟩ := begun_of_newLink (settle_ok hserve)
  have hnone : gifts s₁.2 = [] := by
    rw [hlog]
    rfl
  refine ends_tryCatch ((ends_configurePair hnumbered hbegun hspace hbare hnone mac hifname).mono
    (fun _ s₂ hdone => ?_) fun _ _ => trivial) fun e s' _ => ?_
  · obtain ⟨host, inside, hup, hopen, hgiven, hsize'⟩ := hdone
    obtain ⟨container, hbegun, rfl, hequipped, hgifts⟩ := hgiven
    refine ⟨⟨host, container, ?_⟩, hsize, hsize', hopen.1⟩
    have hhost := hbegun.paired.named?_host
    have hcontainer := hbegun.paired.named?_peer
    rw [hbegun.space, hbegun.name] at hhost
    rw [hequipped.name] at hcontainer
    exact {
      links := hbegun.paired.links
      hostNamed := hhost
      hostUp := hup
      netns := (hfiles.openPath spec.netns).symm.trans hopen.2
      named := hcontainer
      mac := by rw [hmac, hequipped.mac]
      mtu := hequipped.mtu
      up := hequipped.up
      addresses := hequipped.addresses
      routes := hequipped.routes
      given := hgifts }
  · exact ends_bind (gives_trivial (fun _ _ => trivial) _) fun _ _ _ => ends_throw trivial

theorem Calm.calmFor {n : Netlab} (h : Calm n) (kind : RequestKind) : CalmFor kind n :=
  fun f hf _ => h f hf

/-- A pair that is built stands, and it is found as long as no request fails by itself. -/
theorem buildPair_stands (hnumbered : n.machine.Numbered) (hifname : spec.containerIfname ≠ "")
    {pair : Pair} (hok : (n.perform (buildPair own spec)).1 = .ok pair) {n' : Netlab}
    (hmachine : n'.machine = (n.perform (buildPair own spec)).2.machine)
    (hfiles : SameFiles n n') (hcalm : Calm n') :
    Stands own spec.hostIfname spec.netns spec.containerIfname spec.mac n' ∧
      Truthful spec.hostIfname n' ∧ Truthful spec.containerIfname n' := by
  obtain ⟨⟨host, container, hbuilt⟩, hsize, hsize', hpath⟩ :=
    (run_keeping_ends (gives_buildPair hnumbered hifname)).1 pair hok
  rw [show (n.perform (buildPair own spec)).2.machine = n'.machine from hmachine.symm] at hbuilt
  refine ⟨⟨⟨_, hbuilt.hostNamed⟩, container.space, _, ?_, hbuilt.named, hbuilt.mac⟩, ?_, ?_⟩
  · exact ⟨hpath, (hfiles.openPath spec.netns).trans hbuilt.netns,
      spares_of_calmFor (hcalm.calmFor .socket)⟩
  · exact ⟨hcalm.calmFor .getLink, fun _ _ _ => hsize⟩
  · exact ⟨hcalm.calmFor .getLink, fun _ _ _ => hsize'⟩

/-- The request for a pair. -/
abbrev PairSpec.newLink (spec : PairSpec) : Request :=
  .newLink spec.hostIfname (LinkName.peer spec.hostIfname) (askedMtu spec.mtu)

/-- Where a pair is given up: it was made, and could not be configured. -/
def givenUp? (n : Netlab) (own : Space) (spec : PairSpec) : Option Netlab :=
  match Mac.parse? spec.mac with
  | none => none
  | some mac => match n.request own spec.newLink with
    | (.error _, _) => none
    | (.ok _, made) => match made.perform (configurePair own spec mac) with
      | (.ok _, _) => none
      | (.error _, undone) => some undone

/-- A pair is made, then it is configured, and where that fails it is removed. -/
theorem perform_buildPair {mac : Bytes} (hmac : Mac.parse? spec.mac = some mac) :
    n.perform (buildPair own spec) = match n.request own spec.newLink with
      | (.error e, n') => (.error (.linkCreate spec.hostIfname (kernelReason e)), n')
      | (.ok _, made) => match made.perform (configurePair own spec mac) with
        | (.ok pair, n') => (.ok pair, n')
        | (.error e, undone) =>
          (.error e, (undone.perform (teardownPair own spec.hostIfname)).2) := by
  let handler (e : Error) : Work Error Pair := do
    tryCatch (teardownPair own spec.hostIfname) fun _ => return ()
    throw e
  have hundo : ∀ (undone : Netlab) e, undone.perform (handler e) =
      (.error e, (undone.perform (teardownPair own spec.hostIfname)).2) := by
    intro undone e
    show undone.perform (_ >>= _) = _
    rw [perform_bind, perform_tryCatch]
    cases undone.perform (teardownPair own spec.hostIfname) with
    | mk x n' => cases x <;> rfl
  have hbuild : buildPair own spec = macBytes spec.mac >>= fun mac =>
      Work.request own spec.newLink (fun e => .linkCreate spec.hostIfname (kernelReason e)) >>=
        fun _ => tryCatch (configurePair own spec mac) handler := rfl
  rw [hbuild, macBytes, hmac]
  dsimp only
  rw [pure_bind, perform_bind, perform_request]
  cases n.request own spec.newLink with
  | mk reply made =>
    cases reply with
    | error e => rfl
    | ok v =>
      dsimp only
      rw [perform_tryCatch]
      cases made.perform (configurePair own spec mac) with
      | mk x n' =>
        cases x with
        | ok pair => rfl
        | error e => exact hundo n' e

/-- A pair that could not be built leaves no link and loses none, unless it could not be removed. -/
theorem buildPair_error (hnumbered : n.machine.Numbered) (hifname : spec.containerIfname ≠ "")
    {e : Error} (herror : (n.perform (buildPair own spec)).1 = .error e)
    (hundo : ∀ undone, givenUp? n own spec = some undone →
      Spares .getLink undone ∧ Spares .delLink undone) :
    (n.perform (buildPair own spec)).2.machine.links = n.machine.links := by
  unfold givenUp? at hundo
  cases hmac : Mac.parse? spec.mac with
  | none =>
    unfold buildPair macBytes
    rw [hmac]
    rfl
  | some mac =>
    rw [hmac] at hundo
    rw [perform_buildPair hmac] at herror ⊢
    cases hmade : n.request own spec.newLink with
    | mk reply made =>
      rw [hmade] at herror hundo
      have hcases := answer_request (r := spec.newLink) (show Netlab.answer _ n = _ from hmade)
      cases reply with
      | error e =>
        rcases hcases with ⟨_, -, hsame⟩ | ⟨_, hreply, -⟩
        · exact congrArg Machine.links hsame
        · cases hreply
      | ok v =>
        rcases hcases with ⟨_, hreply, -⟩ | ⟨_, -, hserve⟩
        · cases hreply
        obtain ⟨host, peer, hbegun, hspace, hbare, hsize⟩ := begun_of_newLink (settle_ok hserve)
        have hconfigured := run_keeping_ends (ends_configurePair
          (s := (made, [])) hnumbered hbegun hspace hbare rfl mac hifname)
        dsimp only at herror hundo ⊢
        cases hx : made.perform (configurePair own spec mac) with
        | mk x undone =>
          rw [hx] at herror hundo hconfigured
          cases x with
          | ok pair => cases herror
          | error e =>
            obtain ⟨hget, hdel⟩ := hundo undone rfl
            obtain ⟨_, -, hlinks⟩ := run_succeeds (succeeds_teardownPair hnumbered
              (hconfigured.2 e rfl) hsize hget hdel)
            exact hlinks

/-- A pair is built as planned, or no link is left or lost: if building fails and the requests of
its own removal do not fail, then the links of all namespaces are those of before, and if it succeeds,
then looking at the pair succeeds too.

The interface that the container gets has a name.  The kernel has numbers left that are those of no
link, as it always has (`numbered_answer`).  Any request and any socket may fail by a fault. -/
theorem buildPair_atomic {n : Netlab} {own : Space} {spec : PairSpec}
    (hnumbered : n.machine.Numbered) (hifname : spec.containerIfname ≠ "") :
    (∀ e, (n.perform (buildPair own spec)).1 = .error e →
      (∀ undone, givenUp? n own spec = some undone →
        Spares .getLink undone ∧ Spares .delLink undone) →
      (n.perform (buildPair own spec)).2.machine.links = n.machine.links) ∧
    ∀ pair, (n.perform (buildPair own spec)).1 = .ok pair →
      (∃ host container, Built own spec n (n.perform (buildPair own spec)).2.machine
        ((buildPair own spec).run.asked Netlab.answer n) host container) ∧
      ∀ n', n'.machine = (n.perform (buildPair own spec)).2.machine → SameFiles n n' → Calm n' →
        (n'.perform (checkPair own spec.hostIfname spec.netns spec.containerIfname
          spec.mac)).1 = .ok () := by
  refine ⟨fun e herror => buildPair_error hnumbered hifname herror, fun pair hok => ⟨?_, ?_⟩⟩
  · exact ((run_keeping_ends (gives_buildPair hnumbered hifname)).1 pair hok).1
  · intro n' hmachine hfiles hcalm
    obtain ⟨hstands, hhost, hcontainer⟩ :=
      buildPair_stands hnumbered hifname hok hmachine hfiles hcalm
    exact (perform_checkPair hhost hcontainer _ _ _).2 hstands

namespace Sample

/-- A plan with one address and one route. -/
def plan : PairSpec where
  containerId := "c1"
  hostIfname := "tap1"
  netns := "/run/netns/pod"
  containerIfname := "eth0"
  mtu := 1400
  mac := "02:00:00:00:00:01"
  addresses := (Cidr.parse? "10.0.0.7/24").toList
  routes := (Route.calculate "0.0.0.0/0" (Ip.ofBits .v4 0x0a000001)).toOption.toList

/-- A machine on which no route can be added. -/
def lab : Netlab :=
  { Netlab.ofSpaces ["run", "netns"] "host" ["pod"] with
    faults := [{ kind := .newRoute, errno := ⟨1⟩ }] }

end Sample

/-- The last step fails, when the pair is moved, named and up: nothing of it stays. -/
theorem refused_route_leaves_nothing :
    (Sample.lab.perform (buildPair "host" Sample.plan)).1.isOk = false ∧
      (Sample.lab.perform (buildPair "host" Sample.plan)).2.machine.links =
        Sample.lab.machine.links := by
  have hfailed : (Sample.lab.perform (buildPair "host" Sample.plan)).1.isOk = false := by
    decide +kernel
  have hspared : (givenUp? Sample.lab "host" Sample.plan).all fun undone =>
      undone.faults.all fun f => f.count == 0 := by
    decide +kernel
  have hatomic := @buildPair_atomic Sample.lab "host" Sample.plan
    (Machine.numbered_ofSpaces ["host", "pod"]) (by decide)
  refine ⟨hfailed, ?_⟩
  cases hbuilt : (Sample.lab.perform (buildPair "host" Sample.plan)).1 with
  | ok pair =>
    rw [hbuilt] at hfailed
    cases hfailed
  | error e =>
    refine hatomic.1 e hbuilt fun undone hundone => ?_
    rw [hundone] at hspared
    have hcalm : Calm undone := fun f hf => by simpa using List.all_eq_true.1 hspared f hf
    exact ⟨spares_of_calmFor (hcalm.calmFor .getLink), spares_of_calmFor (hcalm.calmFor .delLink)⟩

end Link

end PodAttach
