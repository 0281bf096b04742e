import PodAttach.Kernel.Request

/-!
# A pair of links among the others

The kernel numbers links as they come, so a number that was not given out yet
is nobody's (`Machine.Numbered`), and no request changes that.

`Paired` follows a pair from when it is made: it comes after all other links,
which stay as they were, and its names are taken by no other link, where its
ends are.  Each request for an end of the pair keeps that up, whatever else
it does.

* `Numbered.serve`: every request keeps the numbers apart.
* `newLink_ok`: a request that makes a pair gives one.
* `Paired.named?_host` and `Paired.named?_peer`: the ends are found under their names.
* `Paired.setHost`, `Paired.setPeer`, `Paired.newAddress` and `Paired.newRoute`: what the requests
  make of the pair, and of nothing else.
* `Paired.delLink`: removing the pair leaves the links of before.
-/

namespace PodAttach.Kernel.Machine

/-! ## Numbers -/

/-- Numbers that will be given out are those of no link. -/
def Numbered (m : Machine) : Prop :=
  ∀ l ∈ m.links, l.index < m.nextIndex

theorem Numbered.modify {m : Machine} (h : m.Numbered) {index : Nat} {f : Link → Link}
    (hf : ∀ l ∈ m.links, l.index = index → (f l).index < m.nextIndex) :
    (m.modify index f).Numbered := by
  intro l hl
  obtain ⟨l', hl', rfl⟩ := List.mem_map.1 hl
  split
  · next heq => exact hf l' hl' heq
  · exact h l' hl'

theorem Numbered.addLink {m : Machine} (h : m.Numbered) (l : Link) : (m.addLink l).Numbered := by
  intro l' hl'
  rcases List.mem_append.1 hl' with hl' | hl'
  · have hlt := h l' hl'
    show l'.index < max m.nextIndex (l.index + 1)
    omega
  · obtain rfl := List.mem_singleton.1 hl'
    show l'.index < max m.nextIndex (l'.index + 1)
    omega

theorem numbered_ofSpaces (spaces : List Space) : (ofSpaces spaces).Numbered := by
  unfold ofSpaces
  have hempty : ({} : Machine).Numbered := fun l hl => absurd hl List.not_mem_nil
  generalize ({} : Machine) = m at hempty
  induction spaces generalizing m with
  | nil => exact hempty
  | cons space rest ih => exact ih _ (hempty.addLink _)

/-! ## What requests do -/

variable {m m' : Machine} {space : Space} {index : Nat}

theorem link?_mem {l : Link} (hl : m.link? space index = some l) :
    l ∈ m.links ∧ l.space = space ∧ l.index = index := by
  have hmem := List.mem_of_find?_eq_some hl
  have hfound := List.find?_some hl
  simp only [Bool.and_eq_true, beq_iff_eq] at hfound
  exact ⟨hmem, hfound⟩

/-- The moved link has its number still, and nothing but its place is new. -/
theorem move_cases {l l' : Link} {ns? : Option NsFile} (hmove : m.move l ns? = .ok (m', l')) :
    m' = m ∧ l' = l ∧ (ns? = none ∨ ns? = some (.space l.space)) ∨
    ∃ target, ns? = some (.space target) ∧ target ≠ l.space ∧ m.named? target l.name = none ∧
      l' = { l with space := target, up := false, addresses := [], routes := [] } ∧
      m' = m.modify l.index fun _ => l' := by
  unfold move at hmove
  split at hmove
  · cases hmove
    exact .inl ⟨rfl, rfl, .inl rfl⟩
  · cases hmove
  · next target =>
    split at hmove
    · next heq =>
      cases hmove
      exact .inl ⟨rfl, rfl, .inr (by rw [heq])⟩
    · next hne =>
      split at hmove
      · cases hmove
      · next hfree =>
        cases hmove
        exact .inr ⟨target, rfl, hne, by simpa using hfree, rfl, rfl⟩

/-- What becomes of a link that is moved. -/
inductive Moved (l : Link) (netns : Option NsFile) : Link → Prop where
  | nowhere (h : netns = none) : Moved l netns l
  | there (h : netns = some (.space l.space)) : Moved l netns l
  | away {target : Space} (h : netns = some (.space target)) :
    Moved l netns { l with space := target, up := false, addresses := [], routes := [] }

theorem Moved.eq_of_none {l l' : Link} (h : Moved l none l') : l' = l := by
  cases h with
  | nowhere _ => rfl
  | there h => cases h
  | away h => cases h

/-- A link that was changed was there; it was moved first, and then it got its changes. -/
theorem setLink_ok {c : Change} (hset : m.setLink space index c = .ok m') :
    ∃ l m₁ l₁, m.link? space index = some l ∧ m.move l c.netns = .ok (m₁, l₁) ∧
      m₁.changeError? l₁ c = none ∧ m' = m₁.modify index fun _ => changed l₁ c := by
  unfold setLink at hset
  split at hset
  · cases hset
  · split at hset
    · cases hset
    · next l hl =>
      split at hset
      · cases hset
      · next m₁ l₁ hmove =>
        split at hset
        · cases hset
        · next hnone =>
          cases hset
          exact ⟨l, m₁, l₁, hl, hmove, hnone, rfl⟩

theorem size_of_setLink {c : Change} (hset : m.setLink space index c = .ok m') :
    isTooLong (c.name.getD "") = false := by
  unfold setLink at hset
  split at hset
  · cases hset
  · next hsize => exact Bool.eq_false_iff.2 hsize

theorem named?_eq_none {name : String} :
    m.named? space name = none ↔ ∀ l ∈ m.links, ¬ (l.space = space ∧ l.name = name) := by
  unfold named?
  rw [List.find?_eq_none]
  simp only [Bool.and_eq_true, beq_iff_eq]

theorem named?_eq_none_of_nameError? {name : String} (hnone : m.nameError? space name = none) :
    m.named? space name = none := by
  unfold nameError? at hnone
  split at hnone
  · cases hnone
  · split at hnone
    · cases hnone
    · split at hnone
      · cases hnone
      · next hfree => simpa using hfree

theorem size_of_nameError? {name : String} (hnone : m.nameError? space name = none) :
    isTooLong name = false := by
  unfold nameError? at hnone
  split at hnone
  · cases hnone
  · next hsize => exact Bool.eq_false_iff.2 hsize

theorem changed_name (l : Link) (c : Change) :
    (changed l c).name = if (c.name.getD "").isEmpty then l.name else c.name.getD "" := rfl

/-- A link that may be changed keeps its name, or no link has its new one. -/
theorem name_of_changeError? {l : Link} {c : Change} (hnone : m.changeError? l c = none) :
    (changed l c).name = l.name ∨ m.named? l.space (changed l c).name = none := by
  unfold changeError? at hnone
  dsimp only at hnone
  split at hnone
  · cases hnone
  · split at hnone
    · cases hnone
    · rw [changed_name]
      split at hnone
      · next hkeep =>
        rw [Bool.or_eq_true, decide_eq_true_eq] at hkeep
        rcases hkeep with hempty | hname
        · exact .inl (if_pos hempty)
        · left
          rw [hname, ite_self]
      · next hnew =>
        rw [Bool.or_eq_true, decide_eq_true_eq, not_or] at hnew
        right
        rw [if_neg hnew.1]
        exact named?_eq_none_of_nameError? hnone

/-! ## The pair -/

/-- A pair was added to the links of before: its ends have the next two numbers, and no other link
is called as they are, where they are. -/
structure Paired (before : Machine) (host peer : Link) (m : Machine) : Prop where
  links : m.links = before.links ++ [host, peer]
  hostIndex : host.index = before.nextIndex
  peerIndex : peer.index = before.nextIndex + 1
  hostPeer : host.peer = some peer.index
  hostFree : ∀ l ∈ before.links, ¬ (l.space = host.space ∧ l.name = host.name)
  peerFree : ∀ l ∈ before.links ++ [host], ¬ (l.space = peer.space ∧ l.name = peer.name)

/-- A request that makes a pair gives one. -/
theorem newLink_ok {name peerName : String} {mtu : Option Nat}
    (hnew : m.newLink space name peerName mtu = .ok m') :
    ∃ host peer, Paired m host peer m' ∧ host.space = space ∧ host.name = name ∧
      isTooLong name = false ∧ peer.space = space ∧ peer.name = peerName ∧
      peer.addresses = [] ∧ peer.routes = [] := by
  unfold newLink at hnew
  dsimp only at hnew
  split at hnew
  · cases hnew
  · next hhost =>
    split at hnew
    · cases hnew
    · split at hnew
      · cases hnew
      · next hpeer =>
        cases hnew
        have hsize := size_of_nameError? hhost
        have hhost := named?_eq_none.1 (named?_eq_none_of_nameError? hhost)
        have hpeer := named?_eq_none.1 (named?_eq_none_of_nameError? hpeer)
        exact ⟨_, _, ⟨List.append_assoc m.links _ _, rfl, rfl, rfl, hhost, hpeer⟩, rfl, rfl, hsize,
          rfl, rfl, rfl, rfl⟩

namespace Paired

variable {before : Machine} {host peer : Link}

theorem mem_links (h : Paired before host peer m) {l : Link} (hl : l ∈ before.links ++ [host]) :
    l ∈ m.links := by
  rw [h.links]
  rcases List.mem_append.1 hl with hl | hl
  · exact List.mem_append_left _ hl
  · simp [List.mem_singleton.1 hl]

/-- The other end comes last. -/
theorem links_peer (h : Paired before host peer m) :
    m.links = (before.links ++ [host]) ++ [peer] := by
  rw [h.links, List.append_assoc]
  rfl

/-- The end that stays is found under its name. -/
theorem named?_host (h : Paired before host peer m) :
    m.named? host.space host.name = some host := by
  have hnone : before.named? host.space host.name = none := named?_eq_none.2 h.hostFree
  unfold named? at hnone ⊢
  rw [h.links, List.find?_append, hnone]
  simp

/-- The other end is found under its name. -/
theorem named?_peer (h : Paired before host peer m) :
    m.named? peer.space peer.name = some peer := by
  have hnone : Machine.named? ⟨before.links ++ [host], 0⟩ peer.space peer.name = none :=
    named?_eq_none.2 h.peerFree
  unfold named? at hnone ⊢
  rw [h.links_peer, List.find?_append, hnone]
  simp

variable (hbefore : before.Numbered)
include hbefore

theorem link?_host (h : Paired before host peer m) :
    m.link? host.space host.index = some host := by
  have hnone : before.links.find? (fun l => l.space == host.space && l.index == host.index) =
      none := by
    refine List.find?_eq_none.2 fun l hl => ?_
    have hlt := hbefore l hl
    have hne : l.index ≠ host.index := by
      rw [h.hostIndex]
      omega
    simp [hne]
  unfold link?
  rw [h.links, List.find?_append, hnone]
  simp

theorem link?_peer (h : Paired before host peer m) :
    m.link? peer.space peer.index = some peer := by
  have hnone : (before.links ++ [host]).find?
      (fun l => l.space == peer.space && l.index == peer.index) = none := by
    refine List.find?_eq_none.2 fun l hl => ?_
    have hne : l.index ≠ peer.index := by
      rw [h.peerIndex]
      rcases List.mem_append.1 hl with hl | hl
      · have hlt := hbefore l hl
        omega
      · rw [List.mem_singleton.1 hl, h.hostIndex]
        omega
    simp [hne]
  unfold link?
  rw [h.links_peer, List.find?_append, hnone]
  simp

theorem map_before {index : Nat} (hindex : before.nextIndex ≤ index) (f : Link → Link) :
    before.links.map (fun l => if l.index = index then f l else l) = before.links := by
  have hsame : ∀ l ∈ before.links, (if l.index = index then f l else l) = l := by
    intro l hl
    have hlt := hbefore l hl
    rw [if_neg (by omega)]
  rw [List.map_congr_left hsame, List.map_id']

/-- Only the end that stays is changed by its number. -/
theorem modifyHost (h : Paired before host peer m) {f : Link → Link}
    (hindex : (f host).index = host.index) (hpeer : (f host).peer = host.peer)
    (hspace : (f host).space = host.space) (hname : (f host).name = host.name) :
    Paired before (f host) peer (m.modify host.index f) where
  links := by
    have hne : peer.index ≠ host.index := by
      rw [h.peerIndex, h.hostIndex]
      omega
    show m.links.map _ = _
    rw [h.links, List.map_append, map_before hbefore (Nat.le_of_eq h.hostIndex.symm)]
    simp [hne]
  hostIndex := hindex.trans h.hostIndex
  peerIndex := h.peerIndex
  hostPeer := hpeer.trans h.hostPeer
  hostFree := by
    rw [hspace, hname]
    exact h.hostFree
  peerFree := by
    intro l hl
    rcases List.mem_append.1 hl with hl | hl
    · exact h.peerFree l (List.mem_append_left _ hl)
    · rw [List.mem_singleton.1 hl, hspace, hname]
      exact h.peerFree host (by simp)

/-- Only the other end is changed by its number. -/
theorem modifyPeer (h : Paired before host peer m) {f : Link → Link}
    (hindex : (f peer).index = peer.index)
    (hfree : ∀ l ∈ before.links ++ [host],
      ¬ (l.space = (f peer).space ∧ l.name = (f peer).name)) :
    Paired before host (f peer) (m.modify peer.index f) where
  links := by
    have hne : host.index ≠ peer.index := by
      rw [h.peerIndex, h.hostIndex]
      omega
    show m.links.map _ = _
    rw [h.links, List.map_append, map_before hbefore (by rw [h.peerIndex]; omega)]
    simp [hne]
  hostIndex := h.hostIndex
  peerIndex := hindex.trans h.peerIndex
  hostPeer := by rw [h.hostPeer, hindex]
  hostFree := h.hostFree
  peerFree := hfree

/-- Setting the end that stays changes nothing else. -/
theorem setHost (h : Paired before host peer m) {c : Change} (hnetns : c.netns = none)
    (hname : c.name = none) (hset : m.setLink host.space host.index c = .ok m') :
    Paired before (changed host c) peer m' := by
  obtain ⟨l, m₁, l₁, hl, hmove, -, rfl⟩ := setLink_ok hset
  obtain rfl : host = l := Option.some.inj ((h.link?_host hbefore).symm.trans hl)
  rw [hnetns] at hmove
  cases hmove
  have hkeep : (changed host c).name = host.name := by
    rw [changed_name, hname]
    rfl
  exact h.modifyHost hbefore (f := fun _ => changed host c) rfl rfl rfl hkeep

theorem changePeer (h : Paired before host peer m) {c : Change}
    (hnone : m.changeError? peer c = none) :
    Paired before host (changed peer c) (m.modify peer.index fun _ => changed peer c) := by
  refine h.modifyPeer hbefore (f := fun _ => changed peer c) rfl ?_
  have hspace : (changed peer c).space = peer.space := rfl
  rw [hspace]
  rcases name_of_changeError? hnone with hname | hfree
  · rw [hname]
    exact h.peerFree
  · exact fun l hl => named?_eq_none.1 hfree l (h.mem_links hl)

/-- Changing the other end moves it to where it is to live, and then gives it its changes. -/
theorem setPeer (h : Paired before host peer m) {c : Change}
    (hset : m.setLink peer.space peer.index c = .ok m') :
    ∃ moved, Moved peer c.netns moved ∧ Paired before host (changed moved c) m' := by
  obtain ⟨l, m₁, l₁, hl, hmove, hnone, rfl⟩ := setLink_ok hset
  obtain rfl : peer = l := Option.some.inj ((h.link?_peer hbefore).symm.trans hl)
  rcases move_cases hmove with ⟨rfl, rfl, hnetns⟩ | ⟨target, hnetns, -, hfree, rfl, rfl⟩
  · refine ⟨_, ?_, h.changePeer hbefore hnone⟩
    rcases hnetns with hnetns | hnetns
    · exact .nowhere hnetns
    · exact .there hnetns
  · -- it is moved under its old name, which is free there, and only then gets its new one
    have hmoved := h.modifyPeer hbefore (f := fun _ =>
      { peer with space := target, up := false, addresses := [], routes := [] }) rfl
      fun l hl => named?_eq_none.1 hfree l (h.mem_links hl)
    exact ⟨_, .away hnetns, hmoved.changePeer hbefore hnone⟩

/-- A change that moves the other end nowhere gives it its changes. -/
theorem setPeer_stays (h : Paired before host peer m) {c : Change} (hnetns : c.netns = none)
    (hset : m.setLink peer.space peer.index c = .ok m') :
    Paired before host (changed peer c) m' := by
  obtain ⟨moved, hmoved, hpaired⟩ := h.setPeer hbefore hset
  rw [hnetns] at hmoved
  rw [hmoved.eq_of_none] at hpaired
  exact hpaired

/-- The other end gets an address. -/
theorem newAddress (h : Paired before host peer m) {a : Net.Cidr}
    (hnew : m.newAddress peer.space peer.index a = .ok m') :
    Paired before host { peer with addresses := peer.addresses ++ [a] } m' := by
  unfold Machine.newAddress at hnew
  rw [h.link?_peer hbefore] at hnew
  dsimp only at hnew
  split at hnew
  · cases hnew
  · cases hnew
    exact h.modifyPeer hbefore (f := fun l => { l with addresses := l.addresses ++ [a] }) rfl
      h.peerFree

/-- The other end gets a route, to the whole network. -/
theorem newRoute (h : Paired before host peer m) {r : Route}
    (hnew : m.newRoute peer.space peer.index r = .ok m') :
    Paired before host
      { peer with routes := peer.routes ++ [⟨r.destination.network, r.gateway⟩] } m' := by
  unfold Machine.newRoute at hnew
  dsimp only at hnew
  split at hnew
  · cases hnew
  · split at hnew
    · cases hnew
    · cases hnew
      exact h.modifyPeer hbefore (f := fun l =>
        { l with routes := l.routes ++ [⟨r.destination.network, r.gateway⟩] }) rfl h.peerFree

/-- Without the pair the links are those of before. -/
theorem delLink (h : Paired before host peer m) :
    ∃ m', m.delLink host.space host.index = .ok m' ∧ m'.links = before.links := by
  refine ⟨m.removeLink host, ?_, ?_⟩
  · unfold Machine.delLink
    rw [h.link?_host hbefore]
    dsimp only
    rw [h.hostPeer]
  · have hothers : ∀ l ∈ before.links,
        (l.index != host.index && some l.index != host.peer) = true := by
      intro l hl
      have hlt := hbefore l hl
      have hhost : l.index ≠ host.index := by
        rw [h.hostIndex]
        omega
      have hpeer : l.index ≠ peer.index := by
        rw [h.peerIndex]
        omega
      rw [h.hostPeer]
      simp [hhost, hpeer]
    show m.links.filter _ = before.links
    rw [h.links, List.filter_append, List.filter_eq_self.2 hothers, h.hostPeer]
    simp

end Paired

/-! ## Every request -/

theorem Numbered.move {l l' : Link} {ns? : Option NsFile} (h : m.Numbered) (hl : l ∈ m.links)
    (hmove : m.move l ns? = .ok (m', l')) :
    m'.Numbered ∧ m'.nextIndex = m.nextIndex ∧ l'.index = l.index := by
  rcases move_cases hmove with ⟨rfl, rfl, -⟩ | ⟨target, -, -, -, rfl, rfl⟩
  · exact ⟨h, rfl, rfl⟩
  · exact ⟨h.modify fun _ _ _ => h l hl, rfl, rfl⟩

theorem Numbered.setLink {c : Change} (h : m.Numbered) (hset : m.setLink space index c = .ok m') :
    m'.Numbered := by
  obtain ⟨l, m₁, l₁, hl, hmove, -, rfl⟩ := setLink_ok hset
  obtain ⟨hmoved, hnext, hindex⟩ := h.move (link?_mem hl).1 hmove
  refine hmoved.modify fun _ _ _ => ?_
  show l₁.index < m₁.nextIndex
  rw [hindex, hnext]
  exact h l (link?_mem hl).1

theorem Numbered.newLink {name peerName : String} {mtu : Option Nat} (h : m.Numbered)
    (hnew : m.newLink space name peerName mtu = .ok m') : m'.Numbered := by
  unfold Machine.newLink at hnew
  dsimp only at hnew
  split at hnew
  · cases hnew
  · split at hnew
    · cases hnew
    · split at hnew
      · cases hnew
      · cases hnew
        exact (h.addLink _).addLink _

theorem Numbered.delLink (h : m.Numbered) (hdel : m.delLink space index = .ok m') :
    m'.Numbered := by
  unfold Machine.delLink at hdel
  split at hdel
  · cases hdel
  · split at hdel
    · cases hdel
    · cases hdel
      exact fun l hl => h l ((List.mem_filter.1 hl).1)

theorem Numbered.newAddress {a : Net.Cidr} (h : m.Numbered)
    (hnew : m.newAddress space index a = .ok m') : m'.Numbered := by
  unfold Machine.newAddress at hnew
  split at hnew
  · cases hnew
  · split at hnew
    · cases hnew
    · cases hnew
      exact h.modify fun l hl _ => h l hl

theorem Numbered.newRoute {r : Route} (h : m.Numbered)
    (hnew : m.newRoute space index r = .ok m') : m'.Numbered := by
  unfold Machine.newRoute at hnew
  dsimp only at hnew
  split at hnew
  · cases hnew
  · split at hnew
    · cases hnew
    · cases hnew
      exact h.modify fun l hl _ => h l hl

theorem Numbered.settle (h : m.Numbered) {x : Except Errno Machine}
    (hx : ∀ m', x = .ok m' → m'.Numbered) : (m.settle x).2.Numbered := by
  cases x with
  | error e => exact h
  | ok m' => exact hx m' rfl

/-- No request gives a link a number that is yet to be given out. -/
theorem Numbered.serve (h : m.Numbered) (space : Space) (r : Request) :
    (m.serve space r).2.Numbered := by
  cases r with
  | newLink name peerName mtu => exact h.settle fun _ => h.newLink
  | getLink name => exact h
  | setLink index c => exact h.settle fun _ => h.setLink
  | delLink index => exact h.settle fun _ => h.delLink
  | newAddress index a => exact h.settle fun _ => h.newAddress
  | newRoute index r => exact h.settle fun _ => h.newRoute

end PodAttach.Kernel.Machine
