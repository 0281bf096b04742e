import PodAttach.Proofs.Boundaries
import PodAttach.Proofs.Construction

/-!
# Names of the two ends of a pair

The host end of a pair is called `tap` and as much of an identifier as fits
(`Fits`), and the other end, as long as it is in the same namespace, like the
host end with one letter behind.

* `fitting_eq_iff`: what is kept of an identifier is all of it that fits.
* `lastBoundary?_eq` and `front?_eq`: the search backwards stops behind it, and cuts it off.
* `peer_host`: that letter is put behind the whole name, which is never cut.
* `names_fit`: what both names are, for all identifiers.
* `peer_eq_host_iff`: which two identifiers have such names that clash.
* `peer_clashes_iff`: an identifier has a name that can clash exactly if it does not fill its room,
  and as long as a link has that name no pair is built.
-/

namespace PodAttach.Net.LinkName

/-! ## What fits -/

/-- The longest run of characters at the front that takes at most `room` bytes. -/
def fitting (room : Nat) : List Char → List Char
  | [] => []
  | c :: rest =>
    if c.utf8Size ≤ room then c :: fitting (room - c.utf8Size) rest else []

/-- How many bytes characters take. -/
def bytes : List Char → Nat
  | [] => 0
  | c :: cs => c.utf8Size + bytes cs

/-- As many characters from the front of others as there is room for. -/
structure Fits (room : Nat) (cs kept : List Char) : Prop where
  front : kept <+: cs
  size : bytes kept ≤ room
  full : ∀ c, kept ++ [c] <+: cs → room < bytes (kept ++ [c])

theorem bytes_cons (c : Char) (cs : List Char) : bytes (c :: cs) = c.utf8Size + bytes cs := rfl

theorem bytes_append (cs ds : List Char) : bytes (cs ++ ds) = bytes cs + bytes ds := by
  induction cs with
  | nil => exact (Nat.zero_add _).symm
  | cons c cs ih => rw [List.cons_append, bytes_cons, bytes_cons, ih, Nat.add_assoc]

theorem length_le_bytes (cs : List Char) : cs.length ≤ bytes cs := by
  induction cs with
  | nil => exact Nat.le_refl 0
  | cons c cs ih =>
    have hpos := c.utf8Size_pos
    rw [bytes_cons, List.length_cons]
    omega

theorem size_ofList (cs : List Char) : Utf8.size (String.ofList cs) = bytes cs := by
  induction cs with
  | nil => rfl
  | cons c cs ih =>
    rw [Utf8.size, String.ofList_cons, String.utf8ByteSize_append, String.utf8ByteSize_singleton,
      bytes_cons, ← ih, Utf8.size]

theorem fits_fitting (room : Nat) (cs : List Char) : Fits room cs (fitting room cs) := by
  induction cs generalizing room with
  | nil => exact ⟨List.prefix_rfl, Nat.zero_le room, fun c h => by simp [fitting] at h⟩
  | cons c cs ih =>
    rw [fitting]
    split
    · next hroom =>
      obtain ⟨hfront, hsize, hfull⟩ := ih (room - c.utf8Size)
      refine ⟨List.cons_prefix_cons.2 ⟨rfl, hfront⟩, ?_, fun d hd => ?_⟩
      · rw [bytes_cons]
        omega
      · have hmore := hfull d (List.cons_prefix_cons.1 hd).2
        rw [List.cons_append, bytes_cons]
        omega
    · next hroom =>
      refine ⟨List.nil_prefix, Nat.zero_le room, fun d hd => ?_⟩
      obtain ⟨rfl, -⟩ := List.cons_prefix_cons.1 hd
      rw [List.nil_append, bytes_cons]
      omega

/-- One of two different texts that fit would have room for more. -/
theorem Fits.length_le {room : Nat} {cs kept more : List Char} (hkept : Fits room cs kept)
    (hmore : Fits room cs more) : more.length ≤ kept.length := by
  by_contra hlonger
  have hprefix : kept <+: more := List.prefix_of_prefix_length_le hkept.front hmore.front (by omega)
  obtain ⟨rest, rfl⟩ := hprefix
  cases rest with
  | nil => simp at hlonger
  | cons c rest =>
    have hfront : kept ++ [c] <+: kept ++ c :: rest := ⟨rest, by simp⟩
    have hfull := hkept.full c (hfront.trans hmore.front)
    have hsize := hmore.size
    rw [bytes_append, bytes_cons] at hfull hsize
    have hnone : bytes [] = 0 := rfl
    omega

/-- What is kept is the one text that fits. -/
theorem fitting_eq_iff {room : Nat} {cs kept : List Char} :
    fitting room cs = kept ↔ Fits room cs kept := by
  constructor
  · intro h
    exact h ▸ fits_fitting room cs
  · intro h
    have hfits := fits_fitting room cs
    have hlength := Nat.le_antisymm (h.length_le hfits) (hfits.length_le h)
    have hfront := List.prefix_of_prefix_length_le hfits.front h.front (Nat.le_of_eq hlength)
    exact hfront.eq_of_length hlength

/-! ## Where an identifier is cut -/

theorem length_encodeChars (cs : List Char) : (Utf8.encodeChars cs).length = bytes cs := by
  induction cs with
  | nil => rfl
  | cons c cs ih =>
    rw [Utf8.encodeChars_cons, List.length_append, Utf8.length_encodeChar, ih, bytes_cons]

theorem bytes_mono {front cs : List Char} (h : front <+: cs) : bytes front ≤ bytes cs := by
  obtain ⟨rest, rfl⟩ := h
  rw [bytes_append]
  exact Nat.le_add_right _ _

/-- The search backwards stops behind the characters that fit. -/
theorem lastBoundary?_eq (room : Nat) (cs : List Char) :
    Utf8.lastBoundary? (Utf8.encodeChars cs) (min (bytes cs) room) =
      some (bytes (fitting room cs)) := by
  obtain ⟨stop, hstop, hle, hboundary, hlast⟩ :=
    Utf8.lastBoundary?_spec (Utf8.encodeChars cs) (min (bytes cs) room)
  obtain ⟨front, hfront, rfl⟩ := Utf8.isBoundary_encodeChars_iff.1 hboundary
  rw [length_encodeChars] at hstop hle hlast
  have hfits : Fits room cs front := by
    refine ⟨hfront, Nat.le_trans hle (Nat.min_le_right _ _), fun c hc => ?_⟩
    by_contra hroom
    -- there would be a later place to stop
    have hend := Utf8.isBoundary_encodeChars_iff.2 ⟨front ++ [c], hc, length_encodeChars _⟩
    have hbehind := hlast _ (Nat.le_min.2 ⟨bytes_mono hc, Nat.le_of_not_lt hroom⟩) hend
    have hpos := c.utf8Size_pos
    rw [bytes_append, bytes_cons] at hbehind
    omega
  rw [hstop, fitting_eq_iff.2 hfits]

/-! ## The names -/

/-- The characters of an identifier that are kept. -/
def kept (vifId : String) : List Char := fitting room vifId.toList

theorem kept_eq_iff {vifId : String} {cs : List Char} :
    kept vifId = cs ↔ Fits room vifId.toList cs :=
  fitting_eq_iff

theorem bytes_kept_le (vifId : String) : bytes (kept vifId) ≤ room :=
  (kept_eq_iff.1 rfl).size

/-- What is cut off the front of an identifier are the characters that are kept. -/
theorem front?_eq (vifId : String) : front? vifId = some (String.ofList (kept vifId)) := by
  have hstop : Utf8.lastBoundary? (Utf8.encode vifId) (min (Utf8.encode vifId).length room) =
      some (bytes (kept vifId)) := by
    rw [Utf8.encode, length_encodeChars]
    exact lastBoundary?_eq room vifId.toList
  have hcut : (Utf8.encode vifId).take (bytes (kept vifId)) = Utf8.encodeChars (kept vifId) := by
    rw [← length_encodeChars]
    exact Utf8.encodeChars_take (kept_eq_iff.1 rfl).front
  rw [front?, hstop, Option.bind_some, hcut, Utf8.decode?_encodeChars]

theorem toList_host (vifId : String) : (host vifId).toList = hostStart.toList ++ kept vifId := by
  rw [host, front?_eq, Option.getD_some, String.toList_append, String.toList_ofList]

theorem size_host (vifId : String) :
    Utf8.size (host vifId) = hostStart.length + bytes (kept vifId) := by
  rw [← size_ofList, host, front?_eq, Option.getD_some]
  exact String.utf8ByteSize_append

/-- The name of the other end is that of the host end and one letter; nothing is cut off. -/
theorem peer_host (vifId : String) : peer (host vifId) = host vifId ++ "p" := by
  have hlength : (host vifId).toList.length ≤ maxSize - 1 := by
    have hkept := length_le_bytes (kept vifId)
    have hsize := bytes_kept_le vifId
    rw [toList_host, List.length_append]
    have hstart : hostStart.toList.length = 3 := rfl
    have hroom : room = 11 := rfl
    have hmax : maxSize = 15 := rfl
    omega
  rw [peer, List.take_of_length_le hlength, String.ofList_toList]

/-- A text is the longest that another one starts with, among those of at most so many bytes. -/
structure IsLongestFront (limit : Nat) (s front : String) : Prop where
  starts : front.toList <+: s.toList
  size : Utf8.size front ≤ limit
  longest : ∀ other : String, other.toList <+: s.toList → Utf8.size other ≤ limit →
    other.toList <+: front.toList

theorem size_eq_bytes (s : String) : Utf8.size s = bytes s.toList := by
  rw [← size_ofList, String.ofList_toList]

/-- What fits is the longest front. -/
theorem Fits.isLongestFront {limit : Nat} {s : String} {kept : List Char}
    (h : Fits limit s.toList kept) : IsLongestFront limit s (String.ofList kept) := by
  refine ⟨?_, ?_, fun other hother hsize => ?_⟩
  · rw [String.toList_ofList]
    exact h.front
  · rw [size_ofList]
    exact h.size
  · rw [size_eq_bytes] at hsize
    rw [String.toList_ofList]
    rcases List.prefix_or_prefix_of_prefix hother h.front with hshorter | ⟨rest, hrest⟩
    · exact hshorter
    · cases rest with
      | nil =>
        have hsame : kept = other.toList := (List.append_nil kept).symm.trans hrest
        exact hsame ▸ List.prefix_rfl
      | cons c rest =>
        have hnext : kept ++ [c] <+: other.toList := ⟨rest, by rw [← hrest]; simp⟩
        have hfull := h.full c (hnext.trans hother)
        have hle := bytes_mono hnext
        omega

/-- For every identifier the search backwards for the end of a character finds one, the host end is
called `tap` and as much of the identifier as takes at most eleven bytes, and the other end is
called like it with one letter more, in at most fifteen bytes; so names of the other ends are equal
where those of the host ends are. -/
theorem names_fit (a : String) :
    (∃ front, Utf8.lastBoundary? (Utf8.encode a) (min (Utf8.encode a).length 11) =
        some (Utf8.size front) ∧
      IsLongestFront 11 a front ∧ host a = "tap" ++ front) ∧
    peer (host a) = host a ++ "p" ∧ Utf8.size (peer (host a)) ≤ 15 ∧
    ∀ b, peer (host a) = peer (host b) ↔ host a = host b := by
  have hfits : Fits room a.toList (kept a) := kept_eq_iff.1 rfl
  have hroom : room = 11 := rfl
  refine ⟨⟨String.ofList (kept a), ?_, hfits.isLongestFront, ?_⟩, peer_host a, ?_, fun b => ?_⟩
  · rw [Utf8.encode, length_encodeChars, size_ofList, ← hroom]
    exact lastBoundary?_eq room a.toList
  · rw [host, front?_eq]
    rfl
  · have hkept := bytes_kept_le a
    have hletter : Utf8.size "p" = 1 := rfl
    have hstart : hostStart.length = 3 := rfl
    have happend : Utf8.size (host a ++ "p") = Utf8.size (host a) + Utf8.size "p" :=
      String.utf8ByteSize_append
    rw [peer_host, happend, size_host]
    omega
  · rw [peer_host, peer_host, ← String.toList_inj, String.toList_append, String.toList_append,
      List.append_cancel_right_eq, String.toList_inj]

/-- The last character that there is room for would end in the twelfth byte. -/
example : host "0123456789é0" = "tap0123456789" := by decide +kernel

/-- Names clash where the one identifier is kept with that letter behind it as the other one. -/
theorem peer_eq_host_iff {a b : String} :
    peer (host a) = host b ↔ kept b = kept a ++ ['p'] := by
  have hletter : "p".toList = ['p'] := rfl
  rw [peer_host, ← String.toList_inj, String.toList_append, toList_host, toList_host, hletter,
    List.append_assoc, List.append_cancel_left_eq, eq_comm]

/-- An identifier that fills its room has no name that clashes. -/
theorem exists_peer_eq_host_iff {a : String} :
    (∃ b, peer (host a) = host b) ↔ Utf8.size (host a) < maxSize - 1 := by
  have hletter : bytes ['p'] = 1 := rfl
  have hstart : hostStart.length = 3 := rfl
  have hroom : room = 11 := rfl
  have hmax : maxSize = 15 := rfl
  rw [size_host]
  constructor
  · intro h
    obtain ⟨b, hclash⟩ := h
    have hsize := bytes_kept_le b
    rw [peer_eq_host_iff.1 hclash, bytes_append] at hsize
    omega
  · intro h
    refine ⟨String.ofList (kept a ++ ['p']), peer_eq_host_iff.2 ?_⟩
    rw [kept_eq_iff, String.toList_ofList]
    refine ⟨List.prefix_rfl, ?_, fun c hc => ?_⟩
    · rw [bytes_append]
      omega
    · have hle := hc.length_le
      simp at hle

end PodAttach.Net.LinkName

namespace PodAttach.Link

open Net Kernel Scenario

/-- While a pair was being made, the name of its other end was free. -/
theorem named?_peer_of_buildPair {n : Netlab} {own : Space} {spec : PairSpec} {pair : Pair}
    (hok : (n.perform (buildPair own spec)).1 = .ok pair) :
    n.machine.named? own (LinkName.peer spec.hostIfname) = none := by
  cases hmac : Mac.parse? spec.mac with
  | none =>
    unfold buildPair macBytes at hok
    rw [hmac] at hok
    cases hok
  | some mac =>
    rw [perform_buildPair hmac] at hok
    cases hmade : n.request own spec.newLink with
    | mk reply made =>
      rw [hmade] at hok
      cases reply with
      | error e => cases hok
      | ok v =>
        have hcases := answer_request (r := spec.newLink) (show Netlab.answer _ n = _ from hmade)
        rcases hcases with ⟨_, hreply, -⟩ | ⟨_, -, hserve⟩
        · cases hreply
        obtain ⟨host, peer, hpaired, -, -, -, hspace, hname, -, -⟩ :=
          Machine.newLink_ok (settle_ok hserve)
        refine Machine.named?_eq_none.2 fun l hl => ?_
        rw [← hspace, ← hname]
        exact hpaired.peerFree l (List.mem_append_left _ hl)

/-- The name of the other end of a pair clashes with that of a host link exactly where the one
identifier is kept with a letter behind it as the other one.  Such an identifier there is unless the
first one fills its room, so that its host link has a name of fourteen bytes; and as long as its
link is there, no pair is built. -/
theorem peer_clashes_iff (a : String) :
    ((∃ b, LinkName.peer (LinkName.host a) = LinkName.host b) ↔
      Utf8.size (LinkName.host a) < LinkName.maxSize - 1) ∧
    ∀ b, (LinkName.peer (LinkName.host a) = LinkName.host b ↔
        ∃ kept, LinkName.Fits LinkName.room a.toList kept ∧
          LinkName.Fits LinkName.room b.toList (kept ++ ['p'])) ∧
      (LinkName.peer (LinkName.host a) = LinkName.host b →
        ∀ (n : Netlab) (own : Space) (spec : PairSpec), spec.hostIfname = LinkName.host a →
          (n.machine.named? own (LinkName.host b)).isSome →
          ∀ pair, (n.perform (buildPair own spec)).1 ≠ .ok pair) := by
  refine ⟨LinkName.exists_peer_eq_host_iff, fun b => ⟨?_, ?_⟩⟩
  · simp only [← LinkName.kept_eq_iff, exists_eq_left']
    exact LinkName.peer_eq_host_iff
  · intro hclash n own spec hname htaken pair hok
    have hfree := named?_peer_of_buildPair hok
    rw [hname, hclash] at hfree
    rw [hfree] at htaken
    cases htaken

namespace Sample

/-- A plan for an identifier. -/
def planFor (vifId netns : String) : PairSpec :=
  { plan with hostIfname := LinkName.host vifId, netns }

/-- A machine on which the pair for `abcp` stands. -/
def inhabited : Netlab :=
  ((Netlab.ofSpaces ["run", "netns"] "host" ["pod", "other"]).perform
    (buildPair "host" (planFor "abcp" "/run/netns/pod"))).2

end Sample

/-- A pair for `abc` cannot be built beside the one for `abcp`. -/
theorem abc_clashes_with_abcp :
    LinkName.peer (LinkName.host "abc") = LinkName.host "abcp" ∧
      (Sample.inhabited.machine.named? "host" (LinkName.host "abcp")).isSome ∧
      ∀ pair, (Sample.inhabited.perform
        (buildPair "host" (Sample.planFor "abc" "/run/netns/other"))).1 ≠ .ok pair := by
  have hclash : LinkName.peer (LinkName.host "abc") = LinkName.host "abcp" := by decide +kernel
  have htaken : (Sample.inhabited.machine.named? "host" (LinkName.host "abcp")).isSome := by
    decide +kernel
  obtain ⟨-, hclashes⟩ := peer_clashes_iff "abc"
  exact ⟨hclash, htaken, (hclashes "abcp").2 hclash Sample.inhabited "host" _ rfl htaken⟩

end PodAttach.Link
