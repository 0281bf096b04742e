import PodAttach.Proofs.Agreement

/-!
# Hardware addresses, as texts and in the kernel

A descriptor gives the hardware address of an interface as a text.  The kernel
gets the bytes that the text denotes; the switch, the store and the runtime
get the text itself, in lower case.

* `Mac.parse?_isSome_iff`: a text is read exactly if it is six pairs of digits with colons between
  them, where a plus sign may stand for the first digit of a pair.
* `Mac.render_eq_lower_iff`: the bytes are written as the text in lower case exactly if no sign is
  in it; `Mac.parse?_lower` says that both are read as the same bytes anyway.
* `Mac.parse?_render`: six bytes are read from what they are written as.
* `Link.macsSet_buildPair`: a pair that is built was given the address that its plan denotes.
* `Agent.mac_texts_and_bytes`: what this comes to for an Add that attaches a container.
-/

namespace PodAttach

open Net

namespace Text

/-- What holds of all characters of ASCII and of those that have no other case holds of all. -/
theorem forall_char_of_ascii {P : Char → Prop} (hascii : ∀ i : Fin 128, P (Char.ofNat i.val))
    (hother : ∀ c, 128 ≤ c.toNat → c.toLower = c → P c) (c : Char) : P c := by
  by_cases hc : c.toNat < 128
  · rw [← Char.ofNat_toNat c]
    exact hascii ⟨c.toNat, hc⟩
  · refine hother c (by omega) ?_
    unfold Char.toLower
    rw [dif_neg]
    intro h
    obtain ⟨-, hupper⟩ := h
    rw [UInt32.le_iff_toNat_le] at hupper
    have hnat : c.val.toNat = c.toNat := rfl
    have hlast : 'Z'.val.toNat = 90 := rfl
    omega

theorem hexValue?_toLower (c : Char) : hexValue? c.toLower = hexValue? c :=
  forall_char_of_ascii (P := fun c => hexValue? c.toLower = hexValue? c) (by decide)
    (fun c _ hc => by rw [hc]) c

/-- No other character becomes a colon or a plus sign in lower case. -/
theorem toLower_eq_iff (c : Char) :
    (c.toLower = ':' ↔ c = ':') ∧ (c.toLower = '+' ↔ c = '+') :=
  forall_char_of_ascii (P := fun c => (c.toLower = ':' ↔ c = ':') ∧ (c.toLower = '+' ↔ c = '+'))
    (by decide) (fun c _ hc => by simp only [hc, iff_self, and_self]) c

/-- A hexadecimal digit has a value below sixteen, and in lower case it is the digit of that
value. -/
theorem hexDigit_of_hexValue? {c : Char} {n : Nat} (h : hexValue? c = some n) :
    n < 16 ∧ hexDigit n = c.toLower := by
  have hall : ∀ c : Char, (hexValue? c).all fun n =>
      decide (n < 16) && (hexDigit n == c.toLower) := by
    refine forall_char_of_ascii (by decide) fun c hc _ => ?_
    have hnone : hexValue? c = none := by
      unfold hexValue? isDigit
      simp only [Char.le_def, UInt32.le_iff_toNat_le, Bool.and_eq_true, decide_eq_true_eq]
      have hnat : c.val.toNat = c.toNat := rfl
      have hnine : '9'.val.toNat = 57 := rfl
      have hlower : 'f'.val.toNat = 102 := rfl
      have hupper : 'F'.val.toNat = 70 := rfl
      rw [if_neg (by omega), if_neg (by omega), if_neg (by omega)]
    rw [hnone]
    rfl
  have hc := hall c
  rw [h] at hc
  simpa using hc

/-- Characters are exchanged before or after a text is cut. -/
theorem pieces_map {sep : Char} {f : Char → Char} (hf : ∀ c, f c = sep ↔ c = sep)
    (cs : List Char) : pieces sep (cs.map f) = (pieces sep cs).map (List.map f) := by
  induction cs with
  | nil => rfl
  | cons c cs ih =>
    rw [List.map_cons, pieces, pieces, ih]
    by_cases hc : c = sep
    · rw [if_pos hc, if_pos ((hf c).2 hc)]
      rfl
    · rw [if_neg hc, if_neg (mt (hf c).1 hc)]
      cases pieces sep cs <;> rfl

/-- What is in one of the joined texts is in the result. -/
theorem mem_join_of_mem {sep c : Char} {ps : List (List Char)} {p : List Char} (hp : p ∈ ps)
    (hc : c ∈ p) : c ∈ join sep ps := by
  induction ps with
  | nil => cases hp
  | cons q ps ih =>
    cases ps with
    | nil => rwa [List.mem_singleton.1 hp] at hc
    | cons r ps =>
      rw [join, List.mem_append, List.mem_cons]
      rcases List.mem_cons.1 hp with rfl | hp
      · exact .inl hc
      · exact .inr (.inr (ih hp))

end Text

namespace Net.Mac

/-! ## What is read -/

/-- Two hexadecimal digits. -/
def IsPair (p : List Char) : Prop :=
  p.length = 2 ∧ ∀ c ∈ p, Text.isHexDigit c = true

/-- A plus sign and one hexadecimal digit. -/
def IsSigned (p : List Char) : Prop :=
  ∃ b, p = ['+', b] ∧ Text.isHexDigit b = true

/-- Six parts with single colons between them. -/
def SixOf (part : List Char → Prop) (s : String) : Prop :=
  ∃ ps, ps.length = 6 ∧ (∀ p ∈ ps, part p) ∧ s.toList = Text.join ':' ps

/-- What a character becomes when the byte is written that was read from it. -/
def shown (c : Char) : Char :=
  if c = '+' then '0' else c.toLower

theorem octet?_signed (b : Char) : octet? ['+', b] = (Text.hexValue? b).map UInt8.ofNat := rfl

theorem octet?_pair {a : Char} (b : Char) (ha : a ≠ '+') :
    octet? [a, b] = match Text.hexValue? a, Text.hexValue? b with
      | some x, some y => some (UInt8.ofNat (x * 16 + y))
      | _, _ => none := by
  have hsign : ¬ (a == '+') = true := by simpa using ha
  exact if_neg hsign

theorem octetChars_ofNat {x y : Nat} (hx : x < 16) (hy : y < 16) :
    octetChars (UInt8.ofNat (x * 16 + y)) = [Text.hexDigit x, Text.hexDigit y] := by
  have hnat : (UInt8.ofNat (x * 16 + y)).toNat = x * 16 + y := by
    rw [UInt8.toNat_ofNat']
    omega
  rw [octetChars, hnat, show (x * 16 + y) / 16 = x by omega, show (x * 16 + y) % 16 = y by omega]

theorem shown_of_isHexDigit {c : Char} (hc : Text.isHexDigit c = true) : shown c = c.toLower := by
  refine if_neg ?_
  rintro rfl
  cases hc

/-- A part that is read is two digits, or a sign and a digit; a sign counts as a zero. -/
theorem octet?_eq_some {p : List Char} {x : UInt8} (h : octet? p = some x) :
    (IsPair p ∨ IsSigned p) ∧ octetChars x = p.map shown := by
  match p, h with
  | [a, b], h =>
    by_cases ha : a = '+'
    · subst ha
      rw [octet?_signed] at h
      obtain ⟨y, hy, rfl⟩ := Option.map_eq_some_iff.1 h
      have hb : Text.isHexDigit b = true := by rw [Text.isHexDigit, hy]; rfl
      obtain ⟨hsmall, hdigit⟩ := Text.hexDigit_of_hexValue? hy
      have hchars := octetChars_ofNat (x := 0) (by decide) hsmall
      rw [Nat.zero_mul, Nat.zero_add, hdigit, ← shown_of_isHexDigit hb] at hchars
      exact ⟨.inr ⟨b, rfl, hb⟩, hchars⟩
    · rw [octet?_pair b ha] at h
      cases hx : Text.hexValue? a with
      | none => simp [hx] at h
      | some x =>
        cases hy : Text.hexValue? b with
        | none => simp [hx, hy] at h
        | some y =>
          rw [hx, hy] at h
          cases h
          have ha : Text.isHexDigit a = true := by rw [Text.isHexDigit, hx]; rfl
          have hb : Text.isHexDigit b = true := by rw [Text.isHexDigit, hy]; rfl
          obtain ⟨hx', hdigit⟩ := Text.hexDigit_of_hexValue? hx
          obtain ⟨hy', hdigit'⟩ := Text.hexDigit_of_hexValue? hy
          refine ⟨.inl ⟨rfl, by simp [ha, hb]⟩, ?_⟩
          rw [octetChars_ofNat hx' hy', hdigit, hdigit', ← shown_of_isHexDigit ha,
            ← shown_of_isHexDigit hb]
          rfl

/-- Each such part is read. -/
theorem exists_octet? {p : List Char} (h : IsPair p ∨ IsSigned p) : ∃ x, octet? p = some x := by
  rcases h with ⟨hlength, hp⟩ | ⟨b, rfl, hb⟩
  · obtain ⟨a, b, rfl⟩ := List.length_eq_two.1 hlength
    have ha := hp a (by simp)
    have hb := hp b (by simp)
    have hne : a ≠ '+' := by
      rintro rfl
      cases ha
    obtain ⟨x, hx⟩ := Option.isSome_iff_exists.1 ha
    obtain ⟨y, hy⟩ := Option.isSome_iff_exists.1 hb
    exact ⟨_, by rw [octet?_pair b hne, hx, hy]⟩
  · obtain ⟨y, hy⟩ := Option.isSome_iff_exists.1 hb
    exact ⟨_, by rw [octet?_signed, hy]; rfl⟩

theorem parse?_eq_some_iff {s : String} {bytes : Bytes} :
    parse? s = some bytes ↔
      List.Forall₂ (fun p x => octet? p = some x) (Text.pieces ':' s.toList) bytes ∧
        bytes.length = 6 := by
  rw [← mapM_eq_some_iff, parse?]
  cases hread : (Text.pieces ':' s.toList).mapM octet? with
  | none => simp
  | some bytes' =>
    dsimp only
    rw [Option.some_inj]
    split
    · next hlength =>
      rw [Option.some_inj]
      exact ⟨fun h => ⟨h, h ▸ hlength⟩, fun h => h.1⟩
    · next hlength =>
      refine iff_of_false nofun fun h => hlength (h.1 ▸ h.2)

/-- A part of an address holds no colon. -/
theorem not_mem_part {p : List Char} (h : IsPair p ∨ IsSigned p) : ':' ∉ p := by
  intro hmem
  rcases h with ⟨-, hp⟩ | ⟨b, rfl, hb⟩
  · cases hp ':' hmem
  · have hsign : (':' : Char) ≠ '+' := by decide
    obtain rfl : ':' = b := by simpa [hsign] using hmem
    cases hb

/-- A text is read exactly if it is six pairs of digits, where a sign may stand for the first
digit of a pair. -/
theorem parse?_isSome_iff (s : String) :
    (parse? s).isSome = true ↔ SixOf (fun p => IsPair p ∨ IsSigned p) s := by
  constructor
  · intro h
    obtain ⟨bytes, hbytes⟩ := Option.isSome_iff_exists.1 h
    obtain ⟨hparts, hlength⟩ := parse?_eq_some_iff.1 hbytes
    refine ⟨Text.pieces ':' s.toList, hparts.length_eq.trans hlength, ?_,
      (Text.join_pieces ':' s.toList).symm⟩
    have hall := forall_mem_iff_of_forall₂ (P := fun p => IsPair p ∨ IsSigned p)
      (Q := fun _ => True) hparts fun p _ x hx => iff_of_true (octet?_eq_some hx).1 trivial
    exact hall.2 fun _ _ => trivial
  · intro h
    obtain ⟨ps, hlength, hps, hs⟩ := h
    have hne : ps ≠ [] := List.ne_nil_of_length_eq_add_one hlength
    have hpieces : Text.pieces ':' s.toList = ps := by
      rw [hs, Text.pieces_join hne fun p hp => not_mem_part (hps p hp)]
    have hread : ∃ bytes, List.Forall₂ (fun p x => octet? p = some x) ps bytes := by
      clear hlength hs hne hpieces
      induction ps with
      | nil => exact ⟨[], .nil⟩
      | cons p ps ih =>
        obtain ⟨x, hx⟩ := exists_octet? (hps p List.mem_cons_self)
        obtain ⟨bytes, hbytes⟩ := ih fun q hq => hps q (List.mem_cons_of_mem p hq)
        exact ⟨x :: bytes, .cons hx hbytes⟩
    obtain ⟨bytes, hbytes⟩ := hread
    rw [Option.isSome_iff_exists]
    exact ⟨bytes, parse?_eq_some_iff.2 ⟨hpieces ▸ hbytes, hbytes.length_eq.symm.trans hlength⟩⟩

/-- Six pairs are six parts without a sign. -/
theorem sixOf_isPair_iff {s : String} :
    SixOf IsPair s ↔ SixOf (fun p => IsPair p ∨ IsSigned p) s ∧ '+' ∉ s.toList := by
  constructor
  · intro h
    obtain ⟨ps, hlength, hps, hs⟩ := h
    refine ⟨⟨ps, hlength, fun p hp => .inl (hps p hp), hs⟩, fun hplus => ?_⟩
    rw [hs] at hplus
    rcases Text.mem_join hplus with hcolon | ⟨p, hp, hmem⟩
    · revert hcolon
      decide
    · cases (hps p hp).2 '+' hmem
  · intro h
    obtain ⟨⟨ps, hlength, hps, hs⟩, hplus⟩ := h
    refine ⟨ps, hlength, fun p hp => (hps p hp).resolve_right fun hsigned => ?_, hs⟩
    obtain ⟨b, rfl, -⟩ := hsigned
    rw [hs] at hplus
    exact hplus (Text.mem_join_of_mem hp List.mem_cons_self)

/-! ## What is written -/

theorem join_map {f : Char → Char} {sep : Char} (hsep : f sep = sep) (ps : List (List Char)) :
    Text.join sep (ps.map (List.map f)) = (Text.join sep ps).map f := by
  induction ps with
  | nil => rfl
  | cons p ps ih =>
    cases ps with
    | nil => rfl
    | cons q ps =>
      rw [List.map_cons, List.map_cons, Text.join, ← List.map_cons, ih, Text.join, List.map_append,
        List.map_cons, hsep]

/-- Written again, an address is the text it was read from, in lower case and with a zero for each
sign. -/
theorem render_of_parse? {s : String} {bytes : Bytes} (h : parse? s = some bytes) :
    render bytes = String.ofList (s.toList.map shown) := by
  have hchars : bytes.map octetChars = (Text.pieces ':' s.toList).map (List.map shown) := by
    have hparts := (parse?_eq_some_iff.1 h).1
    clear h
    generalize Text.pieces ':' s.toList = ps at hparts
    induction hparts with
    | nil => rfl
    | cons hx _ ih => rw [List.map_cons, List.map_cons, ih, (octet?_eq_some hx).2]
  rw [render, hchars, join_map (by decide), Text.join_pieces]

/-- Without a sign it is the text in lower case, and only then. -/
theorem render_eq_lower_iff {s : String} {bytes : Bytes} (h : parse? s = some bytes) :
    render bytes = Text.lower s ↔ SixOf IsPair s := by
  have hshown : render bytes = Text.lower s ↔ '+' ∉ s.toList := by
    rw [render_of_parse? h, Text.lower, String.ofList_inj, List.map_inj_left]
    constructor
    · intro hsame hplus
      have := hsame '+' hplus
      revert this
      decide
    · intro hplus c hc
      refine if_neg ?_
      rintro rfl
      exact hplus hc
  have hparts := (parse?_isSome_iff s).1 (by rw [h]; rfl)
  rw [hshown, sixOf_isPair_iff, and_iff_right hparts]

/-- Lower case makes no difference to what is read. -/
theorem parse?_lower (s : String) : parse? (Text.lower s) = parse? s := by
  have hpieces : Text.pieces ':' (Text.lower s).toList =
      (Text.pieces ':' s.toList).map (List.map Char.toLower) := by
    rw [Text.lower, String.toList_ofList]
    exact Text.pieces_map (fun c => (Text.toLower_eq_iff c).1) s.toList
  have hoctet : ∀ p, octet? (p.map Char.toLower) = octet? p := by
    intro p
    match p with
    | [] | [_] | _ :: _ :: _ :: _ => rfl
    | [a, b] =>
      by_cases ha : a = '+'
      · subst ha
        show octet? ['+', b.toLower] = _
        rw [octet?_signed, octet?_signed, Text.hexValue?_toLower]
      · have ha' : a.toLower ≠ '+' := mt (Text.toLower_eq_iff a).2.1 ha
        show octet? [a.toLower, b.toLower] = _
        rw [octet?_pair _ ha', octet?_pair _ ha, Text.hexValue?_toLower, Text.hexValue?_toLower]
  have hsame : octet? ∘ List.map Char.toLower = octet? := funext hoctet
  rw [parse?, parse?, hpieces, List.mapM_map, hsame]

/-- Six bytes are read from what they are written as. -/
theorem parse?_render {bytes : Bytes} (hlength : bytes.length = 6) :
    parse? (render bytes) = some bytes := by
  have hne : bytes ≠ [] := List.ne_nil_of_length_eq_add_one hlength
  rw [parse?_eq_some_iff, pieces_render bytes hne]
  refine ⟨?_, hlength⟩
  rw [List.forall₂_map_left_iff]
  refine List.forall₂_same.2 fun x _ => ?_
  have hx := x.toNat_lt
  have hhigh : Text.hexDigit (x.toNat / 16) ≠ '+' := by
    intro h
    have hvalue := Text.hexValue?_hexDigit (d := x.toNat / 16) (by omega)
    rw [h] at hvalue
    cases hvalue
  rw [octetChars, octet?_pair _ hhigh, Text.hexValue?_hexDigit (by omega),
    Text.hexValue?_hexDigit (by omega)]
  dsimp only
  rw [show x.toNat / 16 * 16 + x.toNat % 16 = x.toNat by omega, UInt8.ofNat_toNat]

end Net.Mac
namespace Link

/-! ## What the kernel is given -/

open Kernel Scenario Kernel.Work

/-- The hardware address that a question sets. -/
def setsMac? : Kernel.Ask → Option Bytes
  | .request _ (.setLink _ change) => change.mac
  | _ => none

/-- The hardware addresses that were set, in order. -/
def macsSet (asked : List Kernel.Ask) : List Bytes :=
  asked.filterMap setsMac?

variable {ε α β : Type}

/-- Work that sets no hardware address, whatever it is answered. -/
def SetsNone (w : Work ε α) : Prop :=
  ∀ s, Gives answering.keeping s w fun _ s' => macsSet s'.2 = macsSet s.2

theorem setsNone_pure (a : α) : SetsNone (pure a : Work ε α) :=
  fun _ => ends_pure rfl

theorem setsNone_throw (e : ε) : SetsNone (throw e : Work ε α) :=
  fun _ => ends_throw trivial

theorem SetsNone.bind {w : Work ε α} {f : α → Work ε β} (hw : SetsNone w)
    (hf : ∀ a, SetsNone (f a)) : SetsNone (w >>= f) := by
  intro s
  refine ends_bind (hw s) fun a s₁ hsame => ?_
  exact (hf a s₁).imp_post fun _ s₂ hsame' => hsame'.trans hsame

theorem setsNone_ask {q : Kernel.Ask} (hq : setsMac? q = none) :
    SetsNone (Work.ask q : Work ε q.Reply) := by
  intro s
  refine ends_ask trivial fun reply s' hasked => ?_
  rw [hasked.2, macsSet, macsSet, List.filterMap_append]
  simp [hq]

theorem setsNone_orFail (wrap : Errno → ε) (x : Except Errno α) :
    SetsNone (Work.orFail wrap x) := by
  cases x with
  | error e => exact setsNone_throw (wrap e)
  | ok a => exact setsNone_pure a

theorem setsNone_request {space : Space} {r : Request} {wrap : Errno → ε}
    (hr : setsMac? (.request space r) = none) : SetsNone (Work.request space r wrap) :=
  (setsNone_ask hr).bind fun reply => setsNone_orFail wrap reply

theorem setsNone_forM {f : β → Work ε Unit} (hf : ∀ b, SetsNone (f b)) {xs : List β} :
    SetsNone (xs.forM f) := by
  induction xs with
  | nil => exact setsNone_pure ()
  | cons x xs ih => exact (hf x).bind fun _ => ih

theorem setsNone_requireLink (space : Space) (name : String) :
    SetsNone (requireLink space name) := by
  rw [requireLink_eq]
  refine (setsNone_ask rfl).bind fun reply => ?_
  cases reply with
  | ok info => exact setsNone_pure info
  | error e => exact setsNone_throw _

theorem setsNone_openNamespace (path : String) : SetsNone (openNamespace path) := by
  unfold openNamespace
  split
  · exact (setsNone_ask rfl).bind fun reply => setsNone_orFail _ reply
  · exact setsNone_throw _

theorem setsNone_configureAddressing (space : Space) (index : Nat) (addresses : List Cidr)
    (routes : List Route) : SetsNone (configureAddressing space index addresses routes) := by
  have hroute : ∀ r, SetsNone (addRoute space index r) := by
    intro r s
    unfold addRoute
    exact ends_ite (fun _ => setsNone_request rfl s) fun _ => setsNone_throw _ s
  unfold configureAddressing
  exact (setsNone_forM fun _ => setsNone_request rfl).bind fun _ => setsNone_forM hroute

/-- Naming and configuring the moved end sets its hardware address. -/
theorem gives_configureContainer {inside : Space} {spec : PairSpec} {mac : Bytes}
    {s : Netlab × List Kernel.Ask} (hs : macsSet s.2 = []) :
    Gives answering.keeping s (configureContainer inside spec mac) fun _ s' =>
      macsSet s'.2 = [mac] := by
  unfold configureContainer
  refine ends_bind (setsNone_requireLink inside _ s) fun peer s₁ hsame₁ => ?_
  let change : Change :=
    { name := some spec.containerIfname, mac := some mac, mtu := askedMtu spec.mtu }
  have hset : Gives answering.keeping s₁ (setLink inside peer.index change spec.containerIfname)
      fun _ s' => macsSet s'.2 = [mac] := by
    refine ends_bind (ends_ask (q := .request inside (.setLink peer.index change)) trivial
      fun _ _ hasked => hasked) fun reply s₂ hasked => ?_
    have hmacs : macsSet s₂.2 = [mac] := by
      rw [hasked.2, macsSet, List.filterMap_append, ← macsSet, hsame₁, hs]
      rfl
    exact ends_orFail (fun _ _ => hmacs) fun _ _ => trivial
  refine ends_bind hset fun _ s₂ hmacs => ?_
  refine ends_bind (setsNone_request rfl s₂) fun _ s₃ hsame₃ => ?_
  refine ends_adapt ((setsNone_configureAddressing inside _ _ _ s₃).imp_post fun _ s₄ hsame₄ => ?_)
  rw [hsame₄, hsame₃, hmacs]

/-- A pair that is built was given the hardware address that its plan denotes, and no other. -/
theorem gives_macsSet (own : Space) (spec : PairSpec) {s : Netlab × List Kernel.Ask}
    (hs : macsSet s.2 = []) :
    Gives answering.keeping s (buildPair own spec) fun _ s' =>
      ∃ mac, Mac.parse? spec.mac = some mac ∧ macsSet s'.2 = [mac] := by
  unfold buildPair
  refine ends_bind (ends_macBytes.imp_failed fun _ _ => trivial) fun mac s₀ hmac => ?_
  obtain ⟨hmac, rfl⟩ := hmac
  refine ends_bind (setsNone_request rfl s) fun _ s₁ hsame₁ => ?_
  have hconfigured : Gives answering.keeping s₁ (configurePair own spec mac) fun _ s' =>
      macsSet s'.2 = [mac] := by
    unfold configurePair
    refine ends_bind (setsNone_openNamespace _ s₁) fun netns s₂ hsame₂ => ?_
    have hhost : SetsNone (configureHost own spec) :=
      (setsNone_requireLink own _).bind fun _ => setsNone_request rfl
    have hpeer : SetsNone (movePeer own spec netns) :=
      (setsNone_requireLink own _).bind fun _ => setsNone_request rfl
    refine ends_bind (hhost s₂) fun _ s₃ hsame₃ => ?_
    refine ends_bind (hpeer s₃) fun _ s₄ hsame₄ => ?_
    have hsocket : SetsNone (socketIn spec.netns netns) :=
      (setsNone_ask rfl).bind fun reply => setsNone_orFail _ reply
    refine ends_bind (hsocket s₄) fun inside s₅ hsame₅ => ?_
    have hnone : macsSet s₅.2 = [] := by rw [hsame₅, hsame₄, hsame₃, hsame₂, hsame₁, hs]
    refine ends_bind (gives_configureContainer hnone) fun _ s₆ hmacs => ?_
    refine ends_bind (setsNone_requireLink own _ s₆) fun _ s₇ hsame₇ => ?_
    exact ends_pure (hsame₇.trans hmacs)
  refine ends_tryCatch (hconfigured.imp_post fun _ s' hmacs => ⟨mac, hmac, hmacs⟩)
    fun e s' _ => ?_
  exact ends_bind (gives_trivial (fun _ _ => trivial) _) fun _ _ _ => ends_throw trivial

/-- What the kernel was asked to set, where a pair was built. -/
theorem macsSet_buildPair {n : Netlab} {own : Space} {spec : PairSpec} {pair : Pair}
    (hok : (n.perform (buildPair own spec)).1 = .ok pair) :
    ∃ mac, Mac.parse? spec.mac = some mac ∧
      macsSet ((buildPair own spec).run.asked Netlab.answer n) = [mac] := by
  have hends := run_keeping_ends (gives_macsSet own spec (s := (n, [])) rfl)
  exact hends.1 pair hok

end Link

namespace Agent

/-! ## What an Add says -/

/-- The hardware address that a question names. -/
def Ask.mac? : Ask → Option String
  | .link (.build spec) => some spec.mac
  | .link (.check _ _ _ mac) => some mac
  | .switch (.createPort _ ids) => ids.get? Switch.idMac
  | .switch (.installFlows _ _ mac _) => some mac
  | .record a => some a.mac
  | _ => none

/-- The hardware addresses that were named, in order. -/
def macsNamed (log : List Event) : List String :=
  log.reverse.filterMap fun ev => ev.asked.mac?

/-- A container's interface was given a hardware address: the kernel got the bytes, and whoever
else is told of the interface the text. -/
structure GivesMac (s : Site) (c : Cni.Call) (text : String) (mac : Bytes)
    (answered : Cni.Response × Stay) : Prop where
  kernel : ∃ spec pair, (⟨.link (.build spec), .ok pair⟩ : Event) ∈ answered.2.log ∧
    Link.macsSet ((Link.buildPair s.netlab.own spec).run.asked Scenario.Netlab.answer s.netlab) =
      [mac]
  /-- The pair, the port, its flows and the record. -/
  named : macsNamed answered.2.log = List.replicate 4 text
  result : ∃ res : Cni.Result, answered.1 = ⟨res.toBytes, none⟩ ∧
    res.interfaces[Cni.Result.containerIndex]? = some ⟨c.ifname, text, c.netns⟩

theorem Made.macsNamed_log (x : Made) (o : Options) (d : Except DescriptorError Descriptor) :
    macsNamed (x.log o d) = List.replicate 4 x.plan.pair.mac := by
  have hport : (x.plan.attachment x.call).externalIds.get? Switch.idMac = some x.plan.pair.mac :=
    (x.plan.attachment x.call).get?_externalIds.2.1
  have hrecord : x.attachment.mac = x.plan.pair.mac := rfl
  simp [macsNamed, Made.log, Made.steps, Made.step, Ask.mac?, hport, hrecord]

/-- An Add for a sandbox without a record that succeeds gives the interface the hardware address of
its descriptor. -/
theorem add_gives {o : Options} {k : Conditions} {r : Cni.Request} {s : Site} {c : Cni.Call}
    (hcommand : r.command = .add) (hdecode : decode o r.args = .ok c) (hinfra : c.isInfra = true)
    (hfresh : s.store.find? c.containerId = none) (hok : (serveOn o k r s).1.isOk = true) :
    ∃ d e rest mac, k.descriptor = .ok d ∧ d.matching c.ifname = e :: rest ∧
      Mac.parse? e.vif.macAddress = some mac ∧
      GivesMac s c (Text.lower e.vif.macAddress) mac (serveOn o k r s) := by
  obtain ⟨d, res, x, hd, rfl, hplan, hlog, hresponse, hadded⟩ :=
    serveOn_added hcommand hdecode hinfra hfresh hok
  obtain ⟨e, rest, hmatching, -, hmac, hnetns, hifname, -⟩ := resolve_ok hplan
  obtain ⟨-, -, hcontainer⟩ := hadded.pair_names
  obtain ⟨mac, hparse, hset⟩ := Link.macsSet_buildPair (congrArg Prod.fst hadded.built)
  rw [hmac, Mac.parse?_lower] at hparse
  refine ⟨d, e, rest, mac, hd, hmatching, hparse, ⟨x.plan.pair, x.pair, ?_, hset⟩, ?_, ?_⟩
  · rw [hlog]
    simp [Made.log, Made.steps, Made.step]
  · rw [hlog, Made.macsNamed_log, hmac]
  · refine ⟨_, hresponse, ?_⟩
    show some _ = _
    rw [hcontainer, hifname, hnetns, hmac, Text.lower_lower]

/-- What hardware addresses are read, how they are written, and what an Add makes of one.

A text is read exactly if it is six parts with single colons between them, of which each is two
hexadecimal digits, or a plus sign and one digit.  So just the texts with a sign are read that are
not six pairs of digits.  The six bytes are written as the text in lower case, but with a zero for
each sign, so they are written as that text exactly if no sign is in it.  Six bytes are always read
from what they are written as.

An Add for a sandbox without a record that succeeds gives the kernel the bytes, and names the text
in lower case everywhere else.  The bytes are read from that text too, but they are written as it
only if no sign is in it. -/
theorem mac_texts_and_bytes (s : String) :
    ((Mac.parse? s).isSome = true ↔ Mac.SixOf (fun p => Mac.IsPair p ∨ Mac.IsSigned p) s) ∧
    (((Mac.parse? s).isSome = true ↔ Mac.SixOf Mac.IsPair s) ↔
      (Mac.SixOf (fun p => Mac.IsPair p ∨ Mac.IsSigned p) s → '+' ∉ s.toList)) ∧
    (∀ mac, Mac.parse? s = some mac → mac.length = 6 ∧
      Mac.render mac = String.ofList (s.toList.map Mac.shown) ∧
      (Mac.render mac = Text.lower s ↔ Mac.SixOf Mac.IsPair s)) ∧
    (∀ mac : Bytes, mac.length = 6 → Mac.parse? (Mac.render mac) = some mac) ∧
    ∀ (o : Options) (k : Conditions) (r : Cni.Request) (t : Site) (c : Cni.Call),
      r.command = .add → decode o r.args = .ok c → c.isInfra = true →
      t.store.find? c.containerId = none → (serveOn o k r t).1.isOk = true →
      ∃ d e rest mac, k.descriptor = .ok d ∧ d.matching c.ifname = e :: rest ∧
        Mac.parse? e.vif.macAddress = some mac ∧
        GivesMac t c (Text.lower e.vif.macAddress) mac (serveOn o k r t) ∧
        Mac.parse? (Text.lower e.vif.macAddress) = some mac ∧
        (Mac.render mac = Text.lower e.vif.macAddress ↔ Mac.SixOf Mac.IsPair e.vif.macAddress) := by
  have hread := Mac.parse?_isSome_iff s
  refine ⟨hread, ?_, fun mac hmac => ?_, fun _ => Mac.parse?_render, ?_⟩
  · rw [hread, Mac.sixOf_isPair_iff]
    tauto
  · have hlength := (Mac.parse?_eq_some_iff.1 hmac).2
    exact ⟨hlength, Mac.render_of_parse? hmac, Mac.render_eq_lower_iff hmac⟩
  · intro o k r t c hcommand hdecode hinfra hfresh hok
    obtain ⟨d, e, rest, mac, hd, hmatching, hmac, hgives⟩ :=
      add_gives hcommand hdecode hinfra hfresh hok
    exact ⟨d, e, rest, mac, hd, hmatching, hmac, hgives, (Mac.parse?_lower _).trans hmac,
      Mac.render_eq_lower_iff hmac⟩

namespace Sample

/-- A hardware address with a sign. -/
def signed : String := "+A:bb:cc:dd:ee:ff"

/-- A node whose pod has that address. -/
def signedConditions : Conditions :=
  { conditions fun _ => none with
    descriptor := .ok { descriptor with
      vifs := descriptor.vifs.map fun e => { e with vif := { e.vif with macAddress := signed } } } }

end Sample

/-- The pod of a node gets an interface whose address in the kernel is written otherwise than its
flows, its port and its result say. -/
theorem sign_stands_for_zero :
    ∃ mac, Mac.parse? Sample.signed = some mac ∧ Mac.render mac = "0a:bb:cc:dd:ee:ff" ∧
      ¬ Mac.SixOf Mac.IsPair Sample.signed ∧
      GivesMac Sample.site (Sample.call "c1") "+a:bb:cc:dd:ee:ff" mac
        (serveOn {} Sample.signedConditions ⟨.add, Sample.args "c1"⟩ Sample.site) := by
  have hplans := Sample.plans fun _ => none
  have hok : (serveOn {} Sample.signedConditions ⟨.add, Sample.args "c1"⟩ Sample.site).1.isOk =
      true := by decide +kernel
  obtain ⟨-, -, hwritten, -, hadd⟩ := mac_texts_and_bytes Sample.signed
  obtain ⟨d, e, rest, mac, hd, hmatching, hmac, hgives, -, hsame⟩ :=
    hadd {} Sample.signedConditions ⟨.add, Sample.args "c1"⟩ Sample.site (Sample.call "c1")
      hplans.command hplans.decoded hplans.infra rfl hok
  obtain rfl := Except.ok.inj hd
  have hfirst : (e :: rest).map (fun e => e.vif.macAddress) = [Sample.signed] := by
    rw [← hmatching]
    decide +kernel
  have he : e.vif.macAddress = Sample.signed := (List.cons.inj hfirst).1
  have hlower : Text.lower Sample.signed = "+a:bb:cc:dd:ee:ff" := by decide +kernel
  rw [he] at hmac hgives hsame
  rw [hlower] at hgives hsame
  have hrender : Mac.render mac = "0a:bb:cc:dd:ee:ff" := by
    rw [(hwritten mac hmac).2.1]
    decide +kernel
  refine ⟨mac, hmac, hrender, fun hpairs => ?_, hgives⟩
  have hequal := hrender.symm.trans (hsame.2 hpairs)
  revert hequal
  decide

end Agent

end PodAttach
