import PodAttach.Cni.Call
import PodAttach.Proofs.Lists
import PodAttach.Proofs.Texts

/-!
# What runtime arguments say

Runtime arguments are read pair by pair, and a later pair takes the place of an earlier one with the
same key.  Here it is said without the reading which texts are taken, and what is read of them.

* `pair_eq_ok_iff`: a piece is a pair exactly if it has one equals sign.
* `lastOf_cons`: the value of the last pair with a key, pair by pair.
* `foldlM_set_eq_ok_iff`: what the fold over the pairs gives, by induction on them.
* `parse_eq_ok_iff`: what is read of a text.
* `Reordered`: pairs with different keys have changed places, and nothing else has.
* `parse_reads`: what is read, and that it does not depend on the order of different keys.

Which fault a refusal names does depend on the order: it is the first one.
-/

namespace PodAttach

namespace Text

variable {sep : Char}

/-- A text is cut in two exactly if it has one separator. -/
theorem pieces_eq_pair_iff {cs l r : List Char} :
    pieces sep cs = [l, r] ↔ cs = l ++ sep :: r ∧ sep ∉ l ∧ sep ∉ r := by
  constructor
  · intro h
    have hl : l ∈ pieces sep cs := by simp [h]
    have hr : r ∈ pieces sep cs := by simp [h]
    refine ⟨?_, not_mem_of_mem_pieces hl, not_mem_of_mem_pieces hr⟩
    rw [← join_pieces sep cs, h]
    rfl
  · intro h
    obtain ⟨rfl, hl, hr⟩ := h
    rw [pieces_append hl, pieces_of_not_mem hr]

theorem count_eq_one_iff {cs : List Char} :
    cs.count sep = 1 ↔ ∃ l r, cs = l ++ sep :: r ∧ sep ∉ l ∧ sep ∉ r := by
  constructor
  · intro h
    have hmem : sep ∈ cs := List.count_pos_iff.1 (by omega)
    obtain ⟨l, r, rfl, hl⟩ := List.eq_append_cons_of_mem hmem
    rw [List.count_append, List.count_eq_zero.2 hl, List.count_cons_self] at h
    exact ⟨l, r, rfl, hl, List.count_eq_zero.1 (by omega)⟩
  · intro h
    obtain ⟨l, r, rfl, hl, hr⟩ := h
    rw [List.count_append, List.count_cons_self, List.count_eq_zero.2 hl, List.count_eq_zero.2 hr]

/-- The pieces of a text are those of its characters. -/
theorem split_eq_iff {s : String} {ps : List String} :
    split sep s = ps ↔ pieces sep s.toList = ps.map String.toList := by
  unfold split
  constructor
  · intro h
    rw [← h, List.map_map]
    simp [Function.comp_def]
  · intro h
    rw [h, List.map_map]
    simp [Function.comp_def]

/-- Only the empty text has one empty piece and no other. -/
theorem split_eq_singleton_empty_iff {s : String} : split sep s = [""] ↔ s = "" := by
  rw [split_eq_iff]
  constructor
  · intro h
    rw [← String.toList_inj, ← join_pieces sep s.toList, h]
    rfl
  · intro h
    rw [h]
    rfl

end Text

namespace Cni.PodArgs

/-! ## Pieces -/

/-- What stands before the first equals sign. -/
def keyOf (piece : String) : String :=
  String.ofList (piece.toList.takeWhile (· != '='))

/-- What stands behind the first equals sign. -/
def valueOf (piece : String) : String :=
  String.ofList ((piece.toList.dropWhile (· != '=')).drop 1)

/-- A piece with one equals sign. -/
def IsPair (piece : String) : Prop :=
  piece.toList.count '=' = 1

/-- The piece that says that keys that are not known are passed over. -/
def SaysIgnore (piece : String) : Prop :=
  keyOf piece = "IgnoreUnknown" ∧
    (Text.lower (valueOf piece) = "1" ∨ Text.lower (valueOf piece) = "true")

instance : DecidablePred IsPair :=
  fun _ => inferInstanceAs (Decidable (_ = _))

instance : DecidablePred SaysIgnore :=
  fun _ => inferInstanceAs (Decidable (_ ∧ _))

/-- The keys that are known. -/
def knownKeys : List String :=
  ["K8S_POD_NAME", "K8S_POD_NAMESPACE", "K8S_POD_INFRA_CONTAINER_ID", "IgnoreUnknown"]

theorem split_eq_pair_iff {piece key value : String} :
    Text.split '=' piece = [key, value] ↔
      piece.toList = key.toList ++ '=' :: value.toList ∧ '=' ∉ key.toList ∧ '=' ∉ value.toList := by
  rw [Text.split_eq_iff]
  exact Text.pieces_eq_pair_iff

theorem keyOf_eq {piece key value : String} (h : piece.toList = key.toList ++ '=' :: value.toList)
    (hkey : '=' ∉ key.toList) : keyOf piece = key ∧ valueOf piece = value := by
  have hall : ∀ c ∈ key.toList, (c != '=') = true := by
    intro c hc
    exact bne_iff_ne.2 fun heq => hkey (heq ▸ hc)
  unfold keyOf valueOf
  rw [h, List.takeWhile_append_of_pos hall, List.dropWhile_append_of_pos hall]
  simp

/-- A piece is a pair exactly if it has one equals sign. -/
theorem pair_eq_ok_iff {piece : String} {p : String × String} :
    pair piece = .ok p ↔ IsPair piece ∧ p = (keyOf piece, valueOf piece) := by
  have hsplit : pair piece = .ok p ↔ Text.split '=' piece = [p.1, p.2] := by
    unfold pair
    split
    · next key value hcut => simp [hcut, Prod.ext_iff]
    · next hcut =>
      simp only [reduceCtorEq, false_iff]
      exact hcut p.1 p.2
  rw [hsplit, split_eq_pair_iff]
  constructor
  · intro h
    obtain ⟨hpiece, hkey, hvalue⟩ := h
    obtain ⟨hkeyOf, hvalueOf⟩ := keyOf_eq hpiece hkey
    refine ⟨Text.count_eq_one_iff.2 ⟨_, _, hpiece, hkey, hvalue⟩, ?_⟩
    rw [hkeyOf, hvalueOf]
  · intro h
    obtain ⟨hpair, rfl⟩ := h
    obtain ⟨key, value, hpiece, hkey, hvalue⟩ := Text.count_eq_one_iff.1 hpair
    have hread : keyOf piece = String.ofList key ∧ valueOf piece = String.ofList value :=
      keyOf_eq (by simpa using hpiece) (by simpa using hkey)
    rw [hread.1, hread.2]
    simpa using ⟨hpiece, hkey, hvalue⟩

/-- A text is read in pairs exactly if each of its pieces is one. -/
theorem mapM_pair_eq_ok_iff {pieces : List String} {ps : List (String × String)} :
    pieces.mapM pair = .ok ps ↔
      (∀ piece ∈ pieces, IsPair piece) ∧
        ps = pieces.map fun piece => (keyOf piece, valueOf piece) := by
  simp only [mapM_eq_ok_iff, pair_eq_ok_iff]
  induction pieces generalizing ps with
  | nil => simp
  | cons piece pieces ih =>
    rw [List.forall₂_cons_left_iff]
    simp only [ih, List.forall_mem_cons, List.map_cons]
    constructor
    · intro h
      obtain ⟨p, rest, ⟨hpair, rfl⟩, ⟨hpairs, rfl⟩, rfl⟩ := h
      exact ⟨⟨hpair, hpairs⟩, rfl⟩
    · intro h
      obtain ⟨⟨hpair, hpairs⟩, rfl⟩ := h
      exact ⟨_, _, ⟨hpair, rfl⟩, ⟨hpairs, rfl⟩, rfl⟩

/-! ## Pairs -/

/-- The value of the last pair with a key, or the one that there was before. -/
def lastOf (key : String) (ps : List (String × String)) (before : String) : String :=
  ((ps.filter (·.1 == key)).getLast?.map Prod.snd).getD before

/-- A pair counts unless a later one has its key. -/
theorem lastOf_cons (key : String) (p : String × String) (ps : List (String × String))
    (before : String) :
    lastOf key (p :: ps) before = lastOf key ps (if p.1 = key then p.2 else before) := by
  unfold lastOf
  rw [List.filter_cons]
  by_cases hkey : p.1 = key
  · simp only [hkey, beq_self_eq_true, if_true, List.getLast?_cons]
    cases (ps.filter (·.1 == key)).getLast? <;> rfl
  · simp [hkey]

/-- What pairs make of what was read before them. -/
def overwritten (a : PodArgs) (ps : List (String × String)) : PodArgs where
  podName := lastOf "K8S_POD_NAME" ps a.podName
  podNamespace := lastOf "K8S_POD_NAMESPACE" ps a.podNamespace
  infraContainerId := lastOf "K8S_POD_INFRA_CONTAINER_ID" ps a.infraContainerId

/-- A pair is taken in exactly if its key is known or need not be. -/
theorem set_eq_ok_iff {lenient : Bool} {a a' : PodArgs} {p : String × String} :
    set lenient a p = .ok a' ↔ (p.1 ∈ knownKeys ∨ lenient = true) ∧ a' = a.overwritten [p] := by
  obtain ⟨key, value⟩ := p
  simp only [set, overwritten, lastOf_cons, knownKeys, beq_iff_eq]
  by_cases hname : key = "K8S_POD_NAME"
  · simp [hname, lastOf, eq_comm]
  by_cases hnamespace : key = "K8S_POD_NAMESPACE"
  · simp [hnamespace, lastOf, eq_comm]
  by_cases hinfra : key = "K8S_POD_INFRA_CONTAINER_ID"
  · simp [hinfra, lastOf, eq_comm]
  by_cases hknown : key = "IgnoreUnknown" ∨ lenient = true
  · simp [hname, hnamespace, hinfra, hknown, lastOf, @eq_comm _ a']
  · simp [hname, hnamespace, hinfra, hknown]

/-- Pairs are taken in exactly if each of them is, and the last one with a key counts. -/
theorem foldlM_set_eq_ok_iff {lenient : Bool} {ps : List (String × String)} {a a' : PodArgs} :
    ps.foldlM (set lenient) a = .ok a' ↔
      (∀ p ∈ ps, p.1 ∈ knownKeys ∨ lenient = true) ∧ a' = a.overwritten ps := by
  induction ps generalizing a with
  | nil => simp [overwritten, lastOf, pure, Except.pure, eq_comm]
  | cons p ps ih =>
    have hthen : (a.overwritten [p]).overwritten ps = a.overwritten (p :: ps) := by
      simp only [overwritten, lastOf_cons]
      rfl
    simp only [List.foldlM_cons, bind_eq_ok_iff, set_eq_ok_iff, ih, List.forall_mem_cons]
    constructor
    · intro h
      obtain ⟨b, ⟨hp, rfl⟩, hps, rfl⟩ := h
      exact ⟨⟨hp, hps⟩, hthen⟩
    · intro h
      obtain ⟨⟨hp, hps⟩, rfl⟩ := h
      exact ⟨_, ⟨hp, rfl⟩, hps, hthen.symm⟩

/-! ## Texts -/

/-- The pieces between semicolons. -/
def piecesOf (s : String) : List String :=
  Text.split ';' s

/-- The pieces with a key, in order. -/
def withKey (key s : String) : List String :=
  (piecesOf s).filter (keyOf · == key)

/-- The value of the last pair with a key, or nothing. -/
def lastValue (key s : String) : String :=
  ((withKey key s).getLast?.map valueOf).getD ""

/-- The texts that are taken: the empty one, and pairs whose keys are known or need not be. -/
def Accepted (s : String) : Prop :=
  s = "" ∨ (∀ piece ∈ piecesOf s, IsPair piece) ∧
    ((∀ piece ∈ piecesOf s, keyOf piece ∈ knownKeys) ∨ ∃ piece ∈ piecesOf s, SaysIgnore piece)

instance : DecidablePred Accepted :=
  fun _ => inferInstanceAs (Decidable (_ ∨ _))

/-- What is read of a text that is taken. -/
def fieldsOf (s : String) : PodArgs where
  podName := lastValue "K8S_POD_NAME" s
  podNamespace := lastValue "K8S_POD_NAMESPACE" s
  infraContainerId := lastValue "K8S_POD_INFRA_CONTAINER_ID" s

theorem lastOf_piecesOf (key s : String) :
    lastOf key ((piecesOf s).map fun piece => (keyOf piece, valueOf piece)) "" =
      lastValue key s := by
  unfold lastOf lastValue withKey
  rw [List.filter_map, List.getLast?_map, Option.map_map]
  rfl

/-- Keys that are not known are passed over exactly if a piece says so, wherever it stands. -/
theorem known_or_ignored_iff {pieces : List String} {ps : List (String × String)}
    (hps : ps = pieces.map fun piece => (keyOf piece, valueOf piece)) :
    (∀ p ∈ ps, p.1 ∈ knownKeys ∨ ps.any ignoresUnknown = true) ↔
      (∀ piece ∈ pieces, keyOf piece ∈ knownKeys) ∨ ∃ piece ∈ pieces, SaysIgnore piece := by
  have hany : ps.any ignoresUnknown = true ↔ ∃ piece ∈ pieces, SaysIgnore piece := by
    simp [hps, ignoresUnknown, SaysIgnore]
  rw [hany, hps, List.forall_mem_map]
  by_cases hignore : ∃ piece ∈ pieces, SaysIgnore piece
  · simp only [hignore, or_true, implies_true]
  · simp only [hignore, or_false]

/-- Which texts are taken, and what is read of them. -/
theorem parse_eq_ok_iff {s : String} {a : PodArgs} :
    parse s = .ok a ↔ Accepted s ∧ a = fieldsOf s := by
  unfold parse Accepted
  by_cases hempty : s = ""
  · have hfields : fieldsOf "" = {} := by decide +kernel
    simp [hempty, hfields, pure, Except.pure, @eq_comm _ a]
  · have hread : overwritten {} ((piecesOf s).map fun piece => (keyOf piece, valueOf piece)) =
        fieldsOf s := by
      simp only [overwritten, lastOf_piecesOf]
      rfl
    simp only [String.isEmpty_iff, hempty, if_false, false_or, bind_eq_ok_iff, mapM_pair_eq_ok_iff,
      foldlM_set_eq_ok_iff]
    constructor
    · intro h
      obtain ⟨ps, ⟨hpairs, hps⟩, hknown, rfl⟩ := h
      rw [known_or_ignored_iff hps] at hknown
      rw [hps]
      exact ⟨⟨hpairs, hknown⟩, hread⟩
    · intro h
      obtain ⟨⟨hpairs, hknown⟩, rfl⟩ := h
      exact ⟨_, ⟨hpairs, rfl⟩, (known_or_ignored_iff rfl).2 hknown, hread.symm⟩

example : ¬ Accepted "K8S_POD_NAME=p1;" := by decide +kernel

/-! ## Order -/

/-- Two texts have the same pieces, and those with one key are in the same order. -/
def Reordered (s t : String) : Prop :=
  ∀ key, withKey key s = withKey key t

/-- Neighbours with different keys may change places. -/
theorem reordered_of_swap {s t p q : String} {before after : List String}
    (hs : piecesOf s = before ++ p :: q :: after) (ht : piecesOf t = before ++ q :: p :: after)
    (hne : keyOf p ≠ keyOf q) : Reordered s t := by
  intro key
  unfold withKey
  rw [hs, ht]
  by_cases hp : keyOf p = key
  · have hq : keyOf q ≠ key := fun hq => hne (hp.trans hq.symm)
    simp [List.filter_append, hp, hq]
  · simp [List.filter_append, List.filter_cons, hp]

namespace Reordered

variable {s t : String}

theorem perm (h : Reordered s t) : (piecesOf s).Perm (piecesOf t) := by
  rw [List.perm_iff_count]
  intro piece
  have hcount : ∀ u, (withKey (keyOf piece) u).count piece = (piecesOf u).count piece :=
    fun u => List.count_filter (by simp)
  rw [← hcount s, ← hcount t, h]

/-- The order of different keys makes no difference to what is taken. -/
theorem accepted_iff (h : Reordered s t) : Accepted s ↔ Accepted t := by
  have hempty : s = "" ↔ t = "" := by
    rw [← Text.split_eq_singleton_empty_iff, ← Text.split_eq_singleton_empty_iff]
    show piecesOf s = [""] ↔ piecesOf t = [""]
    rw [← List.perm_singleton, ← List.perm_singleton]
    exact h.perm.congr_left _
  simp only [Accepted, hempty, h.perm.mem_iff]

/-- Nor does it to what is read. -/
theorem fieldsOf_eq (h : Reordered s t) : fieldsOf s = fieldsOf t := by
  simp only [fieldsOf, lastValue, h _]

theorem parse_eq_ok_iff (h : Reordered s t) {a : PodArgs} : parse s = .ok a ↔ parse t = .ok a := by
  rw [PodArgs.parse_eq_ok_iff, PodArgs.parse_eq_ok_iff, h.accepted_iff, h.fieldsOf_eq]

/-- A request is decoded alike but for the text itself, whatever it is refused for. -/
theorem decode_eq (h : Reordered s t) (procRoot : String) (args : CallArgs) :
    Call.decode procRoot { args with args := t } =
      (Call.decode procRoot { args with args := s }).map
        fun call => { call with args := { args with args := t } } := by
  unfold Call.decode
  dsimp only
  cases NetConf.parse? args.networkConfiguration with
  | none => rfl
  | some network =>
    dsimp only
    cases hs : parse s with
    | ok a =>
      rw [h.parse_eq_ok_iff.1 hs]
      rfl
    | error e =>
      cases ht : parse t with
      | error e' => rfl
      | ok a =>
        have hcrossed := hs.symm.trans (h.parse_eq_ok_iff.2 ht)
        cases hcrossed

end Reordered

/-- Runtime arguments are taken exactly if they are empty, or each piece has one equals sign and all
keys are known or a piece says that others are passed over; each field is then the value of the last
pair with its key.  Putting pairs with different keys in another order changes neither that nor what
becomes of the request. -/
theorem parse_reads (s : String) :
    (∀ a, parse s = .ok a ↔ Accepted s ∧ a = fieldsOf s) ∧
      ∀ t, Reordered s t →
        (∀ a, parse t = .ok a ↔ parse s = .ok a) ∧
        ∀ (procRoot : String) (args : CallArgs), Call.decode procRoot { args with args := t } =
          (Call.decode procRoot { args with args := s }).map
            fun call => { call with args := { args with args := t } } := by
  refine ⟨fun a => parse_eq_ok_iff, ?_⟩
  intro t h
  exact ⟨fun a => h.parse_eq_ok_iff.symm, fun procRoot args => h.decode_eq procRoot args⟩

namespace Sample

/-- A key that is not known stands in front of the piece that passes it over. -/
def lenientMiddle : String :=
  "FOO=x;K8S_POD_NAME=a;IgnoreUnknown=TRUE;K8S_POD_NAME=b"

/-- The last pair has moved across that piece. -/
def lenientLast : String :=
  "FOO=x;K8S_POD_NAME=a;K8S_POD_NAME=b;IgnoreUnknown=TRUE"

theorem reordered_lenientMiddle : Reordered lenientMiddle lenientLast := by
  have hmiddle : piecesOf lenientMiddle =
      ["FOO=x", "K8S_POD_NAME=a"] ++ "IgnoreUnknown=TRUE" :: "K8S_POD_NAME=b" :: [] := by
    decide +kernel
  have hlast : piecesOf lenientLast =
      ["FOO=x", "K8S_POD_NAME=a"] ++ "K8S_POD_NAME=b" :: "IgnoreUnknown=TRUE" :: [] := by
    decide +kernel
  exact reordered_of_swap hmiddle hlast (by decide +kernel)

end Sample

/-- The last name counts, and the order of different keys does not. -/
theorem parse_reads_lenientMiddle :
    Reordered Sample.lenientMiddle Sample.lenientLast ∧
      parse Sample.lenientMiddle = .ok { podName := "b" } ∧
      parse Sample.lenientLast = .ok { podName := "b" } := by
  obtain ⟨hread, hreordered⟩ := parse_reads Sample.lenientMiddle
  have hfirst := (hread { podName := "b" }).2 (by decide +kernel)
  exact ⟨Sample.reordered_lenientMiddle, hfirst,
    ((hreordered _ Sample.reordered_lenientMiddle).1 _).2 hfirst⟩

end Cni.PodArgs

end PodAttach
