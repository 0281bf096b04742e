import PodAttach.Json.Record
import PodAttach.Proofs.Lexing

/-!
# Reading a value that was written

The text of a value without fractions is a document, which spells the value:
kept again, it is the value with the members of its objects in order.

* `spelled`: the document that is written for a value.
* `parse?_chars`: reading the text gives that document, by induction on the value.
* `normal`: the value that a document is kept as, and `Kept` when there is one.
* `value?_spelled`: by induction on the value once more.
* `record?_spelled`: the fields of a record that was written as an object.
-/

namespace PodAttach.Json

open Utf8

/-! ## Documents -/

mutual

/-- The document that is written for a value without fractions. -/
def spelled : Json → Document
  | .null => .null
  | .bool b => .bool b
  | .int i => .num (numeral i)
  | .real _ => .null
  | .str s => .str (escaped s)
  | .arr items => .arr (spelledItems items)
  | .obj members => .obj (spelledMembers members)

/-- The documents of the items of an array. -/
def spelledItems : List Json → List Document
  | [] => []
  | v :: rest => spelled v :: spelledItems rest

/-- The members of an object with their documents. -/
def spelledMembers : List (String × Json) → List (Bytes × Document)
  | [] => []
  | (k, v) :: rest => (escaped k, spelled v) :: spelledMembers rest

end

theorem Builder.run_append (b : Builder) (ts us : List Token) :
    b.run (ts ++ us) = (b.run ts).bind (·.run us) := by
  induction ts generalizing b with
  | nil => rfl
  | cons t ts ih =>
    rw [List.cons_append, Builder.run, Builder.run]
    cases b.feed t with
    | none => rfl
    | some b' => exact ih b'

theorem Builder.run_singleton (b : Builder) (t : Token) : b.run [t] = b.feed t := by
  rw [Builder.run]
  cases b.feed t <;> rfl

/-- Where a value is expected, the tokens make the document `d`. -/
def Builds (ts : List Token) (d : Document) : Prop :=
  ∀ stack orClose, (Builder.mk stack (.value orClose)).run ts = Builder.complete d stack

/-- Where an item is expected, the tokens and the end of the array make the items after those
that the array holds. -/
def BuildsItems (ts : List Token) (ds : List Document) : Prop :=
  ∀ done stack orClose,
    (Builder.mk (.arr done :: stack) (.value orClose)).run (ts ++ [.closeArray]) =
      Builder.complete (.arr (done.reverse ++ ds)) stack

/-- Where a key is expected, the tokens and the end of the object make the members after those
that the object holds. -/
def BuildsMembers (ts : List Token) (ms : List (Bytes × Document)) : Prop :=
  ∀ done stack orClose,
    (Builder.mk (.obj done :: stack) (.key orClose)).run (ts ++ [.closeObject]) =
      Builder.complete (.obj (done.reverse ++ ms)) stack

theorem Builds.ofToken {t : Token} {d : Document}
    (hfeed : ∀ stack orClose,
      (Builder.mk stack (.value orClose)).feed t = Builder.complete d stack) : Builds [t] d :=
  fun stack orClose => (Builder.run_singleton _ t).trans (hfeed stack orClose)

theorem Builds.item {ts : List Token} {d : Document} (hts : Builds ts d) :
    BuildsItems ts [d] := by
  intro done stack orClose
  rw [Builder.run_append, hts, ← List.reverse_cons]
  exact Builder.run_singleton ⟨.arr (d :: done) :: stack, .separator⟩ .closeArray

theorem Builds.items {ts us : List Token} {d : Document} {ds : List Document} (hts : Builds ts d)
    (hus : BuildsItems us ds) : BuildsItems (ts ++ .comma :: us) (d :: ds) := by
  intro done stack orClose
  have hrest := hus (d :: done) stack false
  rw [List.reverse_cons, List.append_assoc] at hrest
  rw [List.append_assoc, Builder.run_append, hts]
  exact hrest

/-- A member of an object that is open. -/
theorem Builds.key {ts : List Token} {d : Document} (hts : Builds ts d) (key : Bytes)
    (us : List Token) (done : List (Bytes × Document)) (stack : List Frame) (orClose : Bool) :
    (Builder.mk (.obj done :: stack) (.key orClose)).run (.str key :: .colon :: ts ++ us) =
      (Builder.mk (.obj ((key, d) :: done) :: stack) .separator).run us := by
  have hvalue := hts (.member done key :: stack) false
  have hsplit := Builder.run_append ⟨.member done key :: stack, .value false⟩ ts us
  rw [hvalue] at hsplit
  exact hsplit

theorem Builds.member {ts : List Token} {d : Document} (hts : Builds ts d) (key : Bytes) :
    BuildsMembers (.str key :: .colon :: ts) [(key, d)] := by
  intro done stack orClose
  rw [hts.key, ← List.reverse_cons]
  exact Builder.run_singleton ⟨.obj ((key, d) :: done) :: stack, .separator⟩ .closeObject

theorem Builds.members {ts us : List Token} {d : Document} {ms : List (Bytes × Document)}
    (hts : Builds ts d) (key : Bytes) (hus : BuildsMembers us ms) :
    BuildsMembers (.str key :: .colon :: ts ++ .comma :: us) ((key, d) :: ms) := by
  intro done stack orClose
  have hrest := hus ((key, d) :: done) stack false
  rw [List.reverse_cons, List.append_assoc] at hrest
  rw [List.append_assoc, hts.key]
  exact hrest

mutual

/-- The tokens of a value without fractions make its document. -/
theorem builds_tokens : ∀ j : Json, j.Whole → Builds j.tokens j.spelled
  | .null, _ => .ofToken fun _ _ => rfl
  | .bool _, _ => .ofToken fun _ _ => rfl
  | .int _, _ => .ofToken fun _ _ => rfl
  | .str _, _ => .ofToken fun _ _ => rfl
  | .arr items, hwhole => by
    intro stack orClose
    by_cases hne : items = []
    · subst hne
      exact Builder.run_singleton ⟨.arr [] :: stack, .value true⟩ .closeArray
    · exact builds_itemsTokens items hwhole hne [] stack true
  | .obj members, hwhole => by
    intro stack orClose
    by_cases hne : members = []
    · subst hne
      exact Builder.run_singleton ⟨.obj [] :: stack, .key true⟩ .closeObject
    · exact builds_membersTokens members hwhole hne [] stack true

theorem builds_itemsTokens : ∀ items : List Json, WholeItems items → items ≠ [] →
    BuildsItems (itemsTokens items) (spelledItems items)
  | [], _, hne => absurd rfl hne
  | [v], hwhole, _ => (builds_tokens v hwhole.1).item
  | v :: w :: rest, hwhole, _ => by
    have hrest := builds_itemsTokens (w :: rest) hwhole.2 (List.cons_ne_nil w rest)
    exact (builds_tokens v hwhole.1).items hrest

theorem builds_membersTokens : ∀ members : List (String × Json), WholeMembers members →
    members ≠ [] → BuildsMembers (membersTokens members) (spelledMembers members)
  | [], _, hne => absurd rfl hne
  | [(k, v)], hwhole, _ => (builds_tokens v hwhole.1).member (escaped k)
  | (k, v) :: m :: rest, hwhole, _ => by
    have hrest := builds_membersTokens (m :: rest) hwhole.2 (List.cons_ne_nil m rest)
    exact (builds_tokens v hwhole.1).members (escaped k) hrest

end

/-- Reading the text of a value without fractions gives the document that spells it. -/
theorem parse?_chars {j : Json} (hwhole : j.Whole) :
    Document.parse? (encodeChars j.chars) = some j.spelled := by
  have hbuilt := builds_tokens j hwhole [] false
  rw [Document.parse?, tokens?_chars hwhole]
  dsimp only
  rw [Document.ofTokens?, hbuilt]
  rfl

/-! ## Values -/

mutual

/-- The value as it is kept: the members of an object are in the order of their keys, and the
last of equal keys counts. -/
def normal : Json → Json
  | .null => .null
  | .bool b => .bool b
  | .int i => .int i
  | .real x => .real x
  | .str s => .str s
  | .arr items => .arr (normalItems items)
  | .obj members => .obj (normalMembers members [])

/-- The items of an array as they are kept. -/
def normalItems : List Json → List Json
  | [] => []
  | v :: rest => normal v :: normalItems rest

/-- The members of an object, put one after the other into those before them. -/
def normalMembers : List (String × Json) → List (String × Json) → List (String × Json)
  | [], done => done
  | (k, v) :: rest, done => normalMembers rest (Table.put k (normal v) done)

end

mutual

/-- The value is kept as it is: it has no fractions, its numbers are in range, and at most `depth`
containers lie inside each other. -/
def Kept (depth : Nat) : Json → Prop
  | .null | .bool _ | .str _ => True
  | .int i => -(Numeral.minWhole : Int) ≤ i ∧ i ≤ Numeral.maxWhole
  | .real _ => False
  | .arr items => match depth with
    | 0 => False
    | depth + 1 => KeptItems depth items
  | .obj members => match depth with
    | 0 => False
    | depth + 1 => KeptMembers depth members

/-- All items are kept as they are. -/
def KeptItems (depth : Nat) : List Json → Prop
  | [] => True
  | v :: rest => Kept depth v ∧ KeptItems depth rest

/-- All members are kept as they are. -/
def KeptMembers (depth : Nat) : List (String × Json) → Prop
  | [] => True
  | m :: rest => Kept depth m.2 ∧ KeptMembers depth rest

end

mutual

/-- A value that is kept as it is has no fractions. -/
theorem Kept.whole : ∀ (depth : Nat) (j : Json), j.Kept depth → j.Whole
  | _, .null, _ => trivial
  | _, .bool _, _ => trivial
  | _, .int _, _ => trivial
  | _, .str _, _ => trivial
  | depth + 1, .arr items, hkept => KeptItems.whole depth items hkept
  | depth + 1, .obj members, hkept => KeptMembers.whole depth members hkept

theorem KeptItems.whole : ∀ (depth : Nat) (items : List Json), KeptItems depth items →
    WholeItems items
  | _, [], _ => trivial
  | depth, v :: rest, hkept => ⟨Kept.whole depth v hkept.1, KeptItems.whole depth rest hkept.2⟩

theorem KeptMembers.whole : ∀ (depth : Nat) (members : List (String × Json)),
    KeptMembers depth members → WholeMembers members
  | _, [], _ => trivial
  | depth, (_, v) :: rest, hkept =>
    ⟨Kept.whole depth v hkept.1, KeptMembers.whole depth rest hkept.2⟩

end

theorem value?_numeral {i : Int} (hlow : -(Numeral.minWhole : Int) ≤ i)
    (hhigh : i ≤ Numeral.maxWhole) : (numeral i).value? = some (.int i) := by
  unfold Numeral.value? numeral
  simp only [Text.ofDigits_toDigits]
  by_cases hneg : i < 0
  · have hpos : 0 < i.natAbs := by omega
    have hle : i.natAbs ≤ Numeral.minWhole := by omega
    have hself : -((i.natAbs : Nat) : Int) = i := by omega
    simp only [hneg, hpos, hle, hself, decide_true, Bool.not_true, Bool.false_and, Bool.and_self,
      Bool.false_eq_true, if_false, if_true]
  · have hle : i.natAbs ≤ Numeral.maxWhole := by omega
    have hself : ((i.natAbs : Nat) : Int) = i := by omega
    simp only [hneg, hle, hself, decide_false, decide_true, Bool.not_false, Bool.and_self, if_true]

mutual

/-- A value that is written and kept again. -/
theorem value?_spelled : ∀ (depth : Nat) (j : Json), j.Kept depth →
    j.spelled.value? depth = some j.normal
  | _, .null, _ => rfl
  | _, .bool _, _ => rfl
  | _, .int _, hkept => value?_numeral hkept.1 hkept.2
  | _, .str s, _ => by
    show (textOf? (escaped s)).map Json.str = some (.str s)
    rw [textOf?_escaped]
    rfl
  | depth + 1, .arr items, hkept => by
    show (Document.values? depth (spelledItems items)).map Json.arr = some (.arr _)
    rw [values?_spelledItems depth items hkept]
    rfl
  | depth + 1, .obj members, hkept => by
    show (Document.memberValues? depth (spelledMembers members) []).map Json.obj = some (.obj _)
    rw [memberValues?_spelledMembers depth members hkept]
    rfl

theorem values?_spelledItems : ∀ (depth : Nat) (items : List Json), KeptItems depth items →
    Document.values? depth (spelledItems items) = some (normalItems items)
  | _, [], _ => rfl
  | depth, v :: rest, hkept => by
    rw [spelledItems, Document.values?, value?_spelled depth v hkept.1,
      values?_spelledItems depth rest hkept.2]
    rfl

theorem memberValues?_spelledMembers : ∀ (depth : Nat) (members : List (String × Json)),
    KeptMembers depth members → ∀ done,
    Document.memberValues? depth (spelledMembers members) done =
      some (normalMembers members done)
  | _, [], _, _ => rfl
  | depth, (k, v) :: rest, hkept, done => by
    rw [spelledMembers, Document.memberValues?, textOf?_escaped, value?_spelled depth v hkept.1]
    exact memberValues?_spelledMembers depth rest hkept.2 _

end

/-- A written value is read back as a document, and kept with the members of its objects in
order. -/
theorem kept_chars {depth : Nat} {j : Json} (hkept : j.Kept depth) :
    ∃ d, Document.parse? (encodeChars j.chars) = some d ∧ d.value? depth = some j.normal :=
  ⟨j.spelled, parse?_chars (hkept.whole depth j), value?_spelled depth j hkept⟩

/-! ## Members -/

/-- The last of equal keys counts. -/
theorem lookup_normalMembers (key : String) (members done : List (String × Json)) :
    (normalMembers members done).lookup key =
      ((members.reverse.lookup key).map normal).or (done.lookup key) := by
  induction members generalizing done with
  | nil => rfl
  | cons m rest ih =>
    obtain ⟨k, v⟩ := m
    rw [normalMembers, ih, Table.lookup_put, List.reverse_cons, List.lookup_append,
      Table.lookup_cons, List.lookup_nil]
    cases rest.reverse.lookup key with
    | some w => rfl
    | none => split <;> rfl

/-! ## Records -/

theorem keyed?_spelledMembers (members : List (String × Json)) :
    Document.keyed? (spelledMembers members) =
      some (members.map fun m => (m.1, m.2.spelled)) := by
  induction members with
  | nil => rfl
  | cons m rest ih =>
    rw [spelledMembers, Document.keyed?, textOf?_escaped, ih]
    rfl

/-- The fields of a record that was written as an object are those that were given. -/
theorem record?_spelled (names : List String) (members : List (String × Json))
    (hknown : ∀ m ∈ members, m.1 ∈ names) (hrepeat : hasRepeat (members.map Prod.fst) = false) :
    (obj members).spelled.record? names =
      some (members.map fun m => (m.1, m.2.spelled)) := by
  have hall : ((members.map fun m => (m.1, m.2.spelled)).filter fun f => names.contains f.1) =
      members.map fun m => (m.1, m.2.spelled) := by
    refine List.filter_eq_self.2 fun f hf => ?_
    obtain ⟨m, hm, rfl⟩ := List.mem_map.1 hf
    exact List.contains_iff_mem.2 (hknown m hm)
  have hnames : (members.map fun m => (m.1, m.2.spelled)).map Prod.fst = members.map Prod.fst := by
    rw [List.map_map]
    rfl
  show (Document.keyed? (spelledMembers members)).bind _ = _
  rw [keyed?_spelledMembers, Option.bind_some, hall]
  dsimp only
  rw [hnames, hrepeat]
  rfl

theorem text?_spelled (s : String) : Document.text? (str s).spelled = some s :=
  textOf?_escaped s

end PodAttach.Json
