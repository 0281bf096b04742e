import PodAttach.Agent.Attach
import PodAttach.Agent.Handle
import PodAttach.Proofs.Spelling

/-!
# Results that come back

The runtime may hand the result of an Add back with a later request.  Its
bytes are read as a document, and what is looked for in it, the interfaces
with their names and hardware addresses, is what was written.

* `kept_toJson`: a result is kept as it was written, in the layout of either version.
* `member?_normal_ofFields`: what is left of the fields of an object.
* `ofJson?_normal` and `earlierInterfaces?_normal`: the interfaces are found again; a result
  with blocks has none.
* `checkEarlier_normal`: a result that agrees with the record is not objected to.
-/

namespace PodAttach

namespace Json

/-! ## Values that are kept -/

theorem keptItems_iff {depth : Nat} {items : List Json} :
    KeptItems depth items ↔ ∀ v ∈ items, v.Kept depth := by
  induction items with
  | nil => simp [KeptItems]
  | cons v rest ih => simp [KeptItems, ih]

theorem keptMembers_iff {depth : Nat} {members : List (String × Json)} :
    KeptMembers depth members ↔ ∀ m ∈ members, m.2.Kept depth := by
  induction members with
  | nil => simp [KeptMembers]
  | cons m rest ih => simp [KeptMembers, ih]

/-- An object is kept if the fields that it has are. -/
theorem kept_ofFields {depth : Nat} {fields : List (String × Option Json)}
    (hfields : ∀ f ∈ fields, ∀ v, f.2 = some v → v.Kept depth) :
    (ofFields fields).Kept (depth + 1) := by
  refine keptMembers_iff.2 fun m hm => ?_
  obtain ⟨⟨k, v?⟩, hf, hv⟩ := List.mem_filterMap.1 hm
  obtain ⟨v, rfl, rfl⟩ := Option.map_eq_some_iff.1 hv
  exact hfields _ hf v rfl

theorem kept_nonempty? {depth : Nat} {items : List Json} {v : Json}
    (hitems : ∀ item ∈ items, item.Kept depth) (hv : nonempty? items = some v) :
    v.Kept (depth + 1) := by
  unfold nonempty? at hv
  split at hv
  · cases hv
  · cases hv
    exact keptItems_iff.2 hitems

theorem kept_texts {depth : Nat} (texts : List String) :
    ∀ item ∈ texts.map Json.str, item.Kept depth := by
  intro item hitem
  obtain ⟨s, -, rfl⟩ := List.mem_map.1 hitem
  trivial

end Json

namespace Cni

open Json

theorem kept_nonemptyText? {depth : Nat} {s : String} {v : Json} (hv : nonemptyText? s = some v) :
    v.Kept depth := by
  unfold nonemptyText? at hv
  split at hv
  · cases hv
  · cases hv
    trivial

theorem kept_map_str {α : Type} {depth : Nat} {x? : Option α} {f : α → String} {v : Json}
    (hv : x?.map (fun x => Json.str (f x)) = some v) : v.Kept depth := by
  obtain ⟨x, -, rfl⟩ := Option.map_eq_some_iff.1 hv
  trivial

theorem Interface.kept_toJson {depth : Nat} (i : Interface) : i.toJson.Kept (depth + 1) := by
  refine kept_ofFields ?_
  simp only [List.forall_mem_cons]
  refine ⟨?_, fun _ => kept_nonemptyText?, fun _ => kept_nonemptyText?, by simp⟩
  rintro _ ⟨⟩
  trivial

theorem IpConfig.kept_toJson {depth : Nat} {i : IpConfig}
    (hinterface : ∀ n, i.interface = some n → n ≤ Numeral.maxWhole) :
    i.toJson.Kept (depth + 1) := by
  refine kept_ofFields ?_
  simp only [List.forall_mem_cons]
  refine ⟨?_, ?_, ?_, fun _ => kept_map_str, by simp⟩
  · rintro _ ⟨⟩
    trivial
  · intro v hv
    obtain ⟨n, hn, rfl⟩ := Option.map_eq_some_iff.1 hv
    have hn := hinterface n hn
    exact ⟨by omega, by omega⟩
  · rintro _ ⟨⟩
    trivial

theorem ResultRoute.kept_toJson {depth : Nat} (r : ResultRoute) : r.toJson.Kept (depth + 1) := by
  refine kept_ofFields ?_
  simp only [List.forall_mem_cons]
  refine ⟨?_, fun _ => kept_map_str, by simp⟩
  rintro _ ⟨⟩
  trivial

theorem Dns.kept_toJson? {depth : Nat} {d : Dns} {v : Json} (hv : d.toJson? = some v) :
    v.Kept (depth + 2) := by
  unfold Dns.toJson? at hv
  split at hv
  · cases hv
  · cases hv
    refine kept_ofFields ?_
    simp only [List.forall_mem_cons]
    exact ⟨fun _ => kept_nonempty? (kept_texts _), fun _ => kept_map_str,
      fun _ => kept_nonempty? (kept_texts _), fun _ => kept_nonempty? (kept_texts _), by simp⟩

namespace Result

theorem kept_map {α : Type} {depth : Nat} {xs : List α} {f : α → Json}
    (hf : ∀ x ∈ xs, (f x).Kept depth) : ∀ item ∈ xs.map f, item.Kept depth := by
  intro item hitem
  obtain ⟨x, hx, rfl⟩ := List.mem_map.1 hitem
  exact hf x hx

theorem kept_blockJson? {depth : Nat} {r : Result} {family : Net.Family} {v : Json}
    (hv : r.blockJson? family = some v) : v.Kept (depth + 3) := by
  obtain ⟨i, -, rfl⟩ := Option.map_eq_some_iff.1 hv
  refine kept_ofFields ?_
  simp only [List.forall_mem_cons]
  refine ⟨?_, fun _ => kept_map_str,
    fun _ => kept_nonempty? (kept_map fun route _ => route.kept_toJson), by simp⟩
  rintro _ ⟨⟩
  trivial

/-- A result is kept as it was written, in either layout. -/
theorem kept_toJson {depth : Nat} {r : Result}
    (hinterfaces : ∀ i ∈ r.ips, ∀ n, i.interface = some n → n ≤ Numeral.maxWhole) :
    r.toJson.Kept (depth + 4) := by
  unfold toJson
  split
  · refine kept_ofFields ?_
    simp only [List.forall_mem_cons]
    refine ⟨?_, fun _ => kept_blockJson?, fun _ => kept_blockJson?, fun _ => Dns.kept_toJson?,
      by simp⟩
    rintro _ ⟨⟩
    trivial
  · refine kept_ofFields ?_
    simp only [List.forall_mem_cons]
    refine ⟨?_, fun _ => kept_nonempty? (kept_map fun i _ => i.kept_toJson),
      fun _ => kept_nonempty? (kept_map fun i hi => IpConfig.kept_toJson (hinterfaces i hi)),
      fun _ => kept_nonempty? (kept_map fun route _ => route.kept_toJson),
      fun _ => Dns.kept_toJson?, by simp⟩
    rintro _ ⟨⟩
    trivial

end Result

end Cni

namespace Json

theorem lookup_eq_none_of_not_mem {α : Type} {key : String} {l : List (String × α)}
    (hkey : key ∉ l.map Prod.fst) : l.lookup key = none := by
  induction l with
  | nil => rfl
  | cons d rest ih =>
    rw [List.map_cons, List.mem_cons, not_or] at hkey
    rw [Table.lookup_cons, if_neg hkey.1, ih hkey.2]

/-- Fields of different names are looked up from either end. -/
theorem lookup_reverse_filterMap {fields : List (String × Option Json)}
    (hnames : (fields.map Prod.fst).Nodup) (key : String) :
    (fields.filterMap fun (k, v) => v.map (k, ·)).reverse.lookup key =
      (fields.lookup key).join := by
  induction fields with
  | nil => rfl
  | cons f rest ih =>
    obtain ⟨k, v?⟩ := f
    rw [List.map_cons, List.nodup_cons] at hnames
    have hrest := ih hnames.2
    have hnone : key = k → (rest.lookup key).join = none := by
      rintro rfl
      rw [lookup_eq_none_of_not_mem hnames.1]
      rfl
    rw [Table.lookup_cons]
    cases v? with
    | none =>
      refine hrest.trans ?_
      split
      · next hkey => exact hnone hkey
      · rfl
    | some v =>
      show List.lookup key ((k, v) :: rest.filterMap _).reverse = _
      rw [List.reverse_cons, List.lookup_append, hrest, Table.lookup_cons, List.lookup_nil]
      split
      · next hkey => rw [hnone hkey, Option.none_or, Option.join_some]
      · rw [Option.or_none]

/-- A field of an object that was written and kept is the one given, kept. -/
theorem member?_normal_ofFields {fields : List (String × Option Json)}
    (hnames : (fields.map Prod.fst).Nodup) (key : String) :
    (ofFields fields).normal.member? key = (fields.lookup key).join.map normal := by
  refine (lookup_normalMembers key _ []).trans ?_
  rw [lookup_reverse_filterMap hnames, List.lookup_nil, Option.or_none]

/-- A record that is an object has the fields of its names as the object has them. -/
theorem record?_obj (names : List String) (members : List (String × Json)) :
    ∃ fields, record? names (.obj members) = some fields ∧
      ∀ key ∈ names, fields.lookup key = members.lookup key := by
  refine ⟨members.filter fun m => names.contains m.1, rfl, fun key hkey => ?_⟩
  induction members with
  | nil => rfl
  | cons m rest ih =>
    obtain ⟨k, v⟩ := m
    rw [Table.lookup_cons, ← ih]
    by_cases hin : names.contains k = true
    · rw [List.filter_cons_of_pos (p := fun m : String × Json => names.contains m.1) hin,
        Table.lookup_cons]
    · have hne : key ≠ k := by
        rintro rfl
        exact hin (List.contains_iff_mem.2 hkey)
      rw [List.filter_cons_of_neg (p := fun m : String × Json => names.contains m.1) hin,
        if_neg hne]

end Json

namespace Agent

open Json Cni

/-! ## Interfaces that are found again -/

/-- An interface of a result is found again with its name and hardware address. -/
theorem EarlierInterface.ofJson?_normal (i : Interface) :
    EarlierInterface.ofJson? i.toJson.normal = some ⟨i.name, i.mac⟩ := by
  have hmember := @member?_normal_ofFields [("name", some (.str i.name)),
    ("mac", nonemptyText? i.mac), ("sandbox", nonemptyText? i.sandbox)] (by simp)
  have hname : i.toJson.normal.member? "name" = some (.str i.name) := hmember "name"
  have hmac : i.toJson.normal.member? "mac" = (nonemptyText? i.mac).map normal := hmember "mac"
  obtain ⟨members, hmembers⟩ : ∃ members, i.toJson.normal = .obj members := ⟨_, rfl⟩
  obtain ⟨fields, hfields, hlookup⟩ := record?_obj ["name", "mac"] members
  rw [hmembers] at hname hmac
  have hname' : fields.lookup "name" = some (.str i.name) :=
    (hlookup "name" (by simp)).trans hname
  have hmac' : fields.lookup "mac" = (nonemptyText? i.mac).map normal :=
    (hlookup "mac" (by simp)).trans hmac
  rw [EarlierInterface.ofJson?, hmembers, hfields]
  simp only [Option.bind_eq_bind, Option.bind_some, Fields.required?, Fields.withDefault?, hname',
    hmac', nonemptyText?]
  by_cases hempty : i.mac = ""
  · simp [hempty, Json.str?]
  · simp [hempty, Json.str?, normal]

theorem normalItems_eq_map (items : List Json) : normalItems items = items.map normal := by
  induction items with
  | nil => rfl
  | cons v rest ih => rw [normalItems, ih, List.map_cons]

theorem mapM_ofJson?_normal (interfaces : List Interface) :
    (interfaces.map fun i => i.toJson.normal).mapM EarlierInterface.ofJson? =
      some (interfaces.map fun i => ⟨i.name, i.mac⟩) := by
  induction interfaces with
  | nil => rfl
  | cons i rest ih =>
    rw [List.map_cons, List.mapM_cons, EarlierInterface.ofJson?_normal, ih]
    rfl

theorem earlierInterfaces?_ofFields {fields : List (String × Option Json)}
    (hnames : (fields.map Prod.fst).Nodup) :
    earlierInterfaces? (ofFields fields).normal =
      ((fields.lookup "interfaces").join.map normal).elim (some [])
        (Json.list? EarlierInterface.ofJson?) := by
  have hmember := member?_normal_ofFields hnames "interfaces"
  obtain ⟨members, hmembers⟩ : ∃ members, (ofFields fields).normal = .obj members := ⟨_, rfl⟩
  obtain ⟨known, hknown, hlookup⟩ := record?_obj ["interfaces"] members
  rw [hmembers] at hmember
  have hinterfaces := (hlookup "interfaces" (by simp)).trans hmember
  rw [earlierInterfaces?, hmembers, hknown]
  simp only [Option.bind_eq_bind, Option.bind_some, Fields.withDefault?, hinterfaces]
  cases (fields.lookup "interfaces").join <;> rfl

/-- The interfaces of a result are found again; a result with blocks has none. -/
theorem earlierInterfaces?_normal (r : Result) :
    earlierInterfaces? r.toJson.normal =
      some (if Result.isBlockVersion r.cniVersion then []
        else r.interfaces.map fun i => ⟨i.name, i.mac⟩) := by
  unfold Result.toJson
  split
  · exact earlierInterfaces?_ofFields (by simp)
  · refine (earlierInterfaces?_ofFields (by simp)).trans ?_
    show ((Json.nonempty? (r.interfaces.map Interface.toJson)).map normal).elim (some [])
      (Json.list? EarlierInterface.ofJson?) = _
    cases r.interfaces with
    | nil => rfl
    | cons i rest =>
      show (normalItems ((i :: rest).map Interface.toJson)).mapM EarlierInterface.ofJson? = _
      rw [normalItems_eq_map, List.map_map]
      exact mapM_ofJson?_normal (i :: rest)

/-- An earlier result is not objected to if its interface of the name that is asked for has the
address that is recorded. -/
theorem checkEarlier_normal {r : Result} {ifname mac : String}
    (hmac : ∀ i ∈ r.interfaces, i.name = ifname → Text.sameLetters i.mac mac = true) :
    checkEarlier r.toJson.normal ifname mac = .ok () := by
  have hnone : ∀ interfaces : List EarlierInterface,
      (∀ i ∈ interfaces, i.name = ifname → Text.sameLetters i.mac mac = true) →
      interfaces.find? (EarlierInterface.contradicts ifname mac) = none := by
    intro interfaces hagree
    refine List.find?_eq_none.2 fun i hi hcontra => ?_
    simp only [EarlierInterface.contradicts, Bool.and_eq_true, beq_iff_eq, Bool.not_eq_true']
      at hcontra
    rw [hagree i hi hcontra.1.1] at hcontra
    cases hcontra.2
  rw [checkEarlier, earlierInterfaces?_normal]
  dsimp only
  rw [hnone]
  split
  · simp
  · intro i hi hname
    obtain ⟨j, hj, rfl⟩ := List.mem_map.1 hi
    exact hmac j hj hname

end Agent

end PodAttach
