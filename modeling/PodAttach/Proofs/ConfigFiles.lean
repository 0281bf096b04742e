import PodAttach.Config.File
import PodAttach.Proofs.Lists

/-!
# What a configuration file gives

A file is a TOML document, and every setting has one place in it: a key of one
of three tables.

* `Toml.distinct_of_parse?`: a document has no key twice, since no step of the machine that builds
  it adds a key that is there.
* `Field.place` says where a setting stands, and `Fits` which documents are read.
* `exists_ofDocument?_iff`: a document is read exactly if it has tables with settings, and nothing
  else.
* `lookup_ofDocument?`: it gives the settings that stand at their places in it.
-/

namespace PodAttach

/-! ## Looking up -/

section

variable {α β : Type} [BEq α] [LawfulBEq α] {key : α} {l : List (α × β)}

theorem mem_of_lookup {b : β} (h : l.lookup key = some b) : (key, b) ∈ l := by
  obtain ⟨before, after, rfl, -⟩ := List.lookup_eq_some_iff.1 h
  simp

theorem lookup_eq_none_iff : l.lookup key = none ↔ ∀ p ∈ l, key ≠ p.1 := by
  simp [List.lookup_eq_none_iff]

end

namespace Toml

/-! ## Keys of a document -/

namespace Entries

variable {es es' : Entries} {key : String} {v : Value}

/-- No key is there twice. -/
def Distinct (es : Entries) : Prop :=
  (es.map Prod.fst).Nodup

theorem map_fst_set (hkey : (es.lookup key).isSome = true) :
    (es.set key v).map Prod.fst = es.map Prod.fst := by
  induction es with
  | nil => cases hkey
  | cons e es ih =>
    obtain ⟨k, w⟩ := e
    rw [set]
    by_cases hk : k = key
    · subst hk
      rw [if_pos rfl]
      rfl
    · have hne : (key == k) = false := by simpa using Ne.symm hk
      rw [List.lookup_cons, hne] at hkey
      rw [if_neg hk, List.map_cons, ih hkey, List.map_cons]

theorem Distinct.set (hes : es.Distinct) (hkey : (es.lookup key).isSome = true) :
    (es.set key v).Distinct := by
  rw [Distinct, map_fst_set hkey]
  exact hes

theorem Distinct.append (hes : es.Distinct) (hkey : es.lookup key = none) :
    (es ++ [(key, v)] : Entries).Distinct := by
  have hnot : key ∉ es.map Prod.fst := by
    intro hmem
    obtain ⟨e, he, rfl⟩ := List.mem_map.1 hmem
    exact lookup_eq_none_iff.1 hkey e he rfl
  rw [Distinct, List.map_append, List.nodup_append]
  refine ⟨hes, by simp, ?_⟩
  rintro k hk k' hk' rfl
  obtain rfl : k = key := by simpa using hk'
  exact hnot hk

/-- Changing a table of a document keeps its keys apart, if the change does. -/
theorem Distinct.at? {dotted : Bool} {f : Entries → Option Entries} {path : List String}
    (hes : es.Distinct) (hf : ∀ es es', f es = some es' → es.Distinct → es'.Distinct)
    (h : es.at? dotted f path = some es') : es'.Distinct := by
  cases path with
  | nil => exact hf es es' h hes
  | cons key path =>
    rw [Entries.at?] at h
    cases hkey : es.lookup key with
    | none =>
      rw [hkey] at h
      obtain ⟨inner, -, h⟩ := Option.bind_eq_some_iff.1 h
      cases h
      exact hes.append hkey
    | some w =>
      have hsome : (es.lookup key).isSome = true := by rw [hkey]; rfl
      rw [hkey] at h
      split at h
      · next heq => cases heq
      · split at h
        · obtain ⟨inner, -, h⟩ := Option.bind_eq_some_iff.1 h
          cases h
          exact hes.set hsome
        · cases h
      · split at h
        · obtain ⟨inner, -, h⟩ := Option.bind_eq_some_iff.1 h
          cases h
          exact hes.set hsome
        · cases h
      · cases h

theorem Distinct.add? (hes : es.Distinct) (h : es.add? key v = some es') : es'.Distinct := by
  rw [Entries.add?] at h
  cases hkey : es.lookup key with
  | none =>
    rw [hkey] at h
    cases h
    exact hes.append hkey
  | some w =>
    rw [hkey] at h
    cases h

theorem Distinct.addAt? {path : List String} (hes : es.Distinct)
    (h : es.addAt? path v = some es') : es'.Distinct := by
  rw [Entries.addAt?] at h
  cases hlast : path.getLast? with
  | none =>
    rw [hlast] at h
    cases h
  | some key =>
    rw [hlast] at h
    exact hes.at? (fun _ _ h hes => hes.add? h) h

theorem Distinct.openTable? {path : List String} (hes : es.Distinct)
    (h : es.openTable? path = some es') : es'.Distinct := by
  rw [Entries.openTable?] at h
  cases hlast : path.getLast? with
  | none =>
    rw [hlast] at h
    cases h
  | some key =>
    rw [hlast] at h
    refine hes.at? (fun inner inner' hinner hdistinct => ?_) h
    cases hkey : inner.lookup key with
    | none =>
      rw [hkey] at hinner
      cases hinner
      exact hdistinct.append hkey
    | some w =>
      have hsome : (inner.lookup key).isSome = true := by rw [hkey]; rfl
      rw [hkey] at hinner
      split at hinner
      · next heq => cases heq
      · cases hinner
        exact hdistinct.set hsome
      · cases hinner

theorem Distinct.openItem? {path : List String} (hes : es.Distinct)
    (h : es.openItem? path = some es') : es'.Distinct := by
  rw [Entries.openItem?] at h
  cases hlast : path.getLast? with
  | none =>
    rw [hlast] at h
    cases h
  | some key =>
    rw [hlast] at h
    refine hes.at? (fun inner inner' hinner hdistinct => ?_) h
    cases hkey : inner.lookup key with
    | none =>
      rw [hkey] at hinner
      cases hinner
      exact hdistinct.append hkey
    | some w =>
      have hsome : (inner.lookup key).isSome = true := by rw [hkey]; rfl
      rw [hkey] at hinner
      split at hinner
      · next heq => cases heq
      · cases hinner
        exact hdistinct.set hsome
      · cases hinner

end Entries

namespace Builder

variable {b : Builder}

/-- Where a step goes on, the document has no key twice. -/
def GoesOn (next : Option Builder) : Prop :=
  ∀ b', next = some b' → b'.root.Distinct

theorem goesOn_none : GoesOn none := nofun

theorem goesOn_some (hb : b.root.Distinct) : GoesOn (some b) := by
  rintro _ ⟨⟩
  exact hb

theorem goesOn_map {α : Type} {x : Option α} {f : α → Builder}
    (hf : ∀ a, x = some a → (f a).root.Distinct) : GoesOn (x.map f) := by
  intro b' h
  obtain ⟨a, ha, rfl⟩ := Option.map_eq_some_iff.1 h
  exact hf a ha

/-- A value that is complete is added to the document, or to what is still open. -/
theorem goesOn_complete (hb : b.root.Distinct) (v : Value) : GoesOn (b.complete v) := by
  intro b' h
  rw [complete] at h
  split at h
  · obtain ⟨root, hroot, h⟩ := Option.bind_eq_some_iff.1 h
    cases h
    exact hb.at? (fun _ _ h hes => hes.addAt? h) hroot
  · cases h
    exact hb
  · obtain ⟨entries, -, h⟩ := Option.bind_eq_some_iff.1 h
    cases h
    exact hb
  · cases h

theorem goesOn_closeArray (hb : b.root.Distinct) : GoesOn b.closeArray := by
  rw [closeArray]
  split
  · exact goesOn_complete (by exact hb) _
  · exact goesOn_none

theorem goesOn_closeTable (hb : b.root.Distinct) : GoesOn b.closeTable := by
  rw [closeTable]
  split
  · exact goesOn_complete (by exact hb) _
  · exact goesOn_none

theorem goesOn_enter {path : List String} {root : Option Entries}
    (hroot : ∀ es, root = some es → es.Distinct) : GoesOn (b.enter path root) :=
  goesOn_map hroot

theorem goesOn_feedKey (hb : b.root.Distinct) (place : Place) (path : List String) (t : Token) :
    GoesOn (b.feedKey place path t) := by
  rw [feedKey.eq_def]
  split
  · exact goesOn_some hb
  · exact goesOn_map fun _ _ => hb

theorem goesOn_feedAfterKey (hb : b.root.Distinct) (place : Place) (path : List String)
    (t : Token) : GoesOn (b.feedAfterKey place path t) := by
  rw [feedAfterKey.eq_def]
  split
  · exact goesOn_some hb
  · exact goesOn_some hb
  · exact goesOn_enter fun _ h => hb.openTable? h
  · exact goesOn_some hb
  · split
    · exact goesOn_some hb
    · exact goesOn_some hb
    · exact goesOn_none
  · exact goesOn_none

theorem goesOn_feedValue (hb : b.root.Distinct) (t : Token) : GoesOn (b.feedValue t) := by
  rw [feedValue.eq_def]
  split
  · exact goesOn_some hb
  · split
    · exact goesOn_some hb
    · exact goesOn_none
  · exact goesOn_complete hb _
  · exact goesOn_some hb
  · exact goesOn_some hb
  · exact goesOn_some hb
  · exact goesOn_closeArray hb
  · exact goesOn_none

theorem goesOn_feedSeparator (hb : b.root.Distinct) (t : Token) :
    GoesOn (b.feedSeparator t) := by
  rw [feedSeparator.eq_def]
  split
  · exact goesOn_some hb
  · exact goesOn_some hb
  · split
    · exact goesOn_some hb
    · exact goesOn_some hb
    · exact goesOn_none
  · exact goesOn_closeArray hb
  · exact goesOn_closeTable hb
  · exact goesOn_none

theorem goesOn_feedSettled (hb : b.root.Distinct) (t : Token) : GoesOn (b.feedSettled t) := by
  rw [feedSettled.eq_def]
  split
  all_goals first
    | exact goesOn_none
    | exact goesOn_some hb
    | exact goesOn_feedKey hb _ _ _
    | exact goesOn_feedAfterKey hb _ _ _
    | exact goesOn_enter fun _ h => hb.openItem? h
    | exact goesOn_feedValue hb _
    | exact goesOn_feedSeparator hb _
    | exact goesOn_closeTable hb

theorem goesOn_endScalar (hb : b.root.Distinct) (seen : List Char) (t : Token) :
    GoesOn (b.endScalar seen t) := by
  intro b' h
  obtain ⟨_, -, h⟩ := Option.bind_eq_some_iff.1 h
  obtain ⟨b₁, hcomplete, h⟩ := Option.bind_eq_some_iff.1 h
  exact goesOn_feedSettled (goesOn_complete hb _ b₁ hcomplete) t b' h

theorem goesOn_feed (hb : b.root.Distinct) (t : Token) : GoesOn (b.feed t) := by
  rw [feed.eq_def]
  split
  · exact goesOn_some hb
  · exact goesOn_some hb
  · exact goesOn_some hb
  · exact goesOn_endScalar hb _ _
  · split
    · split
      · exact goesOn_some hb
      · exact goesOn_none
    · exact goesOn_endScalar hb _ _
  · exact goesOn_feedSettled hb _

theorem goesOn_run (tokens : List Token) (hb : b.root.Distinct) : GoesOn (b.run tokens) := by
  induction tokens generalizing b with
  | nil => exact goesOn_some hb
  | cons t tokens ih =>
    rw [run]
    cases hfeed : b.feed t with
    | none => exact goesOn_none
    | some b₁ => exact ih (goesOn_feed hb t b₁ hfeed)

end Builder

/-- A document has no key twice. -/
theorem distinct_of_parse? {text : String} {document : Entries}
    (h : parse? text = some document) : document.Distinct := by
  obtain ⟨tokens, -, h⟩ := Option.bind_eq_some_iff.1 h
  obtain ⟨b₁, hrun, h⟩ := Option.bind_eq_some_iff.1 h
  obtain ⟨b, hfeed, h⟩ := Option.bind_eq_some_iff.1 h
  have hempty : ({} : Builder).root.Distinct := List.nodup_nil
  have hb := Builder.goesOn_feed (Builder.goesOn_run tokens hempty b₁ hrun) .newline b hfeed
  split at h
  · cases h
    exact hb
  · cases h

end Toml

namespace Config

/-! ## Where a file gives a setting -/

/-- A key of one of the tables. -/
structure FilePlace where
  table : String
  key : String
  /-- Where the value stands if the table is written as an array. -/
  position : Nat
  deriving DecidableEq, Repr

/-- The key that gives a setting. -/
def Field.place : Field → FilePlace
  | .cniSocket => ⟨"server", "socket", 0⟩
  | .procRoot => ⟨"server", "host_proc_path_prefix", 1⟩
  | .descriptorDir => ⟨"server", "descriptor_dir", 2⟩
  | .networkReadyTimeout => ⟨"server", "network_ready_timeout", 3⟩
  | .lockTimeout => ⟨"server", "lock_timeout", 4⟩
  | .ovsBridge => ⟨"switch", "bridge", 0⟩
  | .ofportWait => ⟨"switch", "ofport_wait", 1⟩
  | .ovsCommandTimeout => ⟨"switch", "command_timeout", 2⟩
  | .logLevel => ⟨"logging", "level", 0⟩
  | .logFormat => ⟨"logging", "format", 1⟩

/-- The text that a table has at a place. -/
def FilePlace.textIn? (p : FilePlace) : Toml.Value → Option String
  | .table _ entries => (entries.lookup p.key).bind FileValues.text?
  | .arr _ items => items[p.position]?.bind FileValues.text?
  | _ => none

/-- The text that a document gives for a setting. -/
def Field.fileText? (document : Toml.Entries) (f : Field) : Option String :=
  (document.lookup f.place.table).bind f.place.textIn?

/-- A value is the table of some name: it has texts for settings of that table, and nothing else.
An array has texts for all of them. -/
def FitsTable (name : String) : Toml.Value → Prop
  | .table _ entries => ∀ e ∈ entries,
      (∃ f : Field, f.place.table = name ∧ f.place.key = e.1) ∧ ∃ text, e.2 = .str text
  | .arr _ items => ∀ f : Field, f.place.table = name →
      ∃ text, items[f.place.position]? = some (.str text)
  | _ => False

/-- A document has tables with settings, and nothing else. -/
def Fits (document : Toml.Entries) : Prop :=
  ∀ e ∈ document, (∃ f : Field, f.place.table = e.1) ∧ FitsTable e.1 e.2

theorem mem_usualOrder (f : Field) : f ∈ usualOrder := by
  cases f <;> decide

/-- No two settings have one key. -/
theorem eq_of_place {f g : Field} (htable : f.place.table = g.place.table)
    (hkey : f.place.key = g.place.key) : f = g := by
  have hall : ∀ f ∈ usualOrder, ∀ g ∈ usualOrder,
      f.place.table = g.place.table → f.place.key = g.place.key → f = g := by decide
  exact hall f (mem_usualOrder f) g (mem_usualOrder g) htable hkey

/-! ## Tables -/

/-- The keys are those of a table, in order. -/
def KeysOf (name : String) (keys : List (String × Field)) : Prop :=
  ∀ (i : Nat) (key : String) (f : Field), keys[i]? = some (key, f) ↔ f.place = ⟨name, key, i⟩

theorem keysOf_of_lookup {name : String} {keys : List (String × Field)}
    (h : fileSections.lookup name = some keys) : KeysOf name keys := by
  have hmem := mem_of_lookup h
  have hplaces : ∀ t ∈ fileSections, ∀ i < t.2.length,
      t.2[i]?.all (fun e => e.2.place == ⟨t.1, e.1, i⟩) := by decide
  have hthere : ∀ t ∈ fileSections, ∀ f ∈ usualOrder, f.place.table = t.1 →
      t.2[f.place.position]? = some (f.place.key, f) := by decide
  intro i key f
  constructor
  · intro hi
    have hlt : i < keys.length := (List.getElem?_eq_some_iff.1 hi).1
    have hplace := hplaces _ hmem i hlt
    rw [hi] at hplace
    simpa using hplace
  · intro hplace
    have hf := hthere _ hmem f (mem_usualOrder f)
    rw [hplace] at hf
    exact hf rfl

theorem exists_section_iff {name : String} :
    (∃ keys, fileSections.lookup name = some keys) ↔ ∃ f : Field, f.place.table = name := by
  have hnamed : ∀ t ∈ fileSections, ∃ f ∈ usualOrder, f.place.table = t.1 := by decide
  have hlisted : ∀ f ∈ usualOrder, (fileSections.lookup f.place.table).isSome = true := by decide
  constructor
  · intro h
    obtain ⟨keys, h⟩ := h
    obtain ⟨f, -, hf⟩ := hnamed _ (mem_of_lookup h)
    exact ⟨f, hf⟩
  · intro h
    obtain ⟨f, rfl⟩ := h
    exact Option.isSome_iff_exists.1 (hlisted f (mem_usualOrder f))

section

variable {name : String} {keys : List (String × Field)} {vs : FileValues} {f : Field}

theorem KeysOf.lookup_eq_some_iff (hkeys : KeysOf name keys) {key : String} :
    keys.lookup key = some f ↔ f.place.table = name ∧ f.place.key = key := by
  constructor
  · intro h
    obtain ⟨i, hi⟩ := List.getElem?_of_mem (mem_of_lookup h)
    have hplace := (hkeys i key f).1 hi
    exact ⟨congrArg FilePlace.table hplace, congrArg FilePlace.key hplace⟩
  · intro h
    obtain ⟨htable, hkey⟩ := h
    have hi := (hkeys f.place.position key f).2 (by rw [← htable, ← hkey])
    have hmem : (key, f) ∈ keys := List.mem_of_getElem? hi
    cases hfound : keys.lookup key with
    | none =>
      exact absurd rfl (lookup_eq_none_iff.1 hfound _ hmem)
    | some g =>
      obtain ⟨j, hj⟩ := List.getElem?_of_mem (mem_of_lookup hfound)
      have hplace := (hkeys j key g).1 hj
      refine congrArg some (eq_of_place ?_ ?_)
      · rw [hplace, htable]
      · rw [hplace, hkey]

/-- No other value is read as a text. -/
theorem text?_eq_some_iff {v : Toml.Value} {text : String} :
    FileValues.text? v = some text ↔ v = .str text := by
  cases v <;> simp [FileValues.text?]

theorem ofEntries?_eq_some_iff {entries : Toml.Entries} :
    FileValues.ofEntries? keys entries = some vs ↔
      List.Forall₂ (fun e p => keys.lookup e.1 = some p.1 ∧ e.2 = .str p.2) entries vs := by
  have hone : ∀ (e : String × Toml.Value) (p : Field × String),
      ((do
        let field ← keys.lookup e.1
        let text ← FileValues.text? e.2
        some (field, text)) : Option (Field × String)) = some p ↔
        keys.lookup e.1 = some p.1 ∧ e.2 = .str p.2 := by
    intro e p
    simp only [Option.bind_eq_bind, Option.bind_eq_some_iff, text?_eq_some_iff, Option.some.injEq]
    constructor
    · intro h
      obtain ⟨field, hfield, text, htext, rfl⟩ := h
      exact ⟨hfield, htext⟩
    · intro h
      obtain ⟨hfield, htext⟩ := h
      exact ⟨p.1, hfield, p.2, htext, rfl⟩
  rw [FileValues.ofEntries?, mapM_eq_some_iff]
  exact ⟨fun h => h.imp fun e p => (hone e p).1, fun h => h.imp fun e p => (hone e p).2⟩

theorem exists_ofEntries?_iff (hkeys : KeysOf name keys) {entries : Toml.Entries}
    {made : Toml.Made} :
    (∃ vs, FileValues.ofEntries? keys entries = some vs) ↔
      FitsTable name (.table made entries) := by
  simp only [ofEntries?_eq_some_iff, FitsTable, ← hkeys.lookup_eq_some_iff]
  induction entries with
  | nil => simp
  | cons e entries ih =>
    rw [List.forall_mem_cons, ← ih]
    constructor
    · intro h
      obtain ⟨_, hvs⟩ := h
      obtain ⟨p, vs, hp, hrest, rfl⟩ := List.forall₂_cons_left_iff.1 hvs
      exact ⟨⟨⟨p.1, hp.1⟩, p.2, hp.2⟩, vs, hrest⟩
    · intro h
      obtain ⟨⟨⟨f, hf⟩, text, htext⟩, vs, hvs⟩ := h
      exact ⟨(f, text) :: vs, .cons ⟨hf, htext⟩ hvs⟩

theorem lookup_ofEntries? (hkeys : KeysOf name keys) {entries : Toml.Entries}
    (h : FileValues.ofEntries? keys entries = some vs) (hf : f.place.table = name) :
    vs.lookup f = (entries.lookup f.place.key).bind FileValues.text? := by
  induction ofEntries?_eq_some_iff.1 h with
  | nil => rfl
  | @cons e p entries vs hp hrest ih =>
    obtain ⟨hfield, htext⟩ := hp
    obtain ⟨htable, hkey⟩ := hkeys.lookup_eq_some_iff.1 hfield
    rw [List.lookup_cons, List.lookup_cons]
    by_cases hsame : f = p.1
    · rw [hsame, hkey, htext]
      simp [FileValues.text?]
    · have hne : f.place.key ≠ e.1 := by
        intro heq
        exact hsame (eq_of_place (hf.trans htable.symm) (heq.trans hkey.symm))
      rw [beq_false_of_ne hsame, beq_false_of_ne hne]
      exact ih (ofEntries?_eq_some_iff.2 hrest)

/-! ## Arrays -/

theorem ofItems?_cons {key : String} {items : List Toml.Value} :
    FileValues.ofItems? ((key, f) :: keys) items = some vs ↔
      ∃ text items' rest, items = .str text :: items' ∧
        FileValues.ofItems? keys items' = some rest ∧ vs = (f, text) :: rest := by
  cases items with
  | nil => simp [FileValues.ofItems?]
  | cons v items =>
    simp only [FileValues.ofItems?, Option.bind_eq_bind, Option.bind_eq_some_iff,
      text?_eq_some_iff, Option.some.injEq, List.cons.injEq]
    constructor
    · intro h
      obtain ⟨text, rfl, rest, hrest, rfl⟩ := h
      exact ⟨text, items, rest, ⟨rfl, rfl⟩, hrest, rfl⟩
    · intro h
      obtain ⟨text, items', rest, ⟨rfl, rfl⟩, hrest, rfl⟩ := h
      exact ⟨text, rfl, rest, hrest, rfl⟩

theorem exists_ofItems?_iff {items : List Toml.Value} :
    (∃ vs, FileValues.ofItems? keys items = some vs) ↔
      ∀ i < keys.length, ∃ text, items[i]? = some (.str text) := by
  induction keys generalizing items with
  | nil => simp [FileValues.ofItems?]
  | cons k keys ih =>
    constructor
    · intro h i hi
      obtain ⟨vs, hvs⟩ := h
      obtain ⟨text, items', rest, rfl, hrest, -⟩ := ofItems?_cons.1 hvs
      cases i with
      | zero => exact ⟨text, rfl⟩
      | succ i => exact ih.1 ⟨rest, hrest⟩ i (by simpa using hi)
    · intro h
      obtain ⟨text, htext⟩ := h 0 (by simp)
      cases items with
      | nil => cases htext
      | cons v items =>
        obtain rfl : v = .str text := by simpa using htext
        obtain ⟨rest, hrest⟩ := ih.2 fun i hi => h (i + 1) (by simpa using hi)
        exact ⟨_, ofItems?_cons.2 ⟨text, items, rest, rfl, hrest, rfl⟩⟩

/-- The value of a key stands where the key does, if no other key has its setting. -/
theorem lookup_ofItems? {items : List Toml.Value}
    (hdistinct : (keys.map Prod.snd).Nodup) (h : FileValues.ofItems? keys items = some vs) {i : Nat}
    {key : String} (hi : keys[i]? = some (key, f)) :
    vs.lookup f = items[i]?.bind FileValues.text? := by
  induction keys generalizing items vs i with
  | nil => simp at hi
  | cons k keys ih =>
    obtain ⟨text, items', rest, rfl, hrest, rfl⟩ := ofItems?_cons.1 h
    rw [List.map_cons, List.nodup_cons] at hdistinct
    rw [List.lookup_cons]
    cases i with
    | zero =>
      obtain rfl : k = (key, f) := by simpa using hi
      simp [FileValues.text?]
    | succ i =>
      have hi : keys[i]? = some (key, f) := by simpa using hi
      have hmem : f ∈ keys.map Prod.snd := List.mem_map.2 ⟨_, List.mem_of_getElem? hi, rfl⟩
      have hne : f ≠ k.2 := by
        rintro rfl
        exact hdistinct.1 hmem
      rw [beq_false_of_ne hne]
      exact ih hdistinct.2 hrest hi

theorem KeysOf.distinct (hkeys : KeysOf name keys) : (keys.map Prod.snd).Nodup := by
  rw [List.Nodup, List.pairwise_iff_getElem]
  intro i j hi hj hij heq
  rw [List.length_map] at hi hj
  have hsame : keys[i].2 = keys[j].2 := by simpa using heq
  have hplace := (hkeys i keys[i].1 keys[i].2).1 (List.getElem?_eq_getElem hi)
  have hplace' := (hkeys j keys[j].1 keys[j].2).1 (List.getElem?_eq_getElem hj)
  rw [hsame, hplace'] at hplace
  have hposition : j = i := congrArg FilePlace.position hplace
  omega

/-! ## Documents -/

/-- A table is read exactly if it has the form of its name. -/
theorem exists_ofSection?_iff (hkeys : KeysOf name keys) {v : Toml.Value} :
    (∃ vs, FileValues.ofSection? keys v = some vs) ↔ FitsTable name v := by
  match v with
  | .str _ | .scalar => simp [FileValues.ofSection?, FitsTable]
  | .table _ entries => exact exists_ofEntries?_iff hkeys
  | .arr _ items =>
    refine exists_ofItems?_iff.trans ⟨fun h f hf => ?_, fun h i hi => ?_⟩
    · have hi := (hkeys f.place.position f.place.key f).2 (by rw [← hf])
      exact h _ (List.getElem?_eq_some_iff.1 hi).1
    · have hplace := (hkeys i keys[i].1 keys[i].2).1 (List.getElem?_eq_getElem hi)
      have htext := h keys[i].2 (by rw [hplace])
      rw [hplace] at htext
      exact htext

theorem mem_ofItems? {items : List Toml.Value} (h : FileValues.ofItems? keys items = some vs)
    {p : Field × String} (hp : p ∈ vs) : ∃ key, (key, p.1) ∈ keys := by
  induction keys generalizing items vs with
  | nil =>
    cases h
    cases hp
  | cons k keys ih =>
    obtain ⟨text, items', rest, rfl, hrest, rfl⟩ := ofItems?_cons.1 h
    rcases List.mem_cons.1 hp with rfl | hp
    · exact ⟨k.1, List.mem_cons_self⟩
    · obtain ⟨key, hkey⟩ := ih hrest hp
      exact ⟨key, List.mem_cons_of_mem k hkey⟩

/-- What is read from a table is for its own settings. -/
theorem table_of_mem_ofSection? (hkeys : KeysOf name keys) {v : Toml.Value}
    (h : FileValues.ofSection? keys v = some vs) {p : Field × String} (hp : p ∈ vs) :
    p.1.place.table = name := by
  match v with
  | .str _ | .scalar => cases h
  | .table _ entries =>
    obtain ⟨e, -, hfield, -⟩ := exists_of_mem_forall₂ (ofEntries?_eq_some_iff.1 h) hp
    exact (hkeys.lookup_eq_some_iff.1 hfield).1
  | .arr _ items =>
    obtain ⟨key, hkey⟩ := mem_ofItems? h hp
    obtain ⟨i, hi⟩ := List.getElem?_of_mem hkey
    exact congrArg FilePlace.table ((hkeys i key p.1).1 hi)

/-- A table that was read gives its settings. -/
theorem lookup_ofSection? (hkeys : KeysOf name keys) {v : Toml.Value}
    (h : FileValues.ofSection? keys v = some vs) (hf : f.place.table = name) :
    vs.lookup f = f.place.textIn? v := by
  match v with
  | .str _ | .scalar => cases h
  | .table _ entries => exact lookup_ofEntries? hkeys h hf
  | .arr _ items =>
    exact lookup_ofItems? hkeys.distinct h ((hkeys _ f.place.key f).2 (by rw [← hf]))

end

/-- The tables of a document are read one by one. -/
theorem ofDocument?_eq_some_iff {document : Toml.Entries} {values : FileValues} :
    FileValues.ofDocument? document = some values ↔
      ∃ tables, List.Forall₂ (fun e vs => ∃ keys, fileSections.lookup e.1 = some keys ∧
        FileValues.ofSection? keys e.2 = some vs) document tables ∧ values = tables.flatten := by
  have hone : ∀ (e : String × Toml.Value) (vs : FileValues),
      ((do FileValues.ofSection? (← fileSections.lookup e.1) e.2) : Option FileValues) = some vs ↔
        ∃ keys, fileSections.lookup e.1 = some keys ∧
          FileValues.ofSection? keys e.2 = some vs := by
    intro e vs
    exact Option.bind_eq_some_iff
  rw [FileValues.ofDocument?, Option.bind_eq_bind, Option.bind_eq_some_iff]
  constructor
  · intro h
    obtain ⟨tables, htables, ⟨⟩⟩ := h
    exact ⟨tables, (mapM_eq_some_iff.1 htables).imp fun e vs => (hone e vs).1, rfl⟩
  · intro h
    obtain ⟨tables, htables, rfl⟩ := h
    exact ⟨tables, mapM_eq_some_iff.2 (htables.imp fun e vs => (hone e vs).2), rfl⟩

/-- A document is read exactly if it has tables with settings, and nothing else. -/
theorem exists_ofDocument?_iff {document : Toml.Entries} :
    (∃ values, FileValues.ofDocument? document = some values) ↔ Fits document := by
  have hone : ∀ e : String × Toml.Value,
      (∃ vs keys, fileSections.lookup e.1 = some keys ∧
        FileValues.ofSection? keys e.2 = some vs) ↔
        (∃ f : Field, f.place.table = e.1) ∧ FitsTable e.1 e.2 := by
    intro e
    rw [← exists_section_iff]
    constructor
    · intro h
      obtain ⟨vs, keys, hkeys, hvs⟩ := h
      exact ⟨⟨keys, hkeys⟩, (exists_ofSection?_iff (keysOf_of_lookup hkeys)).1 ⟨vs, hvs⟩⟩
    · intro h
      obtain ⟨⟨keys, hkeys⟩, hfits⟩ := h
      obtain ⟨vs, hvs⟩ := (exists_ofSection?_iff (keysOf_of_lookup hkeys)).2 hfits
      exact ⟨vs, keys, hkeys, hvs⟩
  simp only [Fits, ofDocument?_eq_some_iff, ← hone]
  induction document with
  | nil => simp
  | cons e document ih =>
    rw [List.forall_mem_cons]
    constructor
    · intro h
      obtain ⟨_, _, htables, rfl⟩ := h
      obtain ⟨vs, tables, hvs, hrest, rfl⟩ := List.forall₂_cons_left_iff.1 htables
      exact ⟨⟨vs, hvs⟩, ih.1 ⟨tables.flatten, tables, hrest, rfl⟩⟩
    · intro h
      obtain ⟨⟨vs, hvs⟩, hdocument⟩ := h
      obtain ⟨_, tables, hrest, rfl⟩ := ih.2 hdocument
      exact ⟨_, vs :: tables, .cons hvs hrest, rfl⟩

/-- A document that was read gives the settings that stand at their places in it. -/
theorem lookup_ofDocument? {document : Toml.Entries} {values : FileValues}
    (hdistinct : document.Distinct) (h : FileValues.ofDocument? document = some values)
    (f : Field) : values.lookup f = f.fileText? document := by
  obtain ⟨tables, htables, rfl⟩ := ofDocument?_eq_some_iff.1 h
  clear h
  induction htables with
  | nil => rfl
  | @cons e vs document tables hvs hrest ih =>
    obtain ⟨keys, hlookup, hvs⟩ := hvs
    have hkeys := keysOf_of_lookup hlookup
    rw [Toml.Entries.Distinct, List.map_cons, List.nodup_cons] at hdistinct
    have hothers := ih hdistinct.2
    rw [List.flatten_cons, List.lookup_append, hothers, Field.fileText?, Field.fileText?,
      List.lookup_cons]
    by_cases hf : f.place.table = e.1
    · -- no other table has this name
      have hnone : document.lookup f.place.table = none := by
        refine lookup_eq_none_iff.2 fun e' he' heq => hdistinct.1 ?_
        exact List.mem_map.2 ⟨e', he', heq.symm.trans hf⟩
      rw [hnone, hf, lookup_ofSection? hkeys hvs hf]
      simp
    · have hnone : vs.lookup f = none := by
        refine lookup_eq_none_iff.2 ?_
        rintro p hp rfl
        exact hf (table_of_mem_ofSection? hkeys hvs hp)
      rw [hnone, beq_false_of_ne hf]
      rfl

end Config
end PodAttach
