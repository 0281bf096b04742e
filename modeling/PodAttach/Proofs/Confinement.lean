import Mathlib.Data.List.Basic
import PodAttach.Descriptor.Directory
import PodAttach.Proofs.Texts

/-!
# Look-ups stay below the root

The names of a pod come with a request, and the path of its file is put
together from them as a text.  A text may hold anything: separators, dots, a
path of its own that starts at the top.  Here it is said which path is read.

* `FileTree.IsName`: what may name something in a directory; `isPart_iff` says that this is what
  is looked at before anything is read.
* `FileTree.components_joinPath`: a name is one more component, so nothing takes the place of the
  root or leads out of it.
* `FileTree.readPath_joinPath`: what is read lies in the directory that the root leads to.
* `lookUp_confined`: a look-up is refused without reading, or reads the one file of its pod.
* `DescriptorDir.get_of_isName`: what a look-up in a given directory comes to.
-/

namespace PodAttach

namespace FileTree

/-! ## Names -/

/-- A text that may name something in a directory. -/
structure IsName (s : String) : Prop where
  nonempty : s ≠ ""
  notHere : s ≠ "."
  notAbove : s ≠ ".."
  noSeparator : '/' ∉ s.toList
  noNul : Char.ofNat 0 ∉ s.toList

/-- The names on a path that goes on after a separator. -/
theorem namesOf_append {s l r : String} (hs : s.toList = l.toList ++ '/' :: r.toList) :
    namesOf s = namesOf l ++ namesOf r := by
  rw [namesOf, Text.split_append hs, List.filter_append]
  rfl

/-- A name is a path with one name. -/
theorem IsName.namesOf {s : String} (h : IsName s) : namesOf s = [s] := by
  rw [FileTree.namesOf, Text.split_of_not_mem h.noSeparator]
  simp [h.nonempty, h.notHere]

theorem IsName.head?_ne {s : String} (h : IsName s) : s.toList.head? ≠ some '/' := by
  intro hhead
  exact h.noSeparator (List.mem_of_head? hhead)

/-- A path that goes on with a name keeps what it starts with. -/
theorem joinPath_cases (base : String) {name : String} (h : IsName name) :
    base = "" ∧ joinPath base name = name ∨
      (∃ above, base.toList = above ++ ['/'] ∧
        (joinPath base name).toList = above ++ '/' :: name.toList) ∨
      base ≠ "" ∧ (joinPath base name).toList = base.toList ++ '/' :: name.toList := by
  unfold joinPath
  rw [if_neg (by simpa using h.head?_ne)]
  by_cases hempty : base = ""
  · exact .inl ⟨hempty, by rw [hempty]; rfl⟩
  rw [if_neg (by simpa using hempty)]
  by_cases hlast : base.toList.getLast? = some '/'
  · obtain ⟨above, habove⟩ := List.getLast?_eq_some_iff.1 hlast
    refine .inr (.inl ⟨above, habove, ?_⟩)
    rw [if_pos (by simpa using hlast), String.toList_append, habove]
    simp
  · refine .inr (.inr ⟨hempty, ?_⟩)
    rw [if_neg (by simpa using hlast)]
    simp [String.toList_append]

/-- A path that goes on with a name has that name more. -/
theorem namesOf_joinPath (base : String) {name : String} (h : IsName name) :
    namesOf (joinPath base name) = namesOf base ++ [name] := by
  rcases joinPath_cases base h with ⟨rfl, hjoin⟩ | ⟨above, habove, hjoin⟩ | ⟨-, hjoin⟩
  · rw [hjoin, h.namesOf]
    rfl
  · -- nothing stands after the last separator of the base
    have hbase : namesOf base = namesOf (String.ofList above) ++ namesOf "" :=
      namesOf_append (by simpa using habove)
    have hblank : namesOf "" = [] := rfl
    have hnames : namesOf (joinPath base name) = namesOf (String.ofList above) ++ namesOf name :=
      namesOf_append (by simpa using hjoin)
    rw [hnames, hbase, hblank, h.namesOf, List.append_nil]
  · rw [namesOf_append hjoin, h.namesOf]

/-- A path that goes on with a name starts at the top if it did before. -/
theorem head?_joinPath (base : String) {name : String} (h : IsName name) :
    (joinPath base name).toList.head? = some '/' ↔ base.toList.head? = some '/' := by
  rcases joinPath_cases base h with ⟨rfl, hjoin⟩ | ⟨above, habove, hjoin⟩ | ⟨hbase, hjoin⟩
  · rw [hjoin]
    exact iff_of_false h.head?_ne (by simp)
  · rw [hjoin, habove]
    cases above <;> simp
  · have hchars : base.toList ≠ [] := by simpa using hbase
    rw [hjoin, List.head?_append, List.head?_eq_some_head hchars]
    simp

/-- A path that goes on with a name does not end in a separator. -/
theorem getLast?_joinPath_ne (base : String) {name : String} (h : IsName name) :
    (joinPath base name).toList.getLast? ≠ some '/' := by
  have hname : name.toList.getLast? ≠ some '/' := fun hlast =>
    h.noSeparator (List.mem_of_getLast? hlast)
  have hchars : name.toList ≠ [] := by simpa using h.nonempty
  have hend : ∀ start : List Char, (start ++ '/' :: name.toList).getLast? ≠ some '/' := by
    intro start
    rw [List.getLast?_append, List.getLast?_cons_of_ne_nil hchars,
      List.getLast?_eq_some_getLast hchars, Option.some_or, ← List.getLast?_eq_some_getLast hchars]
    exact hname
  rcases joinPath_cases base h with ⟨-, hjoin⟩ | ⟨above, -, hjoin⟩ | ⟨-, hjoin⟩
  · rwa [hjoin]
  · rw [hjoin]
    exact hend above
  · rw [hjoin]
    exact hend base.toList

/-! ## Components -/

/-- One component of a path. -/
inductive Component where
  /-- The top of all files; it can only stand first. -/
  | top
  /-- The directory above. -/
  | above
  | name (s : String)
  deriving DecidableEq, Repr

/-- The components of a path.  What leads nowhere, as an empty name, is none. -/
def components (path : String) : List Component :=
  (if path.toList.head? = some '/' then [.top] else []) ++
    (namesOf path).map fun name => if name = ".." then .above else .name name

theorem components_joinPath (base : String) {name : String} (h : IsName name) :
    components (joinPath base name) = components base ++ [.name name] := by
  unfold components
  rw [namesOf_joinPath base h, List.map_append, List.map_singleton, if_neg h.notAbove,
    List.append_assoc]
  simp only [head?_joinPath base h]

/-- What starts at the top is no name, and it would take the place of the root. -/
example : joinPath (joinPath "/run/pods" "/etc") "passwd" = "/etc/passwd" := by decide

/-! ## What is read -/

/-- Following names is following the first of them and then the others. -/
theorem follow_append (t : FileTree) (trail names rest : List String) :
    t.follow trail (names ++ rest) =
      (t.follow trail names).bind fun reached => t.follow reached.reverse rest := by
  induction names generalizing trail with
  | nil => simp [follow, Except.bind]
  | cons name names ih =>
    rw [List.cons_append, follow, follow]
    split
    · split
      · exact ih _
      · rfl
    · split
      · exact ih _
      · rfl

/-- What cannot be found cannot be read, nor anything below it. -/
theorem read_append_of_error {t : FileTree} {names : List String} {e : Errno}
    (h : t.find names = .error e) (rest : List String) : t.read (names ++ rest) = .error e := by
  have hfind : t.find (names ++ rest) = .error e := by
    rw [find, List.foldlM_append]
    change (t.find names).bind _ = _
    rw [h]
    rfl
  rw [read, hfind]

/-- Following names downward finds what the whole path leads to. -/
theorem bind_follow_read {t : FileTree} {above names : List String}
    (h : ∀ name ∈ names, name ≠ "..") :
    (t.follow above.reverse names).bind t.read = t.read (above ++ names) := by
  induction names generalizing above with
  | nil => simp [follow, Except.bind]
  | cons name names ih =>
    obtain ⟨hname, hnames⟩ := List.forall_mem_cons.1 h
    have htrail : name :: above.reverse = (above ++ [name]).reverse := by simp
    have hpath : above ++ name :: names = (above ++ [name]) ++ names := by simp
    rw [follow, if_neg hname, htrail, List.reverse_reverse, hpath]
    cases hfind : t.find (above ++ [name]) with
    | ok entry => exact ih hnames
    | error e => exact (read_append_of_error hfind names).symm

/-- A file of two names lies in the directory that the path before them leads to. -/
theorem readPath_joinPath (t : FileTree) {base above name : String}
    (hbase : base.toList.head? = some '/') (habove : IsName above) (hname : IsName name) :
    t.readPath (joinPath (joinPath base above) name) =
      (t.follow [] (namesOf base)).bind fun reached => t.read (reached ++ [above, name]) := by
  have hhead : (joinPath (joinPath base above) name).toList.head? = some '/' := by
    rw [head?_joinPath _ hname, head?_joinPath _ habove]
    exact hbase
  have hlast := getLast?_joinPath_ne (joinPath base above) hname
  have hfollowed : t.readPath (joinPath (joinPath base above) name) =
      (t.follow [] (namesOf (joinPath (joinPath base above) name))).bind t.read := by
    unfold readPath
    rw [hhead]
    split
    · next hslash => exact absurd hslash hlast
    · cases t.follow [] (namesOf (joinPath (joinPath base above) name)) <;> rfl
    · next hother _ => exact absurd rfl hother
  have hnames : ∀ n ∈ [above, name], n ≠ ".." := by simp [habove.notAbove, hname.notAbove]
  rw [hfollowed, namesOf_joinPath _ hname, namesOf_joinPath _ habove, List.append_assoc,
    follow_append]
  cases t.follow [] (namesOf base) with
  | error e => rfl
  | ok reached => exact bind_follow_read hnames

end FileTree

namespace DescriptorDir

open FileTree

variable {root podNamespace name path : String}

/-- The parts that are let through are names. -/
theorem isPart_iff {part : String} : isPart part = true ↔ IsName part := by
  have hchars : (part.toList.all fun c => c != '/' && c.toNat != 0) = true ↔
      '/' ∉ part.toList ∧ Char.ofNat 0 ∉ part.toList := by
    rw [List.all_eq_true]
    constructor
    · intro h
      exact ⟨fun hmem => by simpa using h _ hmem, fun hmem => by simpa using h _ hmem⟩
    · intro h c hc
      have hslash : c ≠ '/' := fun heq => h.1 (heq ▸ hc)
      have hnul : c.toNat ≠ 0 := by
        intro heq
        obtain rfl : c = Char.ofNat 0 := Char.toNat_inj.1 heq
        exact h.2 hc
      simp [hslash, hnul]
  unfold isPart
  simp only [Bool.and_eq_true, hchars]
  constructor
  · rintro ⟨⟨⟨hempty, hhere⟩, habove⟩, hseparator, hnul⟩
    exact ⟨by simpa using hempty, by simpa using hhere, by simpa using habove, hseparator, hnul⟩
  · intro h
    exact ⟨⟨⟨by simpa using h.nonempty, by simpa using h.notHere⟩, by simpa using h.notAbove⟩,
      h.noSeparator, h.noNul⟩

instance (part : String) : Decidable (IsName part) :=
  decidable_of_iff _ isPart_iff

theorem fileName_eq (name : String) : fileName name = name ++ ".json" := by
  rw [fileName, extension, String.append_assoc]
  rfl

theorem toList_fileName (name : String) :
    (fileName name).toList = name.toList ++ ['.', 'j', 's', 'o', 'n'] := by
  simp [fileName, extension, String.toList_append]

/-- What a name becomes with the extension is a name again. -/
theorem isName_fileName (h : IsName name) : IsName (fileName name) := by
  have hshort : ∀ s : String, s.toList.length < 5 → fileName name ≠ s := by
    rintro s hs rfl
    rw [toList_fileName, List.length_append] at hs
    exact absurd hs (by simp)
  refine ⟨hshort _ (by decide), hshort _ (by decide), hshort _ (by decide), ?_, ?_⟩
  · rw [toList_fileName, List.mem_append, not_or]
    exact ⟨h.noSeparator, by decide⟩
  · rw [toList_fileName, List.mem_append, not_or]
    exact ⟨h.noNul, by decide⟩

/-- What the name of a file is made from is a name, unless it is one of those that are not. -/
theorem isName_of_fileName (h : IsName (fileName name)) (hempty : name ≠ "") (hhere : name ≠ ".")
    (habove : name ≠ "..") : IsName name := by
  have hmem : ∀ c ∈ name.toList, c ∈ (fileName name).toList := fun c hc => by
    rw [toList_fileName]
    exact List.mem_append_left _ hc
  exact ⟨hempty, hhere, habove, fun hc => h.noSeparator (hmem _ hc),
    fun hc => h.noNul (hmem _ hc)⟩

theorem fileName_injective {name name' : String} (h : fileName name = fileName name') :
    name = name' := by
  simpa [fileName] using h

/-- Work that reads one file and is done then, whatever it has read. -/
def Filework.ReadsOnly {α : Type} (work : Filework α) (path : String) : Prop :=
  ∃ judge : Except Errno Bytes → α, work = .ask path fun outcome => .done (judge outcome)

/-- A look-up for names reads the file of the second in the directory of the first. -/
theorem lookUp_of_isName (hnamespace : IsName podNamespace) (hname : IsName name) :
    lookUp root podNamespace name =
      .ask (display root [podNamespace, fileName name]) fun outcome =>
        .done (interpret root podNamespace name [podNamespace, fileName name] outcome) := by
  have hpath : pathOf? podNamespace name = some [podNamespace, fileName name] := by
    rw [pathOf?, isPart_iff.2 hnamespace, isPart_iff.2 hname]
    rfl
  rw [lookUp, hpath]
  rfl

/-- A look-up for anything else is over at once. -/
theorem lookUp_of_not_isName (h : ¬ (IsName podNamespace ∧ IsName name)) :
    lookUp root podNamespace name = .done (.error (.invalidPodName podNamespace name)) := by
  have hpath : pathOf? podNamespace name = none := by
    rw [pathOf?, if_neg]
    rwa [Bool.and_eq_true, isPart_iff, isPart_iff]
  rw [lookUp, hpath]
  rfl

/-- What a look-up reads, and for whom. -/
theorem readsOnly_iff : (lookUp root podNamespace name).ReadsOnly path ↔
    (IsName podNamespace ∧ IsName name) ∧ path = display root [podNamespace, fileName name] := by
  by_cases h : IsName podNamespace ∧ IsName name
  · rw [lookUp_of_isName h.1 h.2]
    constructor
    · rintro ⟨judge, heq⟩
      exact ⟨h, (Proc.ask.inj heq).1.symm⟩
    · rintro ⟨-, rfl⟩
      exact ⟨_, rfl⟩
  · rw [lookUp_of_not_isName h]
    refine iff_of_false ?_ fun hreads => h hreads.1
    rintro ⟨judge, heq⟩
    cases heq

theorem namesOf_display (hnamespace : IsName podNamespace) (hname : IsName name) :
    namesOf (display root [podNamespace, fileName name]) =
      namesOf root ++ [podNamespace, fileName name] := by
  rw [display, List.foldl_cons, List.foldl_cons, List.foldl_nil,
    namesOf_joinPath _ (isName_fileName hname), namesOf_joinPath _ hnamespace, List.append_assoc]
  rfl

theorem components_display (hnamespace : IsName podNamespace) (hname : IsName name) :
    components (display root [podNamespace, fileName name]) =
      components root ++ [.name podNamespace, .name (fileName name)] := by
  rw [display, List.foldl_cons, List.foldl_cons, List.foldl_nil,
    components_joinPath _ (isName_fileName hname), components_joinPath _ hnamespace,
    List.append_assoc]
  rfl

/-- The path of a file below a root: two names, and both stay what they are. -/
structure Below (root podNamespace name path : String) : Prop where
  components : components path =
    components root ++ [.name podNamespace, .name (name ++ ".json")]
  directory : IsName podNamespace
  file : IsName (name ++ ".json")
  /-- What is read is in the directory that the root leads to. -/
  leads : ∀ t : FileTree, root.toList.head? = some '/' → t.readPath path =
    (t.follow [] (namesOf root)).bind fun reached =>
      t.read (reached ++ [podNamespace, name ++ ".json"])

/-- A look-up is refused without reading anything, if what it is given are no names.  Otherwise it
reads one file, which lies below the root, and no look-up for another pod reads that. -/
theorem lookUp_confined (root podNamespace name : String) :
    ¬ (IsName podNamespace ∧ IsName name) ∧
        lookUp root podNamespace name = .done (.error (.invalidPodName podNamespace name)) ∨
    (IsName podNamespace ∧ IsName name) ∧ ∃ path,
      (lookUp root podNamespace name).ReadsOnly path ∧ Below root podNamespace name path ∧
        ∀ podNamespace' name' path', (lookUp root podNamespace' name').ReadsOnly path' →
          components path' = components path → podNamespace' = podNamespace ∧ name' = name := by
  by_cases h : IsName podNamespace ∧ IsName name
  · obtain ⟨hnamespace, hname⟩ := h
    have hbelow : Below root podNamespace name (display root [podNamespace, fileName name]) := by
      refine ⟨?_, hnamespace, ?_, fun t hroot => ?_⟩
      · rw [← fileName_eq]
        exact components_display hnamespace hname
      · rw [← fileName_eq]
        exact isName_fileName hname
      · rw [← fileName_eq]
        exact readPath_joinPath t hroot hnamespace (isName_fileName hname)
    refine .inr ⟨⟨hnamespace, hname⟩, _, readsOnly_iff.2 ⟨⟨hnamespace, hname⟩, rfl⟩, hbelow, ?_⟩
    intro podNamespace' name' path' hreads hsame
    obtain ⟨⟨hnamespace', hname'⟩, rfl⟩ := readsOnly_iff.1 hreads
    rw [components_display hnamespace' hname', components_display hnamespace hname,
      List.append_cancel_left_eq] at hsame
    simp only [List.cons.injEq, Component.name.injEq, and_true] at hsame
    exact ⟨hsame.1, fileName_injective hsame.2⟩
  · exact .inl ⟨h, lookUp_of_not_isName h⟩

/-! ## A directory -/

variable {d : DescriptorDir}

/-- A look-up for names in a directory judges the file of the second in the directory of the
first. -/
theorem get_of_isName (hnamespace : IsName podNamespace) (hname : IsName name) :
    d.get podNamespace name = interpret d.root podNamespace name [podNamespace, fileName name]
      (d.read [podNamespace, fileName name]) := by
  have hbelow : (namesOf d.root).isPrefixOf? (namesOf d.root ++ [podNamespace, fileName name]) =
      some [podNamespace, fileName name] :=
    List.isPrefixOf?_eq_some_iff_append_eq.2 rfl
  have hread : d.readPath (display d.root [podNamespace, fileName name]) =
      d.read [podNamespace, fileName name] := by
    rw [readPath, namesOf_display hnamespace hname, hbelow]
  rw [get, lookUp_of_isName hnamespace hname, ← hread]
  rfl

theorem get_of_not_isName (h : ¬ (IsName podNamespace ∧ IsName name)) :
    d.get podNamespace name = .error (.invalidPodName podNamespace name) := by
  rw [get, lookUp_of_not_isName h]
  rfl

end DescriptorDir

end PodAttach
