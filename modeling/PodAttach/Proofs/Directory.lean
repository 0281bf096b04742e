import Mathlib.Data.List.Nodup
import PodAttach.Proofs.Confinement
import PodAttach.Proofs.Tables

/-!
# Listing pods and looking them up

A pod is listed by going through directories and taking the names of files
apart, and looked up by putting the name of its file together.  The two have
to agree on what a pod is, or an interface in use is taken for a left-over.

* `DescriptorDir.podOf?_eq_some_iff`: taking a file name apart undoes putting it together.
* `FileTree.WellNamed`: a tree as a file system can hold it, where an entry is found by its name.
* `DescriptorDir.get_of_entry`: what is got for a file that is there.
* `DescriptorDir.mem_pods`: a pod whose file can be read is listed.
* `pods_agree`: every pod of the listing is found, and every pod that is found is listed once.
-/

namespace PodAttach

namespace FileTree

/-! ## Entries -/

/-- What a name stands for is an entry of the directory. -/
theorem mem_entries_of_step {t entry : FileTree} {name : String} (h : t.step name = .ok entry) :
    (name, entry) ∈ t.entries := by
  cases t with
  | file content => cases h
  | dir entries =>
    simp only [step] at h
    split at h
    · cases h
    · split at h
      · next found hlookup =>
        obtain rfl := Except.ok.inj h
        obtain ⟨l₁, l₂, heq, -⟩ := List.lookup_eq_some_iff.1 hlookup
        show (name, found) ∈ entries
        rw [heq]
        simp
      · cases h

/-- A file that a path of two names leads to is an entry of an entry. -/
theorem mem_entries_of_read {t : FileTree} {above name : String} {content : Bytes}
    (h : t.read [above, name] = .ok content) :
    ∃ below, (above, below) ∈ t.entries ∧ (name, .file content) ∈ below.entries := by
  have hfind : t.find [above, name] = .ok (.file content) := by
    unfold read at h
    split at h
    · cases h
    · next found heq =>
      rw [heq, Except.ok.inj h]
    · cases h
  rw [find, List.foldlM_cons] at hfind
  cases hbelow : t.step above with
  | error e => rw [hbelow] at hfind; cases hfind
  | ok below =>
    rw [hbelow] at hfind
    change [name].foldlM step below = _ at hfind
    rw [List.foldlM_cons] at hfind
    cases hentry : below.step name with
    | error e => rw [hentry] at hfind; cases hfind
    | ok entry =>
      rw [hentry] at hfind
      obtain rfl : entry = .file content := Except.ok.inj hfind
      exact ⟨below, mem_entries_of_step hbelow, mem_entries_of_step hentry⟩

/-- A tree as a file system can hold it: entries have names of their own, of a bounded size. -/
inductive WellNamed : FileTree → Prop where
  | file (content : Bytes) : WellNamed (.file content)
  | dir {entries : List (String × FileTree)}
    (names : ∀ e ∈ entries, IsName e.1 ∧ Utf8.size e.1 ≤ maxNameSize)
    (distinct : (entries.map Prod.fst).Nodup)
    (below : ∀ e ∈ entries, WellNamed e.2) : WellNamed (.dir entries)

namespace WellNamed

variable {t below entry : FileTree} {above name : String}

theorem isName (h : t.WellNamed) (he : (name, entry) ∈ t.entries) : IsName name := by
  cases h with
  | file => cases he
  | dir names => exact (names _ he).1

theorem nodup (h : t.WellNamed) : (t.entries.map Prod.fst).Nodup := by
  cases h with
  | file => exact List.nodup_nil
  | dir _ distinct => exact distinct

theorem of_mem (h : t.WellNamed) (he : (name, entry) ∈ t.entries) : entry.WellNamed := by
  cases h with
  | file => cases he
  | dir _ _ below => exact below _ he

/-- An entry is found by its name. -/
theorem step_eq (h : t.WellNamed) (he : (name, entry) ∈ t.entries) :
    t.step name = .ok entry := by
  cases h with
  | file => cases he
  | dir names distinct =>
    have hsize : ¬ maxNameSize < Utf8.size name := Nat.not_lt.2 (names _ he).2
    have hlookup := (Table.lookup_eq_some_iff distinct).2 he
    rw [step, if_neg hsize, hlookup]

/-- An entry of an entry is found by the two names. -/
theorem find_eq (h : t.WellNamed) (hbelow : (above, below) ∈ t.entries)
    (hentry : (name, entry) ∈ below.entries) : t.find [above, name] = .ok entry := by
  rw [find, List.foldlM_cons, h.step_eq hbelow]
  change [name].foldlM step below = _
  rw [List.foldlM_cons, (h.of_mem hbelow).step_eq hentry]
  rfl

/-- The file that two names lead to is read. -/
theorem read_file {content : Bytes} (h : t.WellNamed) (hbelow : (above, below) ∈ t.entries)
    (hfile : (name, .file content) ∈ below.entries) : t.read [above, name] = .ok content := by
  rw [read, h.find_eq hbelow hfile]

/-- A directory that two names lead to is not read. -/
theorem read_dir {entries : List (String × FileTree)} (h : t.WellNamed)
    (hbelow : (above, below) ∈ t.entries) (hdir : (name, .dir entries) ∈ below.entries) :
    t.read [above, name] = .error .isDirectory := by
  rw [read, h.find_eq hbelow hdir]

end WellNamed

end FileTree

namespace DescriptorDir

open FileTree

variable {d : DescriptorDir} {podNamespace name file : String}

/-! ## Names of files -/

/-- A name is taken apart at its last dot, unless it starts with it. -/
theorem splitExtension?_eq_some {stem ext : String} (h : splitExtension? file = some (stem, ext)) :
    stem ≠ "" ∧ file.toList = stem.toList ++ '.' :: ext.toList := by
  simp only [splitExtension?] at h
  have hparts := List.takeWhile_append_dropWhile (p := (· != '.')) (l := file.toList.reverse)
  have hhead := List.head?_dropWhile_not (· != '.') file.toList.reverse
  generalize file.toList.reverse.takeWhile (· != '.') = taken,
    file.toList.reverse.dropWhile (· != '.') = rest at h hparts hhead
  cases rest with
  | nil => cases h
  | cons c rest =>
    obtain rfl : c = '.' := by simpa using hhead
    simp only at h
    split at h
    · cases h
    · next hstem =>
      obtain ⟨rfl, rfl⟩ := Prod.mk.inj (Option.some.inj h)
      refine ⟨by simpa using hstem, ?_⟩
      rw [← @List.reverse_reverse _ file.toList, ← hparts]
      simp

/-- The file of a pod tells the name of the pod. -/
theorem podOf?_fileName (hname : name ≠ "") : podOf? (fileName name) = some name := by
  have hreversed : (fileName name).toList.reverse =
      extension.toList.reverse ++ '.' :: name.toList.reverse := by
    simp [fileName, String.toList_append]
  have hext : ∀ c ∈ extension.toList.reverse, (c != '.') = true := by simp [extension]
  have hstem : name.toList.reverse.isEmpty = false := by
    simpa [List.isEmpty_eq_false_iff] using hname
  unfold podOf? splitExtension?
  simp only [hreversed]
  rw [List.takeWhile_append_of_pos hext, List.dropWhile_append_of_pos hext]
  simp [hstem]

/-- A file is the one of a pod exactly if a look-up would read it for that pod. -/
theorem podOf?_eq_some_iff : podOf? file = some name ↔ name ≠ "" ∧ file = fileName name := by
  constructor
  · intro h
    unfold podOf? at h
    cases hsplit : splitExtension? file with
    | none => simp [hsplit] at h
    | some parts =>
      obtain ⟨stem, ext⟩ := parts
      simp only [hsplit] at h
      split at h
      · next hext =>
        obtain rfl := Option.some.inj h
        obtain ⟨hstem, hchars⟩ := splitExtension?_eq_some hsplit
        refine ⟨hstem, String.toList_inj.1 ?_⟩
        rw [hchars, beq_iff_eq.1 hext]
        simp [fileName, String.toList_append]
      · cases h
  · rintro ⟨hname, rfl⟩
    exact podOf?_fileName hname

/-! ## What is got -/

/-- A descriptor that is got for a pod was read from the pod's file. -/
theorem get_ok {descriptor : Descriptor} (h : d.get podNamespace name = .ok descriptor) :
    isPart name = true ∧ ∃ content, d.read [podNamespace, fileName name] = .ok content ∧
      Descriptor.parse? content = some descriptor := by
  by_cases hnames : IsName podNamespace ∧ IsName name
  · rw [get_of_isName hnames.1 hnames.2] at h
    unfold interpret at h
    split at h
    · split at h <;> cases h
    · next content hread =>
      split at h
      · next found hparse =>
        obtain rfl := Except.ok.inj h
        exact ⟨isPart_iff.2 hnames.2, content, hread, hparse⟩
      · cases h
  · rw [get_of_not_isName hnames] at h
    cases h

/-- A file of two names that is read lies in a directory below the root. -/
theorem entry_of_read {content : Bytes} (h : d.read [podNamespace, name] = .ok content) :
    ∃ t below, d.tree = some t ∧ (podNamespace, below) ∈ t.entries ∧
      (name, .file content) ∈ below.entries := by
  unfold read at h
  cases htree : d.tree with
  | none => rw [htree] at h; cases h
  | some t =>
    rw [htree] at h
    obtain ⟨below, hbelow, hfile⟩ := FileTree.mem_entries_of_read h
    exact ⟨t, below, rfl, hbelow, hfile⟩

/-! ## The order of the listing -/

/-- One pod stands before another: by namespace, and by name where that is the same. -/
def StandsBefore (a b : PodRef) : Prop :=
  Text.Before a.podNamespace b.podNamespace ∨
    a.podNamespace = b.podNamespace ∧ Text.Before a.name b.name

theorem before_iff {a b : PodRef} : before a b = true ↔
    StandsBefore a b ∨ (a.podNamespace, a.name) = (b.podNamespace, b.name) := by
  simp only [before, StandsBefore, Bool.or_eq_true, decide_eq_true_eq, Bool.and_eq_true,
    beq_iff_eq, Text.notAfter_iff, Prod.mk.injEq]
  tauto

theorem before_trans (a b c : PodRef) (hab : before a b = true) (hbc : before b c = true) :
    before a c = true := by
  simp only [before, Bool.or_eq_true, decide_eq_true_eq, Bool.and_eq_true, beq_iff_eq] at *
  rcases hab with hab | ⟨hab, hnames⟩ <;> rcases hbc with hbc | ⟨hbc, hnames'⟩
  · exact .inl (hab.trans hbc)
  · exact .inl (hbc ▸ hab)
  · exact .inl (hab ▸ hbc)
  · exact .inr ⟨hab.trans hbc, Text.notAfter_trans _ _ _ hnames hnames'⟩

theorem before_total (a b : PodRef) : (before a b || before b a) = true := by
  simp only [before, Bool.or_eq_true, decide_eq_true_eq, Bool.and_eq_true, beq_iff_eq]
  rcases Text.before_trichotomy a.podNamespace b.podNamespace with h | h | h
  · exact .inl (.inl h)
  · rcases Bool.or_eq_true_iff.1 (Text.notAfter_total a.name b.name) with hname | hname
    · exact .inl (.inr ⟨h, hname⟩)
    · exact .inr (.inr ⟨h.symm, hname⟩)
  · exact .inr (.inl h)

/-- Pods that differ are put in order, and none beside another of its name. -/
theorem pairwise_mergeSort {ps : List PodRef}
    (hdistinct : (ps.map fun p => (p.podNamespace, p.name)).Nodup) :
    (ps.mergeSort before).Pairwise StandsBefore := by
  have hperm := List.mergeSort_perm ps before
  have hnodup := (hperm.map fun p => (p.podNamespace, p.name)).nodup_iff.2 hdistinct
  refine ((List.pairwise_mergeSort before_trans before_total ps).and
    (List.pairwise_map.1 hnodup)).imp ?_
  rintro a b ⟨hbefore, hne⟩
  exact (before_iff.1 hbefore).resolve_right hne

/-! ## The pods of a listing -/

theorem mem_podsIn {entries : List (String × FileTree)} {p : PodRef} :
    p ∈ podsIn podNamespace entries ↔ p.podNamespace = podNamespace ∧ p.name ≠ "" ∧
      ∃ entry, (fileName p.name, entry) ∈ entries ∧ p.hostNetwork = saysHostNetwork entry := by
  unfold podsIn
  rw [List.mem_filterMap]
  constructor
  · rintro ⟨⟨file, entry⟩, he, hp⟩
    obtain ⟨name, hpod, rfl⟩ := Option.map_eq_some_iff.1 hp
    obtain ⟨hname, rfl⟩ := podOf?_eq_some_iff.1 hpod
    exact ⟨rfl, hname, entry, he, rfl⟩
  · rintro ⟨rfl, hname, entry, he, hhost⟩
    refine ⟨_, he, Option.map_eq_some_iff.2 ⟨_, podOf?_fileName hname, ?_⟩⟩
    rw [← hhost]

/-- No pod of a namespace is listed twice, if no file is there twice. -/
theorem nodup_podsIn (podNamespace : String) {entries : List (String × FileTree)}
    (hdistinct : (entries.map Prod.fst).Nodup) :
    ((podsIn podNamespace entries).map fun p => (p.podNamespace, p.name)).Nodup := by
  unfold podsIn
  rw [List.map_filterMap]
  refine List.pairwise_filterMap.2 ((List.pairwise_map.1 hdistinct).imp ?_)
  rintro ⟨file, entry⟩ ⟨file', entry'⟩ hne k hk k' hk' rfl
  obtain ⟨p, hp, rfl⟩ := Option.map_eq_some_iff.1 hk
  obtain ⟨p', hp', heq⟩ := Option.map_eq_some_iff.1 hk'
  obtain ⟨name, hname, rfl⟩ := Option.map_eq_some_iff.1 hp
  obtain ⟨name', hname', rfl⟩ := Option.map_eq_some_iff.1 hp'
  obtain ⟨-, rfl⟩ := podOf?_eq_some_iff.1 hname
  obtain ⟨-, rfl⟩ := podOf?_eq_some_iff.1 hname'
  exact hne (congrArg fileName (Prod.mk.inj heq).2.symm)

/-- The pods below a root, as they come. -/
def podsBelow (t : FileTree) : List PodRef :=
  t.entries.flatMap fun (podNamespace, entry) => podsIn podNamespace entry.entries

theorem pods_eq {t : FileTree} (htree : d.tree = some t) (hdir : t.isDir = true) :
    d.pods = .ok ((podsBelow t).mergeSort before) := by
  cases t with
  | file content => cases hdir
  | dir entries =>
    rw [pods, htree]
    rfl

theorem mem_podsBelow {t : FileTree} {p : PodRef} : p ∈ podsBelow t ↔
    p.name ≠ "" ∧ ∃ below entry, (p.podNamespace, below) ∈ t.entries ∧
      (fileName p.name, entry) ∈ below.entries ∧ p.hostNetwork = saysHostNetwork entry := by
  unfold podsBelow
  rw [List.mem_flatMap]
  constructor
  · rintro ⟨⟨above, below⟩, hbelow, hp⟩
    obtain ⟨rfl, hname, entry, hentry, hhost⟩ := mem_podsIn.1 hp
    exact ⟨hname, below, entry, hbelow, hentry, hhost⟩
  · rintro ⟨hname, below, entry, hbelow, hentry, hhost⟩
    exact ⟨_, hbelow, mem_podsIn.2 ⟨rfl, hname, entry, hentry, hhost⟩⟩

/-- A pod whose file holds a descriptor is listed, with what the descriptor says. -/
theorem mem_pods {content : Bytes} {descriptor : Descriptor} (hpart : isPart name = true)
    (hread : d.read [podNamespace, fileName name] = .ok content)
    (hparse : Descriptor.parse? content = some descriptor) :
    ∃ ps, d.pods = .ok ps ∧ ⟨podNamespace, name, descriptor.hostNetwork⟩ ∈ ps := by
  obtain ⟨t, below, htree, hbelow, hfile⟩ := entry_of_read hread
  have hdir : t.isDir = true := by
    cases t with
    | file _ => cases hbelow
    | dir _ => rfl
  refine ⟨_, pods_eq htree hdir, List.mem_mergeSort.2 (mem_podsBelow.2 ?_)⟩
  exact ⟨(isPart_iff.1 hpart).nonempty, below, _, hbelow, hfile, by simp [saysHostNetwork, hparse]⟩

/-- No pod is listed twice, if no entry is there twice. -/
theorem nodup_podsBelow {t : FileTree} (h : t.WellNamed) :
    ((podsBelow t).map fun p => (p.podNamespace, p.name)).Nodup := by
  unfold podsBelow
  rw [List.map_flatMap, List.nodup_flatMap]
  refine ⟨fun e he => nodup_podsIn e.1 (h.of_mem he).nodup, ?_⟩
  refine (List.pairwise_map.1 h.nodup).imp ?_
  rintro ⟨above, below⟩ ⟨above', below'⟩ hne k hk hk'
  obtain ⟨p, hp, rfl⟩ := List.mem_map.1 hk
  obtain ⟨p', hp', heq⟩ := List.mem_map.1 hk'
  exact hne ((mem_podsIn.1 hp).1.symm.trans
    ((Prod.mk.inj heq).1.symm.trans (mem_podsIn.1 hp').1))

/-- A directory that can be listed, if it is there at all. -/
structure Readable (d : DescriptorDir) : Prop where
  isDir : ∀ t, d.tree = some t → t.isDir = true
  wellNamed : ∀ t, d.tree = some t → t.WellNamed

/-- No file is there for a pod whose name leads elsewhere in a path. -/
def PlainStems (d : DescriptorDir) : Prop :=
  ∀ t, d.tree = some t → ∀ above ∈ t.entries, ∀ file ∈ above.2.entries,
    podOf? file.1 ≠ some "." ∧ podOf? file.1 ≠ some ".."

/-- A pod of a listing is one that a look-up finds a file for, and the listing says of the host's
network what the descriptor says.  Where no descriptor can be had, it says no. -/
inductive Shows (d : DescriptorDir) (p : PodRef) : Prop where
  | descriptor {x : Descriptor} (hget : d.get p.podNamespace p.name = .ok x)
    (hhost : p.hostNetwork = x.hostNetwork)
  | malformed {path reason : String}
    (hget : d.get p.podNamespace p.name = .error (.malformed path reason))
    (hhost : p.hostNetwork = false)
  | unreadable {path reason : String}
    (hget : d.get p.podNamespace p.name = .error (.io path reason))
    (hhost : p.hostNetwork = false)

/-- A look-up finds a file, with a descriptor or without. -/
def Finds (d : DescriptorDir) (podNamespace name : String) : Prop :=
  (∃ x, d.get podNamespace name = .ok x) ∨
    ∃ path reason, d.get podNamespace name = .error (.malformed path reason)

/-- What is there under the name of a pod's file is what a look-up for the pod judges. -/
theorem shows_of_entry {t below entry : FileTree} (htree : d.tree = some t) (h : t.WellNamed)
    (hbelow : (podNamespace, below) ∈ t.entries) (hname : IsName name)
    (hentry : (fileName name, entry) ∈ below.entries) :
    d.Shows ⟨podNamespace, name, saysHostNetwork entry⟩ := by
  have hget := get_of_isName (d := d) (h.isName hbelow) hname
  have hread : d.read [podNamespace, fileName name] = t.read [podNamespace, fileName name] := by
    rw [read, htree]
  rw [hread] at hget
  cases entry with
  | dir entries =>
    rw [h.read_dir hbelow hentry] at hget
    exact .unreadable hget rfl
  | file content =>
    rw [h.read_file hbelow hentry, interpret] at hget
    cases hparse : Descriptor.parse? content with
    | none =>
      rw [hparse] at hget
      exact .malformed hget (by simp [saysHostNetwork, hparse])
    | some x =>
      rw [hparse] at hget
      exact .descriptor hget (by simp [saysHostNetwork, hparse])

/-- What a look-up finds is a file in a directory below the root. -/
theorem entry_of_finds (h : d.Finds podNamespace name) :
    name ≠ "" ∧ ∃ t below entry, d.tree = some t ∧ (podNamespace, below) ∈ t.entries ∧
      (fileName name, entry) ∈ below.entries := by
  by_cases hnames : IsName podNamespace ∧ IsName name
  · unfold Finds at h
    rw [get_of_isName hnames.1 hnames.2] at h
    cases hread : d.read [podNamespace, fileName name] with
    | error e =>
      rw [hread, interpret] at h
      split at h <;> simp at h
    | ok content =>
      obtain ⟨t, below, htree, hbelow, hfile⟩ := entry_of_read hread
      exact ⟨hnames.2.nonempty, t, below, _, htree, hbelow, hfile⟩
  · unfold Finds at h
    rw [get_of_not_isName hnames] at h
    simp at h

end DescriptorDir

open DescriptorDir

/-- A directory is listed in order.  Every pod of the listing is one that a look-up finds a file
for, with what the listing says of it, and every pod for which a look-up finds a descriptor or
something that should be one is listed once. -/
theorem pods_agree {d : DescriptorDir} (hreadable : d.Readable) (hstems : d.PlainStems) :
    ∃ ps, d.pods = .ok ps ∧ (∀ p ∈ ps, d.Shows p) ∧
      (∀ podNamespace name, d.Finds podNamespace name →
        (ps.map fun p => (p.podNamespace, p.name)).count (podNamespace, name) = 1) ∧
      ps.Pairwise StandsBefore := by
  cases htree : d.tree with
  | none =>
    refine ⟨[], by rw [pods, htree], by simp, fun podNamespace name hfinds => ?_, .nil⟩
    obtain ⟨-, t, -, -, ht, -⟩ := entry_of_finds hfinds
    cases htree.symm.trans ht
  | some t =>
    have hwell := hreadable.wellNamed t htree
    have hdistinct := nodup_podsBelow hwell
    refine ⟨_, pods_eq htree (hreadable.isDir t htree), fun p hp => ?_,
      fun podNamespace name hfinds => ?_, pairwise_mergeSort hdistinct⟩
    · -- what is listed is found
      obtain ⟨hname, below, entry, hbelow, hentry, hhost⟩ :=
        mem_podsBelow.1 (List.mem_mergeSort.1 hp)
      obtain ⟨hhere, habove⟩ := hstems t htree _ hbelow _ hentry
      rw [podOf?_fileName hname] at hhere habove
      have hisName := isName_of_fileName ((hwell.of_mem hbelow).isName hentry) hname
        (fun heq => hhere (congrArg some heq)) (fun heq => habove (congrArg some heq))
      have hshows := shows_of_entry htree hwell hbelow hisName hentry
      rwa [← hhost] at hshows
    · -- what is found is listed
      obtain ⟨hname, t', below, entry, ht, hbelow, hentry⟩ := entry_of_finds hfinds
      obtain rfl := Option.some.inj (htree.symm.trans ht)
      have hlisted : ⟨podNamespace, name, saysHostNetwork entry⟩ ∈ podsBelow t :=
        mem_podsBelow.2 ⟨hname, below, entry, hbelow, hentry, rfl⟩
      rw [((List.mergeSort_perm (podsBelow t) before).map _).count_eq]
      exact List.count_eq_one_of_mem hdistinct (List.mem_map.2 ⟨_, hlisted, rfl⟩)

namespace DescriptorDir.Sample

/-- A directory with what may lie in one beside the files of pods: a file among the namespaces, a
name with nothing before its dot, a directory named like a file, and a file without a descriptor. -/
def cluttered : DescriptorDir where
  root := "/run/pods"
  tree := some (.dir [
    ("notes.txt", .file []),
    ("kube-system", .dir [("proxy.json", .file (Utf8.encode "\x7b\"host_network\":true\x7d"))]),
    ("default", .dir [(".json", .file []), ("web.1.json", .dir []), ("p1.json", .file [0xFF]),
      ("p1.txt", .file [])])])

theorem readable_cluttered : cluttered.Readable := by
  refine ⟨?_, ?_⟩
  · rintro t ⟨⟩
    rfl
  · rintro t ⟨⟩
    refine .dir (by decide) (by decide) ?_
    simp only [List.forall_mem_cons]
    refine ⟨.file _, .dir (by decide) (by decide) ?_, .dir (by decide) (by decide) ?_, by simp⟩
    · simp only [List.forall_mem_cons]
      exact ⟨.file _, by simp⟩
    · simp only [List.forall_mem_cons]
      exact ⟨.file _, .dir (by simp) .nil (by simp), .file _, .file _, by simp⟩

theorem plainStems_cluttered : cluttered.PlainStems := by
  rintro t ⟨⟩
  decide +kernel

end DescriptorDir.Sample

/-- Of the cluttered directory the pod of the host's network is listed once, and all that is listed
is found. -/
theorem pods_agree_cluttered :
    Sample.cluttered.Readable ∧ Sample.cluttered.PlainStems ∧
      ∃ ps, Sample.cluttered.pods = .ok ps ∧ (∀ p ∈ ps, Sample.cluttered.Shows p) ∧
        (ps.map fun p => (p.podNamespace, p.name)).count ("kube-system", "proxy") = 1 ∧
        (ps.map fun p => (p.podNamespace, p.name)).count ("default", "p1") = 1 := by
  obtain ⟨ps, hps, hshows, honce, -⟩ :=
    pods_agree Sample.readable_cluttered Sample.plainStems_cluttered
  have hproxy : Sample.cluttered.get "kube-system" "proxy" =
      .ok { vifs := [], hostNetwork := true } := by decide +kernel
  have hbroken : Sample.cluttered.get "default" "p1" =
      .error (.malformed "/run/pods/default/p1.json" "not a descriptor") := by decide +kernel
  exact ⟨Sample.readable_cluttered, Sample.plainStems_cluttered, ps, hps, hshows,
    honce _ _ (.inl ⟨_, hproxy⟩), honce _ _ (.inr ⟨_, _, hbroken⟩)⟩

end PodAttach
